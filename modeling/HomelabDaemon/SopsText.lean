import HomelabDaemon.Json.Path
import HomelabDaemon.Secrets
import HomelabDaemon.Strconv
import HomelabDaemon.Strings

/-!
# What sops and the clients read

The value of a secret, and the text of an error, go between the quotes of the programming language
to a reader of JSON. The name of a secret goes between quotes as it is.
-/

namespace HomelabDaemon.Secrets
open Strconv

section Quoted
variable (isPrint : Char → Bool)

/-- The standard input of `sops set --value-stdin`. -/
def sopsStdin (value : String) : List Char := quote isPrint value

/-- The body that `http.Error` sends, with its line break. -/
def errorBody (gap : List Char) (error : String) : List Char :=
  "\x7b\"error\":".toList ++ gap ++ quote isPrint error ++ ['}', '\n']

/-- `PUT` and `DELETE /api/secrets/{name}`. -/
def secretError (error : String) : List Char := errorBody isPrint [] error

/-- `GET /api/backups/{unit}/logs`. -/
def backupLogsError (error : String) : List Char := errorBody isPrint [' '] error

/-- `GET /api/vms`. -/
def vmsError (error : String) : List Char := errorBody isPrint [] error

end Quoted

def errorValue (error : String) : Json.Value := .object [("error", .string error)]

/-- Printable, as far as it is not a control character of ASCII. -/
def notControl (c : Char) : Bool := 0x20 ≤ c.toNat && c.toNat != 0x7F

theorem notControl_ascii : AsciiPrint notControl := by
  intro c low
  simp [notControl]
  omega

theorem quotedChar_eq (c : Char) : (quotedChar c).toList = appendEscapedRune notControl c := by
  by_cases control : c.toNat < 0x20 ∨ c.toNat = 0x7F
  · have codes : ∀ n < 0x80, (n < 0x20 ∨ n = 0x7F) →
        (quotedChar (Char.ofNat n)).toList = appendEscapedRune notControl (Char.ofNat n) := by decide +kernel
    have code := codes c.toNat (by omega) control
    rwa [Char.ofNat_toNat] at code
  · rw [not_or] at control
    have printable : notControl c = true := by
      simp [notControl]
      omega
    unfold appendEscapedRune
    by_cases special : c = '"' ∨ c = '\\'
    · rcases special with rfl | rfl <;> rfl
    · rw [if_neg special, if_pos printable]
      rw [not_or] at special
      have other : ∀ d : Char, d.toNat < 0x20 → c ≠ d := by
        rintro d low rfl
        exact control.1 low
      unfold quotedChar
      split
      · exact absurd rfl special.1
      · exact absurd rfl special.2
      · exact absurd rfl (other '\n' (by decide))
      · exact absurd rfl (other '\r' (by decide))
      · exact absurd rfl (other '\t' (by decide))
      · have codes : ¬ (c.toNat < 0x20 ∨ c.toNat == 0x7F) := by simp; omega
        rw [if_neg (by omega), if_neg (by omega), if_neg (by omega), if_neg (by omega), if_neg (by omega)]
        simp only [Bool.or_eq_true, decide_eq_true_eq]
        rw [if_neg codes, String.toList_singleton]

/-- The handlers are modelled with this `IsPrint`. -/
theorem quoted_eq (s : String) : (quoted s).toList = quote notControl s := by
  have chars : ∀ l : List Char, (String.join (l.map quotedChar)).toList = l.flatMap (appendEscapedRune notControl) := by
    intro l
    induction l with
    | nil => rfl
    | cons c l ih =>
      simp [ih, quotedChar_eq]
  simp [quoted, quote, chars]

section Read
variable {isPrint : Char → Bool} (ascii : AsciiPrint isPrint)
include ascii

open Json Reader

omit ascii in
theorem run_error {gap : List Char} (blank : gap = [] ∨ gap = [' ']) :
    run {} ("\x7b\"error\":".toList ++ gap) = some { stack := [.member [] "error"], mode := .value } := by
  have text : "\x7b\"error\":".toList = '{' :: '"' :: ("error".toList.flatMap escape ++ ['"'] ++ [':']) := by decide
  have opened : step {} '{' = some { stack := [.object []], mode := .keyOrEnd } := rfl
  have key : step { stack := [.object []], mode := .keyOrEnd } '"' = some (within { stack := [.object []] } true []) :=
    rfl
  rw [text, List.cons_append, List.cons_append, run_cons, opened, Option.bind_some, run_cons, key, Option.bind_some,
    List.append_assoc, run_append, run_quoted, Option.bind_some]
  rcases blank with rfl | rfl <;> simp [closesString, Lexeme.settled, run, step, Json.isSpace]

theorem parse_errorBody {gap : List Char} (blank : gap = [] ∨ gap = [' ']) (error : String) :
    parse (errorBody isPrint gap error) =
      if ∀ c ∈ error.toList, JsonSafe isPrint c then some (errorValue error) else none := by
  have read := run_quote ascii (r := { stack := [.member [] "error"], mode := .value }) (s := error) (.inl rfl)
    ['}', '\n']
  have ended : run (deliver (.string error) [.member [] "error"]) ['}', '\n'] =
    some { mode := .done (errorValue error) } := rfl
  unfold parse errorBody
  rw [List.append_assoc, run_append, run_error blank, Option.bind_some, read]
  split_ifs
  · rw [ended]
    rfl
  · rfl

/-- What is written between these quotes is read as JSON where every character is safe in both. -/
theorem quoted_json_iff (s : String) :
    (Json.parse (sopsStdin isPrint s) = some (.string s) ↔ ∀ c ∈ s.toList, JsonSafe isPrint c) ∧
    (Json.parse (secretError isPrint s) = some (errorValue s) ↔ ∀ c ∈ s.toList, JsonSafe isPrint c) ∧
    (Json.parse (backupLogsError isPrint s) = some (errorValue s) ↔ ∀ c ∈ s.toList, JsonSafe isPrint c) ∧
    (Json.parse (vmsError isPrint s) = some (errorValue s) ↔ ∀ c ∈ s.toList, JsonSafe isPrint c) := by
  have error : ∀ gap, gap = [] ∨ gap = [' '] →
      (Json.parse (errorBody isPrint gap s) = some (errorValue s) ↔ ∀ c ∈ s.toList, JsonSafe isPrint c) := by
    intro gap blank
    rw [parse_errorBody ascii blank]
    split_ifs with safe
    · exact iff_of_true rfl safe
    · exact iff_of_false nofun safe
  refine ⟨?_, error [] (.inl rfl), error [' '] (.inr rfl), error [] (.inl rfl)⟩
  rw [sopsStdin, parse_quote ascii]
  split_ifs with safe
  · exact iff_of_true rfl safe
  · exact iff_of_false nofun safe

end Read

/-- A secret with a line break and an escape that both grammars have. -/
theorem quoted_json_iff_line : Json.parse (sopsStdin notControl "a\nb") = some (.string "a\nb") :=
  (quoted_json_iff notControl_ascii "a\nb").1.mpr (by decide)

/-- The escape that starts a colour on a terminal. -/
theorem quoted_json_escape : ¬ ∀ isPrint : Char → Bool, AsciiPrint isPrint → ∀ s : String,
    Json.parse (sopsStdin isPrint s) = some (.string s) ∧ Json.parse (vmsError isPrint s) = some (errorValue s) := by
  intro claim
  have read := (claim notControl notControl_ascii "\x1b[0m").1
  rw [sopsStdin, parse_quote notControl_ascii, if_neg (by decide)] at read
  cases read

/-! ### Names -/

/-- The path that a handler gives to `sops set` first of all. -/
def sopsPath : Prog Response → Option String
  | .call (.sopsSet jsonPath _) _ => some jsonPath
  | _ => none

section Names
variable (resolveRepoPath : String) {name : String} {service var : List Char}

def jsonPath (service var : List Char) : String :=
  "[\"" ++ String.ofList service ++ "\"][\"" ++ String.ofList var ++ "\"]"

theorem jsonPath_segments (service var : List Char) :
    (jsonPath service var).toList = [service, var].flatMap Json.segment := by
  simp [jsonPath, Json.segment]

variable (parts : Strings.cut ['/'] name.toList = some (service, var))
include parts

theorem put_path {value : String} (filled : value ≠ "") :
    sopsPath (handlePut resolveRepoPath name (some value)) = some (jsonPath service var) := by
  unfold handlePut
  split
  · rename_i none
    cases none
  · rename_i empty
    exact absurd (Option.some.inj empty) filled
  · rw [sopsSet, parts]
    rfl

theorem delete_path : sopsPath (handleDelete resolveRepoPath name) = some (jsonPath service var) := by
  rw [handleDelete, sopsSet, parts]
  rfl

omit resolveRepoPath in
theorem literal_parts : (∀ key ∈ [service, var], ∀ c ∈ key, Json.IsLiteral c) ↔
    ∀ c ∈ name.toList, Json.IsLiteral c := by
  have slash : Json.IsLiteral '/' := by decide
  have whole : name.toList = service ++ ['/'] ++ var := Strings.cut_sound parts
  rw [whole]
  simp [or_imp, forall_and, slash]

end Names

theorem cut_of_path {resolveRepoPath name path : String}
    (asked : sopsPath (handleDelete resolveRepoPath name) = some path) :
    ∃ service var, Strings.cut ['/'] name.toList = some (service, var) ∧ path = jsonPath service var := by
  cases parts : Strings.cut ['/'] name.toList with
  | none =>
    rw [handleDelete, sopsSet, parts] at asked
    cases asked
  | some pair =>
    rw [delete_path resolveRepoPath parts] at asked
    exact ⟨pair.1, pair.2, rfl, (Option.some.inj asked).symm⟩

theorem sopsPath_iff (resolveRepoPath : String) {name value : String} {service var : List Char}
    (parts : Strings.cut ['/'] name.toList = some (service, var)) (filled : value ≠ "") :
    ∃ path, sopsPath (handlePut resolveRepoPath name (some value)) = some path ∧
      sopsPath (handleDelete resolveRepoPath name) = some path ∧
      (Json.parsePath path.toList = some [service, var] ↔ ∀ c ∈ name.toList, Json.IsLiteral c) ∧
      ∀ name' path' : String, (∀ c ∈ name.toList, Json.IsLiteral c) → (∀ c ∈ name'.toList, Json.IsLiteral c) →
        sopsPath (handleDelete resolveRepoPath name') = some path' →
        Json.parsePath path'.toList = Json.parsePath path.toList → name' = name := by
  refine ⟨jsonPath service var, put_path resolveRepoPath parts filled, delete_path resolveRepoPath parts, ?_, ?_⟩
  · rw [jsonPath_segments, Json.parsePath_segments_iff, literal_parts parts]
  · intro name' path' literal literal' asked same
    obtain ⟨service', var', parts', rfl⟩ := cut_of_path asked
    rw [jsonPath_segments, jsonPath_segments] at same
    have keys := Json.parsePath_inj ((literal_parts parts').mpr literal') ((literal_parts parts).mpr literal) same
    obtain ⟨rfl, rfl⟩ : service' = service ∧ var' = var := by simpa using keys
    exact String.toList_inj.mp ((Strings.cut_sound parts').trans (Strings.cut_sound parts).symm)

theorem sopsPath_iff_token : ∃ path, sopsPath (handlePut repo secret (some "new")) = some path ∧
    Json.parsePath path.toList = some ["caddy".toList, "TOKEN".toList] := by
  have parts : Strings.cut ['/'] secret.toList = some ("caddy".toList, "TOKEN".toList) := by decide
  obtain ⟨path, put, _, reads, _⟩ := sopsPath_iff repo parts (show "new" ≠ "" by decide)
  exact ⟨path, put, reads.mpr (by decide)⟩

/-- A name with quotes and brackets of its own goes one key deeper. -/
theorem sopsPath_deeper : ¬ ∀ (resolveRepoPath name path : String) (service var : List Char),
    Strings.cut ['/'] name.toList = some (service, var) → sopsPath (handleDelete resolveRepoPath name) = some path →
    Json.parsePath path.toList = some [service, var] := by
  intro claim
  have parts : Strings.cut ['/'] "caddy/A\"][\"B".toList = some ("caddy".toList, "A\"][\"B".toList) := by decide
  have read := claim repo _ _ _ _ parts (delete_path repo parts)
  revert read
  decide

end HomelabDaemon.Secrets
