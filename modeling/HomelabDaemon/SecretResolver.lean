import HomelabDaemon.Cmdrunner.Redaction
import HomelabDaemon.Strings.Split

/-!
# Secrets by name

The resolver goes through the registry once, and takes the first entry that has the name or has it
behind its first slash. What it hands out is an entry for the environment: the file's text, or the
name and the text where the text has no equals sign.
-/

namespace HomelabDaemon.SecretResolver
open Strings

structure SecretEntry where
  name : String
  description : String := ""
  services : List String := []
  runPath : String
  deriving DecidableEq

/-- What `os.ReadFile` returns, unless it fails. -/
abbrev Files := String → Option String

def readSecretKV (files : Files) (e : SecretEntry) (alias_ : String) : String :=
  match files e.runPath with
  | none => ""
  | some data =>
    let kv := trimSpace data.toList
    if contains kv ['='] then String.ofList kv else alias_ ++ "=" ++ String.ofList kv

/-- Trailing-component match. -/
def trailing (e : SecretEntry) (name : String) : Bool :=
  match splitN ['/'] 2 e.name.toList with
  | [_, rest] => rest = name.toList
  | _ => false

def resolve (files : Files) (name : String) : List SecretEntry → String
  | [] => ""
  | e :: entries =>
    if e.name = name then readSecretKV files e name
    else if trailing e name then readSecretKV files e name
    else resolve files name entries

/-- The resolver that `init` sets; a registry that cannot be read is none. -/
def secretResolver (files : Files) (registry : Option (List SecretEntry)) (name : String) : String :=
  match registry with
  | none => ""
  | some entries => resolve files name entries

def chosen (name : String) (entries : List SecretEntry) : Option SecretEntry :=
  entries.find? fun e => e.name == name || trailing e name

/-- The form `prefix/requested`. -/
def hasForm (name : String) (e : SecretEntry) : Bool := ('/' :: name.toList).isSuffixOf e.name.toList

/-- The entries with the name, or else the first one of that form. -/
def wanted (name : String) (entries : List SecretEntry) : List SecretEntry :=
  if entries.any (·.name == name) then entries.filter (·.name == name) else (entries.find? (hasForm name)).toList

/-- The value is that of a wanted entry. -/
def Precise (files : Files) (name : String) (entries : List SecretEntry) : Prop :=
  if wanted name entries = [] then secretResolver files (some entries) name = ""
  else ∃ e ∈ wanted name entries, secretResolver files (some entries) name = readSecretKV files e name

/-- The entry that is taken has the file of a wanted one. -/
def SharesFile (name : String) (entries : List SecretEntry) : Prop :=
  match chosen name entries with
  | none => wanted name entries = []
  | some taken => ∃ e ∈ wanted name entries, e.runPath = taken.runPath

/-- An entry taken before those that have the name has the file of one of them; where none has the name, the first
entry that has it behind its first slash has the file of the first that has it behind any. -/
def TakesWanted (name : String) (entries : List SecretEntry) : Prop :=
  if entries.any (·.name == name) then
    ∀ taken, entries.find? (fun e => e.name == name || trailing e name) = some taken → taken.name ≠ name →
      ∃ e ∈ entries, e.name = name ∧ e.runPath = taken.runPath
  else (entries.find? (trailing · name)).map (·.runPath) = (entries.find? (hasForm name)).map (·.runPath)

section Precedence
variable {files : Files} {name : String} {entries : List SecretEntry}

theorem resolve_eq : resolve files name entries =
    ((chosen name entries).map fun e => readSecretKV files e name).getD "" := by
  induction entries with
  | nil => rfl
  | cons e entries ih =>
    unfold resolve chosen
    split_ifs with exact_ behind
    · simp [exact_]
    · simp [behind]
    · rw [List.find?_cons_of_neg (by simp [exact_, behind])]
      exact ih

theorem readSecretKV_path {e e' : SecretEntry} (same : e.runPath = e'.runPath) :
    readSecretKV files e name = readSecretKV files e' name := by
  unfold readSecretKV
  rw [same]

/-- A text with an equals sign is handed out as it is. -/
theorem readSecretKV_pair {e : SecretEntry} (kv : String) (content : files e.runPath = some kv)
    (trimmed : trimSpace kv.toList = kv.toList) (equals : contains kv.toList ['='] = true) :
    readSecretKV files e name = kv := by
  simp [readSecretKV, content, trimmed, equals]

theorem precise_shares : (∀ files, Precise files name entries) ↔ SharesFile name entries := by
  unfold SharesFile Precise
  simp only [secretResolver, resolve_eq]
  cases taken : chosen name entries with
  | none =>
    simp only [Option.map_none, Option.getD_none]
    constructor
    · intro precise
      by_contra some_
      obtain ⟨e, _, same⟩ := (if_neg some_).mp (precise fun _ => some "a=b")
      rw [readSecretKV_pair "a=b" rfl (by decide) (by decide)] at same
      exact absurd same (by decide)
    · intro none_ files
      simp [none_]
  | some e =>
    simp only [Option.map_some, Option.getD_some]
    constructor
    · intro precise
      -- the file of the entry that is taken is told apart from all others
      have apart := precise fun path => some (if path = e.runPath then "a=b" else "c=d")
      have read : ∀ e' : SecretEntry, readSecretKV
        (fun path => some (if path = e.runPath then "a=b" else "c=d")) e' name =
          if e'.runPath = e.runPath then "a=b" else "c=d" := by
        intro e'
        split_ifs with same
        · exact readSecretKV_pair "a=b" (by rw [if_pos same]) (by decide) (by decide)
        · exact readSecretKV_pair "c=d" (by rw [if_neg same]) (by decide) (by decide)
      rw [read, if_pos rfl] at apart
      split_ifs at apart with none_
      · exact absurd apart (by decide)
      · obtain ⟨e', member, same⟩ := apart
        rw [read] at same
        refine ⟨e', member, ?_⟩
        by_contra other
        rw [if_neg other] at same
        exact absurd same (by decide)
    · rintro ⟨e', member, same⟩ files
      rw [if_neg (List.ne_nil_of_mem member)]
      exact ⟨e', member, readSecretKV_path same.symm⟩

theorem shares_exact (exact_ : entries.any (·.name == name) = true) :
    SharesFile name entries ↔ TakesWanted name entries := by
  obtain ⟨e, member, named⟩ := List.any_eq_true.mp exact_
  obtain ⟨taken, found⟩ : ∃ taken, chosen name entries = some taken :=
    Option.isSome_iff_exists.mp (List.find?_isSome.mpr ⟨e, member, by simp [beq_iff_eq.mp named]⟩)
  simp only [SharesFile, TakesWanted, wanted, exact_, if_true, found, List.mem_filter, beq_iff_eq]
  constructor
  · rintro ⟨e, ⟨member, named⟩, same⟩ taken' found' _
    obtain rfl : taken = taken' := Option.some.inj (found.symm.trans found')
    exact ⟨e, member, named, same⟩
  · intro shares
    by_cases own : taken.name = name
    · exact ⟨taken, ⟨List.mem_of_find?_eq_some found, own⟩, rfl⟩
    · obtain ⟨e, member, named, same⟩ := shares taken found own
      exact ⟨e, ⟨member, named⟩, same⟩

theorem shares_form (none_ : ¬ entries.any (·.name == name) = true) :
    SharesFile name entries ↔ TakesWanted name entries := by
  have first : chosen name entries = entries.find? (trailing · name) := by
    rw [chosen]
    induction entries with
    | nil => rfl
    | cons e entries ih =>
      rw [List.any_cons, Bool.or_eq_true, not_or, Bool.not_eq_true] at none_
      rw [List.find?_cons, List.find?_cons, none_.1, Bool.false_or, ih none_.2]
  simp only [SharesFile, TakesWanted, wanted, if_neg none_, first]
  cases entries.find? (trailing · name) with
  | none => cases entries.find? (hasForm name) <;> simp
  | some taken =>
    cases entries.find? (hasForm name) with
    | none => simp
    | some e => simp [eq_comm]

theorem shares_iff : SharesFile name entries ↔ TakesWanted name entries := by
  by_cases exact_ : entries.any (·.name == name) = true
  · exact shares_exact exact_
  · exact shares_form exact_

theorem precise_iff : (∀ files, Precise files name entries) ↔ TakesWanted name entries :=
  precise_shares.trans shares_iff

end Precedence

def caddyToken : SecretEntry := { name := "caddy/TOKEN", runPath := "/run/secrets/caddy/TOKEN" }

def ownToken : SecretEntry := { name := "TOKEN", runPath := "/run/secrets/TOKEN" }

/-- An entry with the name itself comes second. -/
theorem precise_order : ¬ ∀ (files : Files) (name : String) (entries : List SecretEntry),
    Precise files name entries := by
  intro claim
  have taken : SharesFile "TOKEN" [caddyToken, ownToken] := precise_shares.mp fun files => claim files _ _
  have chosen_ : chosen "TOKEN" [caddyToken, ownToken] = some caddyToken := by decide
  have wanted_ : wanted "TOKEN" [caddyToken, ownToken] = [ownToken] := by decide
  rw [SharesFile, chosen_, wanted_] at taken
  obtain ⟨e, member, same⟩ := taken
  rw [List.mem_singleton.mp member] at same
  exact absurd same (by decide)

/-! ### The environment of a command -/

open Cmdrunner

/-- `WithSecret` adds the variable with the value, and registers its name, on every builder. -/
def Injects (resolver : String → String) (var v : String) : Prop :=
  ∀ b : Builder, b.withSecret resolver [var] =
    { b with env := b.env ++ [var ++ "=" ++ v], secretEnvKeys := insert var b.secretEnvKeys }

section Injection
variable {files : Files} {entries : List SecretEntry} {resolver : String → String} {e : SecretEntry}
  {var v content : String}

theorem var_filled : var ++ "=" ++ v ≠ "" := by
  intro empty
  have length := congrArg String.length empty
  simp at length

theorem withSecret_single (b : Builder) : b.withSecret resolver [var] =
    if resolver var = "" then b else b.inject (resolver var) := rfl

theorem injects_iff : Injects resolver var v ↔ resolver var = var ++ "=" ++ v ∧ var ≠ "" ∧ '=' ∉ var.toList := by
  unfold Injects
  simp only [withSecret_single]
  constructor
  · intro injects
    have fresh := injects { callerModule := "", name := "", args := [] }
    by_cases none_ : resolver var = ""
    · have env := congrArg Builder.env fresh
      simp [none_] at env
    · rw [if_neg none_] at fresh
      have env : resolver var = var ++ "=" ++ v := by simpa [Builder.inject] using congrArg Builder.env fresh
      have keys := congrArg Builder.secretEnvKeys fresh
      simp only [Builder.inject] at keys
      cases key : keyOf (resolver var) with
      | none =>
        rw [key] at keys
        simp at keys
      | some k =>
        rw [key] at keys
        have same : k = var := by simpa using keys
        subst same
        obtain ⟨filled, noEquals, _⟩ := Redaction.keyOf_eq_some.mp key
        exact ⟨env, filled, noEquals⟩
  · rintro ⟨kv, filled, noEquals⟩ b
    have key : keyOf (var ++ "=" ++ v) = some var := Redaction.keyOf_eq_some.mpr ⟨filled, noEquals, v, rfl⟩
    rw [kv, if_neg var_filled, Builder.inject, key]

theorem resolver_eq_iff : secretResolver files (some entries) var = var ++ "=" ++ v ↔
    ∃ e content, chosen var entries = some e ∧ files e.runPath = some content ∧
      (trimSpace content.toList = (var ++ "=" ++ v).toList ∨ trimSpace content.toList = v.toList ∧ '=' ∉ v.toList) := by
  rw [secretResolver, resolve_eq]
  cases taken : chosen var entries with
  | none => simp
  | some e =>
    simp only [Option.map_some, Option.getD_some, Option.some.injEq, exists_and_left, exists_eq_left']
    unfold readSecretKV
    cases content : files e.runPath with
    | none => simp
    | some data =>
      have inside : contains (trimSpace data.toList) ['='] = true ↔ '=' ∈ trimSpace data.toList := by
        rw [contains_iff, List.singleton_infix_iff]
      simp only [Option.some.injEq, exists_eq_left']
      split_ifs with equals
      · rw [inside] at equals
        constructor
        · intro same
          left
          rw [← same, String.toList_ofList]
        · rintro (same | ⟨same, noEquals⟩)
          · rw [same, String.ofList_toList]
          · exact absurd (same ▸ equals) noEquals
      · rw [inside] at equals
        constructor
        · intro same
          right
          have value := String.toList_inj.mpr same
          simp only [String.toList_append, String.toList_ofList] at value
          have trimmed := List.append_cancel_left value
          exact ⟨trimmed, trimmed ▸ equals⟩
        · rintro (same | ⟨same, -⟩)
          · exact absurd (same ▸ by simp) equals
          · rw [same, String.ofList_toList]

theorem injects_content : Injects (secretResolver files (some entries)) var v ↔ (var ≠ "" ∧ '=' ∉ var.toList) ∧
    ∃ e content, chosen var entries = some e ∧ files e.runPath = some content ∧
      (trimSpace content.toList = (var ++ "=" ++ v).toList ∨ trimSpace content.toList = v.toList ∧ '=' ∉ v.toList) := by
  rw [injects_iff, resolver_eq_iff]
  constructor
  · rintro ⟨content, filled, noEquals⟩
    exact ⟨⟨filled, noEquals⟩, content⟩
  · rintro ⟨⟨filled, noEquals⟩, content⟩
    exact ⟨content, filled, noEquals⟩

/-- What the file of the entry that is taken must hold: the pair, or a value without an equals sign. -/
theorem injects_registered (files : Files) (entries : List SecretEntry) (var v : String) :
    (Injects (secretResolver files (some entries)) var v ↔ (var ≠ "" ∧ '=' ∉ var.toList) ∧
      ∃ e content, chosen var entries = some e ∧ files e.runPath = some content ∧
        (trimSpace content.toList = (var ++ "=" ++ v).toList ∨ trimSpace content.toList = v.toList ∧ '=' ∉ v.toList)) ∧
    ∀ e content, chosen var entries = some e → files e.runPath = some content → trimSpace content.toList = v.toList →
      (Injects (secretResolver files (some entries)) var v ↔ (var ≠ "" ∧ '=' ∉ var.toList) ∧ '=' ∉ v.toList) := by
  refine ⟨injects_content, fun e content taken file raw => ?_⟩
  rw [injects_content]
  refine and_congr_right fun _ => ?_
  constructor
  · rintro ⟨e', content', taken', file', held⟩
    obtain rfl := Option.some.inj (taken.symm.trans taken')
    obtain rfl := Option.some.inj (file.symm.trans file')
    rcases held with pair | ⟨_, noEquals⟩
    · -- a text is no longer than itself
      have length := congrArg List.length (raw.symm.trans pair)
      simp at length
      omega
    · exact noEquals
  · exact fun noEquals => ⟨e, content, taken, file, .inr ⟨raw, noEquals⟩⟩

end Injection

def db : SecretEntry := { name := "db/DSN", runPath := "/run/secrets/db/DSN" }

/-- A connection string goes into the environment without its name. -/
theorem injects_connection : ¬ ∀ (files : Files) (entries : List SecretEntry) (service var v : String)
    (e : SecretEntry),
    e ∈ entries → e.name = service ++ "/" ++ var → files e.runPath = some v → trimSpace v.toList = v.toList → v ≠ "" →
    ¬ (var ++ "=").toList <+: v.toList → Injects (secretResolver files (some entries)) var v := by
  intro claim
  have injects := claim (fun _ => some "host=db port=5432") [db] "db" "DSN" "host=db port=5432" db
    (by decide) (by decide) rfl (by decide) (by decide) (by decide)
  obtain ⟨-, e, content, -, file, held⟩ := injects_content.mp injects
  rw [← Option.some.inj file] at held
  rcases held with pair | ⟨_, noEquals⟩
  · exact absurd pair (by decide)
  · exact noEquals (by decide)

end HomelabDaemon.SecretResolver
