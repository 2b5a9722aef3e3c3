import HomelabDaemon.Json.Value

/-!
# A JSON reader

It reads a text character by character, with a stack of the arrays and objects that are open, as a
checking scanner does, and builds the value on the way.
-/

namespace Json

/-- A string whose quote is open. `high` is a surrogate that waits for its other half. -/
structure Lexeme where
  text : List Char := []
  high : Option Nat := none
  deriving DecidableEq

inductive Spot where
  | plain
  | escaped
  | hex (digits : List Nat)
  deriving DecidableEq

inductive Frame where
  | array (items : List Value)
  | object (members : List (String × Value))
  /-- The value of `key` is being read. -/
  | member (members : List (String × Value)) (key : String)

inductive Literal where
  | null | yes | no

inductive Mode where
  | value
  | valueOrEnd
  | key
  | keyOrEnd
  | colon (key : String)
  | comma
  | string (isKey : Bool) (lexeme : Lexeme) (spot : Spot)
  | number (numeral : Numeral) (text : List Char)
  | literal (word : Literal) (read : Nat)
  | done (v : Value)

structure Reader where
  stack : List Frame := []
  mode : Mode := .value

namespace Literal

def text : Literal → List Char
  | .null => "null".toList
  | .yes => "true".toList
  | .no => "false".toList

def value : Literal → Value
  | .null => .null
  | .yes => .bool true
  | .no => .bool false

end Literal

def isSpace (c : Char) : Bool := c = ' ' || c = '\t' || c = '\n' || c = '\r'

def maxNestingDepth : Nat := 10000

namespace Lexeme

/-- A surrogate alone is a replacement character. -/
def settled (l : Lexeme) : List Char :=
  match l.high with
  | none => l.text
  | some _ => l.text ++ ['\uFFFD']

def add (l : Lexeme) (c : Char) : Lexeme where
  text := l.settled ++ [c]

/-- A code unit that was written out in hex. -/
def addUnit (l : Lexeme) (unit : Nat) : Lexeme :=
  match l.high with
  | some high =>
    if 0xDC00 ≤ unit ∧ unit < 0xE000 then
      { text := l.text ++ [Char.ofNat (0x10000 + (high - 0xD800) * 1024 + (unit - 0xDC00))] }
    else if 0xD800 ≤ unit ∧ unit < 0xDC00 then { text := l.settled, high := some unit }
    else l.add (Char.ofNat unit)
  | none =>
    if 0xD800 ≤ unit ∧ unit < 0xDC00 then { l with high := some unit }
    else if 0xDC00 ≤ unit ∧ unit < 0xE000 then l.add '\uFFFD'
    else l.add (Char.ofNat unit)

end Lexeme

def unescape (c : Char) : Option Char :=
  if c = 'b' then some '\x08'
  else if c = 'f' then some '\x0c'
  else if c = 'n' then some '\n'
  else if c = 'r' then some '\r'
  else if c = 't' then some '\t'
  else if c = '\\' ∨ c = '/' ∨ c = '"' then some c
  else none

def hexValue (c : Char) : Option Nat :=
  if c.isDigit then some (c.toNat - 48)
  else if 'a' ≤ c ∧ c ≤ 'f' then some (c.toNat - 87)
  else if 'A' ≤ c ∧ c ≤ 'F' then some (c.toNat - 55)
  else none

/-- A character of a string other than the closing quote. -/
def Spot.step (l : Lexeme) (spot : Spot) (c : Char) : Option (Lexeme × Spot) :=
  match spot with
  | .plain =>
    if c = '\\' then some (l, .escaped)
    else if c.toNat < 32 then none
    else some (l.add c, .plain)
  | .escaped => if c = 'u' then some (l, .hex []) else (unescape c).map fun plain => (l.add plain, .plain)
  | .hex digits => do
    let digit ← hexValue c
    match digits with
    | [d₁, d₂, d₃] => return (l.addUnit (((d₁ * 16 + d₂) * 16 + d₃) * 16 + digit), .plain)
    | _ => return (l, .hex (digits ++ [digit]))

/-! ### Structure -/

namespace Reader

def push (r : Reader) (frame : Frame) (mode : Mode) : Option Reader :=
  if r.stack.length < maxNestingDepth then some { stack := frame :: r.stack, mode := mode } else none

def deliver (v : Value) : List Frame → Reader
  | .array items :: stack => { stack := .array (items ++ [v]) :: stack, mode := .comma }
  | .member members key :: stack => { stack := .object (members ++ [(key, v)]) :: stack, mode := .comma }
  | .object members :: stack => { stack := .object members :: stack, mode := .comma }
  | [] => { mode := .done v }

def begins (r : Reader) (c : Char) : Option Reader :=
  if c = '{' then r.push (.object []) .keyOrEnd
  else if c = '[' then r.push (.array []) .valueOrEnd
  else if c = '"' then some { r with mode := .string false {} .plain }
  else if c = 't' then some { r with mode := .literal .yes 1 }
  else if c = 'f' then some { r with mode := .literal .no 1 }
  else if c = 'n' then some { r with mode := .literal .null 1 }
  else (Numeral.first c).map fun numeral => { r with mode := .number numeral [c] }

/-- Between values: an array or an object goes on or ends. -/
def between (r : Reader) (c : Char) : Option Reader :=
  if isSpace c then some r
  else match r.stack with
    | .array items :: stack =>
      if c = ',' then some { r with mode := .value }
      else if c = ']' then some (deliver (.array items) stack)
      else none
    | .object members :: stack =>
      if c = ',' then some { r with mode := .key }
      else if c = '}' then some (deliver (.object members) stack)
      else none
    | _ => none

def closesString (r : Reader) (isKey : Bool) (l : Lexeme) : Reader :=
  let s := String.ofList l.settled
  if isKey then { r with mode := .colon s } else deliver (.string s) r.stack

def step (r : Reader) (c : Char) : Option Reader :=
  match r.mode with
  | .value => if isSpace c then some r else r.begins c
  | .valueOrEnd =>
    if isSpace c then some r
    else if c = ']' then r.between c
    else r.begins c
  | .key => if isSpace c then some r else if c = '"' then some { r with mode := .string true {} .plain } else none
  | .keyOrEnd =>
    if isSpace c then some r
    else if c = '}' then r.between c
    else if c = '"' then some { r with mode := .string true {} .plain }
    else none
  | .colon key =>
    if isSpace c then some r
    else match r.stack with
      | .object members :: stack => if c = ':' then some { stack := .member members key :: stack, mode := .value }
          else none
      | _ => none
  | .comma => r.between c
  | .string isKey l spot =>
    if spot = .plain ∧ c = '"' then some (r.closesString isKey l)
    else (spot.step l c).map fun (l, spot) => { r with mode := .string isKey l spot }
  | .number numeral text =>
    match numeral.next c with
    | some numeral => some { r with mode := .number numeral (text ++ [c]) }
    | none => if numeral.isFinal then (deliver (.number text) r.stack).between c else none
  | .literal word read =>
    if word.text[read]? ≠ some c then none
    else if read + 1 = word.text.length then some (deliver word.value r.stack)
    else some { r with mode := .literal word (read + 1) }
  | .done _ => if isSpace c then some r else none

def run (r : Reader) (text : List Char) : Option Reader := text.foldlM step r

/-- At its end the text is read as if a blank followed. -/
def finish (r : Reader) : Option Value :=
  match r.step ' ' with
  | some { stack := [], mode := .done v } => some v
  | _ => none

end Reader

def parse (text : List Char) : Option Value := (Reader.run {} text).bind Reader.finish

namespace Reader
variable {r r' : Reader} {c : Char} {p q text : List Char} {v : Value}

theorem run_append : r.run (p ++ q) = (r.run p).bind fun r' => r'.run q := List.foldlM_append

theorem run_cons : r.run (c :: text) = (r.step c).bind fun r' => r'.run text := rfl

/-- Once the first character is read, a reader with nothing open has read its value. -/
def Rooted (r : Reader) : Prop := r.stack = [] → ∃ v, r.mode = .done v

theorem deliver_rooted (v : Value) (stack : List Frame) : (deliver v stack).Rooted := by
  unfold deliver
  split
  · exact nofun
  · exact nofun
  · exact nofun
  · exact fun _ => ⟨v, rfl⟩

theorem deliver_empty {stack : List Frame} (empty : (deliver v stack).stack = []) : stack = [] := by
  unfold deliver at empty
  split at empty
  · cases empty
  · cases empty
  · cases empty
  · rfl

theorem push_rooted {frame : Frame} {mode : Mode} (pushed : r.push frame mode = some r') : r'.Rooted := by
  unfold push at pushed
  split at pushed
  · cases pushed
    exact nofun
  · cases pushed

theorem begins_kept (begun : r.begins c = some r') : r'.Rooted ∨ r'.stack = r.stack := by
  unfold begins at begun
  split_ifs at begun
  case pos => exact .inl (push_rooted begun)
  case pos => exact .inl (push_rooted begun)
  case neg =>
    obtain ⟨_, _, rfl⟩ := Option.map_eq_some_iff.mp begun
    exact .inr rfl
  all_goals cases begun; exact .inr rfl

theorem between_kept (went : r.between c = some r') : r'.Rooted ∨ r'.stack = r.stack := by
  unfold between at went
  split at went
  · cases went
    exact .inr rfl
  · split at went
    · split_ifs at went
      · cases went
        exact .inr rfl
      · cases went
        exact .inl (deliver_rooted _ _)
    · split_ifs at went
      · cases went
        exact .inr rfl
      · cases went
        exact .inl (deliver_rooted _ _)
    · cases went

theorem closesString_kept (isKey : Bool) (l : Lexeme) :
    (r.closesString isKey l).Rooted ∨ (r.closesString isKey l).stack = r.stack := by
  cases isKey with
  | false => exact .inl (deliver_rooted _ _)
  | true => exact .inr rfl

theorem step_kept (stepped : r.step c = some r') : r'.Rooted ∨ r'.stack = r.stack := by
  unfold step at stepped
  split at stepped
  case h_1 =>
    split_ifs at stepped
    · cases stepped
      exact .inr rfl
    · exact begins_kept stepped
  case h_2 =>
    split_ifs at stepped
    · cases stepped
      exact .inr rfl
    · exact between_kept stepped
    · exact begins_kept stepped
  case h_3 =>
    split_ifs at stepped
    all_goals cases stepped; exact .inr rfl
  case h_4 =>
    split_ifs at stepped
    · cases stepped
      exact .inr rfl
    · exact between_kept stepped
    · cases stepped
      exact .inr rfl
  case h_5 =>
    split_ifs at stepped
    · cases stepped
      exact .inr rfl
    · split at stepped
      · cases stepped
        exact .inl nofun
      · cases stepped
    · split at stepped <;> cases stepped
  case h_6 => exact between_kept stepped
  case h_7 isKey l spot _ =>
    split_ifs at stepped
    · cases stepped
      exact closesString_kept isKey l
    · obtain ⟨_, _, rfl⟩ := Option.map_eq_some_iff.mp stepped
      exact .inr rfl
  case h_8 numeral text _ =>
    split at stepped
    · cases stepped
      exact .inr rfl
    · split_ifs at stepped
      rcases between_kept stepped with rooted | same
      · exact .inl rooted
      · by_cases empty : r.stack = []
        · rw [empty] at same ⊢
          exact .inr same
        · exact .inl fun none => absurd (deliver_empty (same.symm.trans none)) empty
  case h_9 =>
    split_ifs at stepped
    · cases stepped
      exact .inl (deliver_rooted _ _)
    · cases stepped
      exact .inr rfl
  case h_10 =>
    split_ifs at stepped
    cases stepped
    exact .inr rfl

theorem step_rooted (rooted : r.Rooted) (stepped : r.step c = some r') : r'.Rooted := by
  rcases step_kept stepped with there | same
  · exact there
  · intro empty
    obtain ⟨v, read⟩ := rooted (same.symm.trans empty)
    simp only [step, read] at stepped
    split_ifs at stepped
    cases stepped
    exact ⟨v, read⟩

theorem run_rooted (rooted : r.Rooted) (ran : r.run text = some r') : r'.Rooted := by
  induction text generalizing r with
  | nil =>
    cases ran
    exact rooted
  | cons c text ih =>
    obtain ⟨next, stepped, ran⟩ := Option.bind_eq_some_iff.mp ran
    exact ih (step_rooted rooted stepped) ran

theorem run_done (read : r.mode = .done v) (ran : r.run text = some r') : r' = r ∧ ∀ c ∈ text, isSpace c = true := by
  induction text generalizing r with
  | nil =>
    cases ran
    exact ⟨rfl, by simp⟩
  | cons c text ih =>
    obtain ⟨next, stepped, ran⟩ := Option.bind_eq_some_iff.mp ran
    simp only [step, read] at stepped
    split_ifs at stepped with space
    cases stepped
    obtain ⟨same, blank⟩ := ih read ran
    exact ⟨same, by simpa [space] using blank⟩

theorem between_space (r : Reader) : r.between ' ' = some r := rfl

theorem space_open (stepped : r.step ' ' = some r') (empty : r'.stack = []) : r.stack = [] := by
  have blank : isSpace ' ' = true := rfl
  unfold step at stepped
  split at stepped
  case h_7 =>
    obtain ⟨_, _, _, rfl⟩ : ∃ l spot, _ ∧ _ = r' := by simpa using stepped
    exact empty
  case h_8 =>
    split at stepped
    · cases stepped
      exact empty
    · split_ifs at stepped
      cases stepped
      exact deliver_empty empty
  case h_9 =>
    split_ifs at stepped
    · cases stepped
      exact deliver_empty empty
    · cases stepped
      exact empty
  all_goals
    simp [blank, between_space] at stepped
    try cases stepped
    try exact empty

theorem finish_rooted (rooted : r.Rooted) (stops : r.finish = some v) : r.mode = .done v := by
  unfold finish at stops
  split at stops
  case h_1 w stepped =>
    cases stops
    obtain ⟨w, read⟩ := rooted (space_open stepped rfl)
    simp only [step, read] at stepped
    cases stepped
    rfl
  case h_2 => cases stops

theorem text_ascii (word : Literal) : ∀ c ∈ word.text, c.toNat < 128 := by
  cases word <;> simp [Literal.text]

section Foreign
variable (foreign : 128 ≤ c.toNat)
include foreign

theorem foreign_ne (d : Char) (small : d.toNat < 128) : c ≠ d := by
  rintro rfl
  omega

theorem foreign_space : isSpace c = false := by
  simp (disch := decide) [isSpace, foreign_ne foreign]

theorem foreign_digit : c.isDigit = false := by
  have above : '9'.val < c.val := by
    rw [UInt32.lt_iff_toNat_lt]
    change 57 < c.toNat
    omega
  simpa [Char.isDigit] using fun _ => above

theorem foreign_next (numeral : Numeral) : numeral.next c = none := by
  have digit := foreign_digit foreign
  cases numeral <;> simp (disch := decide) [Numeral.next, digit, foreign_ne foreign]

theorem foreign_between (r : Reader) : r.between c = none := by
  have blank := foreign_space foreign
  unfold Reader.between
  rw [if_neg (by simp [blank])]
  split <;> simp (disch := decide) [foreign_ne foreign]

theorem foreign_begins (r : Reader) : r.begins c = none := by
  have digit := foreign_digit foreign
  simp (disch := decide) [begins, Numeral.first, digit, foreign_ne foreign]

/-- A character beyond ASCII stands in a string only. -/
theorem step_foreign (stepped : r.step c = some r') : ∃ isKey l spot, r'.mode = .string isKey l spot := by
  have blank := foreign_space foreign
  have nothing := foreign_between foreign
  have value := foreign_begins foreign
  unfold step at stepped
  split at stepped
  case h_7 isKey l spot _ =>
    rw [if_neg (fun closes => foreign_ne foreign '"' (by decide) closes.2)] at stepped
    obtain ⟨⟨l, spot⟩, _, rfl⟩ := Option.map_eq_some_iff.mp stepped
    exact ⟨isKey, l, spot, rfl⟩
  case h_8 =>
    rw [foreign_next foreign] at stepped
    simp [nothing] at stepped
  case h_9 word read _ =>
    have other : word.text[read]? ≠ some c := fun same => by
      have small := text_ascii word c (List.mem_of_getElem? same)
      omega
    rw [if_pos other] at stepped
    cases stepped
  case h_5 =>
    rw [if_neg (by simp [blank])] at stepped
    split at stepped <;> simp (disch := decide) [foreign_ne foreign] at stepped
  all_goals simp (disch := decide) [blank, nothing, value, foreign_ne foreign] at stepped

theorem finish_foreign (stepped : r.step c = some r') : r'.finish = none := by
  obtain ⟨isKey, l, spot, reads⟩ := step_foreign foreign stepped
  unfold finish
  simp only [step, reads]
  split
  case h_1 last => 
    simp at last
  case h_2 => rfl

end Foreign

theorem foreign_unread (foreign : 128 ≤ c.toNat) : parse (p ++ [c]) = none := by
  unfold parse
  rw [run_append]
  cases run {} p with
  | none => rfl
  | some r =>
    change ((r.step c).bind some).bind finish = none
    cases stepped : r.step c with
    | none => rfl
    | some r' => exact finish_foreign foreign stepped

theorem run_object (ran : run {} ('{' :: text) = some r) : r.Rooted := by
  have opened : step {} '{' = some { stack := [.object []], mode := .keyOrEnd } := rfl
  rw [run_cons, opened] at ran
  exact run_rooted (fun empty => by cases empty) ran

/-- What is read of an object, and ends in no blank, is read in full only. -/
theorem object_unread (read : (parse ('{' :: text)).isSome) (last : (text.getLast?.any isSpace) = false)
    (parts : '{' :: text = p ++ q) (more : q ≠ []) : parse p = none := by
  by_contra accepted
  obtain ⟨v, parsed⟩ := Option.ne_none_iff_exists'.mp accepted
  obtain ⟨r, ran, stops⟩ := Option.bind_eq_some_iff.mp parsed
  obtain ⟨w, whole⟩ := Option.isSome_iff_exists.mp read
  obtain ⟨r', rest, _⟩ := Option.bind_eq_some_iff.mp whole
  rw [parts, run_append, ran] at rest
  cases p with
  | nil =>
    cases ran
    cases stops
  | cons c p =>
    obtain ⟨rfl, rfl⟩ := List.cons.inj parts
    obtain ⟨_, blank⟩ := run_done (finish_rooted (run_object ran) stops) rest
    have ends : (p.append q).getLast? = some (q.getLast more) := by
      rw [List.append_eq, List.getLast?_append_of_ne_nil _ more, List.getLast?_eq_some_getLast more]
    rw [ends, Option.any_some, blank _ (List.getLast_mem more)] at last
    cases last

end Reader

end Json
