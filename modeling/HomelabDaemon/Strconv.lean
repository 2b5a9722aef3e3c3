import HomelabDaemon.Json.RoundTrip

/-!
# Quoted strings

A string literal of the programming language, and what a JSON reader makes of it. The two grammars
share the short escapes and the four-digit ones, and neither has those of the other.
-/

namespace Strconv

/-- The letter of a control character that has one. -/
def letter (c : Char) : Option Char :=
  if c = '\x07' then some 'a'
  else if c = '\x08' then some 'b'
  else if c = '\x0c' then some 'f'
  else if c = '\n' then some 'n'
  else if c = '\r' then some 'r'
  else if c = '\t' then some 't'
  else if c = '\x0b' then some 'v'
  else none

/-- The last `width` digits. -/
def hex (n : Nat) : Nat → List Char
  | 0 => []
  | width + 1 => hex (n / 16) width ++ [Json.hexDigit (n % 16)]

section Quote
variable (isPrint : Char → Bool)

def appendEscapedRune (c : Char) : List Char :=
  if c = '"' ∨ c = '\\' then ['\\', c]
  else if isPrint c then [c]
  else match letter c with
    | some l => ['\\', l]
    | none =>
      if c.toNat < 0x20 ∨ c.toNat = 0x7F then '\\' :: 'x' :: hex c.toNat 2
      else if c.toNat < 0x10000 then '\\' :: 'u' :: hex c.toNat 4
      else '\\' :: 'U' :: hex c.toNat 8

def quote (s : String) : List Char := '"' :: s.toList.flatMap (appendEscapedRune isPrint) ++ ['"']

/-- What is printable among the first 128 characters. -/
def AsciiPrint : Prop := ∀ c : Char, c.toNat < 0x80 → (isPrint c = true ↔ 0x20 ≤ c.toNat ∧ c.toNat < 0x7F)

/-- The characters that stand for themselves in JSON, too. -/
def JsonSafe (c : Char) : Prop :=
  isPrint c = true ∨ c ∈ ['\x08', '\x0c', '\n', '\r', '\t'] ∨ 0x80 ≤ c.toNat ∧ c.toNat < 0x10000

end Quote

instance (isPrint : Char → Bool) (c : Char) : Decidable (JsonSafe isPrint c) :=
  inferInstanceAs (Decidable (isPrint c = true ∨ c ∈ ['\x08', '\x0c', '\n', '\r', '\t'] ∨ 0x80 ≤ c.toNat ∧
    c.toNat < 0x10000))

/-- Along the text, and not through all characters. -/
instance (isPrint : Char → Bool) (chars : List Char) : Decidable (∀ c ∈ chars, JsonSafe isPrint c) :=
  List.decidableBAll _ chars

open Json Json.Reader

section Read
variable {isPrint : Char → Bool} {r : Reader} {isKey : Bool} {text : List Char} {c : Char}

theorem hex_four (n : Nat) : '\\' :: 'u' :: hex n 4 = unicode n := by
  simp [hex, unicode, Nat.div_div_eq_div_mul]

/-- An escape that JSON does not have stops the reader. -/
theorem run_foreign {l : Char} (foreign : unescape l = none) (other : l ≠ 'u') (rest : List Char) :
    (r.within isKey text).run ('\\' :: l :: rest) = none := by
  simp [run_cons, within, step, Spot.step, other, foreign]

theorem run_short {l : Char} (escape : unescape l = some c) (other : l ≠ 'u') :
    (r.within isKey text).run ['\\', l] = some (r.within isKey (text ++ [c])) := by
  simp [run, within, step, Spot.step, other, escape, Lexeme.add, Lexeme.settled]

theorem run_plain (quote : c ≠ '"') (backslash : c ≠ '\\') (high : 0x20 ≤ c.toNat) :
    (r.within isKey text).run [c] = some (r.within isKey (text ++ [c])) := by
  have low : ¬ c.toNat < 32 := by omega
  simp [run, within, step, Spot.step, quote, backslash, low, Lexeme.add, Lexeme.settled]

theorem letter_eq {l : Char} (short : letter c = some l) :
    unescape l = some c ∧ l ≠ 'u' ∧ c ∈ ['\x08', '\x0c', '\n', '\r', '\t'] ∨
      (unescape l = none ∧ l ≠ 'u' ∧ c.toNat < 0x20 ∧ c ∉ ['\x08', '\x0c', '\n', '\r', '\t']) := by
  unfold letter at short
  split_ifs at short
  all_goals
    cases short
    subst c
    decide

variable (ascii : AsciiPrint isPrint)
include ascii

theorem run_rune : (r.within isKey text).run (appendEscapedRune isPrint c) =
    if JsonSafe isPrint c then some (r.within isKey (text ++ [c])) else none := by
  unfold appendEscapedRune
  by_cases special : c = '"' ∨ c = '\\'
  · have safe : JsonSafe isPrint c := .inl ((ascii c (by rcases special with rfl | rfl <;> decide)).mpr
      (by rcases special with rfl | rfl <;> decide))
    rw [if_pos special, if_pos safe]
    rcases special with rfl | rfl <;> rfl
  rw [if_neg special]
  rw [not_or] at special
  by_cases printable : isPrint c = true
  · have high : 0x20 ≤ c.toNat := by
      by_contra low
      have bounds := (ascii c (by omega)).mp printable
      omega
    rw [if_pos printable, if_pos (.inl printable), run_plain special.1 special.2 high]
  rw [if_neg printable]
  cases short : letter c with
  | some l =>
    dsimp only
    rcases letter_eq short with ⟨back, other, listed⟩ | ⟨foreign, other, low, unlisted⟩
    · rw [if_pos (.inr (.inl listed))]
      exact run_short back other
    · have unsafe_ : ¬ JsonSafe isPrint c := by
        rintro (safe | safe | safe)
        · exact printable safe
        · exact unlisted safe
        · omega
      rw [if_neg unsafe_]
      exact run_foreign foreign other []
  | none =>
    have unlisted : c ∉ ['\x08', '\x0c', '\n', '\r', '\t'] := by
      intro listed
      simp only [List.mem_cons, List.not_mem_nil, or_false] at listed
      rcases listed with rfl | rfl | rfl | rfl | rfl <;> cases short
    have safe_iff : JsonSafe isPrint c ↔ 0x80 ≤ c.toNat ∧ c.toNat < 0x10000 := by
      simp [JsonSafe, printable, unlisted]
    rw [if_congr safe_iff rfl rfl]
    dsimp only
    split_ifs with low range small range
    · omega
    · exact run_foreign rfl (by decide) _
    · rw [hex_four]
      exact run_unicode c small
    · -- between the space and DEL everything is printable
      exact absurd ((ascii c (by omega)).mpr (by omega)) printable
    · omega
    · exact run_foreign rfl (by decide) _

theorem run_runes (chars : List Char) : (r.within isKey text).run (chars.flatMap (appendEscapedRune isPrint)) =
    if ∀ c ∈ chars, JsonSafe isPrint c then some (r.within isKey (text ++ chars)) else none := by
  induction chars generalizing text with
  | nil => simp [run]
  | cons c chars ih =>
    rw [List.flatMap_cons, run_append, run_rune ascii]
    by_cases safe : JsonSafe isPrint c
    · rw [if_pos safe, Option.bind_some, ih, List.append_assoc]
      simp [safe]
    · simp [safe]

/-- Where a value is due, the literal is read as its string or not at all. -/
theorem run_quote {s : String} (due : r.mode = .value ∨ r.mode = .valueOrEnd) (rest : List Char) :
    r.run (quote isPrint s ++ rest) =
      if ∀ c ∈ s.toList, JsonSafe isPrint c then (deliver (.string s) r.stack).run rest else none := by
  have opened : r.step '"' = some (r.within false []) := by
    rcases due with mode | mode <;> simp [step, begins, mode, Json.isSpace, within]
  have closed : (r.within false s.toList).step '"' = some (deliver (.string s) r.stack) := by
    simp [step, within, closesString, Lexeme.settled]
  rw [quote, List.cons_append, List.cons_append, List.append_assoc, run_cons, opened, Option.bind_some, run_append,
    run_runes ascii]
  by_cases safe : ∀ c ∈ s.toList, JsonSafe isPrint c
  · rw [if_pos safe, if_pos safe, Option.bind_some, List.nil_append, List.singleton_append, run_cons, closed,
      Option.bind_some]
  · rw [if_neg safe, if_neg safe]
    rfl

theorem parse_quote (s : String) :
    parse (quote isPrint s) = if ∀ c ∈ s.toList, JsonSafe isPrint c then some (.string s) else none := by
  have read := run_quote ascii (r := {}) (s := s) (.inl rfl) []
  rw [List.append_nil] at read
  rw [parse, read]
  split_ifs <;> rfl

end Read

end Strconv
