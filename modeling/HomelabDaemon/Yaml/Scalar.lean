import Mathlib.Data.List.Basic

/-!
# Plain scalars

Scalars on one line of a block document that need no quotes: what stands there is the value.
-/

namespace Yaml

def isBlank (c : Char) : Bool := c == ' ' || c == '\t'

/-- The characters that YAML admits, less its line breaks. -/
def isPrintable (c : Char) : Bool :=
  c == '\t' || (0x20 ≤ c.toNat && c.toNat ≤ 0x7E) ||
  (0xA0 ≤ c.toNat && c.toNat ≤ 0xFFFD && c.toNat != 0x2028 && c.toNat != 0x2029) || 0x10000 ≤ c.toNat

/-- Characters that mean something else at the start of a scalar. -/
def indicators : List Char := ",[]\x7b\x7d#&*!|>'\"%@`".toList

/-- `-`, `?` and `:` start a scalar if a character follows them at once. -/
def starts : List Char → Bool
  | [] => false
  | c :: cs =>
    if c = '-' ∨ c = '?' ∨ c = ':' then cs.head?.any fun d => !isBlank d
    else !isBlank c && decide (c ∉ indicators)

/-- No key ends here, no comment begins, and no blank is left at the end. -/
def continues : List Char → Bool
  | [] => true
  | [c] => c != ':' && !isBlank c
  | c :: d :: cs => !(c == ':' && isBlank d) && !(isBlank c && d == '#') && continues (d :: cs)

def isPlain (cs : List Char) : Bool := cs.all isPrintable && starts cs && continues cs

section Plain
variable {c : Char} {cs : List Char}

theorem isPlain_iff : isPlain cs = true ↔ cs.all isPrintable = true ∧ starts cs = true ∧ continues cs = true := by
  unfold isPlain
  rw [Bool.and_eq_true, Bool.and_eq_true, and_assoc]

theorem plain_printable (h : isPlain cs = true) (member : c ∈ cs) : isPrintable c = true :=
  List.all_eq_true.mp (isPlain_iff.mp h).1 c member

theorem not_printable_newline : isPrintable '\n' = false := by decide

theorem newline_notMem (h : ∀ c ∈ cs, isPrintable c = true) : '\n' ∉ cs := by
  intro member
  have printable := h '\n' member
  rw [not_printable_newline] at printable
  cases printable

theorem plain_head (h : isPlain (c :: cs) = true) : isBlank c = false := by
  have started := (isPlain_iff.mp h).2.1
  rw [starts] at started
  split at started
  · rename_i leader
    rcases leader with rfl | rfl | rfl <;> rfl
  · obtain ⟨notBlank, _⟩ := Bool.and_eq_true_iff.mp started
    simpa using notBlank

theorem plain_not_dash : isPlain ('-' :: ' ' :: cs) = false := by
  have fails : starts ('-' :: ' ' :: cs) = false := rfl
  unfold isPlain
  rw [fails, Bool.and_false, Bool.false_and]

theorem digit_ne (h : c.isDigit = true) {d : Char} (other : d.isDigit = false) : c ≠ d := by
  rintro rfl
  rw [h] at other
  cases other

theorem digit_not_blank (h : c.isDigit = true) : isBlank c = false := by
  have space : c ≠ ' ' := digit_ne h (by decide)
  have tab : c ≠ '\t' := digit_ne h (by decide)
  simp [isBlank, space, tab]

theorem digit_printable (h : c.isDigit = true) : isPrintable c = true := by
  simp only [Char.isDigit, Bool.and_eq_true, decide_eq_true_eq, UInt32.le_iff_toNat_le, ge_iff_le] at h
  change 48 ≤ c.toNat ∧ c.toNat ≤ 57 at h
  have low : 0x20 ≤ c.toNat := by omega
  have high : c.toNat ≤ 0x7E := by omega
  simp [isPrintable, low, high]

theorem digits_continue (h : ∀ c ∈ cs, c.isDigit = true) : continues cs = true := by
  induction cs with
  | nil => rfl
  | cons c cs ih =>
    have digit := h c List.mem_cons_self
    have notColon : c ≠ ':' := digit_ne digit (by decide)
    have rest := ih fun d member => h d (List.mem_cons_of_mem c member)
    cases cs with
    | nil => simp [continues, notColon, digit_not_blank digit]
    | cons d cs => simp [continues, notColon, digit_not_blank digit, rest]

theorem digits_plain (h : ∀ c ∈ cs, c.isDigit = true) (some : cs ≠ []) : isPlain cs = true := by
  refine isPlain_iff.mpr ⟨List.all_eq_true.mpr fun c member => digit_printable (h c member), ?_, digits_continue h⟩
  cases cs with
  | nil => exact absurd rfl some
  | cons c cs =>
    have digit := h c List.mem_cons_self
    have dash : c ≠ '-' := digit_ne digit (by decide)
    have question : c ≠ '?' := digit_ne digit (by decide)
    have colon : c ≠ ':' := digit_ne digit (by decide)
    have indicator : c ∉ indicators := by
      intro member
      have none : indicators.all (fun d => !d.isDigit) = true := by decide
      have noDigit := List.all_eq_true.mp none c member
      rw [digit] at noDigit
      cases noDigit
    simp [starts, dash, question, colon, digit_not_blank digit, indicator]

/-- A number below zero: its sign is no entry of a sequence, for a digit follows it. -/
theorem negative_plain (h : ∀ c ∈ cs, c.isDigit = true) (some : cs ≠ []) : isPlain ('-' :: cs) = true := by
  obtain ⟨printable, _, rest⟩ := isPlain_iff.mp (digits_plain h some)
  cases cs with
  | nil => exact absurd rfl some
  | cons c cs =>
    have digit := digit_not_blank (h c List.mem_cons_self)
    refine isPlain_iff.mpr ⟨?_, ?_, ?_⟩
    · rw [List.all_cons, printable]
      decide
    · simp [starts, digit]
    · simp [continues, isBlank, rest]

end Plain

end Yaml
