import HomelabDaemon.Strings.Digits

/-!
# Parsing integers

The 64-bit integer that a whole text writes in decimal digits. A value comes back with an error, too.
-/

namespace Strings

inductive NumError where
  | invalid | range
  deriving DecidableEq

/-- The digits behind those that make up `n`; a value past 64 bits ends the loop. -/
def parseUint : Str → Nat → Except NumError Nat
  | [], n => .ok n
  | c :: s, n =>
    if c.isDigit then
      let n := 10 * n + (c.toNat - '0'.toNat)
      if n < 2 ^ 64 then parseUint s n else .error .range
    else .error .invalid

def signed (s : Str) : Bool × Str :=
  match s with
  | '-' :: s => (true, s)
  | '+' :: s => (false, s)
  | s => (false, s)

def parseInt (s : Str) : Int × Option NumError :=
  let (negative, digits) := signed s
  if digits = [] then (0, some .invalid)
  else match parseUint digits 0 with
    | .error .invalid => (0, some .invalid)
    | .error .range => (if negative then -2 ^ 63 else 2 ^ 63 - 1, some .range)
    | .ok n =>
      if negative then if n ≤ 2 ^ 63 then (-n, none) else (-2 ^ 63, some .range)
      else if n < 2 ^ 63 then (n, none) else (2 ^ 63 - 1, some .range)

theorem le_ofDigitChars (digits : Str) (n : Nat) : n ≤ Nat.ofDigitChars 10 digits n := by
  rw [Nat.ofDigitChars_eq_ofDigitChars_zero]
  have scaled : 1 * n ≤ 10 ^ digits.length * n := Nat.mul_le_mul_right n (Nat.pow_pos (by decide))
  omega

theorem parseUint_digits {digits : Str} (isDigit : ∀ c ∈ digits, c.isDigit = true) {n : Nat}
    (fits : Nat.ofDigitChars 10 digits n < 2 ^ 64) : parseUint digits n = .ok (Nat.ofDigitChars 10 digits n) := by
  induction digits generalizing n with
  | nil => rfl
  | cons c digits ih =>
    rw [Nat.ofDigitChars_cons] at fits ⊢
    rw [parseUint, if_pos (isDigit c List.mem_cons_self)]
    dsimp only
    rw [if_pos (Nat.lt_of_le_of_lt (le_ofDigitChars digits _) fits)]
    exact ih (fun d member => isDigit d (List.mem_cons_of_mem c member)) fits

theorem signed_digits {digits : Str} (isDigit : ∀ c ∈ digits, c.isDigit = true) : signed digits = (false, digits) := by
  unfold signed
  split
  · exact absurd (isDigit '-' List.mem_cons_self) (by decide)
  · exact absurd (isDigit '+' List.mem_cons_self) (by decide)
  · rfl

theorem parseUint_toDigits {n : Nat} (fits : n < 2 ^ 64) : parseUint (Nat.toDigits 10 n) 0 = .ok n := by
  have written : Nat.ofDigitChars 10 (Nat.toDigits 10 n) 0 = n := Nat.ofDigitChars_ten_toDigits
  rw [parseUint_digits (toDigits_digits n) (by rwa [written]), written]

theorem parseInt_toDigits {n : Nat} (fits : n < 2 ^ 63) : parseInt (Nat.toDigits 10 n) = ((n : Int), none) := by
  unfold parseInt
  rw [signed_digits (toDigits_digits n)]
  dsimp only
  rw [if_neg Nat.toDigits_ne_nil, parseUint_toDigits (by omega)]
  dsimp only
  rw [if_neg Bool.false_ne_true, if_pos fits]

theorem parseInt_toString {n : Int} (low : -2 ^ 63 ≤ n) (high : n < 2 ^ 63) :
    parseInt (toString n).toList = (n, none) := by
  obtain ⟨m, ⟨digits, rfl⟩ | ⟨digits, rfl⟩⟩ := toString_cases n
  · rw [digits]
    exact parseInt_toDigits (by omega)
  · rw [digits, parseInt, signed]
    dsimp only
    rw [if_neg Nat.toDigits_ne_nil, parseUint_toDigits (by omega)]
    dsimp only
    rw [if_pos rfl, if_pos (by omega)]

end Strings
