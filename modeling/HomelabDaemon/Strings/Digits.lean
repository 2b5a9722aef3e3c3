import HomelabDaemon.Strings.Words

/-!
# Decimal numbers

How an integer is written in digits, and that reading the digits gives it back.
-/

namespace Strings

/-- A number is written in digits, behind a sign if it is below zero. -/
theorem toString_cases (n : Int) : ∃ m : Nat,
    ((toString n).toList = Nat.toDigits 10 m ∧ n = m) ∨ ((toString n).toList = '-' :: Nat.toDigits 10 m ∧ n = -m) := by
  rw [Int.toString_eq_repr, Int.repr_eq_if]
  by_cases nonneg : 0 ≤ n
  · refine ⟨n.toNat, .inl ⟨?_, by omega⟩⟩
    rw [if_pos nonneg, Nat.toList_repr]
  · refine ⟨(-n).toNat, .inr ⟨?_, by omega⟩⟩
    rw [if_neg nonneg, String.toList_append, Nat.toList_repr]
    rfl

theorem toDigits_digits (n : Nat) : ∀ c ∈ Nat.toDigits 10 n, c.isDigit = true := fun _ member =>
  Nat.isDigit_of_mem_toDigits (by decide) (by decide) member

theorem digit_solid {c : Char} (digit : c.isDigit = true) : isSpace c = false := by
  have bounds : 48 ≤ c.toNat ∧ c.toNat ≤ 57 := by
    simpa [Char.isDigit, UInt32.le_iff_toNat_le] using digit
  simp only [isSpace, Bool.or_eq_false_iff, Bool.and_eq_false_iff, decide_eq_false_iff_not, beq_eq_false_iff_ne]
  omega

theorem word_toString (n : Int) : IsWord (toString n).toList := by
  obtain ⟨m, ⟨digits, _⟩ | ⟨digits, _⟩⟩ := toString_cases n
  · rw [digits]
    exact ⟨Nat.toDigits_ne_nil, fun c member => digit_solid (toDigits_digits m c member)⟩
  · rw [digits]
    refine ⟨List.cons_ne_nil _ _, List.forall_mem_cons.mpr ⟨by decide, fun c member => ?_⟩⟩
    exact digit_solid (toDigits_digits m c member)

theorem foldl_digits (digits : Str) (n : Nat) :
    digits.foldl (fun (n : Int) c => 10 * n + (c.toNat - '0'.toNat : Nat))
    (n : Int) = (Nat.ofDigitChars 10 digits n : Nat) := by
  induction digits generalizing n with
  | nil => rfl
  | cons c digits ih =>
    rw [List.foldl_cons, Nat.ofDigitChars_cons, ← ih]
    push_cast
    rfl

theorem foldl_toDigits (m : Nat) :
    (Nat.toDigits 10 m).foldl (fun (n : Int) c => 10 * n + (c.toNat - '0'.toNat : Nat)) 0 = m := by
  have folded := foldl_digits (Nat.toDigits 10 m) 0
  rwa [Nat.ofDigitChars_ten_toDigits] at folded

theorem takeWhile_toDigits (m : Nat) : (Nat.toDigits 10 m).takeWhile Char.isDigit = Nat.toDigits 10 m :=
  List.takeWhile_eq_self_iff.mpr (toDigits_digits m)

theorem scanInt_toString {n : Int} (low : -2 ^ 63 ≤ n) (high : n < 2 ^ 63) : scanInt (toString n).toList = some n := by
  obtain ⟨m, ⟨digits, rfl⟩ | ⟨digits, rfl⟩⟩ := toString_cases n
  · have unsigned : ∀ {d : Char} {s : Str}, d.isDigit = false → Nat.toDigits 10 m ≠ d :: s := by
      intro d s other same
      have digit := toDigits_digits m d (by rw [same]; exact List.mem_cons_self)
      rw [other] at digit
      cases digit
    rw [digits, scanInt]
    · simp only [takeWhile_toDigits, foldl_toDigits, Bool.false_eq_true, ↓reduceIte]
      rw [if_neg]
      rintro (none | below | above)
      · exact Nat.toDigits_ne_nil none
      · omega
      · omega
    · exact fun s => unsigned rfl
    · exact fun s => unsigned rfl
  · rw [digits, scanInt]
    simp only [takeWhile_toDigits, foldl_toDigits, ↓reduceIte]
    rw [if_neg]
    rintro (none | below | above)
    · exact Nat.toDigits_ne_nil none
    · omega
    · omega

end Strings
