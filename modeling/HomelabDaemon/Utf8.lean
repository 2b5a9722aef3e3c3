import Mathlib.Data.Char
import Mathlib.Data.List.Basic

/-!
# Text as bytes

A byte that starts no character is read as a replacement character. A text that is cut inside a
character thus ends in characters beyond ASCII.
-/

namespace Utf8

def decodeRune (bytes : List UInt8) : Option Char := bytes.toByteArray.utf8DecodeChar? 0

/-- `skip` bytes belong to the last character. -/
def decodeFrom : Nat → List UInt8 → List Char
  | _, [] => []
  | skip + 1, _ :: bytes => decodeFrom skip bytes
  | 0, b :: bytes =>
    match decodeRune (b :: bytes) with
    | some c => c :: decodeFrom (c.utf8Size - 1) bytes
    | none => '\uFFFD' :: decodeFrom 0 bytes

def decode (bytes : List UInt8) : List Char := decodeFrom 0 bytes

def encode (text : List Char) : List UInt8 := text.flatMap String.utf8EncodeChar

variable {c d : Char} {bytes : List UInt8} {text : List Char}

theorem decodeRune_encode (c : Char) (bytes : List UInt8) : decodeRune (String.utf8EncodeChar c ++ bytes) = some c := by
  rw [decodeRune, List.toByteArray_append, ByteArray.utf8DecodeChar?_utf8EncodeChar_append]

theorem decodeRune_some (decoded : decodeRune bytes = some c) : ∃ rest, bytes = String.utf8EncodeChar c ++ rest := by
  have starts := String.toByteArray_utf8EncodeChar_of_utf8DecodeChar?_eq_some decoded
  have taken : String.utf8EncodeChar c = bytes.take c.utf8Size := by
    have data := congrArg (fun b => b.data.toList) starts
    simpa using data
  exact ⟨bytes.drop c.utf8Size, by rw [taken, List.take_append_drop]⟩

theorem decodeFrom_eq (skip : Nat) (bytes : List UInt8) : decodeFrom skip bytes = decode (bytes.drop skip) := by
  induction bytes generalizing skip with
  | nil => cases skip <;> rfl
  | cons b bytes ih =>
    cases skip with
    | zero => rfl
    | succ skip => exact ih skip

theorem decode_char (c : Char) (bytes : List UInt8) :
    decode (String.utf8EncodeChar c ++ bytes) = c :: decode bytes := by
  have decoded := decodeRune_encode c bytes
  have size := String.length_utf8EncodeChar c
  cases encoded : String.utf8EncodeChar c with
  | nil => exact absurd encoded String.utf8EncodeChar_ne_nil
  | cons b tail =>
    rw [encoded] at decoded size
    rw [List.cons_append] at decoded ⊢
    rw [decode, decodeFrom, decoded]
    dsimp only
    rw [decodeFrom_eq, ← size, List.length_cons, Nat.add_sub_cancel, List.drop_left]

theorem decode_encode (text : List Char) : decode (encode text) = text := by
  induction text with
  | nil => rfl
  | cons c text ih =>
    rw [encode, List.flatMap_cons, decode_char]
    exact congrArg _ ih

/-- Bytes that encode a text. -/
def Valid (bytes : List UInt8) : Prop := ∃ text, encode text = bytes

theorem encode_decode : encode (decode bytes) = bytes ↔ Valid bytes := by
  constructor
  · exact fun same => ⟨_, same⟩
  · rintro ⟨text, rfl⟩
    rw [decode_encode]

theorem encode_ascii (ascii : c.toNat < 128) : String.utf8EncodeChar c = [UInt8.ofNat c.toNat] := by
  have small : c.val.toNat ≤ 127 := by
    change c.toNat ≤ 127
    omega
  simp only [String.utf8EncodeChar, if_pos small]
  rfl

theorem encode_foreign (foreign : 128 ≤ c.toNat) : ∀ b ∈ String.utf8EncodeChar c, 128 ≤ b.toNat := by
  have large : ¬ c.val.toNat ≤ 127 := by
    change ¬ c.toNat ≤ 127
    omega
  simp only [String.utf8EncodeChar, if_neg large]
  intro b member
  split_ifs at member
  all_goals
    simp only [List.mem_cons, List.not_mem_nil, or_false] at member
    rcases member with rfl | rfl | rfl | rfl
    all_goals
      simp only [UInt8.toNat_ofNat']
      omega

theorem decode_foreign (foreign : ∀ b ∈ bytes, 128 ≤ b.toNat) : ∀ c ∈ decode bytes, 128 ≤ c.toNat := by
  have from_ : ∀ skip, ∀ c ∈ decodeFrom skip bytes, 128 ≤ c.toNat := by
    induction bytes with
    | nil => intro skip; cases skip <;> exact nofun
    | cons b bytes ih =>
      have ih := ih fun b' member => foreign b' (List.mem_cons_of_mem b member)
      intro skip
      cases skip with
      | succ skip => exact ih skip
      | zero =>
        rw [decodeFrom]
        cases decoded : decodeRune (b :: bytes) with
        | none => exact List.forall_mem_cons.mpr ⟨by decide, ih 0⟩
        | some d =>
          refine List.forall_mem_cons.mpr ⟨?_, ih _⟩
          by_contra ascii
          obtain ⟨rest, parts⟩ := decodeRune_some decoded
          have first := encode_ascii (Nat.lt_of_not_le ascii)
          rw [first] at parts
          obtain ⟨rfl, _⟩ := List.cons.inj parts
          have high := foreign _ List.mem_cons_self
          simp only [UInt8.toNat_ofNat'] at high
          omega
  exact from_ 0

theorem decode_cut (text : List Char) {k : Nat} (short : k < (encode text).length) :
    ∃ p q junk, text = p ++ q ∧ q ≠ [] ∧ decode ((encode text).take k) = p ++ junk ∧ ∀ c ∈ junk, 128 ≤ c.toNat := by
  induction text generalizing k with
  | nil => cases short
  | cons c text ih =>
    have parts : encode (c :: text) = String.utf8EncodeChar c ++ encode text := rfl
    rw [parts] at short ⊢
    by_cases inside : k < (String.utf8EncodeChar c).length
    · refine ⟨[], c :: text, _, rfl, by simp, rfl, ?_⟩
      rw [List.take_append_of_le_length (Nat.le_of_lt inside)]
      by_cases ascii : c.toNat < 128
      · rw [encode_ascii ascii] at inside ⊢
        obtain rfl : k = 0 := by simpa using inside
        exact nofun
      · exact decode_foreign fun b member => encode_foreign (Nat.le_of_not_lt ascii) b (List.mem_of_mem_take member)
    · rw [List.length_append] at short
      obtain ⟨p, q, junk, rfl, more, decoded, foreign⟩ := ih (k := k - (String.utf8EncodeChar c).length) (by omega)
      refine ⟨c :: p, q, junk, rfl, more, ?_, foreign⟩
      rw [List.take_append, List.take_of_length_le (Nat.le_of_not_lt inside), decode_char, decoded]
      rfl

end Utf8
