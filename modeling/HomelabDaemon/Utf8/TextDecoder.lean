import HomelabDaemon.Utf8.Symbols

/-!
# The decoder of the web

`TextDecoder` reads a character that breaks off as one replacement character, however many bytes of it are there, and
drops a byte order mark. An ASCII text stands in what it returns exactly where it stands in the bytes.
-/

namespace Utf8

/-- How many bytes follow a lead byte, and which byte may come first. -/
def lead (b : UInt8) : Nat × Nat × Nat :=
  let n := b.toNat
  if 0xC2 ≤ n ∧ n ≤ 0xDF then (1, 0x80, 0xBF)
  else if 0xE0 ≤ n ∧ n ≤ 0xEF then (2, if n = 0xE0 then 0xA0 else 0x80, if n = 0xED then 0x9F else 0xBF)
  else if 0xF0 ≤ n ∧ n ≤ 0xF4 then (3, if n = 0xF0 then 0x90 else 0x80, if n = 0xF4 then 0x8F else 0xBF)
  else (0, 0x80, 0xBF)

/-- How many of the bytes that are needed are there. -/
def following : Nat → Nat → Nat → List UInt8 → Nat
  | needed + 1, lower, upper, b :: bytes =>
    if lower ≤ b.toNat ∧ b.toNat ≤ upper then following needed 0x80 0xBF bytes + 1 else 0
  | _, _, _, _ => 0

/-- The bytes that are read with a lead byte whose character breaks off. -/
def broken (b : UInt8) (bytes : List UInt8) : Nat := following (lead b).1 (lead b).2.1 (lead b).2.2 bytes

/-- `skip` bytes were read with the last character. -/
def lossyFrom : Nat → List UInt8 → List Char
  | _, [] => []
  | skip + 1, _ :: bytes => lossyFrom skip bytes
  | 0, b :: bytes =>
    match decodeRune (b :: bytes) with
    | some c => c :: lossyFrom (c.utf8Size - 1) bytes
    | none => '\uFFFD' :: lossyFrom (broken b bytes) bytes

def lossy (bytes : List UInt8) : List Char := lossyFrom 0 bytes

/-- `new TextDecoder().decode(bytes)`. -/
def textDecode (bytes : List UInt8) : List Char :=
  match lossy bytes with
  | '\uFEFF' :: text => text
  | text => text

variable {b : UInt8} {c : Char} {bytes : List UInt8}

theorem lossyFrom_eq (skip : Nat) (bytes : List UInt8) : lossyFrom skip bytes = lossy (bytes.drop skip) := by
  induction bytes generalizing skip with
  | nil => cases skip <;> rfl
  | cons b bytes ih =>
    cases skip with
    | zero => rfl
    | succ skip => exact ih skip

theorem lossy_char (c : Char) (bytes : List UInt8) : lossy (String.utf8EncodeChar c ++ bytes) = c :: lossy bytes := by
  have decoded := decodeRune_encode c bytes
  have size := String.length_utf8EncodeChar c
  cases encoded : String.utf8EncodeChar c with
  | nil => exact absurd encoded String.utf8EncodeChar_ne_nil
  | cons b tail =>
    rw [encoded] at decoded size
    rw [List.cons_append] at decoded ⊢
    rw [lossy, lossyFrom, decoded]
    dsimp only
    rw [lossyFrom_eq, ← size, List.length_cons, Nat.add_sub_cancel, List.drop_left]

theorem lossy_broken (fails : decodeRune (b :: bytes) = none) :
    lossy (b :: bytes) = '\uFFFD' :: lossy (bytes.drop (broken b bytes)) := by
  rw [lossy, lossyFrom, fails]
  exact congrArg _ (lossyFrom_eq ..)

theorem following_foreign {needed lower upper : Nat} (high : 128 ≤ lower) :
    ∀ b ∈ bytes.take (following needed lower upper bytes), 128 ≤ b.toNat := by
  induction bytes generalizing needed lower upper with
  | nil => simp
  | cons b bytes ih =>
    cases needed with
    | zero => simp [following]
    | succ needed =>
      rw [following]
      split
      · rename_i inside
        exact List.forall_mem_cons.mpr ⟨Nat.le_trans high inside.1, ih (Nat.le_refl _)⟩
      · simp

theorem lead_high (b : UInt8) : 128 ≤ (lead b).2.1 := by
  unfold lead
  dsimp only
  split_ifs <;> simp

theorem stray_foreign (fails : decodeRune (b :: bytes) = none) : 128 ≤ b.toNat := by
  by_contra small
  have own := decodeRune_encode (Char.ofUInt8 b) bytes
  rw [encode_byte (Nat.lt_of_not_le small), List.singleton_append, fails] at own
  cases own

/-- Any text starts with a character or with one that breaks off. -/
theorem replacing {P : List UInt8 → Prop} (nil : P [])
    (char : ∀ c bytes, P bytes → P (String.utf8EncodeChar c ++ bytes))
    (broken : ∀ junk bytes, junk ≠ [] → (∀ b ∈ junk, 128 ≤ b.toNat) → lossy (junk ++ bytes) = '\uFFFD' :: lossy bytes →
      P bytes → P (junk ++ bytes)) (bytes : List UInt8) : P bytes := by
  induction size : bytes.length using Nat.strong_induction_on generalizing bytes with
  | _ n ih =>
    cases bytes with
    | nil => exact nil
    | cons b bytes =>
      cases decoded : decodeRune (b :: bytes) with
      | none =>
        have parts : b :: bytes = b :: bytes.take (Utf8.broken b bytes) ++ bytes.drop (Utf8.broken b bytes) := by
          rw [List.cons_append, List.take_append_drop]
        have read := lossy_broken decoded
        rw [parts] at read ⊢
        refine broken _ _ (List.cons_ne_nil _ _) ?_ read (ih _ ?_ _ rfl)
        · exact List.forall_mem_cons.mpr ⟨stray_foreign decoded, following_foreign (lead_high b)⟩
        · rw [← size, List.length_drop, List.length_cons]
          omega
      | some c =>
        obtain ⟨rest, parts⟩ := decodeRune_some decoded
        have positive : 0 < (String.utf8EncodeChar c).length := List.length_pos_iff.mpr String.utf8EncodeChar_ne_nil
        rw [parts] at size ⊢
        rw [List.length_append] at size
        exact char c rest (ih _ (by omega) rest rfl)

/-! ### ASCII texts -/

section Ascii
variable {text : List Char}

/-- What begins with none of the first elements does not begin before the rest. -/
theorem infix_skip {α : Type} {sub pre rest : List α} (filled : sub ≠ []) (other : ∀ x ∈ pre, sub.head? ≠ some x) :
    sub <:+: pre ++ rest ↔ sub <:+: rest := by
  induction pre with
  | nil => rfl
  | cons x pre ih =>
    rw [List.cons_append, List.infix_cons_iff, ih fun y member => other y (List.mem_cons_of_mem x member)]
    refine ⟨fun inside => inside.resolve_left fun start => ?_, .inr⟩
    rcases List.prefix_cons_iff.mp start with empty | ⟨tail, rfl, _⟩
    · exact filled empty
    · exact other x List.mem_cons_self rfl

theorem encode_filled (filled : text ≠ []) : encode text ≠ [] := by
  cases text with
  | nil => exact absurd rfl filled
  | cons c text => exact fun empty => String.utf8EncodeChar_ne_nil (List.append_eq_nil_iff.mp empty).1

theorem encode_low (ascii : ∀ c ∈ text, c.toNat < 128) : ∀ b ∈ encode text, b.toNat < 128 := by
  intro b member
  obtain ⟨c, inside, own⟩ := List.mem_flatMap.mp member
  rw [encode_ascii (ascii c inside)] at own
  obtain rfl := List.mem_singleton.mp own
  have small := ascii c inside
  simp only [UInt8.toNat_ofNat']
  omega

theorem prefix_lossy (ascii : ∀ c ∈ text, c.toNat < 128) : text <+: lossy bytes ↔ encode text <+: bytes := by
  induction text generalizing bytes with
  | nil => exact iff_of_true List.nil_prefix List.nil_prefix
  | cons c text ih =>
    have small := ascii c List.mem_cons_self
    have parts : encode (c :: text) = String.utf8EncodeChar c ++ encode text := rfl
    rw [parts]
    cases bytes using replacing with
    | nil =>
      refine iff_of_false (fun start => List.cons_ne_nil _ _ (List.prefix_nil.mp start)) fun start => ?_
      exact String.utf8EncodeChar_ne_nil (List.append_eq_nil_iff.mp (List.prefix_nil.mp start)).1
    | char d bytes =>
      rw [lossy_char, List.cons_prefix_cons]
      by_cases same : c = d
      · subst same
        rw [List.prefix_append_right_inj, ih fun d member => ascii d (List.mem_cons_of_mem c member)]
        exact and_iff_right rfl
      · refine iff_of_false (fun both => same both.1) ?_
        rintro ⟨rest, parts⟩
        have read := decodeRune_encode c (encode text ++ rest)
        rw [← List.append_assoc, parts, decodeRune_encode] at read
        exact same (Option.some.inj read).symm
    | broken junk bytes filled foreign read =>
      rw [read, List.cons_prefix_cons]
      refine iff_of_false (fun both => ?_) ?_
      · rw [both.1] at small
        exact absurd small (by decide)
      · rintro ⟨rest, parts⟩
        rw [encode_ascii small] at parts
        cases junk with
        | nil => exact filled rfl
        | cons b junk =>
          have high := foreign b List.mem_cons_self
          rw [← (List.cons.inj parts).1, UInt8.toNat_ofNat'] at high
          omega

theorem infix_lossy (ascii : ∀ c ∈ text, c.toNat < 128) (filled : text ≠ []) :
    text <:+: lossy bytes ↔ encode text <:+: bytes := by
  have skip : ∀ {pre rest : List UInt8}, (∀ b ∈ pre, 128 ≤ b.toNat) →
    (encode text <:+: pre ++ rest ↔ encode text <:+: rest) := by
    intro pre rest foreign
    refine infix_skip (encode_filled filled) fun b member first => ?_
    exact Nat.not_lt.mpr (foreign b member) (encode_low ascii b (List.mem_of_mem_head? first))
  induction bytes using replacing with
  | nil =>
    refine iff_of_false (fun inside => filled (List.infix_nil.mp inside)) fun inside => ?_
    exact encode_filled filled (List.infix_nil.mp inside)
  | char c bytes ih =>
    have ih : text <:+: lossy bytes ↔ encode text <:+: bytes := ih
    rw [lossy_char, List.infix_cons_iff, ih, ← lossy_char, prefix_lossy ascii]
    by_cases small : c.toNat < 128
    · rw [encode_ascii small, List.singleton_append, List.infix_cons_iff]
    · rw [skip (encode_foreign (Nat.le_of_not_lt small))]
      refine ⟨fun either => either.elim (fun start => ?_) id, .inr⟩
      exact (skip (encode_foreign (Nat.le_of_not_lt small))).mp start.isInfix
  | broken junk bytes _ foreign read ih =>
    have odd : ∀ d ∈ ['\uFFFD'], text.head? ≠ some d := by
      intro d member first
      obtain rfl := List.mem_singleton.mp member
      exact absurd (ascii _ (List.mem_of_mem_head? first)) (by decide)
    rw [read, skip foreign]
    exact (infix_skip filled odd : text <:+: ['\uFFFD'] ++ _ ↔ _).trans ih

theorem infix_textDecode (ascii : ∀ c ∈ text, c.toNat < 128) (filled : text ≠ []) :
    text <:+: textDecode bytes ↔ encode text <:+: bytes := by
  rw [← infix_lossy ascii filled]
  unfold textDecode
  split
  · rename_i rest read
    have odd : ∀ d ∈ ['\uFEFF'], text.head? ≠ some d := by
      intro d member first
      obtain rfl := List.mem_singleton.mp member
      exact absurd (ascii _ (List.mem_of_mem_head? first)) (by decide)
    rw [read]
    exact (infix_skip filled odd).symm
  · rfl

end Ascii

end Utf8
