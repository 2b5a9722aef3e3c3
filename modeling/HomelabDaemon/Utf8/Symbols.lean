import HomelabDaemon.Utf8

/-!
# Bytes as symbols

Any text of bytes, read character by character; a byte that starts no character is a symbol of
its own. Unlike `decode`, nothing is lost. ASCII bytes are symbols wherever they stand.
-/

namespace Utf8

inductive Symbol where
  | char (c : Char)
  | stray (b : UInt8)
  deriving DecidableEq

def Symbol.bytes : Symbol → List UInt8
  | char c => String.utf8EncodeChar c
  | stray b => [b]

/-- `skip` bytes belong to the last symbol. -/
def symbolsFrom : Nat → List UInt8 → List Symbol
  | _, [] => []
  | skip + 1, _ :: bytes => symbolsFrom skip bytes
  | 0, b :: bytes =>
    match decodeRune (b :: bytes) with
    | some c => .char c :: symbolsFrom (c.utf8Size - 1) bytes
    | none => .stray b :: symbolsFrom 0 bytes

def symbols (bytes : List UInt8) : List Symbol := symbolsFrom 0 bytes

def unread (text : List Symbol) : List UInt8 := text.flatMap Symbol.bytes

variable {c : Char} {b : UInt8} {bytes x y : List UInt8}

@[simp] theorem symbols_nil : symbols [] = [] := rfl

theorem symbolsFrom_eq (skip : Nat) (bytes : List UInt8) : symbolsFrom skip bytes = symbols (bytes.drop skip) := by
  induction bytes generalizing skip with
  | nil => cases skip <;> rfl
  | cons b bytes ih =>
    cases skip with
    | zero => rfl
    | succ skip => exact ih skip

theorem symbols_char (c : Char) (bytes : List UInt8) :
    symbols (String.utf8EncodeChar c ++ bytes) = .char c :: symbols bytes := by
  have decoded := decodeRune_encode c bytes
  have size := String.length_utf8EncodeChar c
  cases encoded : String.utf8EncodeChar c with
  | nil => exact absurd encoded String.utf8EncodeChar_ne_nil
  | cons b tail =>
    rw [encoded] at decoded size
    rw [List.cons_append] at decoded ⊢
    rw [symbols, symbolsFrom, decoded]
    dsimp only
    rw [symbolsFrom_eq, ← size, List.length_cons, Nat.add_sub_cancel, List.drop_left]

theorem symbols_stray (fails : decodeRune (b :: bytes) = none) : symbols (b :: bytes) = .stray b :: symbols bytes := by
  rw [symbols, symbolsFrom, fails]
  rfl

/-- Any text starts with a character or with a stray byte. -/
theorem reading {P : List UInt8 → Prop} (nil : P []) (char : ∀ c bytes, P bytes → P (String.utf8EncodeChar c ++ bytes))
    (stray : ∀ b bytes, decodeRune (b :: bytes) = none → P bytes → P (b :: bytes)) (bytes : List UInt8) : P bytes := by
  induction size : bytes.length using Nat.strong_induction_on generalizing bytes with
  | _ n ih =>
    cases bytes with
    | nil => exact nil
    | cons b bytes =>
      cases decoded : decodeRune (b :: bytes) with
      | none => exact stray b bytes decoded (ih _ (by rw [← size]; exact Nat.lt_succ_self _) bytes rfl)
      | some c =>
        obtain ⟨rest, parts⟩ := decodeRune_some decoded
        have positive : 0 < (String.utf8EncodeChar c).length := List.length_pos_iff.mpr String.utf8EncodeChar_ne_nil
        rw [parts] at size ⊢
        rw [List.length_append] at size
        exact char c rest (ih _ (by omega) rest rfl)

theorem unread_symbols (bytes : List UInt8) : unread (symbols bytes) = bytes := by
  induction bytes using reading with
  | nil => rfl
  | char c bytes ih =>
    rw [symbols_char, unread, List.flatMap_cons]
    exact congrArg (String.utf8EncodeChar c ++ ·) ih
  | stray b bytes fails ih =>
    rw [symbols_stray fails, unread, List.flatMap_cons]
    exact congrArg (b :: ·) ih

theorem symbols_append {u v : List Symbol} (parts : symbols bytes = u ++ v) :
    symbols (unread u) = u ∧ symbols (unread v) = v := by
  induction bytes using reading generalizing u with
  | nil =>
    obtain ⟨rfl, rfl⟩ := List.append_eq_nil_iff.mp parts.symm
    exact ⟨rfl, rfl⟩
  | char c bytes ih =>
    cases u with
    | nil =>
      rw [List.nil_append] at parts
      rw [← parts, unread_symbols]
      exact ⟨rfl, rfl⟩
    | cons s u =>
      rw [symbols_char, List.cons_append] at parts
      obtain ⟨rfl, tail⟩ := List.cons.inj parts
      obtain ⟨first, last⟩ := ih tail
      refine ⟨?_, last⟩
      rw [unread, List.flatMap_cons, Symbol.bytes, symbols_char]
      exact congrArg _ first
  | stray b bytes fails ih =>
    cases u with
    | nil =>
      rw [List.nil_append] at parts
      rw [← parts, unread_symbols]
      exact ⟨rfl, rfl⟩
    | cons s u =>
      rw [symbols_stray fails, List.cons_append] at parts
      obtain ⟨rfl, tail⟩ := List.cons.inj parts
      obtain ⟨first, last⟩ := ih tail
      refine ⟨?_, last⟩
      have behind : bytes = unread u ++ unread v := by
        rw [← unread_symbols bytes, tail, unread, List.flatMap_append]
        rfl
      have fails' : decodeRune (b :: unread u) = none := by
        cases decoded : decodeRune (b :: unread u) with
        | none => rfl
        | some c =>
          obtain ⟨rest, starts⟩ := decodeRune_some decoded
          rw [behind, ← List.cons_append, starts, List.append_assoc, decodeRune_encode] at fails
          cases fails
      rw [unread, List.flatMap_cons, Symbol.bytes, List.singleton_append]
      exact (symbols_stray fails').trans (congrArg _ first)

theorem symbols_inj (same : symbols x = symbols y) : x = y := by
  rw [← unread_symbols x, ← unread_symbols y, same]

theorem symbols_encode (text : List Char) : symbols (encode text) = text.map .char := by
  induction text with
  | nil => rfl
  | cons c text ih =>
    rw [encode, List.flatMap_cons, symbols_char]
    exact congrArg _ ih

/-! ### ASCII bytes -/

theorem encode_byte (small : b.toNat < 128) : String.utf8EncodeChar (Char.ofUInt8 b) = [b] := by
  have value : (Char.ofUInt8 b).toNat = b.toNat := UInt8.toNat_toUInt32 b
  rw [encode_ascii (by rw [value]; exact small), value, UInt8.ofNat_toNat]

theorem symbols_byte (small : b.toNat < 128) (bytes : List UInt8) :
    symbols (b :: bytes) = .char (Char.ofUInt8 b) :: symbols bytes := by
  have read := symbols_char (Char.ofUInt8 b) bytes
  rwa [encode_byte small] at read

theorem symbols_small {a : List UInt8} (small : ∀ b ∈ a, b.toNat < 128) (y : List UInt8) :
    symbols (a ++ y) = a.map (fun b => .char (Char.ofUInt8 b)) ++ symbols y := by
  induction a with
  | nil => rfl
  | cons b a ih =>
    rw [List.cons_append, symbols_byte (small b List.mem_cons_self), ih fun b' member =>
      small b' (List.mem_cons_of_mem b member)]
    rfl

theorem encode_small (member : b ∈ String.utf8EncodeChar c) (small : b.toNat < 128) :
    String.utf8EncodeChar c = [b] := by
  by_cases foreign : 128 ≤ c.toNat
  · have := encode_foreign foreign b member
    omega
  · have single := encode_ascii (Nat.lt_of_not_le foreign)
    rw [single] at member ⊢
    rw [List.mem_singleton.mp member]

/-- A byte that starts no character starts none with more text behind an ASCII byte. -/
theorem decodeRune_before (small : b.toNat < 128) {s : UInt8} (fails : decodeRune (s :: x) = none) (y : List UInt8) :
    decodeRune (s :: x ++ b :: y) = none := by
  cases decoded : decodeRune (s :: x ++ b :: y) with
  | none => rfl
  | some c =>
    have whole : ∀ rest, s :: x ≠ String.utf8EncodeChar c ++ rest := by
      intro rest parts
      rw [parts, decodeRune_encode] at fails
      cases fails
    obtain ⟨rest, parts⟩ := decodeRune_some decoded
    rcases List.append_eq_append_iff.mp parts with ⟨mid, longer, behind⟩ | ⟨mid, shorter, _⟩
    · cases mid with
      | nil => exact absurd (by rw [longer, List.append_nil, List.append_nil]) (whole [])
      | cons d mid =>
        obtain ⟨rfl, _⟩ := List.cons.inj behind
        have single := encode_small (by rw [longer]; simp) small
        rw [single] at longer
        simp at longer
    · exact absurd shorter (whole mid)

/-- An ASCII byte stands alone, whatever the bytes around it. -/
theorem symbols_ascii (small : b.toNat < 128) (x y : List UInt8) :
    symbols (x ++ b :: y) = symbols x ++ .char (Char.ofUInt8 b) :: symbols y := by
  induction x using reading with
  | nil => exact symbols_byte small y
  | char c x ih => rw [List.append_assoc, symbols_char, symbols_char, ih, List.cons_append]
  | stray s x fails ih =>
    have fails' : decodeRune (s :: (x ++ b :: y)) = none := decodeRune_before small fails y
    rw [symbols_stray fails, List.cons_append, symbols_stray fails', ih, List.cons_append]

end Utf8
