import Mathlib.Data.List.Basic

/-!
# Files written in place

A file is truncated before it is written, so that a later reader may find any beginning of the text. Where a
codec reads no proper beginning, the file tells what was last written to it, or nothing.
-/

namespace InPlace

/-- The content of a file, or none where there is no file. -/
abbrev File := Option (List UInt8)

/-- How far a write comes before it fails or the process is killed. -/
inductive Write where
  /-- The file is not opened. -/
  | refused
  | short (bytes : Nat)
  | whole

def Write.leaves (file : File) (data : List UInt8) : Write → File
  | .refused => file
  | .short bytes => some (data.take bytes)
  | .whole => some data

/-- What is written as `encode` has it is read back as `image` has it, and a part of it is not read. -/
structure Codec (A B : Type) where
  encode : A → List UInt8
  decode : List UInt8 → Option B
  image : A → B
  decode_encode : ∀ a, decode (encode a) = some (image a)
  decode_cut : ∀ a k, k < (encode a).length → decode ((encode a).take k) = none

variable {A B : Type} (c : Codec A B)

namespace Codec

def read (file : File) : Option B := file.bind c.decode

/-- What a file tells after a write, from what it told before. -/
def after (held : Option B) (a : A) : Write → Option B
  | .refused => held
  | .short bytes => if (c.encode a).length ≤ bytes then some (c.image a) else none
  | .whole => some (c.image a)

theorem read_leaves (file : File) (a : A) (w : Write) :
    c.read (w.leaves file (c.encode a)) = c.after (c.read file) a w := by
  cases w with
  | refused => rfl
  | whole => exact c.decode_encode a
  | short bytes =>
    unfold after
    dsimp only
    split_ifs with enough
    · rw [Write.leaves, List.take_of_length_le enough]
      exact c.decode_encode a
    · exact c.decode_cut a bytes (Nat.lt_of_not_le enough)

variable {c}

theorem after_cases (held : Option B) (a : A) (w : Write) :
    c.after held a w = held ∨ c.after held a w = none ∨ c.after held a w = some (c.image a) := by
  cases w with
  | refused => exact .inl rfl
  | whole => exact .inr (.inr rfl)
  | short bytes =>
    unfold after
    dsimp only
    split_ifs
    · exact .inr (.inr rfl)
    · exact .inr (.inl rfl)

end Codec

end InPlace
