import HomelabDaemon.Utf8.Symbols
import HomelabDaemon.Strings.Words

/-!
# Words of bytes

The words between white space in a text of bytes. Only a symbol that is a character can be white
space.
-/

namespace Utf8
open Strings (wordsBy)

namespace Symbol

def isSpace : Symbol → Bool
  | char c => Strings.isSpace c
  | stray _ => false

end Symbol

def fields (bytes : List UInt8) : List (List UInt8) := (wordsBy Symbol.isSpace (symbols bytes)).map unread

structure IsWord (bytes : List UInt8) : Prop where
  nonempty : bytes ≠ []
  solid : ∀ s ∈ symbols bytes, s.isSpace = false

instance (bytes : List UInt8) : Decidable (IsWord bytes) :=
  have : Decidable (∀ s ∈ symbols bytes, s.isSpace = false) := List.decidableBAll (Symbol.isSpace · = false) _
  decidable_of_iff (bytes ≠ [] ∧ ∀ s ∈ symbols bytes, s.isSpace = false) ⟨fun h => ⟨h.1, h.2⟩,
    fun h => ⟨h.nonempty, h.solid⟩⟩

variable {w x y : List UInt8} {b : UInt8}

@[simp] theorem fields_nil : fields [] = [] := by simp [fields]

theorem fields_break (space : Strings.isSpace (Char.ofUInt8 b) = true) (small : b.toNat < 128) (x y : List UInt8) :
    fields (x ++ b :: y) = fields x ++ fields y := by
  have gap : Symbol.isSpace (.char (Char.ofUInt8 b)) = true := space
  rw [fields, symbols_ascii small, Strings.wordsBy_break gap, List.map_append]
  rfl

theorem fields_word (word : IsWord w) : fields w = [w] := by
  have nonempty : symbols w ≠ [] := by
    intro none
    exact word.nonempty (symbols_inj (none.trans symbols_nil.symm))
  rw [fields, Strings.wordsBy_word nonempty word.solid, List.map_singleton, unread_symbols]

theorem word_of_mem_fields (member : w ∈ fields x) : IsWord w := by
  obtain ⟨v, inWords, rfl⟩ := List.mem_map.mp member
  obtain ⟨nonempty, solid⟩ := Strings.word_of_mem_wordsBy inWords
  obtain ⟨u, z, parts⟩ := Strings.infix_of_mem_wordsBy inWords
  have own : symbols (unread v) = v := by
    obtain ⟨front, _⟩ := symbols_append parts.symm
    exact (symbols_append front).2
  refine ⟨fun none => ?_, by rwa [own]⟩
  rw [none] at own
  exact nonempty own.symm

theorem IsWord.fresh {b : UInt8} (word : IsWord x) (space : Strings.isSpace (Char.ofUInt8 b) = true)
    (small : b.toNat < 128) : b ∉ x := by
  intro member
  obtain ⟨u, v, rfl⟩ := List.append_of_mem member
  have solid := word.solid (.char (Char.ofUInt8 b)) (by rw [symbols_ascii small]; simp)
  exact absurd (solid.symm.trans space) (by decide)

theorem fields_indent (n : Nat) (x : List UInt8) : fields (List.replicate n 0x20 ++ x) = fields x := by
  induction n with
  | zero => rfl
  | succ n ih =>
    have first : fields ([] ++ 0x20 :: (List.replicate n 0x20 ++ x)) = fields [] ++
      fields (List.replicate n 0x20 ++ x) :=
      fields_break (by decide) (by decide) [] _
    rw [ih] at first
    exact first

def trimSpace (bytes : List UInt8) : List UInt8 := unread (Strings.trimBy Symbol.isSpace (symbols bytes))

theorem fields_trimSpace (x : List UInt8) : fields (trimSpace x) = fields x := by
  obtain ⟨u, v, _, _, parts⟩ := Strings.trimBy_parts Symbol.isSpace (symbols x)
  obtain ⟨front, _⟩ := symbols_append parts
  have own : symbols (trimSpace x) = Strings.trimBy Symbol.isSpace (symbols x) := (symbols_append front).2
  rw [fields, own, Strings.wordsBy_trimBy]
  rfl

/-- A text that starts with a word keeps it, and what follows the word keeps its first byte. -/
theorem trimSpace_word (word : IsWord w) (small : b.toNat < 128) (x : List UInt8) :
    ∃ x', trimSpace (w ++ b :: x) = w ++ x' ∧ (x' = [] ∨ ∃ y, x' = b :: y) := by
  have nonempty : symbols w ≠ [] := fun none => word.nonempty (symbols_inj (none.trans symbols_nil.symm))
  obtain ⟨s, starts, trimmed⟩ := Strings.trimBy_word nonempty word.solid (.char (Char.ofUInt8 b) :: symbols x)
  refine ⟨unread s, ?_, ?_⟩
  · rw [trimSpace, symbols_ascii small, trimmed, unread, List.flatMap_append]
    exact congrArg (· ++ unread s) (unread_symbols w)
  · cases s with
    | nil => exact .inl rfl
    | cons c s =>
      obtain ⟨rfl, _⟩ := List.cons_prefix_cons.mp starts
      refine .inr ⟨unread s, ?_⟩
      rw [unread, List.flatMap_cons, Symbol.bytes, encode_byte small]
      rfl

/-! ### Encoded texts -/

theorem encode_inj {s t : List Char} (same : encode s = encode t) : s = t := by
  rw [← decode_encode s, ← decode_encode t, same]

theorem unread_char (s : List Char) : unread (s.map .char) = encode s := by
  unfold unread encode
  rw [List.flatMap_map]
  rfl

theorem fields_encode (s : List Char) : fields (encode s) = (Strings.fields s).map encode := by
  have split : wordsBy Symbol.isSpace (s.map .char) = (Strings.fields s).map (·.map .char) :=
    Strings.wordsBy_map (fun _ => rfl) s
  rw [fields, symbols_encode, split, List.map_map]
  exact List.map_congr_left fun w _ => unread_char w

theorem splitOn_encode {c : Char} (own : String.utf8EncodeChar c = [b]) (small : b.toNat < 128) (s : List Char) :
    (encode s).splitOn b = (s.splitOn c).map encode := by
  refine Strings.splitOn_flatMap own (fun d other member => other ?_) s
  have same : encode [d] = encode [c] := by
    unfold encode
    rw [List.flatMap_singleton, List.flatMap_singleton, encode_small member small, own]
  exact (List.cons.inj (encode_inj same)).1

end Utf8
