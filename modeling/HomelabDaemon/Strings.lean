import Mathlib.Data.List.Chain
import Mathlib.Data.List.DropRight
import Mathlib.Algebra.GroupWithZero.Nat
import Mathlib.Algebra.Group.Int.Defs

/-!
# Strings

The functions on strings that programs of this kind use, on lists of characters: where the first occurrence of a
separator stands, what occurs in joined texts, and the replacing of all occurrences from left to right.
-/

namespace Strings

abbrev Str := List Char

/-- White space as Unicode has it. -/
def isSpace (c : Char) : Bool :=
  let n := c.toNat
  (0x09 ≤ n && n ≤ 0x0D) || n == 0x20 || n == 0x85 || n == 0xA0 || n == 0x1680 || (0x2000 ≤ n && n ≤ 0x200A) ||
  n == 0x2028 || n == 0x2029 || n == 0x202F || n == 0x205F || n == 0x3000

/-- Without the white space at both ends. -/
def trimSpace (s : Str) : Str := (s.dropWhile isSpace).rdropWhile isSpace

/-- The lines of a text; after a last line break stands an empty one. -/
def lines (s : Str) : List Str := s.splitOn '\n'

/-- What stands before and after the first occurrence. -/
def cut (sep : Str) : Str → Option (Str × Str)
  | [] => if sep = [] then some ([], []) else none
  | c :: s =>
    if sep.isPrefixOf (c :: s) then some ([], (c :: s).drop sep.length)
    else (cut sep s).map fun (before, after) => (c :: before, after)

def contains (s sub : Str) : Bool := (cut sub s).isSome

def hasSuffix (s suffix : Str) : Bool := suffix.isSuffixOf s

/-- The words between white space. -/
def fields (s : Str) : List Str := (s.splitOnP isSpace).filter (· ≠ [])

/-- The decimal number that a text starts with, when it fits into 64 bits. -/
def scanInt (s : Str) : Option Int :=
  let (negative, digits) := match s with
    | '-' :: s => (true, s)
    | '+' :: s => (false, s)
    | s => (false, s)
  let digits := digits.takeWhile Char.isDigit
  let n : Int := digits.foldl (fun n c => 10 * n + (c.toNat - '0'.toNat : Nat)) 0
  let n := if negative then -n else n
  if digits = [] ∨ n < -2 ^ 63 ∨ 2 ^ 63 ≤ n then none else some n

/-- With `skip` characters of an occurrence still to drop. -/
def replaceFrom (old new : Str) : Nat → Str → Str
  | _, [] => []
  | skip + 1, _ :: s => replaceFrom old new skip s
  | 0, c :: s =>
    if old.isPrefixOf (c :: s) then new ++ replaceFrom old new (old.length - 1) s else c :: replaceFrom old new 0 s

/-- `strings.ReplaceAll` of a text that is not empty. -/
def replaceAll (s old new : Str) : Str := replaceFrom old new 0 s

section Cut
variable {sep s before after name : Str} {c : Char}

theorem cut_sound {parts : Str × Str} (found : cut sep s = some parts) : s = parts.1 ++ sep ++ parts.2 := by
  induction s generalizing parts with
  | nil =>
    unfold cut at found
    split at found
    · rename_i none
      obtain rfl := Option.some.inj found
      simp [none]
    · cases found
  | cons d s ih =>
    unfold cut at found
    split at found
    · rename_i starts
      obtain rfl := Option.some.inj found
      obtain ⟨rest, same⟩ := List.isPrefixOf_iff_prefix.mp starts
      rw [← same]
      simp
    · obtain ⟨inner, cutInner, rfl⟩ := Option.map_eq_some_iff.mp found
      simpa using ih cutInner

theorem contains_iff : contains s sep = true ↔ sep <:+: s := by
  unfold contains
  constructor
  · intro found
    obtain ⟨parts, found⟩ := Option.isSome_iff_exists.mp found
    exact ⟨parts.1, parts.2, (cut_sound found).symm⟩
  · intro inside
    induction s with
    | nil => simp [cut, List.infix_nil.mp inside]
    | cons d s ih =>
      unfold cut
      split
      · rfl
      · rename_i other
        rcases List.infix_cons_iff.mp inside with starts | later
        · exact absurd (List.isPrefixOf_iff_prefix.mpr starts) other
        · rw [Option.isSome_map]
          exact ih later

theorem cut_eq_none (absent : ¬ sep <:+: s) : cut sep s = none := by
  rw [← contains_iff] at absent
  simpa [contains] using absent

/-- A separator that ends with a character the text has once. -/
theorem cut_mark (fresh : c ∉ before) (last : c ∉ after) :
    (cut (name ++ [c]) (before ++ c :: after)).map (·.2) = if name <:+ before then some after else none := by
  cases found : cut (name ++ [c]) (before ++ c :: after) with
  | none =>
    rw [if_neg]
    · rfl
    · rintro ⟨rest, rfl⟩
      have inside : contains (rest ++ name ++ c :: after) (name ++ [c]) = true :=
        contains_iff.mpr ⟨rest, after, by simp⟩
      rw [contains, found] at inside
      cases inside
  | some parts =>
    have same := cut_sound found
    rw [← List.append_assoc, List.append_assoc _ [c], List.singleton_append] at same
    obtain ⟨rfl, -, rfl⟩ := (List.append_cons_inj_of_notMem fresh last).mp same
    rw [if_pos ⟨parts.1, rfl⟩]
    rfl

theorem cut_single (fresh : c ∉ before) : cut [c] (before ++ c :: after) = some (before, after) := by
  induction before with
  | nil => simp [cut]
  | cons d before ih =>
    obtain ⟨other, fresh⟩ : c ≠ d ∧ c ∉ before := by simpa using fresh
    have none : ¬ [c].isPrefixOf (d :: (before ++ c :: after)) = true := by simp [List.isPrefixOf, other]
    rw [List.cons_append, cut, if_neg none, ih fresh]
    rfl

/-- White space in front moves a separator that does not start with it. -/
theorem cut_indent {d : Char} (n : Nat) (other : d ≠ c) (s : Str) :
    cut (d :: name) (List.replicate n c ++ s) = (cut (d :: name) s).map fun parts =>
    (List.replicate n c ++ parts.1, parts.2) := by
  induction n with
  | zero => simp
  | succ n ih =>
    have none : ¬ (d :: name).isPrefixOf (c :: (List.replicate n c ++ s)) = true := by simp [List.isPrefixOf, other]
    rw [List.replicate_succ, List.cons_append, cut, if_neg none, ih, Option.map_map]
    rfl

theorem cut_start (c : Char) (name after : Str) : cut (c :: name) (c :: name ++ after) = some ([], after) := by
  rw [List.cons_append, cut, if_pos]
  · simp
  · exact List.isPrefixOf_iff_prefix.mpr (List.prefix_append _ _)

theorem suffix_indent {d : Char} (n : Nat) (other : d ≠ c) (s : Str) :
    (d :: name) <:+ List.replicate n c ++ s ↔ (d :: name) <:+ s := by
  induction n with
  | zero => rfl
  | succ n ih =>
    rw [List.replicate_succ, List.cons_append, List.suffix_cons_iff, ih]
    simp [other]

theorem last_inj {u v x y : Str} (fresh : c ∉ x) (fresh' : c ∉ y) (same : u ++ c :: x = v ++ c :: y) : x = y := by
  rcases List.append_eq_append_iff.mp same with ⟨mid, _, parts⟩ | ⟨mid, _, parts⟩
  · cases mid with
    | nil => exact (List.cons.inj parts).2
    | cons d mid =>
      obtain ⟨rfl, rfl⟩ := List.cons.inj parts
      simp at fresh
  · cases mid with
    | nil => exact (List.cons.inj parts).2.symm
    | cons d mid =>
      obtain ⟨rfl, rfl⟩ := List.cons.inj parts
      simp at fresh'

end Cut

section Joined
variable {α : Type} {sub a b : List α} {c : α}

/-- What starts with another character and does not have it is empty. -/
theorem prefix_fresh (fresh : c ∉ sub) (start : sub <+: c :: b) : sub = [] := by
  rcases List.prefix_cons_iff.mp start with empty | ⟨rest, rfl, _⟩
  · exact empty
  · exact absurd List.mem_cons_self fresh

theorem infix_append_fresh (fresh : c ∉ sub) : sub <:+: a ++ c :: b ↔ sub <:+: a ∨ sub <:+: b := by
  rw [List.infix_append_iff, List.infix_cons_iff]
  refine ⟨?_, ?_⟩
  · rintro (left | (start | right) | ⟨front, rest, rfl, ends, starts⟩)
    · exact .inl left
    · rw [prefix_fresh fresh start]
      exact .inl List.nil_infix
    · exact .inr right
    · have empty := prefix_fresh (fun member => fresh (List.mem_append_right _ member)) starts
      rw [empty, List.append_nil]
      exact .inl ends.isInfix
  · rintro (left | right)
    · exact .inl left
    · exact .inr (.inl (.inr right))

theorem infix_intercalate (nonempty : sub ≠ []) (fresh : c ∉ sub) (texts : List (List α)) :
    sub <:+: [c].intercalate texts ↔ ∃ text ∈ texts, sub <:+: text := by
  induction texts with
  | nil =>
    refine iff_of_false (fun inside => nonempty (List.infix_nil.mp inside)) ?_
    rintro ⟨_, none, _⟩
    cases none
  | cons text rest ih =>
    cases rest with
    | nil => simp
    | cons next rest =>
      rw [List.intercalate_cons_cons, List.append_assoc, List.singleton_append, infix_append_fresh fresh, ih]
      simp

end Joined

section Replace
variable {old new s t : Str} {c : Char}

theorem replaceFrom_append (s t : Str) : replaceFrom old new s.length (s ++ t) = replaceAll t old new := by
  induction s with
  | nil => rfl
  | cons c s ih => exact ih

theorem replaceAll_found (nonempty : old ≠ []) (t : Str) :
    replaceAll (old ++ t) old new = new ++ replaceAll t old new := by
  obtain ⟨c, rest, rfl⟩ := List.exists_cons_of_ne_nil nonempty
  have starts : (c :: rest).isPrefixOf (c :: (rest ++ t)) = true :=
    List.isPrefixOf_iff_prefix.mpr (List.prefix_append _ t)
  rw [List.cons_append, replaceAll, replaceFrom, if_pos starts]
  exact congrArg (new ++ ·) (replaceFrom_append rest t)

theorem replaceAll_cons (other : ¬ old <+: c :: s) : replaceAll (c :: s) old new = c :: replaceAll s old new := by
  rw [replaceAll, replaceFrom, if_neg (fun starts => other (List.isPrefixOf_iff_prefix.mp starts))]
  rfl

end Replace

end Strings
