import Mathlib.Data.List.Basic
import Mathlib.Tactic.ByContra

/-!
# Sorted slices

A sort by any comparison, which is right where the comparison orders the items, and the first items of its result.
-/

namespace Sorting

variable {α : Type}

/-- A strict weak order of the items. A float that is no number breaks it. -/
structure Orders (less : α → α → Bool) (items : List α) : Prop where
  asymm : ∀ a ∈ items, ∀ b ∈ items, less a b = true → less b a = false
  between : ∀ a ∈ items, ∀ b ∈ items, ∀ c ∈ items, less a c = true → less a b = true ∨ less b c = true

/-- Go's `sort.Slice`, whose result depends on the list alone. -/
structure SortSlice (α : Type) where
  sort : (α → α → Bool) → List α → List α
  perm : ∀ less items, (sort less items).Perm items
  sorted : ∀ less items, Orders less items → (sort less items).Pairwise fun a b => less b a = false

/-- The stable sort is one. -/
def SortSlice.merge (α : Type) : SortSlice α where
  sort less items := (items.attach.mergeSort fun a b => !less b.1 a.1).map Subtype.val
  perm less items := by
    have perm := (List.mergeSort_perm items.attach fun a b => !less b.1 a.1).map Subtype.val
    rwa [List.attach_map_subtype_val] at perm
  sorted less items orders := by
    have trans : ∀ a b c : {x // x ∈ items}, (!less b.1 a.1) = true → (!less c.1 b.1) = true →
      (!less c.1 a.1) = true := by
      intro a b c first second
      rw [Bool.not_eq_true'] at first second ⊢
      by_contra back
      rw [Bool.not_eq_false] at back
      rcases orders.between c.1 c.2 b.1 b.2 a.1 a.2 back with below | below
      · rw [second] at below
        cases below
      · rw [first] at below
        cases below
    have total : ∀ a b : {x // x ∈ items}, ((!less b.1 a.1) || !less a.1 b.1) = true := by
      intro a b
      cases back : less b.1 a.1 with
      | false => rfl
      | true =>
        rw [orders.asymm b.1 b.2 a.1 a.2 back]
        rfl
    rw [List.pairwise_map]
    refine (List.pairwise_mergeSort trans total items.attach).imp fun ordered => ?_
    rwa [Bool.not_eq_true'] at ordered

/-- The first `n` of the sorted items, or all. -/
def Tops (n : Nat) (less : α → α → Bool) (items shown : List α) : Prop :=
  ∃ others, (shown ++ others).Perm items ∧ shown.length = min n items.length ∧
    (Orders less items → (shown.Pairwise fun a b => less b a = false) ∧ ∀ a ∈ shown, ∀ b ∈ others, less b a = false)

variable {less : α → α → Bool} {items before : List α}

theorem Orders.of_perm (orders : Orders less items) (perm : before.Perm items) : Orders less before where
  asymm a first b second := orders.asymm a (perm.mem_iff.mp first) b (perm.mem_iff.mp second)
  between a first b second c third :=
    orders.between a (perm.mem_iff.mp first) b (perm.mem_iff.mp second) c (perm.mem_iff.mp third)

theorem tops_sort (sorting : SortSlice α) (n : Nat) (less : α → α → Bool) (perm : before.Perm items) :
    Tops n less items ((sorting.sort less before).take n) := by
  have all : (sorting.sort less before).Perm items := (sorting.perm less before).trans perm
  refine ⟨(sorting.sort less before).drop n, ?_, ?_, fun orders => ?_⟩
  · rw [List.take_append_drop]
    exact all
  · rw [List.length_take, all.length_eq]
  · have sorted := sorting.sorted less before (orders.of_perm perm)
    rw [← List.take_append_drop n (sorting.sort less before)] at sorted
    obtain ⟨shown, -, apart⟩ := List.pairwise_append.mp sorted
    exact ⟨shown, apart⟩

end Sorting
