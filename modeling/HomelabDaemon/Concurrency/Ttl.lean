import Mathlib.Data.List.Basic

/-!
# Answers that are kept for a while

A variable that handlers share holds the answer of the last of them to store one, and until when it is good.
-/

namespace Concurrency.Ttl

/-- What of the variable's content is good at a time, and what is put there. -/
structure Cell (V C : Type) where
  ttl : Int
  empty : C
  fresh : C → Int → Option V
  fill : V → Int → C
  fresh_fill (value : V) (stored now : Int) : fresh (fill value stored) now = if now < stored + ttl then some value
    else none

/-- An answer with the times at which it is got and stored. -/
structure Store (V : Type) where
  value : V
  taken : Int
  stored : Int

variable {V C : Type} {cell : Cell V C} {stores : List (Store V)} {store : Store V} {value : V} {now wait : Int}

def Cell.after (cell : Cell V C) : List (Store V) → C
  | [] => cell.empty
  | store :: _ => cell.fill store.value store.stored

def Ordered (stores : List (Store V)) : Prop := stores.Pairwise fun newer older => older.stored ≤ newer.stored

theorem Ordered.cons (ordered : Ordered stores) (later : ∀ older ∈ stores, older.stored ≤ store.stored) :
    Ordered (store :: stores) := List.pairwise_cons.mpr ⟨later, ordered⟩

theorem fresh_cons : cell.fresh (cell.after (store :: stores)) now = if now < store.stored +
    cell.ttl then some store.value else none :=
  cell.fresh_fill store.value store.stored now

theorem fresh_eq_some_iff (void : cell.fresh cell.empty now = none) :
    cell.fresh (cell.after stores) now = some value ↔
      ∃ store older, stores = store :: older ∧ store.value = value ∧ now < store.stored + cell.ttl := by
  cases stores with
  | nil =>
    refine iff_of_false (fun found => ?_) fun ⟨_, _, absurd, _⟩ => List.cons_ne_nil _ _ absurd.symm
    rw [Cell.after, void] at found
    cases found
  | cons store older =>
    rw [fresh_cons]
    constructor
    · intro found
      split at found
      · cases found
        exact ⟨store, older, rfl, rfl, ‹_›⟩
      · cases found
    · rintro ⟨_, _, same, rfl, good⟩
      cases same
      exact if_pos good

theorem fresh_eq_none_iff (void : cell.fresh cell.empty now = none) (ordered : Ordered stores) :
    cell.fresh (cell.after stores) now = none ↔ ∀ store ∈ stores, store.stored + cell.ttl ≤ now := by
  cases stores with
  | nil => exact iff_of_true void fun _ member => absurd member List.not_mem_nil
  | cons store older =>
    obtain ⟨newest, _⟩ := List.pairwise_cons.mp ordered
    rw [fresh_cons, ite_eq_right_iff]
    constructor
    · intro stale other member
      have old : ¬ now < store.stored + cell.ttl := fun good => Option.some_ne_none _ (stale good)
      rcases List.mem_cons.mp member with rfl | member
      · omega
      · have := newest other member
        omega
    · intro old good
      have := old store List.mem_cons_self
      omega

/-- What is found is younger than the ttl and the longest wait before a store. -/
theorem taken_of_fresh (void : cell.fresh cell.empty now = none)
    (prompt : ∀ store ∈ stores, store.stored ≤ store.taken + wait)
    (found : cell.fresh (cell.after stores) now = some value) :
    ∃ store ∈ stores, store.value = value ∧ now < store.taken + wait + cell.ttl := by
  obtain ⟨store, older, rfl, same, good⟩ := (fresh_eq_some_iff void).mp found
  have := prompt store List.mem_cons_self
  exact ⟨store, List.mem_cons_self, same, by omega⟩

end Concurrency.Ttl
