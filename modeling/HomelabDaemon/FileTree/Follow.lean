import HomelabDaemon.FileTree.Node

/-!
# Following paths

How a path is followed through a tree and its symbolic links. Only the shapes of what stands at a
place matter.
-/

namespace FileTree
open Filepath (Path slash dot dotdot rooted IsName)

inductive Errno where
  | noent
  | notdir
  | loop
  | exist
  | notempty
  deriving DecidableEq

/-- The way along the parts of a path, with `next` for the way behind a link. -/
def followWith (σ : Place → Option Shape) (next : Place → List Path → Except Errno Place) :
    Place → List Path → Except Errno Place
  | cur, [] => .ok cur
  | cur, part :: rest =>
    if σ cur ≠ some .dir then .error .notdir
    else if part = [] ∨ part = dot then followWith σ next cur rest
    else if part = dotdot then followWith σ next cur.dropLast rest
    else
      match σ (cur ++ [part]) with
      | none => .error .noent
      | some (.symlink target) => next (if rooted target then [] else cur) (target.splitOn slash ++ rest)
      | some _ => followWith σ next (cur ++ [part]) rest

/-- The way along a path, over so many links at most. -/
def follow (σ : Place → Option Shape) : Nat → Place → List Path → Except Errno Place
  | 0 => followWith σ fun _ _ => .error .loop
  | links + 1 => followWith σ (follow σ links)

variable {σ σ' : Place → Option Shape} {next next' : Place → List Path → Except Errno Place} {links : Nat}
  {cur p place : Place} {name : Path}

theorem followWith_mono (grows : ∀ p s, σ p = some s → σ' p = some s)
    (later : ∀ cur p place, next cur p = .ok place → next' cur p = .ok place)
    (found : followWith σ next cur p = .ok place) : followWith σ' next' cur p = .ok place := by
  induction p generalizing cur with
  | nil => exact found
  | cons part rest ih =>
    unfold followWith at found ⊢
    split at found
    · cases found
    · rename_i isDir
      rw [if_neg (not_not.mpr (grows _ _ (not_not.mp isDir)))]
      split at found
      · rename_i skip
        rw [if_pos skip]
        exact ih found
      · rename_i skip
        rw [if_neg skip]
        split at found
        · rename_i up
          rw [if_pos up]
          exact ih found
        · rename_i up
          rw [if_neg up]
          split at found
          · cases found
          · rename_i target link
            rw [grows _ _ link]
            exact later _ _ _ found
          · rename_i s other here
            rw [grows _ _ here]
            cases s with
            | symlink target => exact absurd rfl (other target)
            | dir | file => exact ih found

theorem follow_mono (grows : ∀ p s, σ p = some s → σ' p = some s) (found : follow σ links cur p = .ok place) :
    follow σ' links cur p = .ok place := by
  induction links generalizing cur p place with
  | zero => exact followWith_mono grows (fun _ _ _ none => by cases none) found
  | succ links ih => exact followWith_mono grows (fun _ _ _ => ih) found

theorem followWith_append (links : Nat) (same : ∀ cur p, followWith σ next cur p = follow σ links cur p)
    (later : ∀ cur p place, next cur p = .ok place → ∃ links, ∀ rest, next cur (p ++ rest) = follow σ links place rest)
    (found : followWith σ next cur p = .ok place) :
    ∃ links, ∀ rest, followWith σ next cur (p ++ rest) = follow σ links place rest := by
  induction p generalizing cur with
  | nil =>
    obtain rfl : cur = place := Except.ok.inj found
    exact ⟨links, same cur⟩
  | cons part p ih =>
    simp only [List.cons_append]
    unfold followWith at found ⊢
    split at found
    · cases found
    · rename_i isDir
      simp only [if_neg isDir]
      split at found
      · rename_i skip
        simp only [if_pos skip]
        exact ih found
      · rename_i skip
        simp only [if_neg skip]
        split at found
        · rename_i up
          simp only [if_pos up]
          exact ih found
        · rename_i up
          simp only [if_neg up]
          split at found
          · cases found
          · rename_i target link
            obtain ⟨links, behind⟩ := later _ _ _ found
            refine ⟨links, fun rest => ?_⟩
            rw [← behind, List.append_assoc]
          · exact ih found

theorem follow_append (found : follow σ links cur p = .ok place) :
    ∃ links', ∀ rest, follow σ links cur (p ++ rest) = follow σ links' place rest := by
  induction links generalizing cur p place with
  | zero => exact followWith_append 0 (fun _ _ => rfl) (fun _ _ _ none => by cases none) found
  | succ links ih => exact followWith_append (links + 1) (fun _ _ => rfl) (fun _ _ _ => ih) found

theorem followWith_dirs (proper : ∀ name ∈ p, IsName name) (dirs : ∀ q, q <+: p → σ (cur ++ q) = some .dir) :
    followWith σ next cur p = .ok (cur ++ p) := by
  induction p generalizing cur with
  | nil => simp [followWith]
  | cons name p ih =>
    obtain ⟨first, rest⟩ := List.forall_mem_cons.mp proper
    have here : σ cur = some .dir := by simpa using dirs [] List.nil_prefix
    have below : σ (cur ++ [name]) = some .dir := dirs [name] (by simp)
    have further : followWith σ next (cur ++ [name]) p = .ok (cur ++ [name] ++ p) := ih rest fun q starts => by
      simpa using dirs (name :: q) ((List.prefix_cons_inj name).mpr starts)
    unfold followWith
    rw [if_neg (not_not.mpr here), if_neg (not_or.mpr ⟨first.nonempty, first.not_dot⟩), if_neg first.not_dotdot, below]
    simpa using further

theorem follow_dirs (proper : ∀ name ∈ p, IsName name) (dirs : ∀ q, q <+: p → σ (cur ++ q) = some .dir) :
    follow σ links cur p = .ok (cur ++ p) := by
  cases links with
  | zero => exact followWith_dirs proper dirs
  | succ links => exact followWith_dirs proper dirs

/-! ### One more name -/

theorem follow_name_other (other : σ cur ≠ some .dir) : follow σ links cur [name] = .error .notdir := by
  cases links <;> simp [follow, followWith, other]

theorem follow_name_none (proper : IsName name) (dir : σ cur = some .dir) (none : σ (cur ++ [name]) = none) :
    follow σ links cur [name] = .error .noent := by
  cases links <;> simp [follow, followWith, dir, none, proper.nonempty, proper.not_dot, proper.not_dotdot]

theorem follow_name_some {s : Shape} (proper : IsName name) (dir : σ cur = some .dir)
    (here : σ (cur ++ [name]) = some s)
    (solid : ∀ target, s ≠ .symlink target) : follow σ links cur [name] = .ok (cur ++ [name]) := by
  cases s with
  | symlink target => exact absurd rfl (solid target)
  | dir | file =>
    cases links <;> simp [follow, followWith, dir, here, proper.nonempty, proper.not_dot, proper.not_dotdot]

end FileTree
