import HomelabDaemon.FileTree.Follow

/-!
# Calls on a file tree

What the calls of a Unix system read from a tree and change in it, for a caller that is root. A
path is the list of its names from the root.
-/

namespace FileTree
open Filepath (Path IsName)

variable {α : Type}

namespace Node

def maxLinks : Nat := 40

def resolve (n : Node α) (path : Place) : Except Errno Place := follow n.shape maxLinks [] path

def stat (n : Node α) (path : Place) : Except Errno (Item α) :=
  match n.resolve path with
  | .error e => .error e
  | .ok p =>
    match n.look p with
    | none => .error .noent
    | some i => .ok i

/-- The place of an entry in its directory; the last name is not followed. -/
def place (n : Node α) (path : Place) : Except Errno Place :=
  match path.getLast? with
  | none => .ok []
  | some name =>
    match n.resolve path.dropLast with
    | .error e => .error e
    | .ok up => if n.shape up = some .dir then .ok (up ++ [name]) else .error .notdir

def lstat (n : Node α) (path : Place) : Except Errno (Item α) :=
  match n.place path with
  | .error e => .error e
  | .ok p =>
    match n.look p with
    | none => .error .noent
    | some i => .ok i

/-- `chown` and `chmod`. -/
def change (visit : Item α → Item α) (n : Node α) (path : Place) : Except Errno (Node α) :=
  match n.resolve path with
  | .error e => .error e
  | .ok p => if (n.look p).isSome then .ok (n.modify (fun m => m.set (visit m.item)) p) else .error .noent

def mkdir (attr : α → α) (n : Node α) (path : Place) : Except Errno (Node α) :=
  match path.getLast?, n.place path with
  | none, _ => .error .exist
  | some _, .error e => .error e
  | some name, .ok p => if (n.look p).isSome then .error .exist else .ok (n.modify (·.insert name attr) p.dropLast)

/-- The path is given from its end. -/
def mkdirAll (attr : α → α) : Place → Node α → Option Errno × Node α
  | [], n => (none, n)
  | name :: up, n =>
    let path := (name :: up).reverse
    match n.stat path with
    | .ok (.dir _) => (none, n)
    | .ok _ => (some .notdir, n)
    | .error _ =>
      match mkdirAll attr up n with
      | (some e, n) => (some e, n)
      | (none, n) =>
        match n.mkdir attr path with
        | .ok n => (none, n)
        | .error e =>
          match n.lstat path with
          | .ok (.dir _) => (none, n)
          | _ => (some e, n)

/-- Links are not followed, the one that the path may end in included. -/
def walkTree (visit : Item α → Item α) (n : Node α) (path : Place) : Except Errno (Node α) :=
  match n.place path with
  | .error e => .error e
  | .ok p => if (n.look p).isSome then .ok (n.modify (·.walkDir visit) p) else .error .noent

def readDir (n : Node α) (path : Place) : Except Errno (Entries α) :=
  match n.resolve path with
  | .error e => .error e
  | .ok p =>
    match n.get p with
    | none => .error .noent
    | some (.dir _ entries) => .ok entries
    | some _ => .error .notdir

def remove (n : Node α) (path : Place) : Except Errno (Node α) :=
  match path.getLast?, n.place path with
  | none, _ => .error .notempty
  | some _, .error e => .error e
  | some name, .ok p =>
    match n.get p with
    | none => .error .noent
    | some (.dir _ (.cons _ _ _)) => .error .notempty
    | some _ => .ok (n.modify (·.delete name) p.dropLast)

end Node

variable {n n' : Node α} {up p place : Place} {name : Path} {attr : α → α} {visit : Item α → Item α}

/-! ### Where a path leads -/

theorem Node.shape_eq_dir : n.shape p = some .dir ↔ ∃ attr, n.look p = some (.dir attr) := by
  unfold Node.shape
  constructor
  · intro isDir
    obtain ⟨i, found, shape⟩ := Option.map_eq_some_iff.mp isDir
    cases i with
    | dir attr => exact ⟨attr, found⟩
    | file attr => cases shape
    | symlink target => cases shape
  · rintro ⟨attr, found⟩
    rw [found]
    rfl

theorem Node.shape_eq_none : n.shape p = none ↔ n.look p = none := Option.map_eq_none_iff

/-- A directory without links above it lies where its path says. -/
theorem Node.resolve_dir (proper : ∀ name ∈ p, IsName name) (isDir : n.shape p = some .dir) : n.resolve p = .ok p := by
  refine follow_dirs proper fun q starts => ?_
  obtain ⟨rest, rfl⟩ := starts
  cases rest with
  | nil => simpa using isDir
  | cons name rest =>
    obtain ⟨attr, found⟩ := Node.shape_eq_dir.mp isDir
    exact Node.shape_eq_dir.mpr (Node.look_above found)

theorem Node.place_name (leads : n.resolve up = .ok place) (isDir : n.shape place = some .dir) (name : Path) :
    n.place (up ++ [name]) = .ok (place ++ [name]) := by
  unfold Node.place
  rw [List.getLast?_concat, List.dropLast_concat]
  simp [leads, isDir]

theorem Node.resolve_other (leads : n.resolve up = .ok place) (other : n.shape place ≠ some .dir) :
    n.resolve (up ++ [name]) = .error .notdir := by
  obtain ⟨links, behind⟩ := follow_append leads
  exact (behind [name]).trans (follow_name_other other)

theorem Node.resolve_none (proper : IsName name) (leads : n.resolve up = .ok place) (isDir : n.shape place = some .dir)
    (none : n.look (place ++ [name]) = none) : n.resolve (up ++ [name]) = .error .noent := by
  obtain ⟨links, behind⟩ := follow_append leads
  exact (behind [name]).trans (follow_name_none proper isDir (by rw [Node.shape, none]; rfl))

theorem Node.resolve_some {i : Item α} (proper : IsName name) (leads : n.resolve up = .ok place)
    (here : n.look (place ++ [name]) = some i)
    (solid : ∀ target, i ≠ .symlink target) : n.resolve (up ++ [name]) = .ok (place ++ [name]) := by
  obtain ⟨links, behind⟩ := follow_append leads
  have shape : n.shape (place ++ [name]) = some i.shape := by rw [Node.shape, here]; rfl
  refine (behind [name]).trans (follow_name_some proper (Node.shape_eq_dir.mpr (Node.look_parent here)) shape ?_)
  intro target link
  cases i with
  | symlink other => exact solid other rfl
  | dir attr => cases link
  | file attr => cases link

theorem Node.resolve_mono (grows : ∀ p s, n.shape p = some s → n'.shape p = some s) (leads : n.resolve p = .ok place) :
    n'.resolve p = .ok place := follow_mono grows leads

theorem Node.resolve_of_stat {i : Item α} (found : n.stat p = .ok i) :
    ∃ place, n.resolve p = .ok place ∧ n.look place = some i := by
  unfold Node.stat at found
  split at found
  · cases found
  · rename_i place leads
    split at found
    · cases found
    · rename_i j here
      obtain rfl : j = i := Except.ok.inj found
      exact ⟨place, leads, here⟩

theorem Node.stat_place {i : Item α} (leads : n.resolve p = .ok place) (here : n.look place = some i) :
    n.stat p = .ok i := by
  simp [Node.stat, leads, here]

theorem Node.resolve_congr (same : n'.look = n.look) : n'.resolve = n.resolve := by
  have shape : n'.shape = n.shape := by
    funext p
    rw [Node.shape, same]
    rfl
  funext path
  rw [Node.resolve, Node.resolve, shape]

theorem Node.stat_noent (proper : IsName name) (leads : n.resolve up = .ok place)
    (missing : n.stat (up ++ [name]) = .error .noent) :
    n.shape place = some .dir ∧ (n.look (place ++ [name]) = none ∨ ∃ target,
    n.look (place ++ [name]) = some (.symlink target)) := by
  have isDir : n.shape place = some .dir := by
    by_contra other
    rw [Node.stat, Node.resolve_other leads other] at missing
    cases missing
  refine ⟨isDir, ?_⟩
  cases here : n.look (place ++ [name]) with
  | none => exact .inl rfl
  | some i =>
    cases i with
    | symlink target => exact .inr ⟨target, rfl⟩
    | dir own | file own =>
      rw [Node.stat_place (Node.resolve_some proper leads here nofun) here] at missing
      cases missing

theorem Node.mkdir_name (leads : n.resolve up = .ok place) (isDir : n.shape place = some .dir) :
    n.mkdir attr (up ++ [name]) =
      if (n.look (place ++ [name])).isSome then .error .exist else .ok (n.modify (·.insert name attr) place) := by
  unfold Node.mkdir
  rw [List.getLast?_concat, Node.place_name leads isDir]
  simp only [List.dropLast_concat]

/-- Only the last directory is made where the one above is there. -/
theorem Node.mkdirAll_name (attr : α → α) (proper : IsName name) (leads : n.resolve up = .ok place)
    (missing : n.stat (up ++ [name]) = .error .noent) :
    (n.look (place ++ [name]) = none ∧
      Node.mkdirAll attr (up ++ [name]).reverse n = (none, n.modify (·.insert name attr) place)) ∨
    (n.look (place ++ [name]) ≠ none ∧ Node.mkdirAll attr (up ++ [name]).reverse n = (some .exist, n)) := by
  obtain ⟨isDir, free⟩ := Node.stat_noent proper leads missing
  obtain ⟨own, holds⟩ := Node.shape_eq_dir.mp isDir
  have above : Node.mkdirAll attr up.reverse n = (none, n) := by
    cases back : up.reverse with
    | nil => rfl
    | cons last rest =>
      have path : (last :: rest).reverse = up := by rw [← back, List.reverse_reverse]
      unfold Node.mkdirAll
      simp only [path, Node.stat_place leads holds]
  have made : n.mkdir attr (up ++ [name]) =
      if (n.look (place ++ [name])).isSome then .error .exist else .ok (n.modify (·.insert name attr) place) :=
    Node.mkdir_name leads isDir
  have listed : n.lstat (up ++ [name]) =
      match n.look (place ++ [name]) with | none => .error .noent | some i => .ok i := by
    rw [Node.lstat, Node.place_name leads isDir]
  rw [List.reverse_concat]
  unfold Node.mkdirAll
  rw [← List.reverse_concat, List.reverse_reverse, above]
  dsimp only
  rw [missing, made, listed]
  rcases free with none | ⟨target, link⟩
  · exact .inl ⟨none, by simp [none]⟩
  · exact .inr ⟨by simp [link], by simp [link]⟩

end FileTree
