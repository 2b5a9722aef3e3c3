import HomelabDaemon.Filepath

/-!
# File trees

Directories with files and symbolic links in them, and what stands at each place before and after
a change.
-/

namespace FileTree
open Filepath (Path)

mutual

inductive Node (α : Type) where
  | dir (attr : α) (entries : Entries α)
  | file (attr : α)
  | symlink (target : Path)

inductive Entries (α : Type) where
  | nil
  | cons (name : Path) (node : Node α) (rest : Entries α)

end

/-- What stands at a place, without what lies below. -/
inductive Item (α : Type) where
  | dir (attr : α)
  | file (attr : α)
  | symlink (target : Path)
  deriving DecidableEq

inductive Shape where
  | dir
  | file
  | symlink (target : Path)
  deriving DecidableEq

/-- The names from the root. -/
abbrev Place := List Path

variable {α : Type}

def Item.shape : Item α → Shape
  | dir _ => .dir
  | file _ => .file
  | symlink target => .symlink target

/-- The item with other attributes; a link has none. -/
def Item.map (f : α → α) : Item α → Item α
  | dir attr => dir (f attr)
  | file attr => file (f attr)
  | symlink target => symlink target

namespace Entries

def find (name : Path) : Entries α → Option (Node α)
  | nil => none
  | cons other node rest => if name = other then some node else rest.find name

def update (name : Path) (f : Node α → Node α) : Entries α → Entries α
  | nil => nil
  | cons other node rest => cons other (if name = other then f node else node) (rest.update name f)

def erase (name : Path) : Entries α → Entries α
  | nil => nil
  | cons other node rest => if name = other then rest.erase name else cons other node (rest.erase name)

end Entries

namespace Node

def item : Node α → Item α
  | dir attr _ => .dir attr
  | file attr => .file attr
  | symlink target => .symlink target

def entries : Node α → Entries α
  | dir _ entries => entries
  | _ => .nil

def get : Node α → Place → Option (Node α)
  | n, [] => some n
  | n, name :: p => (n.entries.find name).bind (·.get p)

def look (n : Node α) (p : Place) : Option (Item α) := (n.get p).map item

def shape (n : Node α) (p : Place) : Option Shape := (n.look p).map Item.shape

/-- The same node with other attributes. -/
def set : Node α → Item α → Node α
  | dir _ entries, .dir attr => dir attr entries
  | file _, .file attr => file attr
  | n, _ => n

def modify (f : Node α → Node α) : Place → Node α → Node α
  | [], n => f n
  | name :: p, dir attr entries => dir attr (entries.update name (modify f p))
  | _ :: _, n => n

/-- An empty directory of that name, with attributes after those of the directory it is in. -/
def insert (name : Path) (attr : α → α) : Node α → Node α
  | dir own entries => dir own (.cons name (dir (attr own) .nil) entries)
  | n => n

def delete (name : Path) : Node α → Node α
  | dir attr entries => dir attr (entries.erase name)
  | n => n

end Node

mutual

/-- Visits every entry of the tree, and puts the attributes that the visit leaves. -/
def Node.walkDir (visit : Item α → Item α) : Node α → Node α
  | .dir attr entries => (Node.dir attr (entries.walkDir visit)).set (visit (.dir attr))
  | .file attr => (Node.file attr).set (visit (.file attr))
  | .symlink target => .symlink target

def Entries.walkDir (visit : Item α → Item α) : Entries α → Entries α
  | .nil => .nil
  | .cons name node rest => .cons name (node.walkDir visit) (rest.walkDir visit)

end

/-- A visit can change attributes only. -/
def Keeps (visit : Item α → Item α) : Prop := ∀ item, (visit item).shape = item.shape

variable {n : Node α} {p q : Place} {name other : Path} {visit : Item α → Item α}

/-! ### Places -/

@[simp] theorem Node.get_nil (n : Node α) : n.get [] = some n := by
  cases n <;> rfl

theorem Node.get_cons (n : Node α) (name : Path) (p : Place) :
    n.get (name :: p) = (n.entries.find name).bind (·.get p) := by
  cases n <;> rfl

theorem Node.get_append (n : Node α) (p q : Place) : n.get (p ++ q) = (n.get p).bind (·.get q) := by
  induction p generalizing n with
  | nil => simp
  | cons name p ih =>
    rw [List.cons_append, Node.get_cons, Node.get_cons, Option.bind_assoc]
    congr 1
    funext child
    exact ih child

theorem Node.look_append (n : Node α) (p q : Place) : n.look (p ++ q) = (n.get p).bind (·.look q) := by
  rw [Node.look, Node.get_append, Option.map_bind]
  rfl

/-- What lies below a place lies in a directory. -/
theorem Node.look_above {i : Item α} (found : n.look (p ++ name :: q) = some i) :
    ∃ attr, n.look p = some (.dir attr) := by
  rw [Node.look_append] at found
  obtain ⟨m, got, below⟩ := Option.bind_eq_some_iff.mp found
  rw [Node.look, got]
  cases m with
  | dir attr entries => exact ⟨attr, rfl⟩
  | file attr => cases below
  | symlink target => cases below

theorem Node.look_parent {i : Item α} (found : n.look (p ++ [name]) = some i) : ∃ attr, n.look p = some (.dir attr) :=
  Node.look_above found

theorem Node.item_set {i : Item α} (same : i.shape = n.item.shape) : (n.set i).item = i := by
  cases n <;> cases i <;> simp_all [Node.set, Node.item, Item.shape]

theorem Node.entries_set (n : Node α) (i : Item α) : (n.set i).entries = n.entries := by
  cases n <;> cases i <;> rfl

theorem Entries.find_walkDir (entries : Entries α) :
    (entries.walkDir visit).find name = (entries.find name).map (·.walkDir visit) := by
  induction entries using Entries.rec (motive_1 := fun _ => True) with
  | nil => rfl
  | cons other node rest _ ih =>
    rw [Entries.walkDir, Entries.find, Entries.find]
    split
    · rfl
    · exact ih
  | dir | file | symlink => trivial

theorem Keeps.symlink (keeps : Keeps visit) (target : Path) : visit (.symlink target) = .symlink target := by
  have same := keeps (.symlink target)
  cases visited : visit (.symlink target) <;> simp_all [Item.shape]

theorem Node.item_walkDir (keeps : Keeps visit) (n : Node α) : (n.walkDir visit).item = visit n.item := by
  cases n with
  | dir attr entries => exact Node.item_set (keeps (.dir attr))
  | file attr => exact Node.item_set (keeps (.file attr))
  | symlink target => exact (keeps.symlink target).symm

theorem Node.entries_walkDir (n : Node α) : (n.walkDir visit).entries = n.entries.walkDir visit := by
  cases n with
  | dir attr entries => exact Node.entries_set _ _
  | file attr => exact Node.entries_set _ _
  | symlink target => rfl

theorem Node.look_walkDir (keeps : Keeps visit) (n : Node α) (p : Place) :
    (n.walkDir visit).look p = (n.look p).map visit := by
  induction p generalizing n with
  | nil =>
    rw [Node.look, Node.look, Node.get_nil, Node.get_nil]
    exact congrArg some (Node.item_walkDir keeps n)
  | cons name p ih =>
    rw [Node.look, Node.look, Node.get_cons, Node.get_cons, Node.entries_walkDir, Entries.find_walkDir]
    cases n.entries.find name with
    | none => rfl
    | some child => exact ih child

theorem Entries.find_update (f : Node α → Node α) (entries : Entries α) :
    (entries.update name f).find other = if other = name then (entries.find name).map f else entries.find other := by
  induction entries using Entries.rec (motive_1 := fun _ => True) with
  | nil => simp [Entries.update, Entries.find]
  | cons first node rest _ ih =>
    rw [Entries.update, Entries.find, Entries.find, Entries.find, ih]
    by_cases same : other = name
    · subst same
      by_cases here : other = first <;> simp [here]
    · by_cases here : other = first
      · subst here
        simp [same, Ne.symm same]
      · simp [same, here]
  | dir | file | symlink => trivial

theorem Entries.find_erase (entries : Entries α) :
    (entries.erase name).find other = if other = name then none else entries.find other := by
  induction entries using Entries.rec (motive_1 := fun _ => True) with
  | nil => simp [Entries.erase, Entries.find]
  | cons first node rest _ ih =>
    rw [Entries.erase, Entries.find]
    by_cases here : name = first
    · subst here
      rw [if_pos rfl, ih]
      by_cases same : other = name <;> simp [same]
    · rw [if_neg here, Entries.find, ih]
      by_cases same : other = name
      · subst same
        simp [here]
      · simp [same]
  | dir | file | symlink => trivial

theorem Node.look_modify (f : Node α → Node α) (n : Node α) (p q : Place) :
    (n.modify f p).look q = if p <+: q then ((n.get p).map f).bind (·.look (q.drop p.length)) else n.look q := by
  induction p generalizing n q with
  | nil => simp [Node.modify]
  | cons name p ih =>
    cases n with
    | dir attr entries =>
      cases q with
      | nil => rw [if_neg (by simp)]; rfl
      | cons other q =>
        rw [Node.modify, Node.look, Node.look, Node.get_cons, Node.get_cons, Node.get_cons]
        simp only [Node.entries, Entries.find_update, List.cons_prefix_cons, List.length_cons, List.drop_succ_cons]
        by_cases same : other = name
        · subst same
          cases entries.find other with
          | none => simp
          | some child =>
            have below := ih child q
            rw [Node.look, Node.look] at below
            simpa using below
        · simp [same, Ne.symm same]
    | file attr =>
      cases q with
      | nil => rw [if_neg (by simp)]; rfl
      | cons other q => simp [Node.modify, Node.look, Node.get_cons, Node.entries, Entries.find]
    | symlink target =>
      cases q with
      | nil => rw [if_neg (by simp)]; rfl
      | cons other q => simp [Node.modify, Node.look, Node.get_cons, Node.entries, Entries.find]

theorem Node.look_set (keeps : Keeps visit) (n : Node α) (p q : Place) :
    (n.modify (fun m => m.set (visit m.item)) p).look q = if q = p then (n.look p).map visit else n.look q := by
  rw [Node.look_modify]
  by_cases below : p <+: q
  · obtain ⟨rest, rfl⟩ := below
    rw [if_pos (List.prefix_append p rest), List.drop_left, Node.look_append]
    cases got : n.get p with
    | none => simp [Node.look, got]
    | some m =>
      cases rest with
      | nil => simpa [Node.look, got] using Node.item_set (keeps m.item)
      | cons name rest => simp [Node.look, Node.get_cons, Node.entries_set]
  · rw [if_neg below, if_neg (by rintro rfl; exact below (List.prefix_refl q))]

theorem Node.look_walk (keeps : Keeps visit) (n : Node α) (p q : Place) :
    (n.modify (·.walkDir visit) p).look q = if p <+: q then (n.look q).map visit else n.look q := by
  rw [Node.look_modify]
  by_cases below : p <+: q
  · obtain ⟨rest, rfl⟩ := below
    rw [if_pos (List.prefix_append p rest), if_pos (List.prefix_append p rest), List.drop_left, Node.look_append]
    cases n.get p with
    | none => rfl
    | some m => exact Node.look_walkDir keeps m rest
  · rw [if_neg below, if_neg below]

theorem Node.look_insert {own : α} (attr : α → α) (holds : n.look p = some (.dir own))
    (free : n.look (p ++ [name]) = none) (q : Place) :
    (n.modify (·.insert name attr) p).look q = if q = p ++ [name] then some (.dir (attr own)) else n.look q := by
  obtain ⟨m, got, item⟩ := Option.map_eq_some_iff.mp holds
  obtain ⟨entries, rfl⟩ : ∃ entries, m = .dir own entries := by
    cases m with
    | dir attr entries => exact ⟨entries, by cases item; rfl⟩
    | file attr => cases item
    | symlink target => cases item
  rw [Node.look_modify]
  by_cases below : p <+: q
  · obtain ⟨rest, rfl⟩ := below
    rw [if_pos (List.prefix_append p rest), List.drop_left, Node.look_append, got]
    rw [Node.look_append, got] at free
    cases rest with
    | nil => simp [Node.insert, Node.look, Node.item]
    | cons other rest =>
      simp only [List.append_cancel_left_eq]
      by_cases same : other = name
      · subst same
        have none : entries.find other = none := by
          simpa [Node.look, Node.get_cons, Node.entries] using free
        cases rest <;> simp [Node.insert, Node.look, Node.get_cons, Node.entries, Entries.find, Node.item, none]
      · simp [Node.insert, Node.look, Node.get_cons, Node.entries, Entries.find, same]
  · rw [if_neg below, if_neg (by rintro rfl; exact below (List.prefix_append p [name]))]

theorem Node.look_delete (n : Node α) (p q : Place) :
    (n.modify (·.delete name) p).look q = if p ++ [name] <+: q then none else n.look q := by
  rw [Node.look_modify]
  by_cases below : p <+: q
  · obtain ⟨rest, rfl⟩ := below
    rw [if_pos (List.prefix_append p rest), List.drop_left, Node.look_append]
    simp only [List.prefix_append_right_inj]
    cases n.get p with
    | none => simp
    | some m =>
      cases rest with
      | nil => cases m <;> simp [Node.delete, Node.look, Node.item]
      | cons other rest =>
        simp only [List.cons_prefix_cons]
        by_cases same : name = other
        · subst same
          cases m <;> simp [Node.delete, Node.look, Node.get_cons, Node.entries, Entries.find, Entries.find_erase]
        · cases m <;> simp [Node.delete, Node.look, Node.get_cons, Node.entries, Entries.find, Entries.find_erase, same,
            Ne.symm same]
  · rw [if_neg below, if_neg fun longer => below ((List.prefix_append p [name]).trans longer)]

end FileTree
