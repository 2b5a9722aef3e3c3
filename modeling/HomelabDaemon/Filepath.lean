import Mathlib.Data.List.Basic

/-!
# File paths

Paths of bytes as a Unix program joins and shortens them, and the names along them.
-/

namespace Filepath

abbrev Path := List UInt8

def slash : UInt8 := 0x2F

def dot : Path := [0x2E]

def dotdot : Path := [0x2E, 0x2E]

def rooted (p : Path) : Bool := p.head? == some slash

/-- The names down to a place, last one first, after one more part of a path. -/
def step (root : Bool) (above : List Path) (part : Path) : List Path :=
  if part = [] ∨ part = dot then above
  else if part = dotdot then
    match above with
    | [] => if root then [] else [dotdot]
    | name :: rest => if name = dotdot then dotdot :: name :: rest else rest
  else part :: above

def names (p : Path) : List Path := ((p.splitOn slash).foldl (step (rooted p)) []).reverse

def write (root : Bool) (names : List Path) : Path :=
  if root then slash :: [slash].intercalate names
  else if names = [] then dot
  else [slash].intercalate names

/-- The shortest path to the same place, as far as the text tells. -/
def clean (p : Path) : Path := write (rooted p) (names p)

def join (p q : Path) : Path :=
  if p ≠ [] then clean (p ++ slash :: q) else if q ≠ [] then clean q else []

/-- The name of a directory's entry. -/
structure IsName (name : Path) : Prop where
  nonempty : name ≠ []
  not_dot : name ≠ dot
  not_dotdot : name ≠ dotdot
  single : slash ∉ name

instance (name : Path) : Decidable (IsName name) :=
  decidable_of_iff (name ≠ [] ∧ name ≠ dot ∧ name ≠ dotdot ∧ slash ∉ name)
    ⟨fun h => ⟨h.1, h.2.1, h.2.2.1, h.2.2.2⟩, fun h => ⟨h.nonempty, h.not_dot, h.not_dotdot, h.single⟩⟩

variable {root : Bool} {above : List Path} {p q : Path} {ns : List Path}

theorem step_name {name : Path} (h : IsName name) : step root above name = name :: above := by
  unfold step
  rw [if_neg (not_or.mpr ⟨h.nonempty, h.not_dot⟩), if_neg h.not_dotdot]

theorem foldl_names (proper : ∀ name ∈ ns, IsName name) (above : List Path) :
    ns.foldl (step root) above = ns.reverse ++ above := by
  induction ns generalizing above with
  | nil => rfl
  | cons name ns ih =>
    obtain ⟨first, rest⟩ := List.forall_mem_cons.mp proper
    rw [List.foldl_cons, step_name first, ih rest, List.reverse_cons, List.append_assoc]
    rfl

/-- Parts of a path, between slashes. -/
def Separate (ns : List Path) : Prop := ∀ part ∈ ns, part ≠ [] ∧ slash ∉ part

theorem Separate.names (proper : ∀ name ∈ ns, IsName name) : Separate ns := fun name member =>
  ⟨(proper name member).nonempty, (proper name member).single⟩

theorem Separate.splitOn (h : Separate ns) (nonempty : ns ≠ []) : ([slash].intercalate ns).splitOn slash = ns :=
  List.splitOn_intercalate slash (fun part member => (h part member).2) nonempty

theorem Separate.ne_nil (h : Separate ns) (nonempty : ns ≠ []) : [slash].intercalate ns ≠ [] := by
  intro empty
  have split := h.splitOn nonempty
  rw [empty] at split
  exact (h [] (split ▸ List.mem_singleton_self [])).1 rfl

theorem Separate.rooted (h : Separate ns) : rooted ([slash].intercalate ns) = false := by
  cases ns with
  | nil => rfl
  | cons part ns =>
    obtain ⟨nonempty, single⟩ := h part List.mem_cons_self
    obtain ⟨b, part, rfl⟩ := List.exists_cons_of_ne_nil nonempty
    have other : b ≠ slash := fun same => single (same ▸ List.mem_cons_self)
    have head : ([slash].intercalate ((b :: part) :: ns)).head? = some b := by
      cases ns <;> simp [List.intercalate]
    rw [Filepath.rooted, head]
    simpa using other

theorem rooted_append (nonempty : p ≠ []) (q : Path) : rooted (p ++ q) = rooted p := by
  obtain ⟨b, p, rfl⟩ := List.exists_cons_of_ne_nil nonempty
  rfl

theorem names_append (nonempty : p ≠ []) (q : Path) :
    names (p ++ slash :: q) = ((q.splitOn slash).foldl (step (rooted p)) (names p).reverse).reverse := by
  rw [names, rooted_append nonempty, List.splitOn_append_cons_self, List.foldl_append, names, List.reverse_reverse]

/-! ### Shortened paths -/

/-- What a stack of names can hold: names, on parent directories if there is no root below. -/
inductive Kept (root : Bool) : List Path → Prop
  | nil : Kept root []
  | name {name : Path} {above : List Path} : IsName name → Kept root above → Kept root (name :: above)
  | parent {above : List Path} : root = false → (∀ part ∈ above, part = dotdot) → Kept root above →
    Kept root (dotdot :: above)

theorem Kept.step {part : Path} (h : Kept root above) (single : slash ∉ part) : Kept root (step root above part) := by
  unfold Filepath.step
  split
  · exact h
  · rename_i other
    obtain ⟨nonempty, not_dot⟩ := not_or.mp other
    split
    · cases h with
      | nil =>
        cases root with
        | false => exact .parent rfl nofun .nil
        | true => exact .nil
      | name proper rest =>
        dsimp only
        rw [if_neg proper.not_dotdot]
        exact rest
      | parent free bottom rest =>
        dsimp only
        rw [if_pos rfl]
        exact .parent free (List.forall_mem_cons.mpr ⟨rfl, bottom⟩) (.parent free bottom rest)
    · rename_i not_dotdot
      exact .name ⟨nonempty, not_dot, not_dotdot, single⟩ h

theorem Kept.foldl {parts : List Path} (single : ∀ part ∈ parts, slash ∉ part) (h : Kept root above) :
    Kept root (parts.foldl (Filepath.step root) above) := by
  induction parts generalizing above with
  | nil => exact h
  | cons part parts ih =>
    obtain ⟨first, rest⟩ := List.forall_mem_cons.mp single
    exact ih rest (h.step first)

theorem Kept.again (h : Kept root above) : above.reverse.foldl (Filepath.step root) [] = above := by
  induction h with
  | nil => rfl
  | name proper _ ih => rw [List.reverse_cons, List.foldl_append, ih, List.foldl_cons, step_name proper]; rfl
  | @parent above free bottom _ ih =>
    rw [List.reverse_cons, List.foldl_append, ih, free]
    cases above with
    | nil => rfl
    | cons part above =>
      obtain rfl := bottom part List.mem_cons_self
      rfl

theorem mem_splitOn {part : Path} (member : part ∈ p.splitOn slash) : slash ∉ part := by
  induction p generalizing part with
  | nil =>
    obtain rfl : part = [] := by simpa using member
    exact List.not_mem_nil
  | cons b p ih =>
    rw [List.splitOn_cons_eq_if_modifyHead] at member
    split at member
    · rcases List.mem_cons.mp member with rfl | member
      · exact List.not_mem_nil
      · exact ih member
    · rename_i other
      obtain ⟨head, tail, parts⟩ := List.exists_cons_of_ne_nil (List.splitOn_ne_nil slash p)
      rw [parts, List.modifyHead_cons] at member
      rcases List.mem_cons.mp member with rfl | member
      · have rest := ih (parts ▸ List.mem_cons_self)
        rw [List.mem_cons, not_or]
        exact ⟨fun same => other (by simp [same]), rest⟩
      · exact ih (parts ▸ List.mem_cons_of_mem head member)

theorem kept_names (p : Path) : Kept (rooted p) (names p).reverse := by
  rw [names, List.reverse_reverse]
  exact Kept.nil.foldl fun part member => mem_splitOn member

theorem Kept.separate (h : Kept root above) : Separate above := by
  induction h with
  | nil => exact nofun
  | name proper _ ih => exact List.forall_mem_cons.mpr ⟨⟨proper.nonempty, proper.single⟩, ih⟩
  | parent _ _ _ ih => exact List.forall_mem_cons.mpr ⟨by decide, ih⟩

/-- A shortened path leads along the same names. -/
theorem Kept.write (h : Kept root ns.reverse) :
    rooted (write root ns) = root ∧ names (Filepath.write root ns) = ns := by
  have separate : Separate ns := fun part member => h.separate part (List.mem_reverse.mpr member)
  have again := h.again
  rw [List.reverse_reverse] at again
  cases root with
  | true =>
    refine ⟨rfl, ?_⟩
    have start : rooted (slash :: [slash].intercalate ns) = true := rfl
    have stays : Filepath.step true [] [] = [] := rfl
    rw [Filepath.write, if_pos rfl, names, start, List.splitOn_cons_eq_if_modifyHead, if_pos (beq_self_eq_true slash),
      List.foldl_cons, stays]
    by_cases empty : ns = []
    · rw [empty]
      rfl
    · rw [separate.splitOn empty, again, List.reverse_reverse]
  | false =>
    rw [Filepath.write, if_neg (by decide)]
    by_cases empty : ns = []
    · rw [if_pos empty, empty]
      decide
    · rw [if_neg empty, names, separate.rooted, separate.splitOn empty, again, List.reverse_reverse]
      exact ⟨rfl, rfl⟩

theorem Kept.names (proper : ∀ name ∈ ns, IsName name) : Kept root ns := by
  induction ns with
  | nil => exact .nil
  | cons name ns ih =>
    obtain ⟨first, rest⟩ := List.forall_mem_cons.mp proper
    exact .name first (ih rest)

theorem names_write (proper : ∀ name ∈ ns, IsName name) : Filepath.names (write root ns) = ns :=
  (Kept.names fun name member => proper name (List.mem_reverse.mp member)).write.2

theorem rooted_clean (p : Path) : rooted (clean p) = rooted p := (kept_names p).write.1

@[simp] theorem names_clean (p : Path) : names (clean p) = names p := (kept_names p).write.2

/-! ### Joined paths -/

theorem names_join (proper : ∀ name ∈ ns, IsName name) (nonempty : ns ≠ []) (p : Path) :
    rooted (join p ([slash].intercalate ns)) = rooted p ∧ names (join p ([slash].intercalate ns)) = names p ++ ns := by
  have separate := Separate.names proper
  unfold join
  split
  · rename_i given
    rw [rooted_clean, names_clean, rooted_append given, names_append given, separate.splitOn nonempty,
      foldl_names proper,
      List.reverse_append, List.reverse_reverse, List.reverse_reverse]
    exact ⟨rfl, rfl⟩
  · rename_i none
    obtain rfl : p = [] := by simpa using none
    rw [if_pos (separate.ne_nil nonempty), rooted_clean, names_clean, separate.rooted, names, separate.splitOn nonempty,
      foldl_names proper,
      List.append_nil, List.reverse_reverse]
    exact ⟨rfl, rfl⟩

/-- Parts without a property bring no names with it. -/
theorem countP_foldl {P : Path → Bool} {parts : List Path} (plain : ∀ part ∈ parts, P part = false) :
    (parts.foldl (step root) above).countP P ≤ above.countP P := by
  induction parts generalizing above with
  | nil => exact Nat.le_refl _
  | cons part parts ih =>
    obtain ⟨first, rest⟩ := List.forall_mem_cons.mp plain
    refine Nat.le_trans (ih rest) ?_
    unfold step
    split
    · exact Nat.le_refl _
    · split
      · rename_i _ up
        subst up
        cases above with
        | nil => cases root <;> simp [first]
        | cons name above =>
          dsimp only
          split
          · simp [first]
          · exact (List.sublist_cons_self name above).countP_le
      · simp [first]

theorem countP_join {P : Path → Bool} (plain : ∀ part ∈ q.splitOn slash, P part = false) (p : Path) :
    (names (join p q)).countP P ≤ (names p).countP P := by
  unfold join
  split
  · rename_i given
    rw [names_clean, names_append given, List.countP_reverse]
    exact Nat.le_trans (countP_foldl plain) (Nat.le_of_eq List.countP_reverse)
  · split
    · rw [names_clean, names, List.countP_reverse]
      exact Nat.le_trans (countP_foldl plain) (Nat.zero_le _)
    · exact Nat.zero_le _

end Filepath
