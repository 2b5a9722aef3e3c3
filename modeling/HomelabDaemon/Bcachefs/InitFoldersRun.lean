import HomelabDaemon.Bcachefs.InitFolders

/-!
# Runs of the layout

What one entry of the layout does to each place of a tree, and what a run over several entries
keeps.
-/

namespace HomelabDaemon.Bcachefs.InitFolders
open FileTree
open Filepath (Path IsName)

variable {h : Host} {mountpoint parent w p q : Place} {e : Entry} {es : List Entry} {n n' n'' : Tree} {gid : Nat}
  {dirMode fileMode : UInt32} {i i' : Item Attr}

theorem keeps_map (f : Attr → Attr) : Keeps (Item.map f) := fun i => by cases i <;> rfl

theorem keeps_perms (gid : Nat) (dirMode fileMode : UInt32) : Keeps (perms gid dirMode fileMode) := fun i => by
  cases i <;> rfl

@[simp] theorem perms_shape (i : Item Attr) : (perms gid dirMode fileMode i).shape = i.shape :=
  keeps_perms gid dirMode fileMode i

@[simp] theorem perms_perms (i : Item Attr) :
    perms gid dirMode fileMode (perms gid dirMode fileMode i) = perms gid dirMode fileMode i := by
  cases i <;> rfl

namespace Entry

def up (e : Entry) : Place := e.names.dropLast

def last (e : Entry) : Path := e.names.getLastD []

structure Proper (e : Entry) : Prop where
  names : e.names = e.up ++ [e.last]
  last : IsName e.last

instance (e : Entry) : Decidable e.Proper :=
  decidable_of_iff (e.names = e.up ++ [e.last] ∧ IsName e.last) ⟨fun h => ⟨h.1, h.2⟩, fun h => ⟨h.names, h.last⟩⟩

theorem Proper.full (proper : e.Proper) (mountpoint : Place) : e.full mountpoint = mountpoint ++ e.up ++ [e.last] := by
  rw [Entry.full, proper.names, List.append_assoc]

end Entry

theorem Entry.join_full (proper : ∀ name ∈ mountpoint, IsName name) (member : e ∈ entries) :
    Filepath.names (Filepath.join (Filepath.write true mountpoint) (text e.path)) = e.full mountpoint := by
  have written : ∀ e ∈ entries, text e.path = [Filepath.slash].intercalate e.names ∧ (∀ name ∈ e.names, IsName name) ∧
    e.names ≠ [] := by
    decide +kernel
  obtain ⟨joined, names, nonempty⟩ := written e member
  rw [joined, (Filepath.names_join names nonempty _).2, Filepath.names_write proper]
  rfl

/-- The place is there, and everything from there on has the owner and the modes. -/
structure Step (gid : Nat) (dirMode fileMode : UInt32) (w : Place) (n n' : Tree) : Prop where
  below : ∀ q, w <+: q → n.look w ≠ none ∨ q ≠ w → n'.look q = (n.look q).map (perms gid dirMode fileMode)
  made : n.look w = none → n'.look w = some (.dir ⟨0, gid, syscallMode dirMode⟩)
  frame : ∀ q, ¬ w <+: q → n'.look q = n.look q

theorem Step.look (step : Step gid dirMode fileMode w n n') (found : n.look q = some i) :
    n'.look q = some i ∨ n'.look q = some (perms gid dirMode fileMode i) := by
  by_cases below : w <+: q
  · refine .inr ?_
    rw [step.below q below, found]
    · rfl
    · by_cases same : q = w
      · subst same
        exact .inl (by simp [found])
      · exact .inr same
  · exact .inl (by rw [step.frame q below, found])

theorem Step.origin (step : Step gid dirMode fileMode w n n') (found : n'.look q = some i') :
    (∃ i, n.look q = some i ∧ i'.shape = i.shape) ∨ (q = w ∧ n.look w = none) := by
  by_cases below : w <+: q
  · by_cases new : n.look w ≠ none ∨ q ≠ w
    · rw [step.below q below new] at found
      obtain ⟨i, before, rfl⟩ := Option.map_eq_some_iff.mp found
      exact .inl ⟨i, before, perms_shape i⟩
    · obtain ⟨missing, same⟩ := not_or.mp new
      exact .inr ⟨not_not.mp same, not_not.mp missing⟩
  · rw [step.frame q below] at found
    exact .inl ⟨i', found, rfl⟩

theorem Step.grows (step : Step gid dirMode fileMode w n n') (q : Place) (s : Shape) (found : n.shape q = some s) :
    n'.shape q = some s := by
  obtain ⟨i, here, rfl⟩ := Option.map_eq_some_iff.mp found
  rcases step.look here with after | after <;> rw [Node.shape, after]
  · rfl
  · exact congrArg some (perms_shape i)

theorem Step.there (step : Step gid dirMode fileMode w n n') :
    ∃ i, n'.look w = some (perms gid dirMode fileMode i) := by
  cases here : n.look w with
  | none => exact ⟨.dir ⟨0, gid, syscallMode dirMode⟩, step.made here⟩
  | some i => exact ⟨i, by rw [step.below w (List.prefix_refl w) (.inl (by simp [here])), here]; rfl⟩

theorem Step.shape (step : Step gid dirMode fileMode w n n') :
    n'.shape = fun q => if q = w then some ((n.shape q).getD .dir) else n.shape q := by
  funext q
  split
  · rename_i same
    subst same
    cases here : n.look q with
    | none =>
      rw [Node.shape, Node.shape, step.made here, here]
      rfl
    | some i =>
      rw [Node.shape, Node.shape, step.below q (List.prefix_refl q) (.inl (by simp [here])), here]
      exact congrArg some (perms_shape i)
  · rename_i other
    by_cases below : w <+: q
    · rw [Node.shape, Node.shape, step.below q below (.inr other), Option.map_map]
      congr 1
      funext i
      exact perms_shape i
    · rw [Node.shape, step.frame q below]
      rfl

theorem Step.shape_eq (step : Step gid dirMode fileMode w n n') (there : n.look w ≠ none) : n'.shape = n.shape := by
  rw [step.shape]
  funext q
  split
  · rename_i same
    rw [same]
    obtain ⟨i, here⟩ := Option.ne_none_iff_exists'.mp there
    rw [Node.shape, here]
    rfl
  · rfl

theorem Step.still (step : Step gid dirMode fileMode w n n') (there : n.look w ≠ none)
    (own : ∀ q i, w <+: q → n.look q = some i → perms gid dirMode fileMode i = i) : n'.look = n.look := by
  funext q
  by_cases below : w <+: q
  · rw [step.below q below (.inl there)]
    cases here : n.look q with
    | none => rfl
    | some i => exact congrArg some (own q i below here)
  · exact step.frame q below

theorem ensure_ok (proper : e.Proper) (leads : n.resolve (mountpoint ++ e.up) = .ok parent)
    (done : ensure h e (e.full mountpoint) n = ⟨none, n'⟩) :
    n.shape parent = some .dir ∧
      ((n' = n ∧ n.look (parent ++ [e.last]) ≠ none ∧ ∃ place, n.resolve (e.full mountpoint) = .ok place) ∨
        (n.look (parent ++ [e.last]) = none ∧ ∃ attr, n' = n.modify (·.insert e.last attr) parent)) := by
  rw [proper.full] at done ⊢
  have isDir : n.shape parent = some .dir := by
    by_contra other
    have missed : n.stat (mountpoint ++ e.up ++ [e.last]) = .error .notdir := by
      rw [Node.stat, Node.resolve_other leads other]
    rw [ensure, missed] at done
    cases congrArg Outcome.failure done
  refine ⟨isDir, ?_⟩
  unfold ensure at done
  split at done
  · rename_i i found
    obtain rfl : n = n' := congrArg Outcome.tree done
    obtain ⟨place, follows, _⟩ := Node.resolve_of_stat found
    refine .inl ⟨rfl, fun none => ?_, place, follows⟩
    rw [Node.resolve_none proper.last leads isDir none] at follows
    cases follows
  · rename_i missing
    split at done
    · unfold Host.createSubvolume at done
      rw [Node.mkdir_name leads isDir] at done
      cases here : n.look (parent ++ [e.last]) with
      | none =>
        simp only [here, Option.isSome_none, Bool.false_eq_true, ↓reduceIte, Except.toOption] at done
        split at done
        · rename_i tree made
          split at made
          · obtain rfl : tree = n' := congrArg Outcome.tree done
            exact .inr ⟨rfl, _, (Option.some.inj made).symm⟩
          · cases made
        · cases congrArg Outcome.failure done
      | some i =>
        simp only [here, Option.isSome_some, ↓reduceIte, Except.toOption, ite_self] at done
        cases congrArg Outcome.failure done
    · rcases Node.mkdirAll_name (made h.umask e.dirMode) proper.last leads missing with ⟨none, made⟩ | ⟨_, failed⟩
      · rw [made] at done
        exact .inr ⟨none, _, (congrArg Outcome.tree done).symm⟩
      · rw [failed] at done
        cases congrArg Outcome.failure done
  · cases congrArg Outcome.failure done

theorem applyTreePerms_ok {path : Place} (stands : n.place path = .ok w)
    (done : applyTreePerms n path gid dirMode fileMode = .ok n') :
    n.look w ≠ none ∧ ∀ q, n'.look q = if w <+: q then (n.look q).map (perms gid dirMode fileMode) else n.look q := by
  unfold applyTreePerms Node.walkTree at done
  rw [stands] at done
  dsimp only at done
  split at done
  · rename_i there
    obtain rfl := Except.ok.inj done
    exact ⟨Option.isSome_iff_ne_none.mp there, Node.look_walk (keeps_perms gid dirMode fileMode) n w⟩
  · cases done

theorem initEntry_ok (proper : e.Proper) (leads : n.resolve (mountpoint ++ e.up) = .ok parent)
    (done : initEntry h mountpoint e n = ⟨none, n'⟩) :
    ∃ gid, h.lookupGid e.group = some gid ∧ n.shape parent = some .dir ∧
    Step gid e.dirMode e.fileMode (parent ++ [e.last]) n n' ∧
      ∃ place, n'.resolve (e.full mountpoint) = .ok place := by
  unfold initEntry at done
  split at done
  · cases congrArg Outcome.failure done
  rename_i gid found
  refine ⟨gid, found, ?_⟩
  split at done
  · cases congrArg Outcome.failure done
  rename_i n₁ ensured
  split at done
  · cases congrArg Outcome.failure done
  rename_i n₂ walked
  obtain rfl : n₂ = n' := congrArg Outcome.tree done
  obtain ⟨isDir, made⟩ := ensure_ok proper leads ensured
  refine ⟨isDir, ?_⟩
  rcases made with ⟨rfl, there, place, follows⟩ | ⟨missing, attr, rfl⟩
  · obtain ⟨_, looks⟩ := applyTreePerms_ok (by rw [proper.full]; exact Node.place_name leads isDir e.last) walked
    have step : Step gid e.dirMode e.fileMode (parent ++ [e.last]) n₁ n₂ :=
      ⟨fun q below _ => by rw [looks, if_pos below], fun none => absurd none there,
        fun q other => by rw [looks, if_neg other]⟩
    exact ⟨step, place, Node.resolve_mono step.grows follows⟩
  · obtain ⟨own, holds⟩ := Node.shape_eq_dir.mp isDir
    have inserted := Node.look_insert attr holds missing
    have grows : ∀ p s, n.shape p = some s → Node.shape (n.modify (·.insert e.last attr) parent) p = some s := by
      intro p s before
      rw [Node.shape, inserted, if_neg]
      · exact before
      · rintro rfl
        rw [Node.shape, missing] at before
        cases before
    have leads₁ := Node.resolve_mono grows leads
    have isDir₁ := grows _ _ isDir
    obtain ⟨_, looks⟩ := applyTreePerms_ok (by rw [proper.full]; exact Node.place_name leads₁ isDir₁ e.last) walked
    have step : Step gid e.dirMode e.fileMode (parent ++ [e.last]) n n₂ := by
      refine ⟨fun q below new => ?_, fun _ => ?_, fun q other => ?_⟩
      · rw [looks, if_pos below, inserted, if_neg (new.resolve_left (not_not.mpr missing))]
      · rw [looks, if_pos (List.prefix_refl _), inserted, if_pos rfl]
        rfl
      · rw [looks, if_neg other, inserted, if_neg (by rintro rfl; exact other (List.prefix_refl _))]
    refine ⟨step, parent ++ [e.last], ?_⟩
    rw [proper.full]
    exact Node.resolve_some proper.last (Node.resolve_mono step.grows leads) (step.made missing) (by rintro _ ⟨⟩)

/-! ### Several entries -/

/-- Each entry lies in the mountpoint or in an entry before it. -/
def Layered : List Place → List Entry → Prop
  | _, [] => True
  | done, e :: rest => e.Proper ∧ e.up ∈ done ∧ Layered (e.names :: done) rest

instance Layered.decide : (done : List Place) → (es : List Entry) → Decidable (Layered done es)
  | _, [] => inferInstanceAs (Decidable True)
  | done, e :: rest =>
    have := Layered.decide (e.names :: done) rest
    inferInstanceAs (Decidable (e.Proper ∧ e.up ∈ done ∧ Layered (e.names :: done) rest))

theorem entries_layered : Layered [[]] entries := by decide +kernel

/-- A run over entries, each with the place it came to. -/
inductive Run (h : Host) (mountpoint : Place) : List Entry → Tree → Tree → Prop
  | nil (n : Tree) : Run h mountpoint [] n n
  | cons {e : Entry} {rest : List Entry} {gid : Nat} {parent : Place} {n n' n'' : Tree} :
      h.lookupGid e.group = some gid → n.resolve (mountpoint ++ e.up) = .ok parent → n.shape parent = some .dir →
      Step gid e.dirMode e.fileMode (parent ++ [e.last]) n n' → Run h mountpoint rest n' n'' →
      Run h mountpoint (e :: rest) n n''

theorem initEntries_ok {done : List Place} (layered : Layered done es)
    (lead : ∀ path ∈ done, ∃ place, n.resolve (mountpoint ++ path) = .ok place)
    (success : initEntries h mountpoint es n = ⟨none, n'⟩) : Run h mountpoint es n n' := by
  induction es generalizing n done with
  | nil =>
    obtain rfl : n = n' := congrArg Outcome.tree success
    exact .nil n
  | cons e rest ih =>
    obtain ⟨proper, above, layered⟩ := layered
    obtain ⟨parent, leads⟩ := lead e.up above
    unfold initEntries at success
    split at success
    · rename_i n₁ first
      obtain ⟨gid, group, isDir, step, place, follows⟩ := initEntry_ok proper leads first
      refine .cons group leads isDir step (ih layered (List.forall_mem_cons.mpr ⟨⟨place, follows⟩, ?_⟩) success)
      intro path member
      obtain ⟨place, leads⟩ := lead path member
      exact ⟨place, Node.resolve_mono step.grows leads⟩
    · rename_i other
      rw [success] at other
      exact absurd rfl (other n')

theorem Run.preserves {P : Tree → Prop} (run : Run h mountpoint es n n')
    (step : ∀ e ∈ es, ∀ gid parent n n', h.lookupGid e.group = some gid → n.resolve (mountpoint ++ e.up) = .ok parent →
      Step gid e.dirMode e.fileMode (parent ++ [e.last]) n n' → P n → P n')
    (start : P n) : P n' := by
  induction run with
  | nil => exact start
  | cons group leads isDir first _ ih =>
    exact ih (fun e member => step e (List.mem_cons_of_mem _ member))
      (step _ List.mem_cons_self _ _ _ _ group leads first start)

theorem Run.at (run : Run h mountpoint es n n') (member : e ∈ es) :
    ∃ before after n₁ n₂ gid parent, es = before ++ e :: after ∧ Run h mountpoint before n n₁ ∧
      h.lookupGid e.group = some gid ∧ n₁.resolve (mountpoint ++ e.up) = .ok parent ∧ n₁.shape parent = some .dir ∧
      Step gid e.dirMode e.fileMode (parent ++ [e.last]) n₁ n₂ ∧ Run h mountpoint after n₂ n' := by
  induction run with
  | nil => cases member
  | @cons e' rest gid parent n n₁ n' group leads isDir first later ih =>
    rcases List.mem_cons.mp member with rfl | member
    · exact ⟨[], rest, n, n₁, gid, parent, rfl, .nil n, group, leads, isDir, first, later⟩
    · obtain ⟨before, after, n₂, n₃, gid', parent', rfl, run, found⟩ := ih member
      exact ⟨e' :: before, after, n₂, n₃, gid', parent', rfl, .cons group leads isDir first run, found⟩

theorem Run.grows (run : Run h mountpoint es n n') : ∀ p s, n.shape p = some s → n'.shape p = some s :=
  run.preserves (P := fun m => ∀ p s, n.shape p = some s → m.shape p = some s)
    (fun _ _ _ _ _ _ _ _ step before p s found => step.grows p s (before p s found)) fun _ _ found => found

/-- The entry's place, if its path leads there, has the entry's owner and modes. -/
def Still (h : Host) (mountpoint : Place) (n : Tree) (e : Entry) : Prop :=
  ∀ gid parent, h.lookupGid e.group = some gid → n.resolve (mountpoint ++ e.up) = .ok parent →
    n.look (parent ++ [e.last]) ≠ none ∧ ∀ q i, parent ++ [e.last] <+: q → n.look q = some i →
      perms gid e.dirMode e.fileMode i = i

theorem ensure_still (proper : e.Proper) (leads : n.resolve (mountpoint ++ e.up) = .ok parent)
    (there : n.look (parent ++ [e.last]) ≠ none) : (ensure h e (e.full mountpoint) n).tree = n := by
  rw [proper.full]
  unfold ensure
  split
  · rfl
  · rename_i missing
    have isDir := (Node.stat_noent proper.last leads missing).1
    split
    · unfold Host.createSubvolume
      rw [Node.mkdir_name leads isDir, if_pos (Option.isSome_iff_ne_none.mpr there)]
      simp only [Except.toOption, ite_self]
    · rcases Node.mkdirAll_name (made h.umask e.dirMode) proper.last leads missing with ⟨none, _⟩ | ⟨_, failed⟩
      · exact absurd none there
      · rw [failed]
  · rfl

theorem Still.congr (same : n'.look = n.look) (still : Still h mountpoint n e) : Still h mountpoint n' e := by
  intro gid parent group leads
  rw [Node.resolve_congr same] at leads
  rw [same]
  exact still gid parent group leads

theorem initEntry_still (proper : e.Proper) (leads : n.resolve (mountpoint ++ e.up) = .ok parent)
    (still : Still h mountpoint n e) :
    (initEntry h mountpoint e n).tree.look = n.look ∧
      ((initEntry h mountpoint e n).failure = none → ∃ place, n.resolve (e.full mountpoint) = .ok place) := by
  unfold initEntry
  split
  · exact ⟨rfl, nofun⟩
  rename_i gid group
  obtain ⟨there, own⟩ := still gid parent group leads
  have kept := ensure_still (h := h) proper leads there
  split
  · rename_i ensured
    rw [ensured] at kept
    exact ⟨congrArg Node.look kept, nofun⟩
  rename_i n₁ ensured
  rw [ensured] at kept
  obtain rfl : n₁ = n := kept
  obtain ⟨isDir, made⟩ := ensure_ok proper leads ensured
  have follows : ∃ place, n₁.resolve (e.full mountpoint) = .ok place := by
    rcases made with ⟨_, _, follows⟩ | ⟨none, _⟩
    · exact follows
    · exact absurd none there
  split
  · exact ⟨rfl, nofun⟩
  · rename_i n₂ walked
    obtain ⟨_, looks⟩ := applyTreePerms_ok (by rw [proper.full]; exact Node.place_name leads isDir e.last) walked
    refine ⟨?_, fun _ => follows⟩
    funext q
    rw [looks]
    split
    · rename_i below
      cases here : n₁.look q with
      | none => rfl
      | some i => exact congrArg some (own q i below here)
    · rfl

theorem initEntries_still {done : List Place} (layered : Layered done es)
    (lead : ∀ path ∈ done, ∃ place, n.resolve (mountpoint ++ path) = .ok place)
    (still : ∀ e ∈ es, Still h mountpoint n e) : (initEntries h mountpoint es n).tree.look = n.look := by
  induction es generalizing n done with
  | nil => rfl
  | cons e rest ih =>
    obtain ⟨proper, above, layered⟩ := layered
    obtain ⟨parent, leads⟩ := lead e.up above
    obtain ⟨first, later⟩ := List.forall_mem_cons.mp still
    obtain ⟨same, follows⟩ := initEntry_still proper leads first
    unfold initEntries
    split
    · rename_i n₁ entered
      rw [entered] at same follows
      have leads₁ : ∀ path ∈ e.names :: done, ∃ place, n₁.resolve (mountpoint ++ path) = .ok place := by
        rw [Node.resolve_congr same]
        exact List.forall_mem_cons.mpr ⟨follows rfl, lead⟩
      exact (ih layered leads₁ fun e member => (later e member).congr same).trans same
    · exact same

/-! ### The mountpoint -/

/-- The mountpoint is a directory, and its path has no links. -/
structure Mounted (mountpoint : Place) (n : Tree) : Prop where
  proper : ∀ name ∈ mountpoint, IsName name
  isDir : n.shape mountpoint = some .dir

theorem Mounted.resolve (mounted : Mounted mountpoint n) : n.resolve mountpoint = .ok mountpoint :=
  Node.resolve_dir mounted.proper mounted.isDir

theorem Mounted.grows (mounted : Mounted mountpoint n) (grows : ∀ p s, n.shape p = some s → n'.shape p = some s) :
    Mounted mountpoint n' := ⟨mounted.proper, grows _ _ mounted.isDir⟩

theorem Mounted.change (mounted : Mounted mountpoint n) (f : Attr → Attr) :
    ∃ n', n.change (Item.map f) mountpoint = .ok n' ∧
      ∀ q, n'.look q = if q = mountpoint then (n.look q).map (Item.map f) else n.look q := by
  obtain ⟨attr, here⟩ := Node.shape_eq_dir.mp mounted.isDir
  refine ⟨n.modify (fun m => m.set (Item.map f m.item)) mountpoint, ?_, fun q => ?_⟩
  · simp [Node.change, mounted.resolve, here]
  · rw [Node.look_set (keeps_map f)]
    split
    · rename_i same
      rw [same]
    · rfl

/-- The mountpoint with its owner and mode. -/
def opened (mountpoint : Place) (gid : Nat) (n : Tree) (q : Place) : Option (Item Attr) :=
  if q = mountpoint then some (.dir ⟨0, gid, 0o751⟩) else n.look q

theorem Mounted.opened (mounted : Mounted mountpoint n) (gid : Nat) :
    ∃ n₁ n₂, n.change (chown 0 gid) mountpoint = .ok n₁ ∧ n₁.change (chmod 0o0751) mountpoint = .ok n₂ ∧
      n₂.look = InitFolders.opened mountpoint gid n := by
  obtain ⟨n₁, owned, looks₁⟩ := mounted.change fun attr => { attr with uid := 0, gid }
  obtain ⟨attr, here⟩ := Node.shape_eq_dir.mp mounted.isDir
  have here₁ := looks₁ mountpoint
  rw [if_pos rfl, here] at here₁
  have mounted₁ : Mounted mountpoint n₁ := ⟨mounted.proper, by rw [Node.shape, here₁]; rfl⟩
  obtain ⟨n₂, set, looks₂⟩ := mounted₁.change fun attr => { attr with mode := syscallMode 0o0751 }
  refine ⟨n₁, n₂, owned, set, ?_⟩
  funext q
  rw [InitFolders.opened, looks₂]
  by_cases same : q = mountpoint
  · subst same
    rw [if_pos rfl, if_pos rfl, here₁]
    have octal : syscallMode 0o0751 = 0o751 := by decide
    exact congrArg (fun mode => some (Item.dir (Attr.mk 0 gid mode))) octal
  · rw [if_neg same, if_neg same, looks₁, if_neg same]

/-- The path leads to an empty directory. -/
def EmptyAt (σ : Place → Option Shape) (path : Place) : Prop :=
  ∃ d, follow σ Node.maxLinks [] path = .ok d ∧ σ d = some .dir ∧ ∀ name, σ (d ++ [name]) = none

theorem readDir_nil {path : Place} : n.readDir path = .ok .nil ↔ EmptyAt n.shape path := by
  unfold Node.readDir EmptyAt Node.resolve
  cases follow n.shape Node.maxLinks [] path with
  | error e => simp
  | ok d =>
    simp only [Except.ok.injEq, exists_eq_left', Node.shape, Node.look, Node.get_append, Node.get_cons, Node.get_nil]
    cases n.get d with
    | none => simp
    | some m =>
      cases m with
      | dir attr entries =>
        cases entries with
        | nil => simp [Node.item, Item.shape, Node.entries, Entries.find]
        | cons first node rest =>
          simp only [Option.map_some, Node.item, Item.shape, Except.ok.injEq, reduceCtorEq, true_and, false_iff]
          intro empty
          have none := empty first
          simp [Node.entries, Entries.find] at none
      | file attr => simp [Node.item, Item.shape]
      | symlink target => simp [Node.item, Item.shape]

theorem EmptyAt.below {name : Path} (mounted : Mounted mountpoint n) (proper : IsName name)
    (empty : EmptyAt n.shape (mountpoint ++ [name]))
    (below : mountpoint ++ [name] <+: q) (other : q ≠ mountpoint ++ [name]) : n.look q = none := by
  obtain ⟨rest, rfl⟩ := below
  cases here : n.look (mountpoint ++ [name] ++ rest) with
  | none => rfl
  | some i =>
    cases rest with
    | nil => exact absurd (List.append_nil _) other
    | cons first rest =>
      obtain ⟨attr, isDir⟩ := Node.look_above here
      obtain ⟨d, leads, _, empty⟩ := empty
      obtain rfl := Except.ok.inj (leads.symm.trans (Node.resolve_some proper mounted.resolve isDir nofun))
      have none := Node.shape_eq_none.mp (empty first)
      rw [List.append_cons] at here
      cases rest with
      | nil =>
        rw [List.append_nil, none] at here
        cases here
      | cons second rest =>
        obtain ⟨attr, isDir⟩ := Node.look_above here
        rw [none] at isDir
        cases isDir

theorem dropLostFound_empty {name : Path} (mounted : Mounted mountpoint n) (proper : IsName name)
    (empty : EmptyAt n.shape (mountpoint ++ [name])) :
    (dropLostFound (mountpoint ++ [name]) n).look = fun q => if q = mountpoint ++ [name] then none else n.look q := by
  have nothing := fun q => empty.below mounted proper (q := q)
  have placed : n.place (mountpoint ++ [name]) = .ok (mountpoint ++ [name]) :=
    Node.place_name mounted.resolve mounted.isDir name
  have listed := readDir_nil.mpr empty
  have removed : n.remove (mountpoint ++ [name]) = .ok (n.modify (·.delete name) mountpoint) := by
    unfold Node.remove
    rw [List.getLast?_concat, placed]
    dsimp only
    rw [List.dropLast_concat]
    split
    · rename_i missing
      obtain ⟨d, leads, _⟩ := empty
      cases leads.symm.trans (Node.resolve_none proper mounted.resolve mounted.isDir (by rw [Node.look, missing]; rfl))
    · rename_i attr first node rest got
      have found := nothing (mountpoint ++ [name] ++ [first]) (List.prefix_append _ _) (by simp)
      rw [Node.look_append, got] at found
      simp [Node.look, Node.get_cons, Node.entries, Entries.find] at found
    · rfl
  funext q
  rw [dropLostFound, listed]
  dsimp only
  rw [removed]
  dsimp only
  rw [Node.look_delete]
  by_cases same : q = mountpoint ++ [name]
  · rw [if_pos same, if_pos (same ▸ List.prefix_refl _)]
  · rw [if_neg same]
    split
    · rename_i below
      exact (nothing q below same).symm
    · rfl

theorem dropLostFound_other {path : Place} (other : ¬ EmptyAt n.shape path) : dropLostFound path n = n := by
  unfold dropLostFound
  split
  · rename_i listed
    exact absurd (readDir_nil.mp listed) other
  · rfl

end HomelabDaemon.Bcachefs.InitFolders
