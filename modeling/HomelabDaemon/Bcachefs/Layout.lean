import HomelabDaemon.Bcachefs.InitFoldersRun

/-!
# The documented layout

What the layout of a pool should be, and the trees from which a run reaches it: none in which
`media`, `immich` or `tmp` is a directory or becomes one, for no directory keeps the setgid bit.
-/

namespace HomelabDaemon.Bcachefs.InitFolders
open FileTree
open Filepath (Path IsName)

def media : Path := text "media"

def immich : Path := text "immich"

def tmp : Path := text "tmp"

def backups : Path := text "backups"

def lostFound : Path := text "lost+found"

structure Folder where
  name : Path
  group : String
  dirMode : UInt32
  fileMode : UInt32

def folders : List Folder := [
  ⟨media, "media", 0o2770, 0o660⟩,
  ⟨immich, "immich", 0o2770, 0o660⟩,
  ⟨tmp, "users", 0o2770, 0o660⟩,
  ⟨backups, "root", 0o700, 0o600⟩]

/-- Modes as `stat` shows them; links have none. -/
def Conforms (gid : Nat) (dirMode fileMode : UInt32) : Item Attr → Prop
  | .dir attr => attr = ⟨0, gid, dirMode⟩
  | .file attr => attr = ⟨0, gid, fileMode⟩
  | .symlink _ => True

def Outside (mountpoint q : Place) : Prop := q ≠ mountpoint ∧ ∀ f ∈ folders, ¬ mountpoint ++ [f.name] <+: q

/-- An empty lost+found, which may go. -/
structure Droppable (mountpoint : Place) (n : Tree) (q : Place) : Prop where
  name : q = mountpoint ++ [lostFound]
  isDir : n.shape q = some .dir
  empty : ∀ name, n.look (q ++ [name]) = none

structure Converged (h : Host) (mountpoint : Place) (before after : Tree) : Prop where
  root : ∃ gid, h.lookupGid "media" = some gid ∧ after.look mountpoint = some (.dir ⟨0, gid, 0o751⟩)
  folders : ∀ f ∈ folders, ∃ gid, h.lookupGid f.group = some gid ∧
    ∀ q i, mountpoint ++ [f.name] <+: q → after.look q = some i → Conforms gid f.dirMode f.fileMode i
  outside : ∀ q, Outside mountpoint q → after.look q = before.look q ∨
    (Droppable mountpoint before q ∧ after.look q = none)
  kept : ∀ q s, before.shape q = some s → after.shape q = some s ∨ Droppable mountpoint before q
  again : (initFolders h mountpoint after).tree.look = after.look

/-- The tree with a directory for the backups. -/
def withBackups (mountpoint : Place) (n : Tree) (q : Place) : Option Shape :=
  if q = mountpoint ++ [backups] then some ((n.shape q).getD .dir) else n.shape q

/-- A link, or a tree elsewhere that the layout does not change. -/
def Settled (mountpoint : Place) (gid : Nat) (n : Tree) (w : Place) : Prop :=
  (∃ target, n.shape w = some (.symlink target)) ∨
    (n.look w ≠ none ∧ ¬ w <+: mountpoint ∧ (∀ f ∈ folders, ¬ mountpoint ++ [f.name] <+: w) ∧
      ∀ q i, w <+: q → n.look q = some i → Conforms gid 0o770 0o660 i)

structure Elsewhere (h : Host) (mountpoint : Place) (n : Tree) : Prop where
  media : ∃ target, n.shape (mountpoint ++ [media]) = some (.symlink target)
  immich : ∃ s, n.shape (mountpoint ++ [immich]) = some s ∧ s ≠ .dir
  tmp : ∃ s, n.shape (mountpoint ++ [tmp]) = some s ∧ s ≠ .dir
  /-- Each entry below `media` is found by way of the link. -/
  lower : ∀ e ∈ entries, e.isSubvolume = false → ∀ gid, h.lookupGid "media" = some gid →
    ∃ parent, follow (withBackups mountpoint n) Node.maxLinks [] (mountpoint ++ e.up) = .ok parent ∧
      Settled mountpoint gid n (parent ++ [e.last])
  lostFound : ∀ target, n.shape (mountpoint ++ [lostFound]) = some (.symlink target) →
    ¬ EmptyAt (withBackups mountpoint n) (mountpoint ++ [lostFound])

variable {h : Host} {mountpoint w p q : Place} {e : Entry} {es : List Entry} {n n' m a b c d f : Tree}
  {gid gm gi gu : Nat}
  {dirMode fileMode : UInt32} {i i' : Item Attr} {x y : Path} {s : Shape}

def shared : List Path := [media, immich, tmp]

def reserved : List Path := [media, immich, tmp, backups, lostFound]

theorem mem_lower : e ∈ entries.drop 4 ↔ e ∈ entries ∧ e.isSubvolume = false := by
  have filtered : entries.drop 4 = entries.filter fun e => !e.isSubvolume := rfl
  rw [filtered, List.mem_filter]
  simp

theorem lower_entries : ∀ e ∈ entries.drop 4,
    e.group = "media" ∧ e.dirMode = 0o2770 ∧ e.fileMode = 0o660 ∧ e.last ∉ reserved := by
  decide +kernel

theorem top_entries : ∀ e ∈ entries.take 4, ∃ F ∈ folders,
    e.up = [] ∧ e.last = F.name ∧ e.group = F.group ∧ e.dirMode = F.dirMode ∧ e.fileMode = F.fileMode := by
  decide +kernel

/-- A run of the layout, with the trees on its way. -/
structure Trace (h : Host) (mountpoint : Place) (gm gi gu : Nat) (n m a b c d f n' : Tree) : Prop where
  mediaGid : h.lookupGid "media" = some gm
  immichGid : h.lookupGid "immich" = some gi
  usersGid : h.lookupGid "users" = some gu
  mounted : Mounted mountpoint n
  root : m.look = opened mountpoint gm n
  media : Step gm 0o2770 0o660 (mountpoint ++ [media]) m a
  immich : Step gi 0o2770 0o660 (mountpoint ++ [immich]) a b
  tmp : Step gu 0o2770 0o660 (mountpoint ++ [tmp]) b c
  backups : Step 0 0o0700 0o600 (mountpoint ++ [backups]) c d
  lower : Run h mountpoint (entries.drop 4) d f
  drop : n' = dropLostFound (mountpoint ++ [lostFound]) f

theorem Run.top (run : Run h mountpoint (e :: es) n n') (mounted : Mounted mountpoint n) (top : e.up = []) :
    ∃ gid n₁, h.lookupGid e.group = some gid ∧ Step gid e.dirMode e.fileMode (mountpoint ++ [e.last]) n n₁ ∧
      Run h mountpoint es n₁ n' ∧ Mounted mountpoint n₁ := by
  cases run with
  | cons group leads isDir step rest =>
    rw [top, List.append_nil, mounted.resolve] at leads
    obtain rfl := Except.ok.inj leads
    exact ⟨_, _, group, step, rest, mounted.grows step.grows⟩

theorem shape_opened (mounted : Mounted mountpoint n) (same : m.look = opened mountpoint gid n) :
    m.shape = n.shape := by
  funext q
  rw [Node.shape, same, opened]
  split
  · rename_i here
    rw [here, mounted.isDir]
    rfl
  · rfl

theorem trace_of_success (mounted : Mounted mountpoint n) (success : initFolders h mountpoint n = ⟨none, n'⟩) :
    ∃ gm gi gu m a b c d f, Trace h mountpoint gm gi gu n m a b c d f n' := by
  unfold initFolders at success
  split at success
  · cases congrArg Outcome.failure success
  rename_i gm mediaGid
  obtain ⟨n₁, m, owned, set, root⟩ := mounted.opened gm
  rw [owned] at success
  dsimp only at success
  rw [set] at success
  dsimp only at success
  have mounted₂ : Mounted mountpoint m := ⟨mounted.proper, by rw [shape_opened mounted root]; exact mounted.isDir⟩
  split at success
  · rename_i f entered
    have lead : ∀ path ∈ [([] : Place)], ∃ place, m.resolve (mountpoint ++ path) = .ok place := by
      rintro path member
      obtain rfl := List.mem_singleton.mp member
      exact ⟨mountpoint, by rw [List.append_nil]; exact mounted₂.resolve⟩
    have run := initEntries_ok entries_layered lead entered
    obtain ⟨gm', a, group, media, run, mounted₃⟩ := run.top mounted₂ (by decide +kernel)
    obtain rfl := Option.some.inj (mediaGid.symm.trans group)
    obtain ⟨gi, b, immichGid, immich, run, mounted₄⟩ := run.top mounted₃ (by decide +kernel)
    obtain ⟨gu, c, usersGid, tmp, run, mounted₅⟩ := run.top mounted₄ (by decide +kernel)
    obtain ⟨gr, d, rootGid, backups, run, _⟩ := run.top mounted₅ (by decide +kernel)
    obtain rfl : 0 = gr := Option.some.inj rootGid
    exact ⟨gm, gi, gu, m, a, b, c, d, f, mediaGid, immichGid, usersGid, mounted, root, media, immich, tmp, backups, run,
      (congrArg Outcome.tree success).symm⟩
  · rename_i other
    rw [success] at other
    exact absurd rfl (other n')

/-! ### One step -/

theorem below_other (other : x ≠ y) (below : mountpoint ++ [x] <+: q) : ¬ mountpoint ++ [y] <+: q := by
  obtain ⟨rest, rfl⟩ := below
  rw [List.append_assoc, List.prefix_append_right_inj]
  intro starts
  exact other (List.cons_prefix_cons.mp starts).1.symm

theorem conforms_iff : perms gid 0o2770 0o660 i = i ↔ Conforms gid 0o770 0o660 i := by
  have dirs : syscallMode 0o2770 = 0o770 := by decide
  have files : syscallMode 0o660 = 0o660 := by decide
  cases i with
  | dir attr =>
    rw [perms, chmod, chown, Item.map, Item.map, dirs, Conforms, Item.dir.injEq]
    exact eq_comm
  | file attr =>
    rw [perms, chmod, chown, Item.map, Item.map, files, Conforms, Item.file.injEq]
    exact eq_comm
  | symlink target => simp [perms, Conforms]

theorem Step.own (step : Step gid dirMode fileMode w n n') (below : w <+: q) (found : n'.look q = some i) :
    perms gid dirMode fileMode i = i := by
  by_cases new : n.look w ≠ none ∨ q ≠ w
  · rw [step.below q below new] at found
    obtain ⟨i, _, rfl⟩ := Option.map_eq_some_iff.mp found
    exact perms_perms i
  · obtain ⟨missing, same⟩ := not_or.mp new
    rw [not_not.mp same, step.made (not_not.mp missing)] at found
    obtain rfl := Option.some.inj found
    rfl

theorem Step.old (step : Step gid dirMode fileMode w n n') (found : n'.shape q = some s) (other : s ≠ .dir) :
    n.shape q = some s := by
  obtain ⟨i', after, rfl⟩ := Option.map_eq_some_iff.mp found
  rcases step.origin after with ⟨i, before, same⟩ | ⟨rfl, missing⟩
  · rw [Node.shape, before, same]
    rfl
  · rw [step.made missing] at after
    obtain rfl := Option.some.inj after
    exact absurd rfl other

theorem Step.shape_there (step : Step gid dirMode fileMode w n n') : ∃ s, n'.shape w = some s := by
  obtain ⟨i, there⟩ := step.there
  exact ⟨_, by rw [Node.shape, there]; rfl⟩

/-- A directory without the setgid bit. -/
def Lost (n : Tree) (p : Place) : Prop := ∃ attr, n.look p = some (.dir attr) ∧ attr.mode &&& 0o2000 = 0

theorem Step.lost (step : Step gid dirMode fileMode w n n') (plain : syscallMode dirMode &&& 0o2000 = 0)
    (lost : Lost n p) : Lost n' p := by
  obtain ⟨attr, here, none⟩ := lost
  rcases step.look here with same | changed
  · exact ⟨attr, same, none⟩
  · exact ⟨_, changed, plain⟩

theorem Step.lost_there (step : Step gid dirMode fileMode w n n') (plain : syscallMode dirMode &&& 0o2000 = 0)
    (isDir : n'.shape w = some .dir) : Lost n' w := by
  obtain ⟨attr, here⟩ := Node.shape_eq_dir.mp isDir
  have own := step.own (List.prefix_refl w) here
  refine ⟨attr, here, ?_⟩
  rw [← Item.dir.inj own]
  exact plain

theorem Run.lower {P : Tree → Prop} (mediaGid : h.lookupGid "media" = some gm) (run : Run h mountpoint es n n')
    (sub : ∀ e ∈ es, e ∈ entries.drop 4)
    (step : ∀ e ∈ es, ∀ parent n n', n.resolve (mountpoint ++ e.up) = .ok parent →
      Step gm 0o2770 0o660 (parent ++ [e.last]) n n' → P n → P n')
    (start : P n) : P n' := by
  refine run.preserves (fun e member gid parent n n' group leads stepped before => ?_) start
  obtain ⟨media, dirMode, fileMode, _⟩ := lower_entries e (sub e member)
  rw [media, mediaGid] at group
  obtain rfl := Option.some.inj group
  rw [dirMode, fileMode] at stepped
  exact step e member parent n n' leads stepped before

theorem Run.old (mediaGid : h.lookupGid "media" = some gm) (run : Run h mountpoint es n n')
    (sub : ∀ e ∈ es, e ∈ entries.drop 4)
    (found : n'.shape q = some s) (other : s ≠ .dir) : n.shape q = some s :=
  run.lower (P := fun m => m.shape q = some s → n.shape q = some s) mediaGid sub
    (fun _ _ _ _ _ _ step before found => before (step.old found other)) id found

theorem Run.lost (mediaGid : h.lookupGid "media" = some gm) (run : Run h mountpoint es n n')
    (sub : ∀ e ∈ es, e ∈ entries.drop 4)
    (lost : Lost n p) : Lost n' p :=
  run.lower (P := fun m => Lost m p) mediaGid sub (fun _ _ _ _ _ _ step before => step.lost (by decide) before) lost

theorem Run.own (mediaGid : h.lookupGid "media" = some gm) (run : Run h mountpoint es n n')
    (sub : ∀ e ∈ es, e ∈ entries.drop 4)
    (here : n.look q = some i) (own : perms gm 0o2770 0o660 i = i) : n'.look q = some i := by
  refine run.lower (P := fun m => m.look q = some i) mediaGid sub (fun _ _ _ _ _ _ step before => ?_) here
  rcases step.look before with same | changed
  · exact same
  · rw [changed, own]

theorem Run.shape_eq (mediaGid : h.lookupGid "media" = some gm) (run : Run h mountpoint es n n')
    (sub : ∀ e ∈ es, e ∈ entries.drop 4)
    (known : ∀ parent name, name ∉ reserved →
      n'.look (parent ++ [name]) = some (.dir ⟨0, gm, syscallMode 0o2770⟩) → n.look (parent ++ [name]) ≠ none) :
    n'.shape = n.shape := by
  induction run with
  | nil => rfl
  | @cons e rest gid parent n n₁ n' group leads isDir step later ih =>
    obtain ⟨here, sub⟩ := List.forall_mem_cons.mp sub
    obtain ⟨media, dirMode, fileMode, name⟩ := lower_entries e here
    rw [media, mediaGid] at group
    obtain rfl := Option.some.inj group
    rw [dirMode, fileMode] at step
    have there : n.look (parent ++ [e.last]) ≠ none := by
      intro missing
      exact known parent e.last name (later.own mediaGid sub (step.made missing) rfl) missing
    have same := step.shape_eq there
    rw [← same]
    refine ih sub fun parent name fresh found => ?_
    rw [ne_eq, ← Node.shape_eq_none, same, Node.shape_eq_none]
    exact known parent name fresh found

/-! ### The whole run -/

section Trace
variable (t : Trace h mountpoint gm gi gu n m a b c d f n')
include t

theorem Trace.grows_d (q : Place) (s : Shape) (found : n.shape q = some s) : d.shape q = some s := by
  rw [← shape_opened t.mounted t.root] at found
  exact t.backups.grows q s (t.tmp.grows q s (t.immich.grows q s (t.media.grows q s found)))

theorem Trace.grows (q : Place) (s : Shape) (found : n.shape q = some s) : f.shape q = some s :=
  t.lower.grows q s (t.grows_d q s found)

theorem Trace.old (found : f.shape q = some s) (other : s ≠ .dir) : n.shape q = some s := by
  have before := t.lower.old t.mediaGid (fun _ member => member) found other
  rw [← shape_opened t.mounted t.root]
  exact t.media.old (t.immich.old (t.tmp.old (t.backups.old before other) other) other) other

theorem Trace.mounted_end : Mounted mountpoint f := t.mounted.grows t.grows

theorem Trace.final_empty (empty : EmptyAt f.shape (mountpoint ++ [lostFound])) :
    n'.look = fun q => if q = mountpoint ++ [lostFound] then none else f.look q := by
  rw [t.drop]
  exact dropLostFound_empty t.mounted_end (by decide +kernel) empty

theorem Trace.final_full (full : ¬ EmptyAt f.shape (mountpoint ++ [lostFound])) : n' = f := by
  rw [t.drop]
  exact dropLostFound_other full

theorem Trace.final (other : q ≠ mountpoint ++ [lostFound]) : n'.look q = f.look q := by
  by_cases empty : EmptyAt f.shape (mountpoint ++ [lostFound])
  · rw [t.final_empty empty]
    exact if_neg other
  · rw [t.final_full empty]

theorem Trace.stays (stays : ¬ (q = mountpoint ++ [lostFound] ∧ EmptyAt f.shape (mountpoint ++ [lostFound]))) :
    n'.look q = f.look q := by
  by_cases same : q = mountpoint ++ [lostFound]
  · rw [t.final_full fun empty => stays ⟨same, empty⟩]
  · exact t.final same

theorem Trace.fades (found : n'.look q = some i) : f.look q = some i := by
  by_cases empty : EmptyAt f.shape (mountpoint ++ [lostFound])
  · rw [t.final_empty empty] at found
    dsimp only at found
    split at found
    · cases found
    · exact found
  · rwa [← t.final_full empty]

theorem Trace.fades_shape (q : Place) (s : Shape) (found : n'.shape q = some s) : f.shape q = some s := by
  obtain ⟨i, here, rfl⟩ := Option.map_eq_some_iff.mp found
  rw [Node.shape, t.fades here]
  rfl

/-- The folders that groups share lose the setgid bit. -/
theorem Trace.lost (isShared : x ∈ shared) :
    ∃ s, f.shape (mountpoint ++ [x]) = some s ∧ (s = .dir → Lost f (mountpoint ++ [x])) := by
  have octal : syscallMode 0o2770 &&& 0o2000 = 0 := by decide
  have private_octal : syscallMode 0o0700 &&& 0o2000 = 0 := by decide
  have last : ∀ {p}, Lost d p → Lost f p := t.lower.lost t.mediaGid fun _ member => member
  have grows : ∀ {p s}, d.shape p = some s → f.shape p = some s := t.lower.grows _ _
  simp only [shared, List.mem_cons, List.not_mem_nil, or_false] at isShared
  rcases isShared with rfl | rfl | rfl
  · obtain ⟨s, there⟩ := t.media.shape_there
    refine ⟨s, grows (t.backups.grows _ _ (t.tmp.grows _ _ (t.immich.grows _ _ there))), ?_⟩
    rintro rfl
    exact last (t.backups.lost private_octal (t.tmp.lost octal (t.immich.lost octal (t.media.lost_there octal there))))
  · obtain ⟨s, there⟩ := t.immich.shape_there
    refine ⟨s, grows (t.backups.grows _ _ (t.tmp.grows _ _ there)), ?_⟩
    rintro rfl
    exact last (t.backups.lost private_octal (t.tmp.lost octal (t.immich.lost_there octal there)))
  · obtain ⟨s, there⟩ := t.tmp.shape_there
    refine ⟨s, grows (t.backups.grows _ _ there), ?_⟩
    rintro rfl
    exact last (t.backups.lost private_octal (t.tmp.lost_there octal there))

end Trace

theorem shared_folder (isShared : x ∈ shared) : ∃ F ∈ folders, F.name = x ∧ F.dirMode = 0o2770 := by
  simp only [shared, List.mem_cons, List.not_mem_nil, or_false] at isShared
  rcases isShared with rfl | rfl | rfl
  · exact ⟨⟨media, "media", 0o2770, 0o660⟩, by simp [folders], rfl, rfl⟩
  · exact ⟨⟨immich, "immich", 0o2770, 0o660⟩, by simp [folders], rfl, rfl⟩
  · exact ⟨⟨tmp, "users", 0o2770, 0o660⟩, by simp [folders], rfl, rfl⟩

/-- In a tree that has the layout no shared folder is a directory. -/
theorem Trace.solid (t : Trace h mountpoint gm gi gu n m a b c d f n') (converged : Converged h mountpoint n n')
    (isShared : x ∈ shared) : ∃ s, n.shape (mountpoint ++ [x]) = some s ∧ s ≠ .dir := by
  obtain ⟨s, there, lost⟩ := t.lost isShared
  obtain ⟨F, member, rfl, octal⟩ := shared_folder isShared
  have other : s ≠ .dir := by
    intro isDir
    obtain ⟨attr, here, none⟩ := lost isDir
    have kept : mountpoint ++ [F.name] ≠ mountpoint ++ [lostFound] := by
      intro same
      rw [(List.cons.inj (List.append_cancel_left same)).1] at isShared
      exact absurd isShared (by decide +kernel)
    obtain ⟨gid, _, conforms⟩ := converged.folders F member
    have attr_eq : attr = ⟨0, gid, F.dirMode⟩ := conforms _ _ (List.prefix_refl _) ((t.final kept).trans here)
    rw [attr_eq, octal] at none
    have bit : (0o2770 : UInt32) &&& 0o2000 = 0 := none
    exact absurd bit (by decide)
  exact ⟨s, t.old there other, other⟩

/-! ### From the layout to the tree before -/

theorem Trace.shape_d (t : Trace h mountpoint gm gi gu n m a b c d f n')
    (solid : ∀ x ∈ shared, ∃ s, n.shape (mountpoint ++ [x]) = some s) : d.shape = withBackups mountpoint n := by
  have there : ∀ x ∈ shared, ∀ k : Tree, k.shape = n.shape → k.look (mountpoint ++ [x]) ≠ none := by
    intro x isShared k same
    obtain ⟨s, found⟩ := solid x isShared
    rw [ne_eq, ← Node.shape_eq_none, same, found]
    exact nofun
  have start := shape_opened t.mounted t.root
  have shape_a := (t.media.shape_eq (there _ (by simp [shared]) m start)).trans start
  have shape_b := (t.immich.shape_eq (there _ (by simp [shared]) a shape_a)).trans shape_a
  have shape_c := (t.tmp.shape_eq (there _ (by simp [shared]) b shape_b)).trans shape_b
  rw [t.backups.shape, shape_c]
  rfl

theorem dir_above (below : p <+: q) (isDir : n.shape q = some .dir) : n.shape p = some .dir := by
  obtain ⟨rest, rfl⟩ := below
  cases rest with
  | nil => rwa [List.append_nil] at isDir
  | cons name rest =>
    obtain ⟨attr, found⟩ := Node.shape_eq_dir.mp isDir
    exact Node.shape_eq_dir.mpr (Node.look_above found)

theorem folder_cases {F : Folder} (member : F ∈ folders) : F.name ∈ shared ∨ F = ⟨backups, "root", 0o700, 0o600⟩ := by
  simp only [folders, List.mem_cons, List.not_mem_nil, or_false] at member
  rcases member with rfl | rfl | rfl | rfl
  · exact .inl (by simp [shared])
  · exact .inl (by simp [shared])
  · exact .inl (by simp [shared])
  · exact .inr rfl

theorem folder_reserved {F : Folder} (member : F ∈ folders) : F.name ∈ reserved := by
  rcases folder_cases member with isShared | rfl
  · exact List.mem_append_left [backups, lostFound] isShared
  · simp [reserved]

theorem ne_reserved {parent : Place} {name : Path} (fresh : name ∉ reserved) (taken : x ∈ reserved) :
    parent ++ [name] ≠ mountpoint ++ [x] := by
  intro same
  have last := congrArg List.getLast? same
  rw [List.getLast?_concat, List.getLast?_concat] at last
  exact fresh (Option.some.inj last ▸ taken)

theorem lostFound_reserved : lostFound ∈ reserved := by simp [reserved]

theorem Trace.within (t : Trace h mountpoint gm gi gu n m a b c d f n') (converged : Converged h mountpoint n n')
    {parent : Place} {name : Path} (fresh : name ∉ reserved) (isDir : f.shape parent = some .dir) {F : Folder}
    (member : F ∈ folders)
    (below : mountpoint ++ [F.name] <+: parent ++ [name]) : F = ⟨InitFolders.backups, "root", 0o700, 0o600⟩ := by
  rcases folder_cases member with isShared | eq
  · have above : mountpoint ++ [F.name] <+: parent := by
      rcases List.prefix_concat_iff.mp below with same | above
      · have last := congrArg List.getLast? same
        rw [List.getLast?_concat, List.getLast?_concat] at last
        exact absurd (Option.some.inj last ▸ folder_reserved member) fresh
      · exact above
    obtain ⟨s, there, other⟩ := t.solid converged isShared
    have same := (t.grows _ _ there).symm.trans (dir_above above isDir)
    exact absurd (Option.some.inj same) other
  · exact eq

/-- No directory of the media is new where the layout came out. -/
theorem Trace.known (t : Trace h mountpoint gm gi gu n m a b c d f n') (converged : Converged h mountpoint n n')
    (parent : Place) (name : Path) (fresh : name ∉ reserved)
    (found : f.look (parent ++ [name]) = some (.dir ⟨0, gm, syscallMode 0o2770⟩)) :
    n.look (parent ++ [name]) ≠ none := by
  intro missing
  have final := (t.final (ne_reserved fresh lostFound_reserved)).trans found
  by_cases within : ∃ F ∈ folders, mountpoint ++ [F.name] <+: parent ++ [name]
  · obtain ⟨F, member, below⟩ := within
    obtain rfl := t.within converged fresh (Node.shape_eq_dir.mpr (Node.look_parent found)) member below
    obtain ⟨gid, _, conforms⟩ := converged.folders _ member
    have same : (⟨0, gm, syscallMode 0o2770⟩ : Attr) = ⟨0, gid, 0o700⟩ := conforms _ _ below final
    have octal : syscallMode 0o2770 = 0o700 := congrArg Attr.mode same
    exact absurd octal (by decide)
  · have outside : Outside mountpoint (parent ++ [name]) := by
      refine ⟨?_, fun F member below => within ⟨F, member, below⟩⟩
      intro same
      rw [same, ← Node.shape_eq_none, t.mounted.isDir] at missing
      cases missing
    rcases converged.outside _ outside with same | ⟨drops, _⟩
    · rw [final, missing] at same
      cases same
    · exact ne_reserved fresh lostFound_reserved drops.name

/-- Where a lower entry has come to, in a tree that got nothing new but backups. -/
theorem Trace.came (t : Trace h mountpoint gm gi gu n m a b c d f n') (converged : Converged h mountpoint n n')
    (member : e ∈ entries.drop 4) :
    f.shape = withBackups mountpoint n ∧ ∃ parent, follow f.shape Node.maxLinks [] (mountpoint ++ e.up) = .ok parent ∧
      f.shape parent = some .dir ∧ f.look (parent ++ [e.last]) ≠ none ∧
      ∀ q i, parent ++ [e.last] <+: q → f.look q = some i → perms gm 0o2770 0o660 i = i := by
  obtain ⟨before, after, n₁, n₂, gid, parent, parts, run, group, leads, isDir, step, rest⟩ := t.lower.at member
  have sub : ∀ e' ∈ e :: after, e' ∈ entries.drop 4 := fun e' later => parts ▸ List.mem_append_right before later
  obtain ⟨media, dirMode, fileMode, _⟩ := lower_entries e member
  have grows : ∀ q s, n.shape q = some s → n₁.shape q = some s := fun q s found => run.grows q s (t.grows_d q s found)
  have known : ∀ k : Tree, (∀ q s, n.shape q = some s → k.shape q = some s) → ∀ parent name, name ∉ reserved →
      f.look (parent ++ [name]) = some (.dir ⟨0, gm, syscallMode 0o2770⟩) → k.look (parent ++ [name]) ≠ none := by
    intro k grows parent name fresh found
    obtain ⟨i, here⟩ := Option.ne_none_iff_exists'.mp (t.known converged parent name fresh found)
    rw [ne_eq, ← Node.shape_eq_none, grows _ i.shape (by rw [Node.shape, here]; rfl)]
    exact Option.some_ne_none _
  have shape : f.shape = d.shape := t.lower.shape_eq t.mediaGid (fun _ member => member) (known d t.grows_d)
  have shape₁ : f.shape = n₁.shape := (Run.cons group leads isDir step rest).shape_eq t.mediaGid sub (known n₁ grows)
  have solid : ∀ x ∈ shared, ∃ s, n.shape (mountpoint ++ [x]) = some s := fun x isShared =>
    (t.solid converged isShared).imp fun _ found => found.1
  refine ⟨shape.trans (t.shape_d solid), parent, by rw [shape₁]; exact leads, by rw [shape₁]; exact isDir, ?_, ?_⟩
  · obtain ⟨i, there⟩ := step.there
    rw [ne_eq, ← Node.shape_eq_none, rest.grows _ i.shape
      (by rw [Node.shape, there]; exact congrArg some (perms_shape i))]
    exact Option.some_ne_none _
  · intro q i below found
    have sub₂ : ∀ e' ∈ after, e' ∈ entries.drop 4 := fun e' later => sub e' (List.mem_cons_of_mem e later)
    have shape₂ : f.shape = n₂.shape := rest.shape_eq t.mediaGid sub₂
      (known n₂ fun q s found => step.grows q s (grows q s found))
    have there : n₂.shape q = some i.shape := by
      rw [← shape₂, Node.shape, found]
      rfl
    obtain ⟨j, here, _⟩ := Option.map_eq_some_iff.mp there
    have group' := group
    rw [media, t.mediaGid] at group'
    obtain rfl := Option.some.inj group'
    rw [dirMode, fileMode] at step
    have own := step.own below here
    obtain rfl := Option.some.inj ((rest.own t.mediaGid sub₂ here own).symm.trans found)
    exact own

theorem Trace.settled (t : Trace h mountpoint gm gi gu n m a b c d f n') (converged : Converged h mountpoint n n')
    {parent : Place} {name : Path} (fresh : name ∉ reserved) (shape : f.shape = withBackups mountpoint n)
    (isDir : f.shape parent = some .dir) (there : f.look (parent ++ [name]) ≠ none)
    (own : ∀ q i, parent ++ [name] <+: q → f.look q = some i → perms gm 0o2770 0o660 i = i) :
    Settled mountpoint gm n (parent ++ [name]) := by
  have same : f.shape (parent ++ [name]) = n.shape (parent ++ [name]) := by
    rw [shape, withBackups, if_neg (ne_reserved fresh (by simp [reserved]))]
  obtain ⟨i, here⟩ := Option.ne_none_iff_exists'.mp there
  have conforms := conforms_iff.mp (own _ _ (List.prefix_refl _) here)
  have final := (t.final (ne_reserved fresh lostFound_reserved)).trans here
  have shape_i : n.shape (parent ++ [name]) = some i.shape := by
    rw [← same, Node.shape, here]
    rfl
  by_cases link : ∃ target, i = .symlink target
  · obtain ⟨target, rfl⟩ := link
    exact .inl ⟨target, shape_i⟩
  have not_above : ¬ parent ++ [name] <+: mountpoint := by
    intro below
    obtain ⟨attr, root⟩ := Node.shape_eq_dir.mp t.mounted_end.isDir
    have changed : attr = ⟨0, gm, 0o770⟩ := conforms_iff.mp (own _ _ below root)
    obtain ⟨gid, _, kept⟩ := converged.root
    rw [t.final (by simp), root, changed] at kept
    have octal : (0o770 : UInt32) = 0o751 := congrArg Attr.mode (Item.dir.inj (Option.some.inj kept))
    exact absurd octal (by decide)
  have not_within : ∀ F ∈ folders, ¬ mountpoint ++ [F.name] <+: parent ++ [name] := by
    intro F member below
    obtain rfl := t.within converged fresh isDir member below
    obtain ⟨gid, _, both⟩ := converged.folders _ member
    have conforms' := both _ _ below final
    cases i with
    | dir attr =>
      have octal : (0o770 : UInt32) = 0o700 := congrArg Attr.mode (Eq.trans (Eq.symm conforms) conforms')
      exact absurd octal (by decide)
    | file attr =>
      have octal : (0o660 : UInt32) = 0o600 := congrArg Attr.mode (Eq.trans (Eq.symm conforms) conforms')
      exact absurd octal (by decide)
    | symlink target => exact link ⟨target, rfl⟩
  refine .inr ⟨?_, not_above, not_within, fun q j below found => ?_⟩
  · rw [ne_eq, ← Node.shape_eq_none, shape_i]
    exact Option.some_ne_none _
  have apart : ∀ x ∈ reserved, ¬ parent ++ [name] <+: mountpoint ++ [x] := by
    intro x taken above
    rcases List.prefix_concat_iff.mp above with same | above
    · exact ne_reserved fresh taken same
    · exact not_above above
  have outside : Outside mountpoint q := by
    refine ⟨fun same => not_above (same ▸ below), fun F member within => ?_⟩
    rcases List.prefix_or_prefix_of_prefix within below with inner | outer
    · exact not_within F member inner
    · exact apart _ (folder_reserved member) outer
  have kept : q ≠ mountpoint ++ [InitFolders.lostFound] := by
    rintro rfl
    exact apart _ lostFound_reserved below
  rcases converged.outside q outside with same | ⟨drops, _⟩
  · rw [t.final kept, found] at same
    exact conforms_iff.mp (own q j below same)
  · exact absurd drops.name kept

theorem not_below (mountpoint : Place) (x : Path) : ¬ mountpoint ++ [x] <+: mountpoint := by
  intro below
  have longer := below.length_le
  rw [List.length_append, List.length_singleton] at longer
  omega

theorem outside_lostFound (below : mountpoint ++ [lostFound] <+: q) : Outside mountpoint q := by
  have others : ∀ F ∈ folders, F.name ≠ lostFound := by decide +kernel
  exact ⟨fun same => not_below _ _ (same ▸ below), fun F member within => below_other (others F member) within below⟩

theorem Trace.elsewhere (t : Trace h mountpoint gm gi gu n m a b c d f n') (converged : Converged h mountpoint n n') :
    Elsewhere h mountpoint n := by
  have library : ⟨"media/library", false, "media", 0o2770, 0o660⟩ ∈ entries.drop 4 := by simp [entries]
  obtain ⟨shape, parent, leads, isDir, _⟩ := t.came converged library
  refine ⟨?_, t.solid converged (by simp [shared]), t.solid converged (by simp [shared]), ?_, ?_⟩
  · obtain ⟨s, there, other⟩ := t.solid converged (x := InitFolders.media) (by simp [shared])
    cases s with
    | dir => exact absurd rfl other
    | symlink target => exact ⟨target, there⟩
    | file =>
      have up : Entry.up ⟨"media/library", false, "media", 0o2770, 0o660⟩ = [InitFolders.media] := by decide +kernel
      have stays := t.grows _ _ there
      obtain ⟨i, here, shape⟩ := Option.map_eq_some_iff.mp stays
      have leads' : f.resolve (mountpoint ++ [InitFolders.media]) = .ok (mountpoint ++ [InitFolders.media]) :=
        Node.resolve_some (by decide +kernel) t.mounted_end.resolve here (by rintro target rfl; cases shape)
      rw [up] at leads
      obtain rfl := Except.ok.inj (leads.symm.trans leads')
      cases isDir.symm.trans stays
  · intro e member lower gid group
    obtain rfl := Option.some.inj (t.mediaGid.symm.trans group)
    have member := mem_lower.mpr ⟨member, lower⟩
    obtain ⟨shape, parent, leads, isDir, there, own⟩ := t.came converged member
    exact ⟨parent, shape ▸ leads, t.settled converged (lower_entries e member).2.2.2 shape isDir there own⟩
  · intro target link empty
    rw [← shape] at empty
    have gone := congrFun (t.final_empty empty) (mountpoint ++ [InitFolders.lostFound])
    rw [if_pos rfl] at gone
    rcases converged.outside _ (outside_lostFound (List.prefix_refl _)) with same | ⟨drops, _⟩
    · rw [gone] at same
      rw [Node.shape, ← same] at link
      cases link
    · cases link.symm.trans drops.isDir

/-! ### From the tree before to the layout -/

theorem below_leaf (here : n.shape p = some s) (other : s ≠ .dir) (below : p <+: q) (found : n.look q = some i) :
    q = p := by
  obtain ⟨rest, rfl⟩ := below
  cases rest with
  | nil => exact List.append_nil p
  | cons name rest => exact absurd (Option.some.inj
      (here.symm.trans (Node.shape_eq_dir.mpr (Node.look_above found)))) other

theorem Trace.own_d (t : Trace h mountpoint gm gi gu n m a b c d f n') {F : Folder} (member : F ∈ folders) :
    ∃ gid, h.lookupGid F.group = some gid ∧ d.look (mountpoint ++ [F.name]) ≠ none ∧
      ∀ q i, mountpoint ++ [F.name] <+: q → d.look q = some i → perms gid F.dirMode F.fileMode i = i := by
  have there : ∀ {x : Path} {k : Tree}, (∀ q s, k.shape q = some s → d.shape q = some s) →
      (∃ s, k.shape (mountpoint ++ [x]) = some s) → d.look (mountpoint ++ [x]) ≠ none := by
    rintro x k grows ⟨s, found⟩
    rw [ne_eq, ← Node.shape_eq_none, grows _ _ found]
    exact nofun
  have from_c := t.backups.grows
  have from_b := fun q s found => from_c q s (t.tmp.grows q s found)
  have from_a := fun q s found => from_b q s (t.immich.grows q s found)
  simp only [InitFolders.folders, List.mem_cons, List.not_mem_nil, or_false] at member
  rcases member with rfl | rfl | rfl | rfl
  · refine ⟨gm, t.mediaGid, there from_a t.media.shape_there, fun q i below found => t.media.own below ?_⟩
    rwa [t.backups.frame q (below_other (by decide +kernel) below),
      t.tmp.frame q (below_other (by decide +kernel) below),
      t.immich.frame q (below_other (by decide +kernel) below)] at found
  · refine ⟨gi, t.immichGid, there from_b t.immich.shape_there, fun q i below found => t.immich.own below ?_⟩
    rwa [t.backups.frame q (below_other (by decide +kernel) below),
      t.tmp.frame q (below_other (by decide +kernel) below)] at found
  · refine ⟨gu, t.usersGid, there from_c t.tmp.shape_there, fun q i below found => t.tmp.own below ?_⟩
    rwa [t.backups.frame q (below_other (by decide +kernel) below)] at found
  · exact ⟨0, rfl, there (fun _ _ found => found) t.backups.shape_there, fun q i below found =>
      t.backups.own below found⟩

theorem Trace.frame_d (t : Trace h mountpoint gm gi gu n m a b c d f n')
    (outside : ∀ F ∈ folders, ¬ mountpoint ++ [F.name] <+: q) :
    d.look q = opened mountpoint gm n q := by
  simp only [InitFolders.folders, List.forall_mem_cons] at outside
  obtain ⟨not_media, not_immich, not_tmp, not_backups, _⟩ := outside
  rw [t.backups.frame q not_backups, t.tmp.frame q not_tmp, t.immich.frame q not_immich, t.media.frame q not_media,
    t.root]

theorem Elsewhere.solid (holds : Elsewhere h mountpoint n) (isShared : x ∈ shared) :
    ∃ s, n.shape (mountpoint ++ [x]) = some s ∧ s ≠ .dir := by
  simp only [shared, List.mem_cons, List.not_mem_nil, or_false] at isShared
  rcases isShared with rfl | rfl | rfl
  · obtain ⟨target, link⟩ := holds.media
    exact ⟨_, link, nofun⟩
  · exact holds.immich
  · exact holds.tmp

section Elsewhere
variable (t : Trace h mountpoint gm gi gu n m a b c d f n') (holds : Elsewhere h mountpoint n)
include t holds

theorem Elsewhere.shape_d : d.shape = withBackups mountpoint n :=
  t.shape_d fun _ isShared =>
    let ⟨s, there, _⟩ := holds.solid isShared
    ⟨s, there⟩

theorem Elsewhere.quiet (member : e ∈ entries.drop 4) {parent : Place}
    (leads : follow (withBackups mountpoint n) Node.maxLinks [] (mountpoint ++ e.up) = .ok parent) :
    d.look (parent ++ [e.last]) ≠ none ∧
      ∀ q i, parent ++ [e.last] <+: q → d.look q = some i → perms gm 0o2770 0o660 i = i := by
  obtain ⟨inEntries, lower⟩ := mem_lower.mp member
  have fresh := (lower_entries e member).2.2.2
  obtain ⟨parent', leads', settled⟩ := holds.lower e inEntries lower gm t.mediaGid
  obtain rfl := Except.ok.inj (leads.symm.trans leads')
  rcases settled with ⟨target, link⟩ | ⟨there, not_above, not_within, own⟩
  · have link' : d.shape (parent ++ [e.last]) = some (.symlink target) := by
      rw [holds.shape_d t, withBackups, if_neg (ne_reserved fresh (by simp [reserved])), link]
    obtain ⟨i, here, shape⟩ := Option.map_eq_some_iff.mp link'
    refine ⟨by simp [here], fun q j below found => ?_⟩
    obtain rfl := below_leaf link' nofun below found
    obtain rfl := Option.some.inj (here.symm.trans found)
    cases i with
    | symlink target => rfl
    | dir attr => cases shape
    | file attr => cases shape
  · have same : ∀ q, parent ++ [e.last] <+: q → d.look q = n.look q := by
      intro q below
      rw [t.frame_d, opened, if_neg]
      · exact fun same => not_above (same ▸ below)
      · intro F member within
        rcases List.prefix_or_prefix_of_prefix within below with inner | outer
        · exact not_within F member inner
        · rcases List.prefix_concat_iff.mp outer with eq | above
          · exact ne_reserved fresh (folder_reserved member) eq
          · exact not_above above
    refine ⟨by rw [same _ (List.prefix_refl _)]; exact there, fun q i below found => ?_⟩
    rw [same q below] at found
    exact conforms_iff.mpr (own q i below found)

theorem Elsewhere.look_f : f.look = d.look := by
  refine t.lower.lower (P := fun k => k.look = d.look) t.mediaGid (fun _ member => member)
    (fun e member parent k k' leads step before => ?_) rfl
  have shape : k.shape = withBackups mountpoint n := by
    rw [← holds.shape_d t]
    funext q
    rw [Node.shape, before]
    rfl
  obtain ⟨there, own⟩ := holds.quiet t member (by rw [← shape]; exact leads)
  rw [← before] at there own ⊢
  exact step.still there own

theorem Elsewhere.shape_f : f.shape = withBackups mountpoint n := by
  rw [← holds.shape_d t]
  funext q
  rw [Node.shape, holds.look_f t]
  rfl

theorem Elsewhere.frame (outside : Outside mountpoint q) : f.look q = n.look q := by
  rw [holds.look_f t, t.frame_d outside.2, opened, if_neg outside.1]

theorem Elsewhere.root : f.look mountpoint = some (.dir ⟨0, gm, 0o751⟩) := by
  rw [holds.look_f t, t.frame_d, opened, if_pos rfl]
  exact fun F _ => not_below mountpoint F.name

theorem Elsewhere.conforms {F : Folder} (member : F ∈ folders) : ∃ gid, h.lookupGid F.group = some gid ∧
    ∀ q i, mountpoint ++ [F.name] <+: q → f.look q = some i → Conforms gid F.dirMode F.fileMode i := by
  obtain ⟨gid, group, _, own⟩ := t.own_d member
  refine ⟨gid, group, fun q i below found => ?_⟩
  rw [holds.look_f t] at found
  have same := own q i below found
  have octal : ∀ F ∈ InitFolders.folders, syscallMode F.fileMode = F.fileMode := by decide +kernel
  cases i with
  | symlink target => trivial
  | file attr =>
    rw [Conforms, ← Item.file.inj same, octal F member]
  | dir attr =>
    rcases folder_cases member with isShared | rfl
    · obtain ⟨s, there, other⟩ := holds.solid isShared
      have there := t.grows_d _ _ there
      obtain rfl := below_leaf there other below found
      rw [Node.shape, found] at there
      exact absurd (Option.some.inj there).symm other
    · exact (Item.dir.inj same).symm

theorem Elsewhere.droppable (empty : EmptyAt f.shape (mountpoint ++ [InitFolders.lostFound])) :
    Droppable mountpoint n (mountpoint ++ [InitFolders.lostFound]) := by
  have proper : IsName InitFolders.lostFound := by decide +kernel
  have mounted := t.mounted_end
  have frame : ∀ q, mountpoint ++ [InitFolders.lostFound] <+: q → f.look q = n.look q := fun q below =>
    holds.frame t (outside_lostFound below)
  have same := frame _ (List.prefix_refl _)
  refine ⟨rfl, ?_, fun name => ?_⟩
  · obtain ⟨d, leads, isDir, _⟩ := id empty
    cases here : f.look (mountpoint ++ [InitFolders.lostFound]) with
    | none => cases leads.symm.trans (Node.resolve_none proper mounted.resolve mounted.isDir here)
    | some i =>
      rw [here] at same
      cases i with
      | dir attr => rw [Node.shape, ← same]; rfl
      | file attr =>
        obtain rfl := Except.ok.inj (leads.symm.trans (Node.resolve_some proper mounted.resolve here (by rintro _ ⟨⟩)))
        rw [Node.shape, here] at isDir
        cases isDir
      | symlink target =>
        rw [holds.shape_f t] at empty
        exact absurd empty (holds.lostFound target (by rw [Node.shape, ← same]; rfl))
  · rw [← frame _ (List.prefix_append _ _)]
    exact empty.below mounted proper (List.prefix_append _ _) (by simp)

/-! ### A second run -/

theorem Elsewhere.mounted_again : Mounted mountpoint n' := by
  refine ⟨t.mounted.proper, ?_⟩
  rw [Node.shape, t.final (by simp), holds.root t]
  rfl

theorem Elsewhere.still (member : e ∈ entries) : Still h mountpoint n' e := by
  intro gid parent group leads
  rw [← List.take_append_drop 4 entries] at member
  rcases List.mem_append.mp member with top | lower
  · obtain ⟨F, isFolder, up, last, group', dirMode, fileMode⟩ := top_entries e top
    rw [up, List.append_nil, (holds.mounted_again t).resolve] at leads
    obtain rfl := Except.ok.inj leads
    obtain ⟨gid', found, there, own⟩ := t.own_d isFolder
    rw [group', found] at group
    obtain rfl := Option.some.inj group
    rw [last, dirMode, fileMode]
    refine ⟨?_, fun q i below found => own q i below ?_⟩
    · rw [t.final, holds.look_f t]
      · exact there
      · intro same
        exact (outside_lostFound (List.prefix_refl (mountpoint ++ [InitFolders.lostFound]))).2 F isFolder
          (same ▸ List.prefix_refl _)
    · rw [← holds.look_f t]
      exact t.fades found
  · obtain ⟨media, dirMode, fileMode, fresh⟩ := lower_entries e lower
    rw [media, t.mediaGid] at group
    obtain rfl := Option.some.inj group
    have leads_f : f.resolve (mountpoint ++ e.up) = .ok parent := Node.resolve_mono t.fades_shape leads
    obtain ⟨there, own⟩ := holds.quiet t lower (by rw [← holds.shape_f t]; exact leads_f)
    rw [dirMode, fileMode]
    refine ⟨?_, fun q i below found => own q i below ?_⟩
    · rw [t.final (ne_reserved fresh lostFound_reserved), holds.look_f t]
      exact there
    · rw [← holds.look_f t]
      exact t.fades found

theorem Elsewhere.again : (initFolders h mountpoint n').tree.look = n'.look := by
  have mounted := holds.mounted_again t
  obtain ⟨n₁, n₂, owned, set, root⟩ := mounted.opened gm
  have same : n₂.look = n'.look := by
    rw [root]
    funext q
    unfold opened
    split
    · rename_i here
      rw [here, t.final (by simp), holds.root t]
    · rfl
  have lead : ∀ path ∈ [([] : Place)], ∃ place, n₂.resolve (mountpoint ++ path) = .ok place := by
    rintro path member
    obtain rfl := List.mem_singleton.mp member
    exact ⟨mountpoint, by rw [List.append_nil, Node.resolve_congr same]; exact mounted.resolve⟩
  have kept := initEntries_still entries_layered lead fun e member => (holds.still t member).congr same
  have full : ∀ k : Tree, k.look = n'.look → ¬ EmptyAt k.shape (mountpoint ++ [InitFolders.lostFound]) := by
    intro k same empty
    have shape : k.shape = n'.shape := by
      funext q
      rw [Node.shape, same]
      rfl
    rw [shape] at empty
    by_cases empty_f : EmptyAt f.shape (mountpoint ++ [InitFolders.lostFound])
    · obtain ⟨d, leads, _⟩ := empty
      have gone := congrFun (t.final_empty empty_f) (mountpoint ++ [InitFolders.lostFound])
      rw [if_pos rfl] at gone
      cases leads.symm.trans (Node.resolve_none (by decide +kernel) mounted.resolve mounted.isDir gone)
    · rw [t.final_full empty_f] at empty
      exact empty_f empty
  unfold initFolders
  rw [t.mediaGid]
  dsimp only
  rw [owned]
  dsimp only
  rw [set]
  dsimp only
  split
  · rename_i n₃ entered
    rw [entered] at kept
    have same₃ := kept.trans same
    rw [show dropLostFound (mountpoint ++ [text "lost+found"]) n₃ = n₃ from dropLostFound_other (full n₃ same₃)]
    exact same₃
  · exact kept.trans same

theorem Elsewhere.converged : Converged h mountpoint n n' := by
  refine ⟨⟨gm, t.mediaGid, (t.final (by simp)).trans (holds.root t)⟩, fun F member => ?_, fun q outside => ?_,
    fun q s found => ?_,
    holds.again t⟩
  · obtain ⟨gid, group, conforms⟩ := holds.conforms t member
    exact ⟨gid, group, fun q i below found => conforms q i below (t.fades found)⟩
  · by_cases gone : q = mountpoint ++ [InitFolders.lostFound] ∧ EmptyAt f.shape (mountpoint ++ [InitFolders.lostFound])
    · obtain ⟨rfl, empty⟩ := gone
      have none := congrFun (t.final_empty empty) (mountpoint ++ [InitFolders.lostFound])
      exact .inr ⟨holds.droppable t empty, by rw [none, if_pos rfl]⟩
    · exact .inl ((t.stays gone).trans (holds.frame t outside))
  · by_cases gone : q = mountpoint ++ [InitFolders.lostFound] ∧ EmptyAt f.shape (mountpoint ++ [InitFolders.lostFound])
    · obtain ⟨rfl, empty⟩ := gone
      exact .inr (holds.droppable t empty)
    · refine .inl ?_
      rw [Node.shape, t.stays gone]
      exact t.grows q s found

end Elsewhere

/-- A run that succeeds comes to the layout exactly where the folders of the groups are elsewhere. -/
theorem converged_iff (mounted : Mounted mountpoint n) (success : initFolders h mountpoint n = ⟨none, n'⟩) :
    Converged h mountpoint n n' ↔ Elsewhere h mountpoint n := by
  obtain ⟨gm, gi, gu, m, a, b, c, d, f, t⟩ := trace_of_success mounted success
  exact ⟨t.elsewhere, Elsewhere.converged t⟩

/-! ### Two pools -/

theorem Outcome.success {o : Outcome} (succeeds : o.failure = none) : o = ⟨none, o.tree⟩ := by
  obtain ⟨failure, tree⟩ := o
  rw [show failure = none from succeeds]

def pool : Path := text "pool"

def host : Host where
  groups := fun group => if group = "media" then some 169 else if group = "immich" then some 999
    else if group = "users" then some 100 else none
  umask := 0o022
  accepts := fun _ _ => true
  subvolume := fun _ => ⟨0, 0, 0o755⟩

def emptyPool : Tree := .dir ⟨0, 0, 0o755⟩ (.cons pool (.dir ⟨0, 0, 0o755⟩ .nil) .nil)

/-- The new folders are closed to others, but they do not hand on their group. -/
theorem emptyPool_unset : (initFolders host [pool] emptyPool).failure = none ∧
    (initFolders host [pool] emptyPool).tree.look [pool, media] = some (.dir ⟨0, 169, 0o770⟩) ∧
    ¬ Converged host [pool] emptyPool (initFolders host [pool] emptyPool).tree := by
  have look : (initFolders host [pool] emptyPool).tree.look [pool, media] =
    some (.dir ⟨0, 169, 0o770⟩) := by decide +kernel
  refine ⟨by decide +kernel, look, fun converged => ?_⟩
  obtain ⟨gid, _, conforms⟩ := converged.folders ⟨media, "media", 0o2770, 0o660⟩ (by simp [folders])
  have same : (⟨0, 169, 0o770⟩ : Attr) = ⟨0, gid, 0o2770⟩ := conforms _ _ (List.prefix_refl _) look
  have octal : (0o770 : UInt32) = 0o2770 := congrArg Attr.mode same
  exact absurd octal (by decide)

/-- A pool whose media are links into a store. -/
def linkedPool : Tree :=
  let toStore : Node Attr := .symlink (text "/store")
  .dir ⟨0, 0, 0o755⟩
    (.cons pool (.dir ⟨0, 0, 0o755⟩
      (.cons media toStore (.cons immich (.file ⟨0, 0, 0o644⟩) (.cons tmp (.file ⟨0, 0, 0o644⟩) .nil))))
    (.cons (text "store") (.dir ⟨0, 0, 0o755⟩
      (.cons (text "library") toStore (.cons (text "movies") toStore
        (.cons (text "shows") toStore (.cons (text "music") toStore
        (.cons (text "books") toStore (.cons (text "audiobooks") toStore (.cons (text "qbittorrent") toStore
          (.cons (text ".incomplete") toStore .nil)))))))))
    .nil))

theorem linkedPool_converged : Converged host [pool] linkedPool (initFolders host [pool] linkedPool).tree := by
  have mounted : Mounted [pool] linkedPool := ⟨by decide +kernel, by decide +kernel⟩
  have failure : (initFolders host [pool] linkedPool).failure = none := by decide +kernel
  refine (converged_iff mounted (Outcome.success failure)).mpr ⟨⟨text "/store", by decide +kernel⟩,
    ⟨.file, by decide +kernel⟩,
    ⟨.file, by decide +kernel⟩, ?_, ?_⟩
  · intro e member lower gid _
    have links : ∀ e ∈ entries, e.isSubvolume = false →
        follow (withBackups [pool] linkedPool) Node.maxLinks [] ([pool] ++ e.up) = .ok [text "store"] ∧
          linkedPool.shape ([text "store"] ++ [e.last]) = some (.symlink (text "/store")) := by
      decide +kernel
    obtain ⟨leads, link⟩ := links e member lower
    exact ⟨_, leads, .inl ⟨_, link⟩⟩
  · intro target link
    have none : linkedPool.shape ([pool] ++ [lostFound]) = none := by decide +kernel
    cases none.symm.trans link

end HomelabDaemon.Bcachefs.InitFolders
