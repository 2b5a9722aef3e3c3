import HomelabDaemon.Merge

/-!
# What a merge amounts to

The loops of `handleMergeConfig` against a description of their result: each existing entry in its
place, the last of a unit brought up to date, and the missing entries behind. A second merge finds
nothing to do.
-/

namespace HomelabDaemon

namespace MergeSpec

/-- The last entry with property `p` is changed. -/
def updateLast {α : Type} (p : α → Bool) (f : α → α) : List α → List α
  | [] => []
  | x :: xs => if xs.any p then x :: updateLast p f xs else (if p x then f x else x) :: xs

/-- Of each unit the last entry is synced with the default of that unit. -/
def syncLast {α : Type} (unit : α → String) (sync : α → α → α) (defaults : List α) : List α → List α
  | [] => []
  | x :: xs =>
    (if xs.any (unit · == unit x) then x
    else match defaults.find? (unit · == unit x) with
      | some d => sync d x
      | none => x) :: syncLast unit sync defaults xs

/-- The defaults that no entry has the unit of. -/
def missing {α : Type} (unit : α → String) (existing defaults : List α) : List α :=
  defaults.filter fun d => !existing.any (unit · == unit d)

section UpdateLast
variable {α : Type} {p : α → Bool} {f : α → α} {xs ys : List α}

theorem updateLast_of_none (none : xs.any p = false) : updateLast p f xs = xs := by
  cases xs with
  | nil => rfl
  | cons x xs =>
    obtain ⟨head, tail⟩ := Bool.or_eq_false_iff.mp none
    simp [updateLast, head, tail]

theorem updateLast_append (here : xs.any p = true) (after : ys.any p = false) :
    updateLast p f (xs ++ ys) = updateLast p f xs ++ ys := by
  induction xs with
  | nil => cases here
  | cons x xs ih =>
    rw [List.cons_append, updateLast, updateLast, List.any_append, after, Bool.or_false]
    cases tail : xs.any p with
    | true =>
      rw [ih tail]
      rfl
    | false => rfl

theorem updateLast_last {x : α} (last : p x = true) : updateLast p f (xs ++ [x]) = xs ++ [f x] := by
  induction xs with
  | nil => simp [updateLast, last]
  | cons y xs ih =>
    have later : (xs ++ [x]).any p = true := by
      simp [last]
    rw [List.cons_append, updateLast, if_pos later, ih]
    rfl

end UpdateLast

theorem modify_append {α : Type} {f : α → α} {xs ys : List α} {idx : Nat} (bound : idx < xs.length) :
    (xs ++ ys).modify idx f = xs.modify idx f ++ ys := by
  induction xs generalizing idx with
  | nil => cases bound
  | cons x xs ih =>
    cases idx with
    | zero => rfl
    | succ idx => simp [ih (Nat.lt_of_succ_lt_succ bound)]

theorem modify_last {α : Type} {f : α → α} (xs : List α) (x : α) : (xs ++ [x]).modify xs.length f = xs ++ [f x] := by
  induction xs with
  | nil => rfl
  | cons y xs ih => simp [ih]

section Places
variable {α : Type} {unit : α → String} {existing xs : List α} {u : String}

theorem places_append (existing : List α) (x : α) :
    places unit (existing ++ [x]) = Function.update (places unit existing) (unit x) (some existing.length) := by
  unfold places
  rw [List.zipIdx_append, List.foldl_append, Nat.zero_add]
  rfl

theorem places_none (none : places unit existing u = none) : existing.any (unit · == u) = false := by
  induction existing using List.reverseRecOn with
  | nil => rfl
  | append_singleton existing x ih =>
    rw [places_append] at none
    by_cases same : u = unit x
    · rw [same, Function.update_self] at none
      cases none
    · rw [Function.update_of_ne same] at none
      have other : unit x ≠ u := fun eq => same eq.symm
      simp [List.any_append, ih none, other]

theorem places_some {f : α → α} {idx : Nat} (found : places unit existing u = some idx)
    (units : xs.map unit = existing.map unit) :
    idx < xs.length ∧ xs.any (unit · == u) = true ∧ xs.modify idx f = updateLast (unit · == u) f xs := by
  induction existing using List.reverseRecOn generalizing xs with
  | nil => cases found
  | append_singleton existing x ih =>
    rw [List.map_append] at units
    obtain ⟨ys, last, rfl, front, back⟩ := List.map_eq_append_iff.mp units
    obtain ⟨y, rfl, named⟩ : ∃ y, last = [y] ∧ unit y = unit x := by
      cases last with
      | nil => cases back
      | cons y rest =>
        obtain ⟨named, empty⟩ := List.cons.inj back
        obtain rfl := List.map_eq_nil_iff.mp empty
        exact ⟨y, rfl, named⟩
    rw [places_append] at found
    by_cases same : u = unit x
    · rw [same, Function.update_self] at found
      obtain rfl := Option.some.inj found
      have length : existing.length = ys.length := by
        simpa using (congrArg List.length front).symm
      have last : (unit y == u) = true := by
        simp [named, same]
      refine ⟨by simp [length], by simp [last], ?_⟩
      rw [length, modify_last]
      exact (updateLast_last (p := fun x => unit x == u) last).symm
    · rw [Function.update_of_ne same] at found
      obtain ⟨bound, inside, modified⟩ := ih found front
      have other : ([y].any (unit · == u)) = false := by
        have ne : unit y ≠ u := fun eq => same (eq.symm.trans named)
        simp [ne]
      refine ⟨by rw [List.length_append]; omega, by rw [List.any_append, inside]; rfl, ?_⟩
      rw [updateLast_append inside other, ← modified, modify_append bound]

theorem places_find {idx : Nat} (found : places unit existing u = some idx) :
    existing[idx]? = existing.reverse.find? (unit · == u) := by
  induction existing using List.reverseRecOn with
  | nil => cases found
  | append_singleton existing x ih =>
    rw [places_append] at found
    rw [List.reverse_append]
    by_cases same : u = unit x
    · rw [same, Function.update_self] at found
      obtain rfl := Option.some.inj found
      simp [same]
    · rw [Function.update_of_ne same] at found
      obtain ⟨bound, _⟩ := places_some found rfl (f := id)
      have other : (unit x == u) = false := by
        simpa using fun eq => same eq.symm
      rw [List.getElem?_append_left bound, ih found]
      simp [other]

end Places

/-! ### The loop -/

section Loop
variable {α : Type} {unit : α → String} {differs : α → α → Bool} {sync : α → α → α} {existing defaults xs : List α}
  {d : α}

theorem syncLast_nil (xs : List α) : syncLast unit sync [] xs = xs := by
  induction xs with
  | nil => rfl
  | cons x xs ih => simp [syncLast, ih]

theorem syncLast_units (same : ∀ d x, unit (sync d x) = unit x) (defaults xs : List α) :
    (syncLast unit sync defaults xs).map unit = xs.map unit := by
  induction xs with
  | nil => rfl
  | cons x xs ih =>
    rw [syncLast, List.map_cons, List.map_cons, ih]
    congr 1
    split
    · rfl
    · split
      · exact same _ x
      · rfl

theorem any_units {ys : List α} {u : String} (units : ys.map unit = xs.map unit) :
    ys.any (unit · == u) = xs.any (unit · == u) := by
  have mapped : ∀ zs : List α, zs.any (unit · == u) = (zs.map unit).any (· == u) := by
    intro zs
    rw [List.any_map]
    rfl
  rw [mapped, mapped, units]

theorem syncLast_snoc (same : ∀ d x, unit (sync d x) = unit x) (new : unit d ∉ defaults.map unit) (xs : List α) :
    syncLast unit sync (defaults ++ [d]) xs = updateLast (unit · == unit d) (sync d)
    (syncLast unit sync defaults xs) := by
  have absent : ∀ x, unit x = unit d → defaults.find? (unit · == unit x) = none := by
    intro x eq
    apply List.find?_eq_none.mpr
    intro e member named
    exact new (List.mem_map.mpr ⟨e, member, (eq_of_beq named).trans eq⟩)
  induction xs with
  | nil => rfl
  | cons x xs ih =>
    have later := any_units (u := unit d) (syncLast_units same defaults xs)
    rw [syncLast, syncLast, updateLast, later, ih]
    by_cases eq : unit x = unit d
    · rw [eq]
      cases tail : xs.any (unit · == unit d) with
      | true => simp
      | false =>
        rw [updateLast_of_none (later.trans tail)]
        simp [← eq, absent x eq]
    · have other : (unit d == unit x) = false := by
        simpa using fun e : unit d = unit x => eq e.symm
      have kept : (unit (if xs.any (unit · == unit x) then x
          else match defaults.find? (unit · == unit x) with
            | some d => sync d x
            | none => x) == unit d) = false := by
        split
        · simpa using eq
        · split
          · simpa [same] using eq
          · simpa using eq
      rw [kept, List.find?_append]
      cases tail : xs.any (unit · == unit d) with
      | true =>
        cases defaults.find? (unit · == unit x) <;> simp [other]
      | false =>
        rw [updateLast_of_none (later.trans tail)]
        cases defaults.find? (unit · == unit x) <;> simp [other]

theorem mergeEntries_snoc : mergeEntries unit differs sync existing (defaults ++ [d]) =
    match places unit existing (unit d) with
    | some idx => ((mergeEntries unit differs sync existing defaults).1.modify idx (sync d),
        (mergeEntries unit differs sync existing defaults).2 ||
          (mergeEntries unit differs sync existing defaults).1[idx]?.any (differs d))
    | none => ((mergeEntries unit differs sync existing defaults).1 ++ [d], true) := by
  unfold mergeEntries
  rw [List.foldl_append]
  rfl

/-- The loop over defaults with different units. -/
theorem mergeEntries_eq (same : ∀ d x, unit (sync d x) = unit x) (distinct : (defaults.map unit).Nodup) :
    (mergeEntries unit differs sync existing defaults).1 = syncLast unit sync defaults existing ++
    missing unit existing defaults := by
  induction defaults using List.reverseRecOn with
  | nil => simp [mergeEntries, syncLast_nil, missing]
  | append_singleton defaults d ih =>
    rw [List.map_append, List.nodup_append] at distinct
    obtain ⟨before, _, apart⟩ := distinct
    have new : unit d ∉ defaults.map unit := fun member => apart _ member _ (List.mem_singleton_self _) rfl
    have units := syncLast_units same defaults existing
    rw [mergeEntries_snoc, ih before, syncLast_snoc same new]
    unfold missing
    rw [List.filter_append]
    cases at_ : places unit existing (unit d) with
    | none =>
      have none := places_none at_
      rw [updateLast_of_none ((any_units units).trans none)]
      simp [none]
    | some idx =>
      obtain ⟨bound, inside, modified⟩ := places_some at_ units (f := sync d)
      rw [any_units units] at inside
      simp only [modify_append bound, modified]
      simp [inside]

/-! ### A second merge -/

theorem find_of_distinct (distinct : (defaults.map unit).Nodup) (member : d ∈ defaults) :
    defaults.find? (unit · == unit d) = some d := by
  cases found : defaults.find? (unit · == unit d) with
  | none =>
    have other := List.find?_eq_none.mp found d member
    exact absurd (beq_self_eq_true (unit d)) other
  | some e =>
    have named : unit e = unit d := by simpa using List.find?_some found
    rw [List.inj_on_of_nodup_map distinct (List.mem_of_find?_eq_some found) member named]

theorem find_none_iff {u : String} : xs.reverse.find? (unit · == u) = none ↔ xs.any (unit · == u) = false := by
  rw [List.find?_eq_none, List.any_eq_false]
  simp

/-- The last entry of a default's unit has been synced with it. -/
theorem find_syncLast (same : ∀ d x, unit (sync d x) = unit x) (distinct : (defaults.map unit).Nodup)
    (member : d ∈ defaults) (xs : List α) : (syncLast unit sync defaults xs).reverse.find? (unit · == unit d) =
      (xs.reverse.find? (unit · == unit d)).map (sync d) := by
  induction xs with
  | nil => rfl
  | cons x xs ih =>
    rw [syncLast, List.reverse_cons, List.reverse_cons, List.find?_append, List.find?_append, ih]
    cases tail : xs.reverse.find? (unit · == unit d) with
    | some y => rfl
    | none =>
      have noLater := find_none_iff.mp tail
      by_cases named : unit x = unit d
      · rw [named, noLater, find_of_distinct distinct member]
        simp [same, named]
      · have other : (unit x == unit d) = false := by
          simpa using named
        split
        · simp [other]
        · split <;> simp [same, other]

theorem find_missing (distinct : (defaults.map unit).Nodup) (member : d ∈ defaults) :
    (missing unit existing defaults).reverse.find? (unit · == unit d) =
      if existing.any (unit · == unit d) then none else some d := by
  cases inside : existing.any (unit · == unit d) with
  | true =>
    rw [if_pos rfl, find_none_iff, List.any_eq_false]
    intro e isMissing named
    obtain ⟨_, absent⟩ := List.mem_filter.mp isMissing
    rw [eq_of_beq named, inside] at absent
    cases absent
  | false =>
    have isMissing : d ∈ missing unit existing defaults := List.mem_filter.mpr ⟨member, by simp [inside]⟩
    have reversed : ((missing unit existing defaults).reverse.map unit).Nodup := by
      rw [List.map_reverse, List.nodup_reverse]
      exact distinct.sublist (List.filter_sublist.map unit)
    rw [find_of_distinct reversed (List.mem_reverse.mpr isMissing)]
    rfl

theorem modify_self {f : α → α} {x : α} {idx : Nat} (at_ : xs[idx]? = some x) (fixed : f x = x) :
    xs.modify idx f = xs := by
  apply List.ext_getElem?
  intro i
  rw [List.getElem?_modify]
  by_cases here : idx = i
  · rw [← here, at_]
    simp [fixed]
  · simp [here]

theorem mergeEntries_settled (settled : ∀ d ∈ defaults, ∃ x, existing.reverse.find? (unit · == unit d) = some x ∧
      differs d x = false ∧ sync d x = x) :
    mergeEntries unit differs sync existing defaults = (existing, false) := by
  induction defaults using List.reverseRecOn with
  | nil => rfl
  | append_singleton defaults d ih =>
    obtain ⟨x, last, agrees, fixed⟩ := settled d (List.mem_append_right _ (List.mem_singleton_self d))
    rw [mergeEntries_snoc, ih fun e member => settled e (List.mem_append_left _ member)]
    cases at_ : places unit existing (unit d) with
    | none =>
      have absent := find_none_iff.mpr (places_none at_)
      rw [absent] at last
      cases last
    | some idx =>
      have here := (places_find at_).trans last
      simp only [modify_self here fixed, here, Option.any_some, agrees, Bool.or_self]

/-- What a merge has made of the entries another one leaves. -/
theorem mergeEntries_again (same : ∀ d x, unit (sync d x) = unit x) (distinct : (defaults.map unit).Nodup)
    (agrees : ∀ d x, differs d (sync d x) = false ∧ sync d (sync d x) = sync d x)
    (itself : ∀ d, differs d d = false ∧ sync d d = d) :
    mergeEntries unit differs sync (mergeEntries unit differs sync existing defaults).1 defaults =
      ((mergeEntries unit differs sync existing defaults).1, false) := by
  apply mergeEntries_settled
  intro d member
  rw [mergeEntries_eq same distinct, List.reverse_append, List.find?_append, find_missing distinct member,
    find_syncLast same distinct member]
  cases inside : existing.any (unit · == unit d) with
  | false => exact ⟨d, rfl, itself d⟩
  | true =>
    cases last : existing.reverse.find? (unit · == unit d) with
    | none =>
      rw [find_none_iff.mp last] at inside
      cases inside
    | some x => exact ⟨sync d x, rfl, agrees d x⟩

theorem mergeEntries_unmodified (fixed : ∀ d x, differs d x = false → sync d x = x)
    (unmodified : (mergeEntries unit differs sync existing defaults).2 = false) :
    (mergeEntries unit differs sync existing defaults).1 = existing := by
  induction defaults using List.reverseRecOn with
  | nil => rfl
  | append_singleton defaults d ih =>
    rw [mergeEntries_snoc] at unmodified ⊢
    cases at_ : places unit existing (unit d) with
    | none =>
      rw [at_] at unmodified
      cases unmodified
    | some idx =>
      rw [at_] at unmodified
      obtain ⟨before, agrees⟩ := Bool.or_eq_false_iff.mp unmodified
      have unchanged := ih before
      rw [unchanged] at agrees
      simp only [unchanged]
      cases here : existing[idx]? with
      | none => exact List.modify_eq_self (List.getElem?_eq_none_iff.mp here)
      | some x =>
        rw [here] at agrees
        exact modify_self here (fixed d x agrees)

end Loop

/-! ### The merge -/

/-- The merged configuration, as the defaults describe it. -/
def specification (existing default : Config) : Config :=
  { existing with
    version := max existing.version 1
    qui := default.qui
    services :=
      syncLast Service.unit (fun d s => { s with
        requiresMounts := d.requiresMounts, dependsOn := d.dependsOn, iconURL := d.iconURL, homepageURL :=
          d.homepageURL })
        default.services existing.services ++ missing Service.unit existing.services default.services
    backups :=
      syncLast Backup.unit (fun d b => { b with requiresMounts := d.requiresMounts, dependsOn := d.dependsOn })
        default.backups existing.backups ++ missing Backup.unit existing.backups default.backups }

section Merged
variable {existing default : Config}

theorem migrate_version (cfg : Config) : (migrate cfg).1 = { cfg with version := max cfg.version 1 } := by
  unfold migrate
  split
  · rw [max_eq_right (by omega)]
  · rw [max_eq_left (by omega)]

theorem merged_eq (services : (default.services.map (·.unit)).Nodup) (backups : (default.backups.map (·.unit)).Nodup) :
    (merged existing default).1 = specification existing default := by
  have eachService : (mergeEntries Service.unit Service.differs Service.sync existing.services default.services).1 =
    _ :=
    mergeEntries_eq (fun _ _ => rfl) services
  have eachBackup : (mergeEntries Backup.unit Backup.differs Backup.sync existing.backups default.backups).1 = _ :=
    mergeEntries_eq (fun _ _ => rfl) backups
  unfold merged
  simp only [eachService, eachBackup, migrate_version]
  rfl

theorem service_agrees {d s : Service} (agrees : Service.differs d s = false) : Service.sync d s = s := by
  simp only [Service.differs, Bool.or_eq_false_iff, decide_eq_false_iff_not, not_not] at agrees
  obtain ⟨⟨⟨mounts, deps⟩, icon⟩, homepage⟩ := agrees
  unfold Service.sync
  rw [← mounts, ← deps, ← icon, ← homepage]

theorem backup_agrees {d b : Backup} (agrees : Backup.differs d b = false) : Backup.sync d b = b := by
  simp only [Backup.differs, Bool.or_eq_false_iff, decide_eq_false_iff_not, not_not] at agrees
  obtain ⟨mounts, deps⟩ := agrees
  unfold Backup.sync
  rw [← mounts, ← deps]

theorem migrate_unmodified {cfg : Config} (unmodified : (migrate cfg).2 = false) : (migrate cfg).1 = cfg := by
  unfold migrate at unmodified ⊢
  split
  · rename_i old
    rw [if_pos old] at unmodified
    cases unmodified
  · rfl

theorem merged_unmodified (unmodified : (merged existing default).2 = false) :
    (merged existing default).1 = existing := by
  unfold merged at unmodified ⊢
  simp only [Bool.or_eq_false_iff, decide_eq_false_iff_not, not_not] at unmodified ⊢
  obtain ⟨⟨⟨services, backups⟩, qui⟩, migrated⟩ := unmodified
  rw [migrate_unmodified migrated, mergeEntries_unmodified (fun _ _ => service_agrees) services,
    mergeEntries_unmodified (fun _ _ => backup_agrees) backups, ← qui]

theorem merged_again (services : (default.services.map (·.unit)).Nodup)
    (backups : (default.backups.map (·.unit)).Nodup) :
    merged (merged existing default).1 default = ((merged existing default).1, false) := by
  have eachService :
      mergeEntries Service.unit Service.differs Service.sync
        (mergeEntries _ _ _ existing.services _).1 default.services = _ :=
    mergeEntries_again (fun _ _ => rfl) services
    (fun d x => ⟨by simp [Service.differs, Service.sync], rfl⟩) (fun d => ⟨by simp [Service.differs], rfl⟩)
  have eachBackup :
      mergeEntries Backup.unit Backup.differs Backup.sync (mergeEntries _ _ _ existing.backups _).1 default.backups =
        _ :=
    mergeEntries_again (fun _ _ => rfl) backups
    (fun d x => ⟨by simp [Backup.differs, Backup.sync], rfl⟩) (fun d => ⟨by simp [Backup.differs], rfl⟩)
  have version : (merged existing default).1.version = max existing.version 1 := by
    unfold merged
    simp only [migrate_version]
  have qui : (merged existing default).1.qui = default.qui := by
    unfold merged
    simp only [migrate_version]
  rw [← merged_services] at eachService
  rw [← merged_backups] at eachBackup
  generalize (merged existing default).1 = cfg at *
  unfold merged
  simp only [eachService, eachBackup, ← qui, migrate]
  rw [if_neg (by omega)]
  simp

/-- What a merge writes, and that a second one with the same defaults is up to date. -/
theorem merge_specification (services : (default.services.map (·.unit)).Nodup)
    (backups : (default.backups.map (·.unit)).Nodup) :
    (merged existing default).1 = specification existing default ∧
    (handleMergeConfig (.ok existing) (.ok default) = .saves (specification existing default) ∨
      handleMergeConfig (.ok existing) (.ok default) = .upToDate ∧ specification existing default = existing) ∧
    merged (specification existing default) default = (specification existing default, false) ∧
    handleMergeConfig (.ok (specification existing default)) (.ok default) = .upToDate := by
  have result : (merged existing default).1 = _ := merged_eq services backups
  have again : merged (merged existing default).1 default = _ := merged_again services backups
  rw [result] at again
  refine ⟨result, ?_, again, ?_⟩
  · unfold handleMergeConfig
    simp only [result]
    cases modified : (merged existing default).2 with
    | true => exact .inl rfl
    | false => exact .inr ⟨rfl, result.symm.trans (merged_unmodified modified)⟩
  · unfold handleMergeConfig
    simp only [again]
    rfl

end Merged

/-- One service of the two is new, the other one gets a mount. -/
theorem merge_specification_two :
    let existing : Config := { services := [{ unit := "a.service", order := 7 }, { unit := "b.service" }] }
    let default : Config := { services := [{ unit := "b.service", requiresMounts := ["/mnt"] }, { unit := "c.service" }] }
    (merged existing default).1 = specification existing default ∧
    (specification existing default).services =
      [{ unit := "a.service", order := 7 }, { unit := "b.service", requiresMounts := ["/mnt"] },
        { unit := "c.service" }] ∧
    handleMergeConfig (.ok (specification existing default)) (.ok default) = .upToDate := by
  intro existing default
  obtain ⟨result, _, _, again⟩ := @merge_specification existing default (by decide) (by decide)
  exact ⟨result, by decide, again⟩

end MergeSpec
end HomelabDaemon
