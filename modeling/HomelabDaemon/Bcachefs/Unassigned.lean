import HomelabDaemon.Bcachefs.Cache

/-!
# Unassigned disks

`GetUnassignedDisks` scans on its own: it probes every free disk, and reads the superblock's UUID
with another function.
-/

namespace HomelabDaemon.Bcachefs
open Strings

/-- The text after a prefix, on the first line that has it, up to an escape sequence. -/
def extractField (output pre : Str) : Str :=
  let found := ((lines output).map trimSpace).findSome? fun line => (cut pre line).map fun (_, after) =>
    let val := trimSpace after
    match cut ['\x1b'] val with
    | some (before, _) => trimSpace before
    | none => trimSpace val
  found.getD []

/-- A whole disk without children, file system and mountpoint. -/
def isFree (d : Disk) : Bool := d.type = "disk".toList ∧ d.hasChildren = false ∧ d.fstype = [] ∧ d.mountpoint = []

/-- The disk answers with a UUID. -/
def hasUUID (probes : Probes) (d : Disk) : Bool :=
  match probes.showSuper d.path with
  | .error _ => false
  | .ok out => extractField out "External UUID:".toList ≠ []

def getUnassignedDisks (probes : Probes) : Except String (List Disk) := do
  let disks ← getDisks probes
  return disks.filter fun d => isFree d && !hasUUID probes d

namespace Unassigned
variable {probes : Probes} {disks : List Disk} {d : Disk}

/-- The superblock that is kept after a disk. -/
def keep (probes : Probes) (cache : Option ParsedSuper) (d : Disk) : Option ParsedSuper :=
  if !isCandidate d then cache
  else match cache with
    | some super => if lists super d then some super else superOf probes d
    | none => superOf probes d

/-- The superblock that is kept when the disks before have been seen. -/
def keptAfter (probes : Probes) (before : List Disk) : Option ParsedSuper := before.foldl (keep probes) none

/-- The superblock kept from the disks before lists the disk. -/
def Listed (probes : Probes) (before : List Disk) (d : Disk) : Prop :=
  ∃ super, keptAfter probes before = some super ∧ lists super d = true

/-- The pools and the unassigned disks have no path in common, and each free disk is in one of
them. -/
def Separated (disks : List Disk) (pools : List Pool) (unassigned : List Disk) : Prop :=
  (∀ p ∈ pools, ∀ d ∈ p.disks, ∀ u ∈ unassigned, d.path ≠ u.path) ∧
    ∀ d ∈ disks, isFree d = true →
      Xor (∃ p ∈ pools, ∃ e ∈ p.disks, e.path = d.path) (∃ u ∈ unassigned, u.path = d.path)

/-- A free disk that is listed has a UUID of its own, and on one that is not listed the two ways to
read a UUID agree. -/
def Consistent (probes : Probes) (disks : List Disk) : Prop :=
  ∀ before d after, disks = before ++ d :: after → isFree d = true →
    (Listed probes before d → hasUUID probes d = true) ∧
    (¬ Listed probes before d → ∀ out, probes.showSuper d.path = .ok out →
      ((parseSuper out).uuid = [] ↔ extractField out "External UUID:".toList = []))

section Scan
variable {scan : Scan}

theorem keep_listed {super : ParsedSuper} (candidate : isCandidate d = true) (listed : lists super d = true) :
    keep probes (some super) d = some super := by
  simp [keep, candidate, listed]

theorem keep_unlisted {cache : Option ParsedSuper} (candidate : isCandidate d = true)
    (missed : ∀ super, cache = some super → lists super d = false) : keep probes cache d = superOf probes d := by
  cases cache with
  | none => simp [keep, candidate]
  | some super => simp [keep, candidate, missed super rfl]

/-- One disk more in a pool: it is in the pool of the superblock that is kept behind it. -/
theorem scanDisk_keeps : Cache.kept (scanDisk probes scan d) = keep probes (Cache.kept scan) d ∧
    ∀ uuid path, Cache.InPool (scanDisk probes scan d).poolMap uuid path ↔ Cache.InPool scan.poolMap uuid path ∨
      (isCandidate d = true ∧ path = d.path ∧ ∃ super, keep probes (Cache.kept scan) d = some super ∧
      uuid = super.uuid) := by
  cases candidate : isCandidate d with
  | false =>
    rw [Cache.scanDisk_other candidate]
    simp [keep, candidate]
  | true =>
    by_cases hit : ∃ super, Cache.kept scan = some super ∧ lists super d = true
    · obtain ⟨super, cached, listed⟩ := hit
      rw [Cache.scanDisk_hit candidate cached listed, cached, keep_listed candidate listed]
      refine ⟨rfl, fun uuid path => ?_⟩
      unfold Scan.add
      rw [Cache.inPool_addDisk, and_comm (a := uuid = super.uuid)]
      simp
    · have missed : ∀ super, Cache.kept scan = some super → lists super d = false := by
        intro super cached
        apply Bool.eq_false_iff.mpr
        intro listed
        exact hit ⟨super, cached, listed⟩
      obtain ⟨pools, cache⟩ := @Cache.scanDisk_miss probes scan d candidate missed
      rw [cache, pools, keep_unlisted candidate missed]
      refine ⟨rfl, fun uuid path => ?_⟩
      unfold probeDisk
      cases own : superOf probes d with
      | none => simp [candidate]
      | some super =>
        simp only [candidate, Bool.not_true, Bool.false_eq_true, if_false]
        rw [Cache.inPool_addDisk, and_comm (a := uuid = super.uuid)]
        simp

theorem inPool_scan_iff {uuid path : Str} :
    Cache.InPool (disks.foldl (scanDisk probes) scan).poolMap uuid path ↔ Cache.InPool scan.poolMap uuid path ∨
      ∃ before d after super, disks = before ++ d :: after ∧ isCandidate d = true ∧ path = d.path ∧
        keep probes (before.foldl (keep probes) (Cache.kept scan)) d = some super ∧ uuid = super.uuid := by
  induction disks generalizing scan with
  | nil => simp
  | cons d disks ih =>
    rw [List.foldl_cons, ih, scanDisk_keeps.2, scanDisk_keeps.1, or_assoc]
    apply or_congr_right
    constructor
    · rintro (⟨candidate, path, super, kept, uuid⟩ | ⟨before, e, after, super, rfl, rest⟩)
      · exact ⟨[], d, disks, super, rfl, candidate, path, kept, uuid⟩
      · exact ⟨d :: before, e, after, super, rfl, rest⟩
    · rintro ⟨before, e, after, super, whole, candidate, path, kept, uuid⟩
      cases before with
      | nil =>
        obtain ⟨rfl, rfl⟩ := List.cons.inj whole
        exact .inl ⟨candidate, path, super, kept, uuid⟩
      | cons d' before =>
        obtain ⟨rfl, rfl⟩ := List.cons.inj whole
        exact .inr ⟨before, e, after, super, rfl, candidate, path, kept, uuid⟩

end Scan

/-! ### Free disks -/

theorem place_unique {before before' after after' : List Disk} {d' : Disk} (distinct : (disks.map Disk.path).Nodup)
    (at_ : disks = before ++ d :: after) (at_' : disks = before' ++ d' :: after') (path : d'.path = d.path) :
    before' = before ∧ d' = d := by
  have there : (disks.map Disk.path)[before.length]? = some d.path := by simp [at_]
  have there' : (disks.map Disk.path)[before'.length]? = some d.path := by simp [at_', path]
  have inside : before.length < (disks.map Disk.path).length := (List.getElem?_eq_some_iff.mp there).1
  have same : before.length = before'.length := (List.getElem?_inj inside distinct).mp (there.trans there'.symm)
  obtain ⟨rfl, rest⟩ := List.append_inj (at_.symm.trans at_') same
  exact ⟨rfl, (List.cons.inj rest).1.symm⟩

theorem isCandidate_of_isFree (free : isFree d = true) : isCandidate d = true := by
  have parts := of_decide_eq_true free
  simp [isCandidate, parts.2.2.1]

theorem pooled_iff {before after : List Disk} (distinct : (disks.map Disk.path).Nodup)
    (at_ : disks = before ++ d :: after) (free : isFree d = true) :
    (∃ p ∈ (disks.foldl (scanDisk probes) {}).poolMap, ∃ e ∈ p.disks, e.path = d.path) ↔
      Listed probes before d ∨ (superOf probes d).isSome = true := by
  have candidate := isCandidate_of_isFree free
  have started : Cache.kept {} = none := rfl
  have kept : (∃ p ∈ (disks.foldl (scanDisk probes) {}).poolMap, ∃ e ∈ p.disks, e.path = d.path) ↔
      (keep probes (keptAfter probes before) d).isSome = true := by
    constructor
    · rintro ⟨p, inside, member⟩
      rcases inPool_scan_iff.mp ⟨p, inside, rfl, member⟩ with nowhere | ⟨before', d', after', super, at_', _, path,
        kept, _⟩
      · obtain ⟨_, none_, _⟩ := nowhere
        cases none_
      · obtain ⟨rfl, rfl⟩ := place_unique distinct at_ at_' path.symm
        rw [started] at kept
        exact Option.isSome_iff_exists.mpr ⟨super, kept⟩
    · intro some_
      obtain ⟨super, kept⟩ := Option.isSome_iff_exists.mp some_
      have pooled : Cache.InPool (disks.foldl (scanDisk probes) {}).poolMap super.uuid d.path :=
        inPool_scan_iff.mpr (.inr ⟨before, d, after, super, at_, candidate, rfl, kept, rfl⟩)
      obtain ⟨p, inside, _, member⟩ := pooled
      exact ⟨p, inside, member⟩
  rw [kept]
  by_cases hit : Listed probes before d
  · obtain ⟨super, cached, listed⟩ := hit
    rw [cached, keep_listed candidate listed]
    exact iff_of_true rfl (.inl ⟨super, cached, listed⟩)
  · rw [keep_unlisted candidate fun super cached => Bool.eq_false_iff.mpr fun listed => hit ⟨super, cached, listed⟩]
    simp [hit]

theorem unassigned_iff (member : d ∈ disks) (free : isFree d = true) :
    (∃ u ∈ disks.filter fun d => isFree d && !hasUUID probes d, u.path = d.path) ↔ hasUUID probes d = false := by
  constructor
  · rintro ⟨u, inside, path⟩
    have answers : hasUUID probes u = hasUUID probes d := by
      unfold hasUUID
      rw [path]
    have kept := (List.mem_filter.mp inside).2
    rw [answers] at kept
    simpa using (Bool.and_eq_true_iff.mp kept).2
  · intro without
    exact ⟨d, List.mem_filter.mpr ⟨member, by simp [free, without]⟩, rfl⟩

theorem consistent_at {listed : Prop} :
    (listed ∨ (superOf probes d).isSome = true ↔ hasUUID probes d = true) ↔
      (listed → hasUUID probes d = true) ∧ (¬ listed → ∀ out, probes.showSuper d.path = .ok out →
        ((parseSuper out).uuid = [] ↔ extractField out "External UUID:".toList = [])) := by
  unfold superOf hasUUID
  generalize "External UUID:".toList = key
  by_cases hit : listed
  · simp [hit]
  · cases probes.showSuper d.path with
    | error e => simp [hit]
    | ok out =>
      by_cases noUUID : (parseSuper out).uuid = []
      · simp [hit, noUUID]
      · simp [hit, noUUID]

/-- What both scans find is separated. -/
def Apart (probes : Probes) (disks : List Disk) : Prop :=
  ∃ pools unassigned, discoverPools probes = .ok pools ∧ getUnassignedDisks probes = .ok unassigned ∧
    Separated disks pools unassigned

theorem getUnassignedDisks_eq (read : getDisks probes = .ok disks) :
    getUnassignedDisks probes = .ok (disks.filter fun d => isFree d && !hasUUID probes d) := by
  simp [getUnassignedDisks, read, bind, Except.bind, pure, Except.pure]

theorem separated_iff (distinct : (disks.map Disk.path).Nodup) :
    Separated disks (disks.foldl (scanDisk probes) {}).poolMap (disks.filter fun d => isFree d && !hasUUID probes d) ↔
      Consistent probes disks := by
  have each : ∀ {before d after}, disks = before ++ d :: after → isFree d = true →
      (Xor (∃ p ∈ (disks.foldl (scanDisk probes) {}).poolMap, ∃ e ∈ p.disks, e.path = d.path)
          (∃ u ∈ disks.filter fun d => isFree d && !hasUUID probes d, u.path = d.path) ↔
        (Listed probes before d ∨ (superOf probes d).isSome = true ↔ hasUUID probes d = true)) := by
    intro before d after at_ free
    have member : d ∈ disks := by simp [at_]
    rw [pooled_iff distinct at_ free, unassigned_iff member free, Bool.eq_false_iff, xor_not_right]
  constructor
  · intro separated before d after at_ free
    have member : d ∈ disks := by simp [at_]
    exact consistent_at.mp ((each at_ free).mp (separated.2 d member free))
  · intro consistent
    have one : ∀ d ∈ disks, isFree d = true →
      Xor (∃ p ∈ (disks.foldl (scanDisk probes) {}).poolMap, ∃ e ∈ p.disks, e.path = d.path)
        (∃ u ∈ disks.filter fun d => isFree d && !hasUUID probes d, u.path = d.path) := by
      intro d member free
      obtain ⟨before, after, at_⟩ := List.append_of_mem member
      exact (each at_ free).mpr (consistent_at.mpr (consistent before d after at_ free))
    refine ⟨fun p inside d member u unassigned path => ?_, one⟩
    have kept := List.mem_filter.mp unassigned
    have free := (Bool.and_eq_true_iff.mp kept.2).1
    rcases one u kept.1 free with ⟨_, none_⟩ | ⟨_, none_⟩
    · exact none_ ⟨u, unassigned, rfl⟩
    · exact none_ ⟨p, inside, d, member, path⟩

theorem consistent_of_apart (read : getDisks probes = .ok disks) (distinct : (disks.map Disk.path).Nodup)
    (apart : Apart probes disks) :
    Consistent probes disks := by
  obtain ⟨pools, unassigned, samePools, sameUnassigned, separated⟩ := apart
  rw [Cache.discoverPools_eq read] at samePools
  rw [getUnassignedDisks_eq read] at sameUnassigned
  obtain rfl := Except.ok.inj samePools
  obtain rfl := Except.ok.inj sameUnassigned
  exact (separated_iff distinct).mp separated

/-- Pools and unassigned disks are apart exactly when the kept superblocks list no disk without a
UUID and both readers agree on the others. -/
theorem apart_iff (read : getDisks probes = .ok disks) (distinct : (disks.map Disk.path).Nodup) :
    Apart probes disks ↔ Consistent probes disks := by
  constructor
  · exact consistent_of_apart read distinct
  · intro consistent
    exact ⟨_, _, Cache.discoverPools_eq read, getUnassignedDisks_eq read, (separated_iff distinct).mpr consistent⟩

/-! ### The pool beside a free disk -/

open Cache (sda sdb healthy healthySuper degraded degradedSuper)

theorem paths_distinct : ([sda, sdb].map Disk.path).Nodup := by decide

theorem keptAfter_sda {deviceLines : String} {super : ParsedSuper}
    (own : superOf (Cache.oneMember deviceLines) sda = some super) :
    keptAfter (Cache.oneMember deviceLines) [sda] = some super := by
  have candidate : isCandidate sda = true := by decide
  have probed : keep (Cache.oneMember deviceLines) none sda = superOf (Cache.oneMember deviceLines) sda :=
    keep_unlisted candidate fun super cache => by cases cache
  rw [← own, ← probed]
  rfl

theorem apart_iff_healthy : Consistent healthy [sda, sdb] ∧
    (Apart healthy [sda, sdb] ↔ Consistent healthy [sda, sdb]) := by
  refine ⟨?_, apart_iff (Cache.oneMember_disks _) paths_distinct⟩
  have own : superOf healthy sda = some healthySuper := Cache.oneMember_super Cache.healthy_parsed (by decide)
  intro before d after at_ free
  cases before with
  | nil =>
    obtain ⟨rfl, _⟩ := List.cons.inj at_
    exact absurd free (by decide)
  | cons first before =>
    obtain ⟨rfl, behind⟩ := List.cons.inj at_
    cases before with
    | nil =>
      obtain ⟨rfl, _⟩ := List.cons.inj behind
      refine ⟨fun ⟨super, kept, listed⟩ => ?_, fun _ out answer => ?_⟩
      · obtain rfl := Option.some.inj ((keptAfter_sda own).symm.trans kept)
        exact absurd listed (by decide)
      · cases answer
    | cons second before =>
      have short := congrArg List.length (List.cons.inj behind).2
      simp at short

/-- The free disk is in the pool and unassigned. -/
theorem degraded_shared : ¬ ∀ (probes : Probes) (disks : List Disk), getDisks probes = .ok disks →
    (disks.map Disk.path).Nodup → Apart probes disks := by
  intro claim
  have own : superOf degraded sda = some degradedSuper := Cache.oneMember_super Cache.degraded_parsed (by decide)
  have consistent := consistent_of_apart (Cache.oneMember_disks _) paths_distinct
    (claim degraded [sda, sdb] (Cache.oneMember_disks _) paths_distinct)
  have listed : Listed degraded [sda] sdb := ⟨degradedSuper, keptAfter_sda own, by decide⟩
  have unknown : hasUUID degraded sdb = false := rfl
  have known := (consistent [sda] sdb [] rfl (by decide)).1 listed
  rw [unknown] at known
  cases known

end Unassigned
end HomelabDaemon.Bcachefs
