import HomelabDaemon.Bcachefs.Pools

/-!
# The superblock cache

The scan agrees with one that probes every candidate as long as the superblock of a member lists
no stranger right behind it.
-/

namespace HomelabDaemon.Bcachefs
open Strings

namespace Cache
variable {probes : Probes} {scan : Scan} {pools : List Pool} {super : ParsedSuper} {d : Disk} {disks : List Disk}

/-- The superblock that the scan would reuse. -/
def kept (scan : Scan) : Option ParsedSuper := if scan.superValid then some scan.super else none

theorem superOf_eq_some : superOf probes d = some super ↔
    ∃ out, probes.showSuper d.path = .ok out ∧ parseSuper out = super ∧ super.uuid ≠ [] := by
  unfold superOf
  cases answer : probes.showSuper d.path with
  | error e => simp
  | ok out =>
    by_cases noUUID : (parseSuper out).uuid = []
    · simp only [noUUID, if_true, reduceCtorEq, Except.ok.injEq, false_iff]
      rintro ⟨out', rfl, rfl, some_⟩
      exact some_ noUUID
    · simp only [noUUID, if_false, Option.some.injEq, Except.ok.injEq]
      constructor
      · rintro rfl
        exact ⟨out, rfl, rfl, noUUID⟩
      · rintro ⟨out', rfl, same, _⟩
        exact same

theorem scanDisk_other (h : isCandidate d = false) : scanDisk probes scan d = scan := by
  simp [scanDisk, h]

theorem scanDisk_hit (candidate : isCandidate d = true) (cached : kept scan = some super)
    (listed : lists super d = true) :
    scanDisk probes scan d = scan.add probes super d := by
  unfold kept at cached
  split at cached
  · rename_i valid
    obtain rfl := Option.some.inj cached
    simp [scanDisk, candidate, valid, listed]
  · cases cached

theorem scanDisk_miss (candidate : isCandidate d = true)
    (missed : ∀ super, kept scan = some super → lists super d = false) :
    (scanDisk probes scan d).poolMap = probeDisk probes scan.poolMap d ∧
      kept (scanDisk probes scan d) = superOf probes d := by
  have fresh : (scan.superValid && lists scan.super d) = false := by
    unfold kept at missed
    cases valid : scan.superValid with
    | false => rfl
    | true =>
      rw [valid, if_pos rfl] at missed
      exact missed _ rfl
  unfold scanDisk probeDisk superOf
  simp only [candidate, fresh, Bool.not_true, Bool.false_eq_true, if_false]
  cases probes.showSuper d.path with
  | error e => exact ⟨rfl, rfl⟩
  | ok out =>
    by_cases noUUID : (parseSuper out).uuid = []
    · simp [noUUID, kept]
    · simp [noUUID, kept, Scan.add]

/-- A hit on a superblock that the disk itself would give is as good as a probe. -/
theorem scanDisk_right (candidate : isCandidate d = true)
    (right : ∀ super, kept scan = some super → lists super d = true → superOf probes d = some super) :
    (scanDisk probes scan d).poolMap = probeDisk probes scan.poolMap d ∧
      kept (scanDisk probes scan d) = superOf probes d := by
  by_cases hit : ∃ super, kept scan = some super ∧ lists super d = true
  · obtain ⟨super, cached, listed⟩ := hit
    rw [scanDisk_hit candidate cached listed]
    have own := right super cached listed
    simp [probeDisk, candidate, own, Scan.add, kept]
  · apply scanDisk_miss candidate
    intro super cached
    apply Bool.eq_false_iff.mpr
    intro listed
    exact hit ⟨super, cached, listed⟩

/-- A disk of that path is in the pool. -/
def InPool (pools : List Pool) (uuid path : Str) : Prop :=
  ∃ p ∈ pools, p.uuid = uuid ∧ ∃ disk ∈ p.disks, disk.path = path

theorem labelled_path : (labelled super d).path = d.path := by
  unfold labelled
  split <;> rfl

theorem joined_disks {p : Pool} : (joined probes super d p).disks = p.disks ++ [labelled super d] := rfl

theorem inPool_cons {p : Pool} {uuid path : Str} :
    InPool (p :: pools) uuid path ↔ (p.uuid = uuid ∧ ∃ disk ∈ p.disks, disk.path = path) ∨ InPool pools uuid path := by
  simp [InPool]

theorem inPool_joined {p : Pool} {path : Str} :
    (∃ disk ∈ (joined probes super d p).disks, disk.path = path) ↔
      (∃ disk ∈ p.disks, disk.path = path) ∨ path = d.path := by
  rw [joined_disks]
  simp only [List.mem_append, List.mem_singleton, or_and_right, exists_or, exists_eq_left, labelled_path, eq_comm]

theorem inPool_addDisk {uuid path : Str} :
    InPool (addDisk probes super d pools) uuid path ↔
      InPool pools uuid path ∨ (uuid = super.uuid ∧ path = d.path) := by
  induction pools with
  | nil =>
    unfold addDisk
    have own : (joined probes super d (newPool super)).uuid = super.uuid := rfl
    have empty : (newPool super).disks = [] := rfl
    rw [inPool_cons, inPool_joined, own, empty, eq_comm (a := super.uuid)]
    simp [InPool]
  | cons p pools ih =>
    unfold addDisk
    split
    · rename_i own
      have sameUUID : (joined probes super d p).uuid = p.uuid := rfl
      rw [inPool_cons, inPool_cons, inPool_joined, sameUUID, own]
      constructor
      · rintro (⟨rfl, inside | rfl⟩ | inside)
        · exact .inl (.inl ⟨rfl, inside⟩)
        · exact .inr ⟨rfl, rfl⟩
        · exact .inl (.inr inside)
      · rintro ((⟨rfl, inside⟩ | inside) | ⟨rfl, rfl⟩)
        · exact .inl ⟨rfl, .inl inside⟩
        · exact .inr inside
        · exact .inl ⟨rfl, .inr rfl⟩
    · rw [inPool_cons, inPool_cons, ih, or_assoc]

theorem inPool_scanDisk {uuid path : Str} (inside : InPool scan.poolMap uuid path) :
    InPool (scanDisk probes scan d).poolMap uuid path := by
  unfold scanDisk
  split
  · exact inside
  split
  · exact inPool_addDisk.mpr (.inl inside)
  split
  · exact inside
  · dsimp only
    split
    · exact inside
    · exact inPool_addDisk.mpr (.inl inside)

theorem inPool_scan {uuid path : Str} (inside : InPool scan.poolMap uuid path) :
    InPool (disks.foldl (scanDisk probes) scan).poolMap uuid path := by
  induction disks generalizing scan with
  | nil => exact inside
  | cons d disks ih => exact ih (inPool_scanDisk inside)

theorem inPool_probe {uuid path : Str} :
    InPool (disks.foldl (probeDisk probes) pools) uuid path ↔
      InPool pools uuid path ∨
        ∃ d ∈ disks, isCandidate d = true ∧ d.path = path ∧ ∃ super, superOf probes d = some super ∧
        super.uuid = uuid := by
  induction disks generalizing pools with
  | nil => simp
  | cons d disks ih =>
    rw [List.foldl_cons, ih]
    have first : InPool (probeDisk probes pools d) uuid path ↔ InPool pools uuid path ∨
        (isCandidate d = true ∧ d.path = path ∧ ∃ super, superOf probes d = some super ∧ super.uuid = uuid) := by
      unfold probeDisk
      cases candidate : isCandidate d with
      | false => simp
      | true =>
        cases own : superOf probes d with
        | none => simp
        | some super =>
          simp only [Bool.not_true, Bool.false_eq_true, if_false, inPool_addDisk, true_and, Option.some.injEq,
            exists_eq_left']
          rw [and_comm, eq_comm (a := path), eq_comm (a := uuid)]
    simp only [first, List.mem_cons, or_and_right, exists_or, exists_eq_left, or_assoc]

/-! ### A whole scan -/

/-- Right from here on: what the cache lists is a member of the cached pool. -/
def Right (probes : Probes) : Option ParsedSuper → List Disk → Prop
  | _, [] => True
  | cache, d :: disks =>
    if isCandidate d then
      (∀ super, cache = some super → lists super d = true → superOf probes d = some super) ∧
        Right probes (superOf probes d) disks
    else Right probes cache disks

theorem scan_right (right : Right probes (kept scan) disks) :
    (disks.foldl (scanDisk probes) scan).poolMap = disks.foldl (probeDisk probes) scan.poolMap := by
  induction disks generalizing scan with
  | nil => rfl
  | cons d disks ih =>
    unfold Right at right
    rw [List.foldl_cons, List.foldl_cons]
    cases candidate : isCandidate d with
    | false =>
      simp only [candidate, Bool.false_eq_true, if_false] at right
      rw [scanDisk_other candidate, ih right]
      simp [probeDisk, candidate]
    | true =>
      simp only [candidate, if_true] at right
      obtain ⟨samePools, sameCache⟩ := scanDisk_right candidate right.1
      rw [← samePools]
      apply ih
      rw [sameCache]
      exact right.2

/-- A scan that is not right puts a disk into the pool of a superblock that is not its own. -/
theorem scan_wrong {all : List Disk} (cached : ∀ super, kept scan = some super → ∃ c ∈ all,
    superOf probes c = some super)
    (part : ∀ d ∈ disks, isCandidate d = true → d ∈ all) (wrong : ¬ Right probes (kept scan) disks) :
    ∃ d ∈ all, ∃ c ∈ all, ∃ super, superOf probes c = some super ∧ superOf probes d ≠ some super ∧
      InPool (disks.foldl (scanDisk probes) scan).poolMap super.uuid d.path := by
  induction disks generalizing scan with
  | nil => exact absurd trivial wrong
  | cons d disks ih =>
    have rest : ∀ d ∈ disks, isCandidate d = true → d ∈ all := fun d member => part d (List.mem_cons_of_mem _ member)
    unfold Right at wrong
    rw [List.foldl_cons]
    cases candidate : isCandidate d with
    | false =>
      simp only [candidate, Bool.false_eq_true, if_false] at wrong
      rw [scanDisk_other candidate]
      exact ih cached rest wrong
    | true =>
      simp only [candidate, if_true, not_and] at wrong
      by_cases right : ∀ super, kept scan = some super → lists super d = true → superOf probes d = some super
      · obtain ⟨_, sameCache⟩ := scanDisk_right candidate right
        apply ih
        · intro super cached'
          rw [sameCache] at cached'
          exact ⟨d, part d List.mem_cons_self candidate, cached'⟩
        · exact rest
        · rw [sameCache]
          exact wrong right
      · simp only [not_forall] at right
        obtain ⟨super, cache, listed, foreign⟩ := right
        obtain ⟨c, member, own⟩ := cached super cache
        refine ⟨d, part d List.mem_cons_self candidate, c, member, super, own, foreign, ?_⟩
        apply inPool_scan
        rw [scanDisk_hit candidate cache listed]
        exact inPool_addDisk.mpr (.inr ⟨rfl, rfl⟩)

/-- Right behind a member, its superblock lists members only. -/
def NoStranger (probes : Probes) (disks : List Disk) : Prop :=
  ∀ before c d after super, disks.filter isCandidate = before ++ c :: d :: after → superOf probes c = some super →
    lists super d = true → superOf probes d = some super

/-- The first candidate is not a stranger to the cache. -/
def Fits (probes : Probes) (cache : Option ParsedSuper) (disks : List Disk) : Prop :=
  ∀ super d after, cache = some super → disks.filter isCandidate = d :: after → lists super d = true →
    superOf probes d = some super

theorem noStranger_cons (candidate : isCandidate d = true) :
    NoStranger probes (d :: disks) ↔ Fits probes (superOf probes d) disks ∧ NoStranger probes disks := by
  unfold NoStranger Fits
  rw [List.filter_cons_of_pos candidate]
  constructor
  · intro right
    refine ⟨fun super e after own behind => ?_, fun before c e after super at_ => ?_⟩
    · exact right [] d e after super (by rw [behind]; rfl) own
    · exact right (d :: before) c e after super (by rw [at_]; rfl)
  · rintro ⟨first, rest⟩ before c e after super at_
    cases before with
    | nil =>
      obtain ⟨rfl, behind⟩ := List.cons.inj at_
      exact fun own => first super e after own behind
    | cons d' before => exact rest before c e after super (List.cons.inj at_).2

theorem right_iff {cache : Option ParsedSuper} : Right probes cache disks ↔ Fits probes cache disks ∧
    NoStranger probes disks := by
  induction disks generalizing cache with
  | nil => simp [Right, Fits, NoStranger]
  | cons d disks ih =>
    unfold Right
    cases candidate : isCandidate d with
    | false =>
      simp only [Bool.false_eq_true, if_false]
      rw [ih]
      simp [Fits, NoStranger, candidate]
    | true =>
      simp only [if_true]
      rw [ih, noStranger_cons candidate]
      simp [Fits, candidate]

/-! ### The pools -/

/-- All members of a pool answer with the same superblock. -/
def SameSuper (probes : Probes) (disks : List Disk) : Prop :=
  ∀ d ∈ disks.filter isCandidate, ∀ d' ∈ disks.filter isCandidate, ∀ super super', superOf probes d = some super →
    superOf probes d' = some super' → super.uuid = super'.uuid → super = super'

/-- Both scans find the same pools; the map gives them back in any order. -/
def Agree (probes : Probes) : Prop :=
  ∃ pools pools', discoverPools probes = .ok pools ∧ uncachedPools probes = .ok pools' ∧ pools.Perm pools'

theorem superOf_path {d' : Disk} (path : d'.path = d.path) : superOf probes d' = superOf probes d := by
  unfold superOf
  rw [path]

theorem discoverPools_eq (read : getDisks probes = .ok disks) :
    discoverPools probes = .ok (disks.foldl (scanDisk probes) {}).poolMap := by
  simp [discoverPools, read, bind, Except.bind, pure, Except.pure]

theorem uncachedPools_eq (read : getDisks probes = .ok disks) :
    uncachedPools probes = .ok (disks.foldl (probeDisk probes) []) := by
  simp [uncachedPools, read, bind, Except.bind, pure, Except.pure]

/-- The cache makes no difference exactly when no stranger stands behind a member that lists it. -/
theorem agree_iff (read : getDisks probes = .ok disks) (same : SameSuper probes disks) :
    Agree probes ↔ NoStranger probes disks := by
  have started : kept {} = none := rfl
  have whole : Right probes (kept {}) disks ↔ NoStranger probes disks := by
    rw [started, right_iff]
    simp [Fits]
  rw [← whole]
  constructor
  · rintro ⟨pools, pools', cached, uncached, perm⟩
    obtain rfl := Except.ok.inj ((discoverPools_eq read).symm.trans cached)
    obtain rfl := Except.ok.inj ((uncachedPools_eq read).symm.trans uncached)
    by_contra wrong
    obtain ⟨d, _, c, memberC, super, own, foreign, p, inside, uuid, member⟩ :=
      scan_wrong (fun super cache => by cases cache)
        (fun d member candidate => List.mem_filter.mpr ⟨member, candidate⟩) wrong
    rcases inPool_probe.mp ⟨p, perm.mem_iff.mp inside, uuid, member⟩ with nowhere | ⟨d', member', candidate, path,
      super', own', uuid'⟩
    · obtain ⟨_, none_, _⟩ := nowhere
      cases none_
    · have sameSuper := same d' (List.mem_filter.mpr ⟨member', candidate⟩) c memberC super' super own' own uuid'
      apply foreign
      rw [← superOf_path path, own', sameSuper]
  · intro right
    exact ⟨_, _, discoverPools_eq read, uncachedPools_eq read, List.Perm.of_eq (scan_right right)⟩

def device (name : String) (fstype : String) : LsblkDevice :=
  { name := name.toList, path := ("/dev/" ++ name).toList, type := "disk".toList, fstype := fstype.toList }

/-- One member, and behind it a disk that no pool has. -/
def oneMember (deviceLines : String) : Probes where
  lsblk := .ok [device "sda" "bcachefs", device "sdb" ""]
  showSuper path :=
    if path = "/dev/sda".toList then .ok ("External UUID: u1\n" ++ deviceLines).toList
      else .error "not a bcachefs device"

def sda : Disk := diskOf (fun _ _ _ => []) (device "sda" "bcachefs")

def sdb : Disk := diskOf (fun _ _ _ => []) (device "sdb" "")

theorem oneMember_disks (deviceLines : String) : getDisks (oneMember deviceLines) = .ok [sda, sdb] := rfl

theorem oneMember_same (deviceLines : String) : SameSuper (oneMember deviceLines) [sda, sdb] := by
  have stranger : superOf (oneMember deviceLines) sdb = none := rfl
  have candidates : [sda, sdb].filter isCandidate = [sda, sdb] := by decide
  unfold SameSuper
  rw [candidates]
  intro d member d' member' super super' own own' _
  have first : ∀ {e : Disk} {s : ParsedSuper}, e ∈ [sda, sdb] → superOf (oneMember deviceLines) e = some s →
      superOf (oneMember deviceLines) sda = some s := by
    intro e s member own
    rcases List.mem_cons.mp member with rfl | member
    · exact own
    · obtain rfl := List.mem_singleton.mp member
      rw [stranger] at own
      cases own
  exact Option.some.inj ((first member own).symm.trans (first member' own'))

theorem oneMember_super {deviceLines : String}
    (parsed : parseSuper ("External UUID: u1\n" ++ deviceLines).toList = super)
    (uuid : super.uuid ≠ []) : superOf (oneMember deviceLines) sda = some super :=
  superOf_eq_some.mpr ⟨_, rfl, parsed, uuid⟩

abbrev healthy : Probes := oneMember "Device 0: /dev/sda\n"

def healthySuper : ParsedSuper :=
  { uuid := "u1".toList, devices := [{ index := "0".toList, path := "/dev/sda".toList }] }

theorem healthy_parsed : parseSuper ("External UUID: u1\n" ++ "Device 0: /dev/sda\n").toList = healthySuper := by decide

theorem agree_iff_healthy : NoStranger healthy [sda, sdb] ∧ (Agree healthy ↔ NoStranger healthy [sda, sdb]) := by
  refine ⟨?_, agree_iff (oneMember_disks _) (oneMember_same _)⟩
  have own : superOf healthy sda = some healthySuper := oneMember_super healthy_parsed (by decide)
  have right : Right healthy none [sda, sdb] := by
    refine ⟨fun super cache => (by cases cache), ?_, trivial⟩
    intro super cache listed
    obtain rfl := Option.some.inj (own.symm.trans cache)
    exact absurd listed (by decide)
  exact (right_iff.mp right).2

/-- The second member is missing: its line has no path. -/
abbrev degraded : Probes := oneMember "Device 0: /dev/sda\nDevice 1:\n"

def degradedSuper : ParsedSuper :=
  { uuid := "u1".toList, devices := [{ index := "0".toList, path := "/dev/sda".toList }, { index := "1".toList }] }

theorem degraded_parsed : parseSuper ("External UUID: u1\n" ++ "Device 0: /dev/sda\nDevice 1:\n").toList =
    degradedSuper := by
  decide

/-- The free disk gets into the pool. -/
theorem cache_stranger : ¬ ∀ (probes : Probes) (disks : List Disk), getDisks probes = .ok disks →
    SameSuper probes disks → Agree probes := by
  intro claim
  have own : superOf degraded sda = some degradedSuper := oneMember_super degraded_parsed (by decide)
  have free : superOf degraded sdb = none := rfl
  obtain ⟨pools, pools', cached, uncached, perm⟩ := claim degraded [sda, sdb] (oneMember_disks _) (oneMember_same _)
  obtain rfl := Except.ok.inj ((discoverPools_eq (oneMember_disks _)).symm.trans cached)
  obtain rfl := Except.ok.inj ((uncachedPools_eq (oneMember_disks _)).symm.trans uncached)
  have sameCache : kept (scanDisk degraded {} sda) = superOf degraded sda :=
    (scanDisk_right (by decide) fun super cache => by cases cache).2
  have inside : InPool ([sda, sdb].foldl (scanDisk degraded) {}).poolMap degradedSuper.uuid sdb.path := by
    rw [List.foldl_cons, List.foldl_cons, List.foldl_nil, scanDisk_hit (by decide) (sameCache.trans own) (by decide)]
    exact inPool_addDisk.mpr (.inr ⟨rfl, rfl⟩)
  obtain ⟨p, member, uuid, disk⟩ := inside
  rcases inPool_probe.mp ⟨p, perm.mem_iff.mp member, uuid, disk⟩ with nowhere | ⟨d, member, _, path, super, has, _⟩
  · obtain ⟨_, none_, _⟩ := nowhere
    cases none_
  · rw [superOf_path path, free] at has
    cases has

end Cache
end HomelabDaemon.Bcachefs
