import HomelabDaemon.Bcachefs.Pools
import HomelabDaemon.Cmdrunner.Execute
import HomelabDaemon.Supervisor

/-!
# Mounting the pools at boot

The boot goroutine mounts the configured pools, one after the other, and goes on to verify the
running services and to boot. A pool that has to be mounted is where it panics.
-/

namespace HomelabDaemon
open Concurrency Program Strings Cmdrunner
open Bcachefs (Pool)

namespace AutoMount

/-- What becomes of one pool. -/
inductive Handling where
  | notFound (uuid : String)
  | alreadyMounted (uuid mountpoint : String)
  | mounted (uuid : String) (devices : List Str) (mountpoint : String) (error : Option String)
  deriving DecidableEq

/-- What the goroutine asks from outside before it goes on. -/
inductive Call where
  | discoverPools
  /-- Run a command; the answer is the host that it meets. -/
  | command (b : Builder)
  | handled (h : Handling)
  | panics (message : String)

def Call.Ans : Call → Type
  | discoverPools => Except String (List Pool)
  | command _ => Host
  | handled _ => Unit
  | panics _ => Empty

abbrev Code := Program Call Call.Ans

def panic {α : Type} (message : String) : Code α := do
  let never ← perform (Call.panics message)
  nomatch never

def handled (h : Handling) : Code Unit := perform (Call.handled h)

/-- `New`, which panics in the goroutine. -/
def newCommand (callerModule name : String) (args : List String) : Code Builder :=
  match new callerModule name args with
  | .ok b => return b
  | .error (.panicked message) | .error (.failed message) => panic message

/-- `Run`, for its error. -/
def runCommand (b : Builder) : Code (Option String) := do
  let host : Host ← perform (Call.command b)
  match (b.run host).result with
  | .ok _ => return none
  | .error (.failed error) => return some error
  | .error (.panicked message) => panic message

/-- `bcachefs.Mount` -/
def mount (devices : List Str) (mountpoint : String) : Code (Option String) :=
  if devices = [] then return some "no devices provided"
  else do
    let devStr := ":".intercalate (devices.map String.ofList)
    let b ← newCommand "storage" "mount" ["-t", "bcachefs", devStr, mountpoint]
    runCommand b

/-- The pool is mounted where it is configured. -/
def isMountedAt (p : Pool) (pConf : StoragePoolConfig) : Bool :=
  p.state = "mounted".toList ∧ p.mountdir = pConf.mountpoint.toList

def findPool (found : List Pool) (pConf : StoragePoolConfig) : Option Pool :=
  found.find? (·.uuid = pConf.uuid.toList)

def mountPool (found : List Pool) (pConf : StoragePoolConfig) : Code Unit :=
  if !pConf.autoMount then return ()
  else match findPool found pConf with
    | none => handled (.notFound pConf.uuid)
    | some p =>
      if isMountedAt p pConf then handled (.alreadyMounted pConf.uuid pConf.mountpoint)
      else do
        let devices := p.disks.map (·.path)
        let b ← newCommand "boot" "chattr" ["-i", pConf.mountpoint]
        let _ ← runCommand b
        let error ← mount devices pConf.mountpoint
        handled (.mounted pConf.uuid devices pConf.mountpoint error)

def mountPools (configured : List StoragePoolConfig) : Code Unit :=
  if configured = [] then return ()
  else do
    let found : Except String (List Pool) ← perform Call.discoverPools
    match found with
    | .error _ => return ()
    | .ok found => each (mountPool found) configured

/-- The boot goroutine of `main`: after the pools, it is `startup`. -/
def bootGoroutine (configured : List StoragePoolConfig) : Code (Prog Unit) := do
  mountPools configured
  return startup

/-! ### What is asked of the loop -/

/-- No panic, and the discovery finds these pools. -/
def finding (found : List Pool) : Contract Call Call.Ans where
  allow _
    | .panics _ => False
    | _ => True
  expect _
    | .discoverPools, ans => ans = .ok found
    | _, _ => True

/-- What is right for a pool. -/
def Handles (found : List Pool) (pConf : StoragePoolConfig) (h : Handling) : Prop :=
  match findPool found pConf with
  | none => h = .notFound pConf.uuid
  | some p =>
    if isMountedAt p pConf then h = .alreadyMounted pConf.uuid pConf.mountpoint
    else ∃ error, h = .mounted pConf.uuid (p.disks.map (·.path)) pConf.mountpoint error

/-- The handlings of the past, the oldest first. -/
def handlings : Past Call Call.Ans → List Handling
  | [] => []
  | ⟨.handled h, _⟩ :: past => handlings past ++ [h]
  | _ :: past => handlings past

/-- Whatever the commands do, every auto-mount pool is handled in order and the goroutine goes on. -/
def Completes (configured : List StoragePoolConfig) (found : List Pool) : Prop :=
  (bootGoroutine configured).Meets (finding found) [] fun next past =>
    next = startup ∧ List.Forall₂ (Handles found) (configured.filter (·.autoMount)) (handlings past)

/-- Nothing is left to mount: no auto-mount pool is found that is not at its mountpoint. -/
def Settled (configured : List StoragePoolConfig) (found : List Pool) : Prop :=
  ∀ pConf ∈ configured, pConf.autoMount = true → ∀ p, findPool found pConf = some p → isMountedAt p pConf = true

section Loop
variable {found : List Pool} {pConf : StoragePoolConfig} {past : Past Call Call.Ans}

theorem panic_meets {α : Type} {message : String} {post : α → Past Call Call.Ans → Prop} :
    ¬ (panic message : Code α).Meets (finding found) past post := fun h => h.1

/-- `boot` is no canonical module. -/
theorem newCommand_boot {name : String} {args : List String} {post : Builder → Past Call Call.Ans → Prop} :
    ¬ (newCommand "boot" name args).Meets (finding found) past post := by
  have refused : "boot" ∉ canonicalModules := by decide
  unfold newCommand new
  rw [if_pos refused]
  exact panic_meets

theorem handled_meets {h : Handling} {post : Unit → Past Call Call.Ans → Prop} :
    (handled h).Meets (finding found) past post ↔ post () (⟨.handled h, ()⟩ :: past) := by
  constructor
  · intro meets
    exact meets.2 () trivial
  · intro holds
    exact ⟨trivial, fun _ _ => holds⟩

theorem mountPool_meets {post : Unit → Past Call Call.Ans → Prop} :
    (mountPool found pConf).Meets (finding found) past post ↔
      if pConf.autoMount then
        match findPool found pConf with
        | none => post () (⟨.handled (.notFound pConf.uuid), ()⟩ :: past)
        | some p => isMountedAt p pConf = true ∧
            post () (⟨.handled (.alreadyMounted pConf.uuid pConf.mountpoint), ()⟩ :: past)
      else post () past := by
  unfold mountPool
  cases pConf.autoMount with
  | false => exact Iff.rfl
  | true =>
    cases findPool found pConf with
    | none => exact handled_meets
    | some p =>
      cases at_ : isMountedAt p pConf with
      | true =>
        simp only [at_, Bool.not_true, Bool.false_eq_true, if_false, if_true, true_and]
        exact handled_meets
      | false =>
        simp only [at_, Bool.not_true, Bool.false_eq_true, if_false, if_true, false_and, iff_false]
        rw [meets_bind]
        exact newCommand_boot

theorem settled_cons {configured : List StoragePoolConfig} : Settled (pConf :: configured) found ↔
    (pConf.autoMount = true → ∀ p, findPool found pConf = some p → isMountedAt p pConf = true) ∧
      Settled configured found := by
  simp [Settled]

theorem settled_of_meets {configured : List StoragePoolConfig} {post : Unit → Past Call Call.Ans → Prop}
    (meets : (each (mountPool found) configured).Meets (finding found) past post) : Settled configured found := by
  induction configured generalizing past with
  | nil => exact fun pConf member => nomatch member
  | cons pConf configured ih =>
    rw [each, meets_bind, mountPool_meets] at meets
    rw [settled_cons]
    cases auto : pConf.autoMount with
    | false =>
      rw [auto] at meets
      refine ⟨fun yes => ?_, ih meets⟩
      cases yes
    | true =>
      rw [auto, if_pos rfl] at meets
      cases there : findPool found pConf with
      | none =>
        rw [there] at meets
        refine ⟨fun _ p some_ => ?_, ih meets⟩
        cases some_
      | some p =>
        rw [there] at meets
        refine ⟨fun _ p' same => ?_, ih meets.2⟩
        obtain rfl := Option.some.inj same
        exact meets.1

theorem meets_of_settled {configured : List StoragePoolConfig} (settled : Settled configured found) :
    (each (mountPool found) configured).Meets (finding found) past fun _ past' =>
      ∃ handled, handlings past' = handlings past ++ handled ∧
        List.Forall₂ (Handles found) (configured.filter (·.autoMount)) handled := by
  induction configured generalizing past with
  | nil => exact ⟨[], by simp, .nil⟩
  | cons pConf configured ih =>
    obtain ⟨first, rest⟩ := settled_cons.mp settled
    rw [each, meets_bind, mountPool_meets]
    cases auto : pConf.autoMount with
    | false =>
      rw [if_neg Bool.false_ne_true, List.filter_cons_of_neg (by simp [auto])]
      exact ih rest
    | true =>
      rw [if_pos rfl, List.filter_cons_of_pos auto]
      have behind : ∀ h, Handles found pConf h →
          (each (mountPool found) configured).Meets (finding found) (⟨.handled h, ()⟩ :: past) fun _ past' =>
            ∃ handled, handlings past' = handlings past ++ handled ∧
              List.Forall₂ (Handles found) (pConf :: configured.filter (·.autoMount)) handled := by
        intro h right
        refine (ih rest).mono fun _ past' extends_ => ?_
        obtain ⟨handled, grown, all⟩ := extends_
        refine ⟨h :: handled, ?_, .cons right all⟩
        rw [grown]
        simp [handlings]
      cases there : findPool found pConf with
      | none => exact behind _ (by simp [Handles, there])
      | some p =>
        have at_ := first auto p there
        exact ⟨at_, behind _ (by simp [Handles, there, at_])⟩

end Loop

theorem settled_of_completes {configured : List StoragePoolConfig} {found : List Pool}
    (completes : Completes configured found) :
    Settled configured found := by
  unfold Completes bootGoroutine mountPools at completes
  rw [meets_bind] at completes
  by_cases none_ : configured = []
  · rw [none_]
    exact fun pConf member => nomatch member
  · rw [if_neg none_] at completes
    exact settled_of_meets (completes.2 (.ok found) rfl)

/-- The loop completes exactly when it has nothing to mount. -/
theorem completes_iff (configured : List StoragePoolConfig) (found : List Pool) :
    Completes configured found ↔ Settled configured found := by
  constructor
  · exact settled_of_completes
  · intro settled
    unfold Completes bootGoroutine mountPools
    rw [meets_bind]
    by_cases none_ : configured = []
    · rw [if_pos none_, none_]
      exact ⟨rfl, .nil⟩
    · rw [if_neg none_]
      refine ⟨trivial, fun ans expected => ?_⟩
      obtain rfl := expected
      refine (meets_of_settled settled).mono fun _ past' ⟨handled, grown, all⟩ => ⟨rfl, ?_⟩
      rw [grown]
      exact all

/-- A pool that is found and not mounted. -/
theorem boot_panics : ¬ ∀ (configured : List StoragePoolConfig) (found : List Pool), Completes configured found := by
  intro claim
  have settled := settled_of_completes
    (claim [{ uuid := "u1", mountpoint := "/pool", autoMount := true }] [{ uuid := "u1".toList }])
  have mounted := settled _ (List.mem_singleton_self _) rfl { uuid := "u1".toList } rfl
  exact absurd mounted (by decide)

end AutoMount
end HomelabDaemon
