import HomelabDaemon.Config
import HomelabDaemon.Breaker
import HomelabDaemon.Concurrency.Alone
import Mathlib.Data.Finset.Basic

/-!
# What the daemon's goroutines share, and their operations

An operation is one access that other goroutines cannot split: a read or write of shared memory
under its mutex, a step of a systemctl client, a system call. `Query` collects the questions
whose answer comes from outside the daemon; any answer is possible at any time, which covers
every history of units and mounts.
-/

namespace HomelabDaemon
open Concurrency

abbrev Text := List Char

inductive Verb where
  | start | stop | restart
  deriving DecidableEq

/-- How a systemctl client ended; `killed` is by the 30 s timeout of its context. -/
inductive Exit where
  | ok
  | failed (message : String)
  | killed (message : String)
  deriving DecidableEq

namespace Exit

def error : Exit → Option String
  | ok => none
  | failed message | killed message => some message

def isKilled : Exit → Bool
  | killed _ => true
  | _ => false

end Exit

inductive Wait where
  | poll | bootDelay | restartDelay | settle
  deriving DecidableEq

inductive Query where
  | isActive (unit : String)
  /-- One entry for each line of `systemctl is-active`: whether it reads "active". -/
  | isActiveLines (units : List String)
  | activeState (unit : String)
  | execMainStatus (unit : String)
  | resetFailed (unit : String)
  | isMounted (path : String)
  /-- A `select` on a timer and `ctx.Done()`: whether the timer fired. -/
  | sleep (why : Wait) (seconds : Int)
  | tick
  | ctxErr
  | afterDeadline
  | firstStartAfterBoot
  /-- `sort.Slice` by `Order`, which need not be stable. -/
  | sortByOrder (services : List Service)
  | notifyEnabled
  | serviceFailed (unit name reason : String)
  | backupFailed (unit error : String)
  | send (subject body : String)
  | sendWithCooldown (key subject body : String)
  | pingHealthcheck (url : String)
  | loadConfig
  | cronAddFunc (unit schedule : String)
  | triggerCheck
  /-- `umount`, which finds the mount of a path or of a device. -/
  | umount (mountpoint : String)

structure Sorted (services : List Service) where
  list : List Service
  perm : list.Perm services
  sorted : list.Pairwise fun a b => a.order ≤ b.order

@[reducible] def Query.Ans : Query → Type
  | isActive _ | resetFailed _ | isMounted _ | sleep _ _ | tick | ctxErr | afterDeadline
  | firstStartAfterBoot | notifyEnabled | send _ _ | sendWithCooldown _ _ _ | cronAddFunc _ _ => Bool
  | isActiveLines _ => List Bool
  | activeState _ => String
  | execMainStatus _ | umount _ => Option String
  | serviceFailed _ _ _ | backupFailed _ _ => String × String
  | sortByOrder services => Sorted services
  | pingHealthcheck _ | triggerCheck => Unit
  | loadConfig => Except LoadError Config

/-- Points of the source that properties refer to; passing one has no effect. -/
inductive Mark where
  | startUnit (unit : String)
  /-- `stopUnit(unit)` is about to return. -/
  | stopUnit (unit : String)
  /-- `boot` is done with a service, at its label `next`. -/
  | next (svc : Service)
  | resume (unit : String)
  deriving DecidableEq

/-- A file operation answers with its error, if any. -/
inductive Op where
  | ask (q : Query)
  | mark (m : Mark)
  | config
  | updateConfig (f : Config → Config)
  | isUserStopped (unit : String)
  | setUserStopped (unit : String) (stopped : Bool)
  | setAllUserStopped (units : List String) (stopped : Bool)
  | setBackupLastRun (unit : String)
  | breakerState (unit : String)
  | breakerIsOpen (unit : String)
  | recordFailure (unit : String)
  | breakerReset (unit : String)
  | inFlightLoadOrStore (unit : String)
  | inFlightDelete (unit : String)
  | goRestart (svc : Service)
  | goRunBackup (unit : String)
  | lockUnit (unit : String)
  | unlockUnit (unit : String)
  | spawn (verb : Verb) (unit : String)
  | wait (verb : Verb) (unit : String)
  | lockScheduler
  | unlockScheduler
  | cronNew
  | cronEntry (backup : Backup)
  | createTemp
  | writeTemp (file : Nat) (data : Text)
  | syncTemp (file : Nat)
  | closeTemp (file : Nat)
  | chmodTemp (file : Nat)
  | renameTemp (file : Nat)
  | removeTemp (file : Nat)

@[reducible] def Op.Ans : Op → Type
  | ask q => q.Ans
  | config => Config
  | isUserStopped _ | breakerIsOpen _ | inFlightLoadOrStore _ => Bool
  | breakerState _ => UnitBreaker
  | recordFailure _ => Nat
  | wait _ _ => Exit
  | createTemp => Except String Nat
  | writeTemp _ _ | syncTemp _ | closeTemp _ | chmodTemp _ | renameTemp _ | removeTemp _ => Option String
  | _ => Unit

abbrev Prog := Program Op Op.Ans

structure World where
  cfg : Config
  userStopped : Finset String := ∅
  backupLastRun : String → Time := fun _ => 0
  breaker : String → UnitBreaker := fun _ => {}
  inFlight : Finset String := ∅
  /-- The entries of `unitOpMu` that are locked. -/
  locks : Finset String := ∅
  schedulerLocked : Bool := false
  /-- The units whose start job has not ended. -/
  jobs : Finset String := ∅
  entries : List Backup := []
  now : Time := 1
  file : Text := []
  /-- The temporary files next to services.yaml. -/
  temps : Nat → Option Text := fun _ => none

inductive Env where
  | advance (duration : Nat)
  | jobEnd (unit : String)
  deriving DecidableEq

namespace World

/-- The answers an operation may get. A started unit's client ends without being killed only
after the job has ended. -/
def permits (w : World) : (op : Op) → op.Ans → Bool
  | .config, cfg => decide (cfg = w.cfg)
  | .isUserStopped unit, stopped => decide (stopped = decide (unit ∈ w.userStopped))
  | .breakerState unit, b => decide (b = w.breaker unit)
  | .breakerIsOpen unit, isOpen => decide (isOpen = (w.breaker unit).isOpen w.now)
  | .recordFailure unit, d => decide (d = ((w.breaker unit).recordFailure w.now).2)
  | .inFlightLoadOrStore unit, loaded => decide (loaded = decide (unit ∈ w.inFlight))
  | .lockUnit unit, _ => decide (unit ∉ w.locks)
  | .wait .start unit, exit => exit.isKilled || decide (unit ∉ w.jobs)
  | .lockScheduler, _ => !w.schedulerLocked
  | .createTemp, .ok file => decide (w.temps file = none)
  | _, _ => true

def effect (w : World) : (op : Op) → op.Ans → World
  | .updateConfig f, _ => { w with cfg := f w.cfg }
  | .setUserStopped unit stopped, _ =>
    { w with userStopped := if stopped then insert unit w.userStopped else w.userStopped.erase unit }
  | .setAllUserStopped units stopped, _ =>
    { w with userStopped := if stopped then w.userStopped ∪ units.toFinset else w.userStopped \ units.toFinset }
  | .setBackupLastRun unit, _ => { w with backupLastRun := Function.update w.backupLastRun unit w.now }
  | .recordFailure unit, _ =>
    { w with breaker := Function.update w.breaker unit ((w.breaker unit).recordFailure w.now).1 }
  | .breakerReset unit, _ => { w with breaker := Function.update w.breaker unit {} }
  | .inFlightLoadOrStore unit, _ => { w with inFlight := insert unit w.inFlight }
  | .inFlightDelete unit, _ => { w with inFlight := w.inFlight.erase unit }
  | .lockUnit unit, _ => { w with locks := insert unit w.locks }
  | .unlockUnit unit, _ => { w with locks := w.locks.erase unit }
  | .spawn .start unit, _ => { w with jobs := insert unit w.jobs }
  | .lockScheduler, _ => { w with schedulerLocked := true }
  | .unlockScheduler, _ => { w with schedulerLocked := false }
  | .cronNew, _ => { w with entries := [] }
  | .cronEntry backup, _ => { w with entries := w.entries ++ [backup] }
  | .createTemp, .ok file => { w with temps := Function.update w.temps file (some []) }
  | .writeTemp file data, none => { w with temps := Function.update w.temps file (some data) }
  | .renameTemp file, none =>
    { w with file := (w.temps file).getD [], temps := Function.update w.temps file none }
  | .removeTemp file, none => { w with temps := Function.update w.temps file none }
  | _, _ => w

theorem effect_locks (w : World) (op : Op) (ans : op.Ans) : (w.effect op ans).locks =
    match op with
    | .lockUnit unit => insert unit w.locks
    | .unlockUnit unit => w.locks.erase unit
    | _ => w.locks := by
  cases op with
  | spawn verb unit => cases verb <;> rfl
  | createTemp | writeTemp | renameTemp | removeTemp => cases ans <;> rfl
  | _ => rfl

theorem effect_inFlight (w : World) (op : Op) (ans : op.Ans) : (w.effect op ans).inFlight =
    match op with
    | .inFlightLoadOrStore unit => insert unit w.inFlight
    | .inFlightDelete unit => w.inFlight.erase unit
    | _ => w.inFlight := by
  cases op with
  | spawn verb unit => cases verb <;> rfl
  | createTemp | writeTemp | renameTemp | removeTemp => cases ans <;> rfl
  | _ => rfl

theorem effect_breaker (w : World) (op : Op) (ans : op.Ans) : (w.effect op ans).breaker =
    match op with
    | .recordFailure unit => Function.update w.breaker unit ((w.breaker unit).recordFailure w.now).1
    | .breakerReset unit => Function.update w.breaker unit {}
    | _ => w.breaker := by
  cases op with
  | spawn verb unit => cases verb <;> rfl
  | createTemp | writeTemp | renameTemp | removeTemp => cases ans <;> rfl
  | _ => rfl

theorem effect_jobs (w : World) (op : Op) (ans : op.Ans) : (w.effect op ans).jobs =
    match op with
    | .spawn .start unit => insert unit w.jobs
    | _ => w.jobs := by
  cases op with
  | spawn verb unit => cases verb <;> rfl
  | createTemp | writeTemp | renameTemp | removeTemp => cases ans <;> rfl
  | _ => rfl

theorem effect_now (w : World) (op : Op) (ans : op.Ans) : (w.effect op ans).now = w.now := by
  cases op with
  | spawn verb unit => cases verb <;> rfl
  | createTemp | writeTemp | renameTemp | removeTemp => cases ans <;> rfl
  | _ => rfl

def envPermits (w : World) : Env → Bool
  | .advance _ => true
  | .jobEnd unit => decide (unit ∈ w.jobs)

def envEffect (w : World) : Env → World
  | .advance duration => { w with now := w.now + duration }
  | .jobEnd unit => { w with jobs := w.jobs.erase unit }

end World

/-! ### The operations as the source names them -/

open Program (perform)

abbrev ask (q : Query) : Prog q.Ans := perform (Op.ask q)

abbrev mark (m : Mark) : Prog Unit := perform (Op.mark m)

abbrev readConfig : Prog Config := perform Op.config

abbrev isActive (unit : String) : Prog Bool := ask (.isActive unit)

abbrev isMounted (path : String) : Prog Bool := ask (.isMounted path)

abbrev isUserStopped (unit : String) : Prog Bool := perform (Op.isUserStopped unit)

abbrev setUserStopped (unit : String) (stopped : Bool) : Prog Unit := perform (Op.setUserStopped unit stopped)

abbrev lockUnit (unit : String) : Prog Unit := perform (Op.lockUnit unit)

abbrev unlockUnit (unit : String) : Prog Unit := perform (Op.unlockUnit unit)

def Op.isAsk : Op → Prop
  | .ask _ => True
  | _ => False

abbrev AsksOnly {α : Type} (p : Prog α) : Prop := p.Uses Op.isAsk

theorem ask_asks (q : Query) : AsksOnly (ask q) := .perform trivial

theorem AsksOnly.quiet {α : Type} {p : Prog α} {may : (op : Op) → op.Ans → Prop} {target : Op → Prop}
    (h : AsksOnly p) (silent : ∀ q, ¬ target (.ask q)) : ¬ p.Reaches may target := by
  refine h.not_reaches fun op asks => ?_
  cases op with
  | ask q => exact silent q
  | _ => exact asks.elim

end HomelabDaemon
