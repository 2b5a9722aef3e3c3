import HomelabDaemon.Supervisor
import HomelabDaemon.Api
import Mathlib.Data.List.Sort

/-!
# The daemon

All goroutines over the shared world, as one machine. Requests and backups arrive at any time;
boot and monitor are there from the start; a tick spawns restarts.
-/

namespace HomelabDaemon
open Concurrency Program

inductive Actor where
  | boot
  /-- The monitor, observed for `ticks` rounds. -/
  | monitor (ticks : Nat)
  | restart (svc : Service)
  | api (request : Request)
  | backup (unit : String)
  deriving DecidableEq

namespace Actor

def code : Actor → Prog Unit
  | boot => startup
  | monitor ticks => HomelabDaemon.monitor ticks
  | restart svc => restartGoroutine svc
  | api request => handle request >>= fun _ => return ()
  | backup unit => runBackup unit >>= fun _ => return ()

/-- The actors that arrive from outside: requests, and backups that cron starts. -/
def arrives : Actor → Bool
  | api _ | backup _ => true
  | _ => false

/-- Boot, monitor and restarts, which act without a request. -/
def background : Actor → Bool
  | boot | monitor _ | restart _ => true
  | _ => false

end Actor

def forks : Op → List Actor
  | .goRestart svc => [.restart svc]
  | .goRunBackup unit => [.backup unit]
  | _ => []

def daemon : Machine Op Op.Ans World Actor Env where
  permits := World.permits
  effect := World.effect
  code := Actor.code
  forks := forks
  arrives := Actor.arrives
  envPermits := World.envPermits
  envEffect := World.envEffect

abbrev Configuration := Conf Op Op.Ans World Actor
abbrev Step := Event Op Op.Ans Actor Env
abbrev Story := History Op Op.Ans Actor Env

theorem foreground_built {who : Actor} (h : ¬ who.background = true) : OnRequest who.code := by
  cases who with
  | api request => exact .bind (handle_built request) fun _ => .done _
  | backup unit =>
    refine .bind ((runBackup_built unit).widen (fun _ _ => trivial) fun op member => ?_) fun _ => .done _
    cases op <;> first | trivial | (rename_i m; cases m <;> trivial)
  | boot | monitor ticks | restart svc => exact absurd rfl h

/-- The code of every actor consists of plain operations and of starts, stops and restarts. -/
theorem code_built (who : Actor) : BuiltFrom (fun _ => True) Op.isPlain who.code := by
  cases who with
  | boot =>
    refine startup_built.widen (fun _ _ => trivial) fun op member => ?_
    cases op <;> first | trivial | (rename_i m; cases m <;> trivial)
  | monitor ticks =>
    refine .of_uses (monitorLoop_uses ticks _) fun op member => .op ?_
    cases op <;> trivial
  | restart svc =>
    refine .bind ((restart_built svc).widen (fun _ _ => trivial) fun op member => ?_) fun _ => .single (.op trivial)
    cases op <;> trivial
  | api request | backup unit =>
    refine (foreground_built (by simp [Actor.background])).widen (fun _ verb => verb) fun op member => ?_
    cases op <;> first | trivial | (rename_i m; cases m <;> trivial)

/-- Nobody in the foreground spawns a background goroutine. -/
theorem foreground_forks {who : Actor} (h : ¬ who.background = true) :
    ¬ who.code.Reaches (fun _ _ => True) fun op => ∃ new ∈ forks op, new.background = true := by
  refine (foreground_built h).within.not_reaches ?_
  rintro op member ⟨new, forked, background⟩
  cases op with
  | goRunBackup u =>
    obtain rfl := List.mem_singleton.mp forked
    cases background
  | goRestart svc => rcases member with member | member <;> exact member
  | _ => cases forked

/-! ### Who changes the configuration -/

/-- Neither a file nor the configuration changes. -/
def Op.elsewhere : Op → Prop
  | .updateConfig _ | .createTemp | .writeTemp _ _ | .renameTemp _ | .removeTemp _ => False
  | _ => True

theorem reloadScheduler_elsewhere : reloadScheduler.Uses Op.elsewhere := by
  unfold reloadScheduler
  refine .bind (.perform trivial) fun _ => .bind (.perform trivial) fun _ => .bind (.perform trivial) fun cfg => ?_
  refine .bind (.each fun backup => ?_) fun _ => .perform trivial
  unfold schedule
  split
  · exact .done _
  refine .bind (.perform trivial) fun added => ?_
  split
  · exact .perform trivial
  · exact .done _

theorem built_elsewhere {α : Type} {p : Prog α} {verbs : Verb → Prop} {plain : Op → Prop} (h : BuiltFrom verbs plain p)
    (away : ∀ op, plain op → op.elsewhere) : p.Uses Op.elsewhere := by
  refine h.within.mono fun op member => ?_
  rcases member with plain | inside
  · exact away op plain
  · cases op <;> trivial

/-- Reloads and PATCHes. -/
def Request.changes : Request → Bool
  | .reload | .patchConfig _ _ | .patchBackup _ _ | .patchStorage _ => true
  | _ => false

def Actor.changes : Actor → Bool
  | .api request => request.changes
  | _ => false

theorem command_elsewhere {p : Prog Response} (h : OnCommand p) : p.Uses Op.elsewhere :=
  built_elsewhere h fun op commands => by cases op <;> trivial

theorem handle_elsewhere {request : Request} (other : request.changes = false) :
    (handle request).Uses Op.elsewhere := by
  cases request with
  | start unit => exact command_elsewhere (handleStart_built unit)
  | stop unit => exact command_elsewhere (handleStop_built unit)
  | restart unit => exact command_elsewhere (handleRestart_built unit)
  | startAll => exact command_elsewhere handleStartAll_built
  | stopAll => exact command_elsewhere handleStopAll_built
  | runBackup unit => exact .bind (.perform trivial) fun _ => .done _
  | unmount body =>
    refine (handleUnmount_looks body).mono fun op looks => ?_
    cases op <;> trivial
  | reload | patchConfig unit body | patchBackup unit body | patchStorage body => cases other

theorem code_elsewhere {who : Actor} (other : who.changes = false) : who.code.Uses Op.elsewhere := by
  cases who with
  | boot => exact built_elsewhere startup_built fun op boots => by cases op <;> trivial
  | monitor ticks =>
    refine (monitorLoop_uses ticks _).mono fun op ticks => ?_
    cases op <;> trivial
  | restart svc =>
    refine .bind (built_elsewhere (restart_built svc) fun op restarts => ?_) fun _ => .perform trivial
    cases op <;> trivial
  | api request => exact .bind (handle_elsewhere other) fun _ => .done _
  | backup unit =>
    refine .bind (built_elsewhere (runBackup_built unit) fun op backs => ?_) fun _ => .done _
    cases op <;> trivial

/-- The world outside, for a schedule: everything not listed here is false or absent. -/
structure Outside where
  active : List String := []
  mounted : List String := []
  firstStart : Bool := false
  exit : Exit := .ok
  loaded : Except LoadError Config := .error (.read "no such file")
  schedules : Bool := true
  diskError : Option String := none

def inOrder (services : List Service) : Sorted services where
  list := services.insertionSort (·.order ≤ ·.order)
  perm := List.perm_insertionSort _ _
  sorted := by
    have total : Std.Total fun a b : Service => a.order ≤ b.order := ⟨fun a b => Int.le_total a.order b.order⟩
    have trans : IsTrans Service fun a b => a.order ≤ b.order := ⟨fun _ _ _ => Int.le_trans⟩
    exact List.pairwise_insertionSort _ _

def Outside.reply (o : Outside) : (q : Query) → q.Ans
  | .isActive unit => decide (unit ∈ o.active)
  | .isActiveLines units => units.map fun unit => decide (unit ∈ o.active)
  | .activeState unit => if unit ∈ o.active then "active" else "inactive"
  | .execMainStatus _ => some "ExecMainStatus=1"
  | .isMounted path => decide (path ∈ o.mounted)
  | .resetFailed _ | .sleep _ _ | .tick | .afterDeadline => true
  | .firstStartAfterBoot => o.firstStart
  | .sortByOrder services => inOrder services
  | .ctxErr | .notifyEnabled | .send _ _ | .sendWithCooldown _ _ _ => false
  | .serviceFailed _ _ _ | .backupFailed _ _ => ("", "")
  | .pingHealthcheck _ | .triggerCheck => ()
  | .loadConfig => o.loaded
  | .cronAddFunc _ _ => o.schedules
  | .umount _ => none

/-- What the world answers; what it leaves open is answered by `o`. -/
def Outside.answer (o : Outside) (w : World) : (op : Op) → op.Ans
  | .ask q => o.reply q
  | .config => w.cfg
  | .isUserStopped unit => decide (unit ∈ w.userStopped)
  | .breakerState unit => w.breaker unit
  | .breakerIsOpen unit => (w.breaker unit).isOpen w.now
  | .recordFailure unit => ((w.breaker unit).recordFailure w.now).2
  | .inFlightLoadOrStore unit => decide (unit ∈ w.inFlight)
  | .wait _ _ => o.exit
  | .createTemp => .ok 0
  | .writeTemp _ _ | .syncTemp _ | .closeTemp _ | .chmodTemp _ | .removeTemp _ => none
  | .renameTemp _ => o.diskError
  | .mark _ | .updateConfig _ | .setUserStopped _ _ | .setAllUserStopped _ _ | .setBackupLastRun _
  | .breakerReset _ | .inFlightDelete _ | .goRestart _ | .goRunBackup _ | .lockUnit _ | .unlockUnit _
  | .spawn _ _ | .lockScheduler | .unlockScheduler | .cronNew | .cronEntry _ => ()

/-- The daemon as `main` starts it in world `w`: a fresh breaker, no mutex taken, no restart in
flight, boot and monitor about to run. -/
def started (w : World) (ticks : Nat) : Configuration :=
  daemon.init { w with breaker := fun _ => {}, inFlight := ∅, locks := ∅, schedulerLocked := false }
    [.boot, .monitor ticks]

abbrev Schedule := List (Machine.Move Actor Env Outside)

abbrev Check := Story → Configuration → Step → Bool

/-- A schedule whose steps pass the check gives a run with what its end shows. -/
theorem schedule_run (check : Check) (w : World) (ticks : Nat) (moves : Schedule)
    (shows : Story × Configuration → Bool)
    (h : (Machine.play daemon Outside.answer check ([], started w ticks) moves).any shows = true) :
    ∃ hist c, daemon.Run (fun h c e => check h c e = true) (started w ticks) hist c ∧ shows (hist, c) = true :=
  Machine.play_any _ _ _ h

theorem schedule_anyRun (w : World) (ticks : Nat) (moves : Schedule) (shows : Story × Configuration → Bool)
    (h : (Machine.play daemon Outside.answer (fun _ _ _ => true) ([], started w ticks) moves).any shows = true) :
    ∃ hist c, daemon.Run Machine.anyStep (started w ticks) hist c ∧ shows (hist, c) = true := by
  obtain ⟨hist, c, run, shown⟩ := schedule_run _ w ticks moves shows h
  exact ⟨hist, c, run.weaken fun _ _ _ _ => trivial, shown⟩

end HomelabDaemon
