import HomelabDaemon.Concurrency.Mutex
import HomelabDaemon.System

/-!
# No deadlock

The daemon's code waits for the mutex of a unit or for the scheduler's. It takes one at a time
and frees it before it ends, also where a reload or a backup takes the scheduler's and starts or
stops units afterwards.
-/

namespace HomelabDaemon
open Concurrency Program

namespace Deadlock

inductive Lock where
  | unit (name : String)
  | scheduler
  deriving DecidableEq

/-- The entries of `unitOpMu`, and the scheduler's `mu`. -/
def locks : Mutexes daemon Lock where
  takes
    | .lockUnit unit => some (.unit unit)
    | .lockScheduler => some .scheduler
    | _ => none
  frees
    | .unlockUnit unit => some (.unit unit)
    | .unlockScheduler => some .scheduler
    | _ => none
  taken w
    | .unit name => name ∈ w.locks
    | .scheduler => w.schedulerLocked = true
  take := by
    intro w op ans key permitted takes
    cases op with
    | lockUnit unit =>
      obtain rfl := Option.some.inj takes
      exact of_decide_eq_true permitted
    | lockScheduler =>
      obtain rfl := Option.some.inj takes
      have free : (!w.schedulerLocked) = true := permitted
      simpa using free
    | _ => cases takes
  effect := by
    intro w op ans key
    cases key with
    | unit name =>
      change name ∈ (w.effect op ans).locks ↔ _
      rw [World.effect_locks]
      cases op with
      | lockUnit u => simp [eq_comm]
      | unlockUnit u => simp [and_comm, eq_comm]
      | _ => simp
    | scheduler =>
      change (w.effect op ans).schedulerLocked = true ↔ _
      cases op with
      | spawn verb unit => cases verb <;> simp [World.effect]
      | createTemp | writeTemp | renameTemp | removeTemp => cases ans <;> simp [World.effect]
      | _ => simp [World.effect]
  env := by
    intro w move key
    cases move <;> cases key <;> rfl

/-- No mutex is held. -/
def Free (past : Past Op Op.Ans) : Prop := locks.held past = none

/-- Between two such pieces no mutex is held. -/
def Clean (α : Type) (p : Prog α) : Prop := ∀ past, Free past → p.Meets locks.contract past fun _ => Free

/-- Neither takes nor frees a mutex. -/
def lockFree : Op → Prop
  | .lockUnit _ | .unlockUnit _ | .lockScheduler | .unlockScheduler => False
  | _ => True

section Pieces
variable {past : Past Op Op.Ans} {α : Type} {p : Prog α}

theorem loose_disciplined {op : Op} (loose : lockFree op) : locks.Disciplined past op := by
  cases op <;> first | exact loose.elim | exact ⟨fun takes => (by cases takes), fun _ frees => (by cases frees)⟩

theorem loose_held {op : Op} {ans : op.Ans} (loose : lockFree op) :
    locks.held (⟨op, ans⟩ :: past) = locks.held past := by
  refine locks.held_cons_other ?_ ?_ <;> cases op <;> first | exact loose.elim | rfl

theorem op_clean {op : Op} (loose : lockFree op) : Clean op.Ans (perform op) := by
  intro past free
  refine ⟨loose_disciplined loose, fun ans _ => ?_⟩
  show locks.held _ = none
  rw [loose_held loose, free]

theorem Clean.bind {β : Type} {f : α → Prog β} (first : Clean α p) (rest : ∀ a, Clean β (f a)) : Clean β (p >>= f) := by
  intro past free
  rw [meets_bind]
  exact (first past free).mono fun a past free => rest a past free

theorem clean_done (a : α) : Clean α (done a) := fun _ free => free

theorem loose_clean (h : p.Uses lockFree) : Clean α p := by
  intro past free
  refine h.meets Free (fun _ _ loose _ => loose_disciplined loose) ?_ free
  intro past op ans loose free _
  exact (loose_held loose).trans free

theorem built_clean (h : Built Clean p) : Clean α p := by
  intro past free
  exact h.meets Free (fun _ clean past free => clean past free) free

/-- With the mutex held the code gets to where it is freed. -/
def Closing (key : Lock) (α : Type) (p : Prog α) : Prop :=
  ∀ past, locks.held past = some key → p.Meets locks.contract past fun _ => Free

theorem opens (key : Lock) {op : Op} {k : op.Ans → Prog α} (takes : locks.takes op = some key)
    (noFree : locks.frees op = none) (rest : ∀ ans, Closing key α (k ans)) : Clean α (perform op >>= k) := by
  intro past free
  refine ⟨⟨fun _ => free, fun key' frees => ?_⟩, fun ans _ => rest ans _ ?_⟩
  · rw [noFree] at frees
    cases frees
  · simp [Mutexes.held, takes]

theorem closes {key : Lock} {op : Op} {k : op.Ans → Prog α} (noTake : locks.takes op = none)
    (frees : locks.frees op = some key) (rest : ∀ ans, Clean α (k ans)) : Closing key α (perform op >>= k) := by
  intro past holds
  refine ⟨⟨fun takes => ?_, fun key' frees' => ?_⟩, fun ans _ => rest ans _ ?_⟩
  · rw [noTake] at takes
    cases takes
  · rw [frees] at frees'
    rw [holds, frees']
  · simp [Free, Mutexes.held, noTake, frees]

theorem Closing.bind {key : Lock} {β : Type} {f : α → Prog β} (inside : p.Uses lockFree)
    (rest : ∀ a, Closing key β (f a)) : Closing key β (p >>= f) := by
  intro past holds
  rw [meets_bind]
  refine Meets.mono (inside.meets (fun past => locks.held past = some key)
    (fun _ _ loose _ => loose_disciplined loose) ?_ holds) ?_
  · intro past op ans loose holds _
    exact (loose_held loose).trans holds
  · exact fun a past holds => rest a past holds

end Pieces

/-! ### The code of every actor -/

theorem asks_loose {α : Type} {p : Prog α} (h : AsksOnly p) : p.Uses lockFree := by
  refine h.mono fun op asks => ?_
  cases op <;> trivial

theorem systemctl_loose (verb : Verb) (unit : String) : (systemctl verb unit).Uses lockFree :=
  .bind (.perform trivial) fun _ => .perform trivial

theorem startUnit_clean (unit : String) : Clean _ (startUnit unit) := by
  refine .bind (op_clean trivial) fun _ => opens (.unit unit) rfl rfl fun _ => ?_
  exact .bind (systemctl_loose .start unit) fun exit => closes rfl rfl fun _ => clean_done _

theorem stopUnit_clean (unit : String) : Clean _ (stopUnit unit) := by
  refine opens (.unit unit) rfl rfl fun _ => .bind (systemctl_loose .stop unit) fun exit => .bind ?_ fun _ =>
    closes rfl rfl fun _ => .bind (op_clean trivial) fun _ => clean_done _
  split
  · exact asks_loose (clearFailed_asks unit)
  · exact .done _

theorem restartUnit_clean (unit : String) : Clean _ (restartUnit unit) :=
  loose_clean (.bind (systemctl_loose .restart unit) fun _ => .done _)

/-- Starts, stops, restarts and operations without a mutex. -/
theorem blocks_clean {α : Type} {p : Prog α} {verbs : Verb → Prop} {plain : Op → Prop} (h : BuiltFrom verbs plain p)
    (loose : ∀ op, plain op → lockFree op) : Clean α p := by
  refine built_clean (h.mono fun p block => ?_)
  cases block with
  | start unit _ => exact startUnit_clean unit
  | stop unit _ => exact stopUnit_clean unit
  | restart unit _ => exact restartUnit_clean unit
  | op plain => exact op_clean (loose _ plain)

theorem schedule_loose (backup : Backup) : (schedule backup).Uses lockFree := by
  unfold schedule
  split
  · exact .done _
  refine .bind (.perform trivial) fun added => ?_
  split
  · exact .perform trivial
  · exact .done _

theorem reloadScheduler_clean : Clean _ reloadScheduler :=
  opens .scheduler rfl rfl fun _ => .bind (.perform trivial) fun _ => .bind (.perform trivial) fun _ =>
    .bind (.each schedule_loose) fun _ => closes rfl rfl fun _ => clean_done _

theorem recordRun_clean (unit : String) : Clean _ (recordRun unit) :=
  opens .scheduler rfl rfl fun _ => closes rfl rfl fun _ => op_clean trivial

theorem runBackup_clean (unit : String) : Clean _ (runBackup unit) := by
  refine opens .scheduler rfl rfl fun _ => .bind (.perform trivial) fun _ => closes rfl rfl fun _ => ?_
  split
  · exact clean_done _
  rename_i backup _
  refine .bind (recordRun_clean unit) fun _ =>
    .bind (loose_clean (asks_loose (missingMount_asks backup))) fun missing => ?_
  split
  · exact clean_done _
  refine .bind (loose_clean (asks_loose (missingDependency_asks backup))) fun inactive => ?_
  split
  · exact clean_done _
  have paused : Clean _ (pause backup) := by
    unfold pause
    split
    · exact clean_done _
    · exact .bind (stopUnit_clean _) fun _ => clean_done _
  have resumed : Clean _ (resume backup) := by
    unfold resume
    split
    · exact clean_done _
    · exact .bind (op_clean trivial) fun _ => .bind (startUnit_clean _) fun _ => clean_done _
  have job : Clean _ (runJob backup) := by
    refine .bind (startUnit_clean _) fun error => ?_
    cases error with
    | none => exact .bind (loose_clean (asks_loose (ping_asks _ _))) fun _ => clean_done _
    | some message =>
      exact .bind (loose_clean (asks_loose (ping_asks _ _))) fun _ =>
        .bind (loose_clean (asks_loose (mailFailure_asks _ _))) fun _ => clean_done _
  exact .bind (loose_clean (asks_loose (ping_asks _ _))) fun _ => .bind paused fun _ => .bind job fun _ =>
    .bind resumed fun _ => clean_done _

theorem assign_clean {α : Type} {value : Option α} {set : α → Prog Unit} (h : ∀ v, Clean _ (set v)) :
    Clean _ (assign value set) := by
  cases value with
  | none => exact clean_done _
  | some v => exact h v

theorem writeConfig_clean : Clean _ writeConfig :=
  loose_clean (writeConfig_uses.mono fun op files => (by cases op <;> trivial))

theorem save_clean {answer : Prog Response} (h : Clean _ answer) : Clean _ (save answer) := by
  refine .bind writeConfig_clean fun error => ?_
  split
  · exact clean_done _
  · exact h

theorem handleReload_clean : Clean _ handleReload := by
  refine .bind (op_clean trivial) fun loaded => ?_
  cases loaded with
  | error error => exact clean_done _
  | ok newCfg =>
    have verify : Clean _ verifyRunningServices := blocks_clean verifyRunningServices_built fun op looks =>
      (by cases op <;> trivial)
    exact .bind (op_clean trivial) fun _ => .bind reloadScheduler_clean fun _ => .bind verify fun _ =>
      .bind (op_clean trivial) fun _ => clean_done _

theorem patchService_clean (unit : String) (idx : Nat) (payload : ConfigPatch) :
    Clean _ (patchService unit idx payload) := by
  have enabled : ∀ enabled, Clean _ (assignEnabled unit idx enabled) := by
    intro enabled
    refine .bind (op_clean trivial) fun _ => ?_
    split
    · exact .bind (op_clean trivial) fun _ => op_clean trivial
    · exact clean_done _
  refine .bind (assign_clean enabled) fun _ => .bind (assign_clean fun _ => op_clean trivial) fun _ =>
    .bind (assign_clean fun _ => op_clean trivial) fun _ => .bind (assign_clean fun _ => op_clean trivial) fun _ => ?_
  split
  · exact .bind (assign_clean fun _ => op_clean trivial) fun _ =>
      .bind (assign_clean fun _ => op_clean trivial) fun _ =>
      save_clean (.bind (op_clean trivial) fun _ => clean_done _)
  · exact clean_done _

theorem patchBackupAt_clean (idx : Nat) (payload : BackupPatch) : Clean _ (patchBackupAt idx payload) :=
  .bind (assign_clean fun _ => op_clean trivial) fun _ => .bind (assign_clean fun _ => op_clean trivial) fun _ =>
    .bind (assign_clean fun _ => op_clean trivial) fun _ => .bind (assign_clean fun _ => op_clean trivial) fun _ =>
    .bind (assign_clean fun _ => op_clean trivial) fun _ =>
    save_clean (.bind reloadScheduler_clean fun _ => .bind (op_clean trivial) fun _ => clean_done _)

theorem onCommand_clean {p : Prog Response} (h : OnCommand p) : Clean _ p :=
  blocks_clean h fun op commands => (by cases op <;> trivial)

theorem handle_clean (request : Request) : Clean _ (handle request) := by
  cases request with
  | start unit => exact onCommand_clean (handleStart_built unit)
  | stop unit => exact onCommand_clean (handleStop_built unit)
  | restart unit => exact onCommand_clean (handleRestart_built unit)
  | startAll => exact onCommand_clean handleStartAll_built
  | stopAll => exact onCommand_clean handleStopAll_built
  | reload => exact handleReload_clean
  | patchConfig unit body =>
    cases body with
    | none => exact clean_done _
    | some payload =>
      refine .bind (op_clean trivial) fun cfg => ?_
      split
      · exact clean_done _
      · exact patchService_clean _ _ payload
  | patchBackup unit body =>
    cases body with
    | none => exact clean_done _
    | some payload =>
      refine .bind (op_clean trivial) fun cfg => ?_
      split
      · exact clean_done _
      · exact patchBackupAt_clean _ payload
  | patchStorage body =>
    cases body with
    | none => exact clean_done _
    | some payload =>
      refine .bind (op_clean trivial) fun _ => .bind writeConfig_clean fun error => ?_
      cases error <;> exact clean_done _
  | runBackup unit => exact .bind (op_clean trivial) fun _ => clean_done _
  | unmount body => exact loose_clean ((handleUnmount_looks body).mono fun op looks => (by cases op <;> trivial))

theorem code_clean (who : Actor) : Clean _ who.code := by
  cases who with
  | boot => exact blocks_clean startup_built fun op boots => (by cases op <;> trivial)
  | monitor ticks => exact loose_clean ((monitorLoop_uses ticks _).mono fun op ticks => (by cases op <;> trivial))
  | restart svc =>
    have own : Clean _ (HomelabDaemon.restart svc) := blocks_clean (restart_built svc) fun op restarts =>
      (by cases op <;> trivial)
    exact .bind own fun _ => op_clean trivial
  | api request => exact .bind (handle_clean request) fun _ => clean_done _
  | backup unit => exact .bind (runBackup_clean unit) fun _ => clean_done _

/-- Every operation has an answer, unless it takes a mutex that is taken. -/
theorem permits_or_taken (w : World) (op : Op) :
    (∃ ans, w.permits op ans = true) ∨ ∃ key, locks.takes op = some key ∧ locks.taken w key := by
  cases op with
  | lockUnit unit =>
    by_cases taken : unit ∈ w.locks
    · exact .inr ⟨.unit unit, rfl, taken⟩
    · exact .inl ⟨(), decide_eq_true taken⟩
  | lockScheduler =>
    cases taken : w.schedulerLocked with
    | true => exact .inr ⟨.scheduler, rfl, taken⟩
    | false => exact .inl ⟨(), by simp [World.permits, taken]⟩
  -- a client may be killed, and a file may fail to be made
  | wait verb unit => exact .inl ⟨.killed "", by cases verb <;> rfl⟩
  | createTemp => exact .inl ⟨.error "", rfl⟩
  | config => exact .inl ⟨w.cfg, decide_eq_true rfl⟩
  | isUserStopped unit => exact .inl ⟨decide (unit ∈ w.userStopped), decide_eq_true rfl⟩
  | breakerState unit => exact .inl ⟨w.breaker unit, decide_eq_true rfl⟩
  | breakerIsOpen unit => exact .inl ⟨(w.breaker unit).isOpen w.now, decide_eq_true rfl⟩
  | recordFailure unit => exact .inl ⟨((w.breaker unit).recordFailure w.now).2, decide_eq_true rfl⟩
  | inFlightLoadOrStore unit => exact .inl ⟨decide (unit ∈ w.inFlight), decide_eq_true rfl⟩
  | _ => exact .inl ⟨Outside.answer {} w _, rfl⟩

theorem orderly : locks.Orderly where
  code who := code_clean who [] rfl
  waits {w op} none_ := by
    rcases permits_or_taken w op with ⟨ans, permitted⟩ | taken
    · have refused : w.permits op ans = false := none_ ans
      rw [permitted] at refused
      cases refused
    · exact taken

/-! ### Runs -/

section Run
variable {w : World} {ticks : Nat} {hist : Story} {c : Configuration} {i : Nat} {who : Actor}

def world : World := { cfg := { version := 1, services := [{ unit := "a.service", enabled := true }] } }

end Run

end Deadlock
end HomelabDaemon
