import HomelabDaemon.State

/-!
# State survives restarts

Each start loads the file, prunes by its own Config and stamps the boot id, which writes the file
again. Every write succeeds.
-/

namespace HomelabDaemon
open Rfc3339

namespace StateRestarts

structure Place where
  state : State := {}
  disk : Disk
  boot : String := ""

/-- `first` is what the start was told. -/
inductive Event where
  | mutate (m : Mutation)
  | restart (cfg : Config) (boot : String) (first : Bool)

/-- A boot id that is read is the kernel's. -/
def Reads (boot : String) : Mutation → Prop
  | .isFirstStartAfterBoot current => current = "" ∨ current = boot
  | _ => True

def started (p : Place) (cfg : Config) (boot : String) :
    Bool × State := (newState p.disk cfg).isFirstStartAfterBoot boot

inductive Step (p : Place) : Event → Place → Prop where
  | mutate {m : Mutation} {order : List String} (writable : m.Writable) (reads : Reads p.boot m)
    (listed : (m.apply p.state).Lists order) :
    Step p (.mutate m) { p with
      state := m.apply p.state
      disk := if m.persists then some ((m.apply p.state).persist order) else p.disk }
  | restart {cfg : Config} {boot : String} {order : List String} (readable : boot ≠ "")
    (listed : (started p cfg boot).2.Lists order) :
    Step p (.restart cfg boot (started p cfg boot).1) {
      state := (started p cfg boot).2
      disk := some ((started p cfg boot).2.persist order)
      boot := boot }

/-- The latest event is first. A run begins with a start over any file. -/
inductive Run (disk : Disk) : List Event → Place → Prop where
  | start {cfg : Config} {boot : String} {first : Bool} {p : Place} (representable : (State.load disk).Representable)
    (next : Step { disk := disk } (.restart cfg boot first) p) : Run disk [.restart cfg boot first] p
  | step {hist : List Event} {p p' : Place} {e : Event} (before : Run disk hist p) (next : Step p e p') : Run disk
      (e :: hist) p'

def lastBoot : List Event → String
  | [] => ""
  | .mutate _ :: hist => lastBoot hist
  | .restart _ boot _ :: _ => boot

def Stops (unit : String) : Mutation → Prop
  | .setUserStopped u stopped => u = unit ∧ stopped = true
  | .setAllUserStopped units stopped => unit ∈ units ∧ stopped = true
  | _ => False

/-- The unit was absent from the Config of a start, and was not set anew since. -/
def Dropped (unit : String) : List Event → Prop
  | [] => False
  | .mutate m :: hist => ¬ Stops unit m ∧ Dropped unit hist
  | .restart cfg _ _ :: hist => unit ∉ cfg.units ∨ Dropped unit hist

/-- The file holds what memory holds. -/
structure Kept (p : Place) : Prop where
  loaded : State.load p.disk = p.state.truncate
  representable : p.state.Representable
  stamped : p.state.bootID = p.boot

variable {disk : Disk} {hist : List Event} {p p' : Place} {cfg : Config} {boot unit : String} {first : Bool}
  {m : Mutation}

theorem started_eq (p : Place) (cfg : Config) (readable : boot ≠ "") : started p cfg boot =
    (decide ((State.load p.disk).bootID ≠ boot),
      { State.load p.disk with
        userStopped := (State.load p.disk).userStopped.filter (· ∈ cfg.units), bootID := boot }) := by
  rw [started, State.isFirstStartAfterBoot, if_neg readable]
  rfl

theorem restart_kept (representable : (State.load p.disk).Representable) (next : Step p (.restart cfg boot first) p') :
    Kept p' := by
  cases next with
  | restart readable listed =>
    have same := started_eq p cfg readable
    have times : (started p cfg boot).2.Representable := by
      rw [same]
      exact representable
    exact ⟨State.load_persist listed times, times, by rw [same]⟩

theorem apply_stamped (stamped : p.state.bootID = p.boot) (reads : Reads p.boot m) :
    (m.apply p.state).bootID = p.boot := by
  cases m with
  | setUserStopped => exact stamped
  | setAllUserStopped units stopped =>
    rw [Mutation.apply, State.setAllUserStopped_eq]
    exact stamped
  | setBackupLastRun => exact stamped
  | isFirstStartAfterBoot current =>
    rw [Mutation.apply, State.isFirstStartAfterBoot]
    split_ifs with unreadable
    · exact stamped
    · exact reads.resolve_left unreadable

theorem mutate_kept (kept : Kept p) (next : Step p (.mutate m) p') : Kept p' := by
  cases next with
  | mutate writable reads listed =>
    have times := Mutation.apply_representable kept.representable writable
    refine ⟨?_, times, apply_stamped kept.stamped reads⟩
    cases writes : m.persists with
    | true => exact State.load_persist listed times
    | false =>
      rw [Mutation.unpersisted writes]
      exact kept.loaded

theorem run_kept (run : Run disk hist p) : Kept p ∧ p.boot = lastBoot hist := by
  induction run with
  | start representable next =>
    refine ⟨restart_kept representable next, ?_⟩
    cases next
    rfl
  | @step hist p p' e _ next ih =>
    cases e with
    | mutate m =>
      refine ⟨mutate_kept ih.1 next, ?_⟩
      cases next
      exact ih.2
    | restart cfg boot first =>
      have representable : (State.load p.disk).Representable := by
        rw [ih.1.loaded]
        exact ih.1.representable.truncate
      refine ⟨restart_kept representable next, ?_⟩
      cases next
      rfl

/-! ### What survives -/

/-- Of a restart from `p`, after which memory is that of `p'`. -/
structure Survives (hist : List Event) (p : Place) (cfg : Config) (boot : String) (first : Bool) (p' : Place) :
    Prop where
  stopped : ∀ unit, unit ∈ p'.state.userStopped ↔ unit ∈ cfg.units ∧ unit ∈ p.state.userStopped
  ran : ∀ unit, p'.state.backupLastRun.lookup unit = (p.state.backupLastRun.lookup unit).map DateTime.truncate
  first : first = true ↔ boot ≠ lastBoot hist

theorem restart_survives (kept : Kept p) (last : p.boot = lastBoot hist) (next : Step p (.restart cfg boot first) p') :
    Survives hist p cfg boot first p' := by
  cases next with
  | restart readable listed =>
    have same := started_eq p cfg readable
    rw [kept.loaded] at same
    refine ⟨fun unit => ?_, fun unit => ?_, ?_⟩
    · rw [same]
      simp [State.truncate, and_comm]
    · rw [same]
      exact State.lookup_truncate p.state unit
    · rw [same, ← last, ← kept.stamped]
      exact decide_eq_true_iff.trans ne_comm

theorem apply_unstopped {s : State} (unstopped : unit ∉ s.userStopped) (other : ¬ Stops unit m) :
    unit ∉ (m.apply s).userStopped := by
  cases m with
  | setUserStopped u stopped => cases stopped <;> simp_all [Mutation.apply, State.setUserStopped, Stops, eq_comm]
  | setAllUserStopped units stopped =>
    rw [Mutation.apply, State.setAllUserStopped_eq]
    cases stopped <;> simp_all [Stops]
  | setBackupLastRun => exact unstopped
  | isFirstStartAfterBoot current =>
    rw [Mutation.apply, State.isFirstStartAfterBoot]
    split_ifs <;> exact unstopped

theorem run_dropped (run : Run disk hist p) (dropped : Dropped unit hist) : unit ∉ p.state.userStopped := by
  induction run with
  | start representable next =>
    cases next with
    | restart readable listed =>
      have absent := dropped.resolve_right id
      rw [started_eq _ _ readable]
      simp [absent]
  | @step hist p p' e before next ih =>
    cases e with
    | mutate m =>
      cases next
      exact apply_unstopped (ih dropped.2) dropped.1
    | restart cfg boot first =>
      have survives := restart_survives (run_kept before).1 (run_kept before).2 next
      rw [survives.stopped]
      rintro ⟨known, stopped⟩
      rcases dropped with absent | dropped
      · exact absent known
      · exact ih dropped stopped

/-- In every run each restart keeps what it may keep, whether a boot is the first of its kernel is
told right, and a unit that was dropped stays dropped. -/
theorem run_survives (run : Run disk hist p) :
    (∀ cfg boot first p', Step p (.restart cfg boot first) p' → Survives hist p cfg boot first p') ∧
    (∀ current, current ≠ "" → ((p.state.isFirstStartAfterBoot current).1 = true ↔ current ≠ lastBoot hist)) ∧
    ∀ unit, Dropped unit hist → unit ∉ p.state.userStopped := by
  obtain ⟨kept, last⟩ := run_kept run
  refine ⟨fun cfg boot first p' next => restart_survives kept last next, fun current readable => ?_,
    fun unit => run_dropped run⟩
  rw [State.isFirstStartAfterBoot, if_neg readable, ← last, ← kept.stamped]
  exact decide_eq_true_iff.trans ne_comm

def config : Config := { version := 1, services := [{ unit := "a.service", enabled := true }] }

/-- A stop, and a restart under the same kernel. -/
theorem run_survives_stopped : ∃ hist p first p', Run none hist p ∧ Step p (.restart config "kernel" first) p' ∧
    "a.service" ∈ p'.state.userStopped ∧ first = false := by
  have representable : (State.load none).Representable := fun unit t found => by
    cases (Finmap.lookup_empty unit).symm.trans found
  have boot : Step { disk := none } (.restart config "kernel" (started { disk := none } config "kernel").1) _ :=
    .restart (by decide) (State.lists_sort _)
  have run := (Run.start representable boot).step
    (.mutate (m := .setUserStopped "a.service" true) trivial trivial (State.lists_sort _))
  obtain ⟨restarts, _⟩ := run_survives run
  have survives := restarts config "kernel" _ _ (.restart (by decide) (State.lists_sort _))
  refine ⟨_, _, _, _, run, .restart (by decide) (State.lists_sort _), ?_, ?_⟩
  · exact (survives.stopped "a.service").mpr ⟨by decide, Finset.mem_insert_self _ _⟩
  · exact Bool.eq_false_iff.mpr fun told => survives.first.mp told rfl

end StateRestarts

end HomelabDaemon
