import HomelabDaemon.State

/-!
# A crash while the state is written

`os.WriteFile` truncates the file and then writes. The process may be killed before that, or with
any part of the text written.
-/

namespace HomelabDaemon
open Rfc3339

namespace StateCrash

/-- What a state and a Config tell: the stopped units that are configured, the boot id, and the
backups' times in whole seconds. -/
@[ext]
structure View where
  userStopped : Finset String
  bootID : String
  backupLastRun : String → Option DateTime

def view (cfg : Config) (s : State) : View where
  userStopped := s.userStopped.filter (· ∈ cfg.units)
  bootID := s.bootID
  backupLastRun unit := (s.backupLastRun.lookup unit).map DateTime.truncate

def View.empty : View where
  userStopped := ∅
  bootID := ""
  backupLastRun _ := none

/-- What the daemon has in memory and on disk, from a start over any file on. -/
inductive Reachable (cfg : Config) : State → Disk → Prop where
  | start {disk : Disk} (representable : (State.load disk).Representable) : Reachable cfg (newState disk cfg) disk
  | mutate {s : State} {disk : Disk} {m : Mutation} {order : List String} (before : Reachable cfg s disk)
      (writable : m.Writable)
    (listed : (m.apply s).Lists order) :
    Reachable cfg (m.apply s) (if m.persists then some ((m.apply s).persist order) else disk)

inductive Kill where
  /-- The file is not truncated yet. -/
  | untouched
  | written (bytes : Nat)

def Kill.leaves (disk : Disk) (data : List UInt8) : Kill → Disk
  | .untouched => disk
  | .written bytes => some (data.take bytes)

def Atomic (cfg : Config) (s : State) (m : Mutation) (disk : Disk) : Prop :=
  view cfg (newState disk cfg) = view cfg s ∨ view cfg (newState disk cfg) = view cfg (m.apply s)

def Agrees (cfg : Config) (disk : Disk) (s : State) : Prop :=
  ∀ unit ∈ cfg.units, unit ∈ (State.load disk).userStopped ↔ unit ∈ s.userStopped

/-- The file is as it was and lists what memory has, or it is written to its end, or there is
nothing to lose. -/
def Harmless (cfg : Config) (s : State) (m : Mutation) (disk : Disk) (data : List UInt8) : Kill → Prop
  | .untouched => Agrees cfg disk s ∨ Agrees cfg disk (m.apply s)
  | .written bytes => data.length ≤ bytes ∨ view cfg s = .empty ∨ view cfg (m.apply s) = .empty

variable {cfg cfg' : Config} {s s' : State} {disk : Disk} {m : Mutation} {order : List String}

/-- The file tells the boot id and the times of memory. Its units may be more. -/
structure Synced (s : State) (disk : Disk) : Prop where
  bootID : (State.load disk).bootID = s.bootID
  times : ∀ unit, ((State.load disk).backupLastRun.lookup unit).map DateTime.truncate =
    (s.backupLastRun.lookup unit).map DateTime.truncate
  representable : s.Representable

theorem persist_synced (representable : s.Representable) (listed : s.Lists order) :
    Synced s (some (s.persist order)) := by
  have loaded := State.load_persist listed representable
  refine ⟨by rw [loaded]; rfl, fun unit => ?_, representable⟩
  rw [loaded, State.lookup_truncate, Option.map_map]
  rfl

theorem reachable_synced (reached : Reachable cfg s disk) : Synced s disk := by
  induction reached with
  | start representable => exact ⟨rfl, fun _ => rfl, representable⟩
  | @mutate s disk m order _ writable listed ih =>
    cases writes : m.persists with
    | true => exact persist_synced (Mutation.apply_representable ih.representable writable) listed
    | false =>
      rw [Mutation.unpersisted writes]
      exact ih

theorem reachable_agrees (reached : Reachable cfg s disk) : Agrees cfg disk s := by
  induction reached with
  | start representable => simp +contextual [Agrees, newState]
  | @mutate s disk m order before writable listed ih =>
    cases writes : m.persists with
    | true =>
      have times := Mutation.apply_representable (reachable_synced before).representable writable
      rw [if_pos rfl, Agrees, State.load_persist listed times]
      exact fun _ _ => Iff.rfl
    | false =>
      rw [Mutation.unpersisted writes]
      exact ih

theorem view_iff (bootID : (State.load disk).bootID = s.bootID)
    (times : ∀ unit, ((State.load disk).backupLastRun.lookup unit).map DateTime.truncate =
      (s.backupLastRun.lookup unit).map DateTime.truncate) :
    view cfg (newState disk cfg) = view cfg s ↔ Agrees cfg disk s := by
  have units : (view cfg (newState disk cfg)).userStopped = (view cfg s).userStopped ↔ Agrees cfg disk s := by
    simp only [view, newState, Finset.filter_filter, and_self, Finset.ext_iff, Finset.mem_filter, Agrees]
    exact forall_congr' fun unit => and_congr_left_iff
  rw [← units]
  constructor
  · exact congrArg View.userStopped
  · intro same
    exact View.ext same bootID (funext times)

theorem apply_cases (s : State) (m : Mutation) : (m.apply s).userStopped = s.userStopped ∨
    (m.apply s).bootID = s.bootID ∧ (m.apply s).backupLastRun = s.backupLastRun := by
  cases m with
  | setUserStopped => exact .inr ⟨rfl, rfl⟩
  | setAllUserStopped units stopped =>
    rw [Mutation.apply, State.setAllUserStopped_eq]
    exact .inr ⟨rfl, rfl⟩
  | setBackupLastRun => exact .inl rfl
  | isFirstStartAfterBoot current =>
    rw [Mutation.apply, State.isFirstStartAfterBoot]
    split_ifs <;> exact .inl rfl

theorem untouched_iff (synced : Synced s disk) : Atomic cfg s m disk ↔ Agrees cfg disk s ∨
    Agrees cfg disk (m.apply s) := by
  have before : view cfg (newState disk cfg) = view cfg s ↔ Agrees cfg disk s := view_iff synced.bootID synced.times
  constructor
  · rintro (same | same)
    · exact .inl (before.mp same)
    · refine .inr fun unit known => ?_
      have units := congrArg View.userStopped same
      have at_ := Finset.ext_iff.mp units unit
      simpa [view, newState, known] using at_
  · rintro (agrees | agrees)
    · exact .inl (before.mpr agrees)
    · rcases apply_cases s m with same | ⟨bootID, times⟩
      · rw [Agrees, same] at agrees
        exact .inl (before.mpr agrees)
      · refine .inr ((view_iff ?_ ?_).mpr agrees)
        · rw [bootID]
          exact synced.bootID
        · rw [times]
          exact synced.times

theorem written_iff (representable : (m.apply s).Representable) (listed : (m.apply s).Lists order) (bytes : Nat) :
    Atomic cfg s m (some (((m.apply s).persist order).take bytes)) ↔
      ((m.apply s).persist order).length ≤ bytes ∨ view cfg s = .empty ∨ view cfg (m.apply s) = .empty := by
  by_cases whole : ((m.apply s).persist order).length ≤ bytes
  · have synced := persist_synced representable listed
    have agrees : Agrees cfg (some ((m.apply s).persist order)) (m.apply s) := by
      rw [Agrees, State.load_persist listed representable]
      exact fun _ _ => Iff.rfl
    rw [List.take_of_length_le whole]
    exact iff_of_true (.inr ((view_iff synced.bootID synced.times).mpr agrees)) (.inl whole)
  · have nothing : view cfg (newState (some (((m.apply s).persist order).take bytes)) cfg) = .empty := by
      rw [newState, State.load_cut (Nat.lt_of_not_le whole)]
      rfl
    rw [Atomic, nothing, or_iff_right whole]
    exact or_congr eq_comm eq_comm

theorem kill_atomic_iff (reached : Reachable cfg s disk) (writable : m.Writable)
    (listed : (m.apply s).Lists order) (cfg' : Config) (kill : Kill) :
    Atomic cfg' s m (kill.leaves disk ((m.apply s).persist order)) ↔
      Harmless cfg' s m disk ((m.apply s).persist order) kill := by
  have synced := reachable_synced reached
  cases kill with
  | untouched => exact untouched_iff synced
  | written bytes => exact written_iff (Mutation.apply_representable synced.representable writable) listed bytes

/-! ### Schedules -/

def config : Config :=
  { version := 1, services := [{ unit := "a.service", enabled := true }, { unit := "b.service", enabled := true }] }

def stopA : Mutation := .setUserStopped "a.service" true

def stopB : Mutation := .setUserStopped "b.service" true

def stopped : State := stopA.apply (newState none config)

theorem stopped_reachable : Reachable config stopped (some (stopped.persist ["a.service"])) := by
  have representable : (State.load none).Representable := fun unit t found => by
    cases (Finmap.lookup_empty unit).symm.trans found
  have listed : stopped.Lists ["a.service"] := ⟨by decide, by decide⟩
  exact .mutate (.start representable) trivial listed

theorem kill_atomic_iff_untouched : Harmless config stopped stopB (some (stopped.persist ["a.service"]))
      ((stopB.apply stopped).persist ["a.service", "b.service"]) .untouched ∧
    Atomic config stopped stopB (Kill.untouched.leaves (some (stopped.persist ["a.service"]))
      ((stopB.apply stopped).persist ["a.service", "b.service"])) := by
  have listed : (stopB.apply stopped).Lists ["a.service", "b.service"] := ⟨by decide, by decide⟩
  have harmless : Harmless config stopped stopB (some (stopped.persist ["a.service"]))
      ((stopB.apply stopped).persist ["a.service", "b.service"]) .untouched := .inl (reachable_agrees stopped_reachable)
  have writable : stopB.Writable := trivial
  exact ⟨harmless, (kill_atomic_iff stopped_reachable writable listed config .untouched).mpr harmless⟩

/-- A kill after the truncation forgets the stop of `a.service`. -/
theorem truncated_forgets : Reachable config stopped (some (stopped.persist ["a.service"])) ∧
    (stopB.apply stopped).Lists ["a.service", "b.service"] ∧
    ¬ Atomic config stopped stopB ((Kill.written 0).leaves (some (stopped.persist ["a.service"]))
      ((stopB.apply stopped).persist ["a.service", "b.service"])) := by
  refine ⟨stopped_reachable, ⟨by decide, by decide⟩, ?_⟩
  have forgotten : (view config (newState (some []) config)).userStopped = ∅ := by decide
  rintro (same | same)
  · have units := congrArg View.userStopped same
    exact absurd (forgotten.symm.trans units) (by decide)
  · have units := congrArg View.userStopped same
    exact absurd (forgotten.symm.trans units) (by decide)

end StateCrash

end HomelabDaemon
