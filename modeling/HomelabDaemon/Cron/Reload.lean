import HomelabDaemon.Cron.Parser
import HomelabDaemon.CronEntries

/-!
# A reload that panics

`Reload` replaces the running cron before it has parsed the schedules. A parse that panics leaves
the new one behind, with the entries made so far and never started; the lock is freed on the way
out, and the server recovers the handler.
-/

namespace HomelabDaemon
open Crontab (Outcome Zoned)

namespace Scheduler
variable {A : Type} (outcome : String → Outcome A)

def accepts (spec : String) : Bool :=
  match outcome spec with
  | .ok _ => true
  | _ => false

/-- The loop of `Reload`, and whether it ended in a panic. -/
def addUntilPanic : List Backup → Cron × (String → Option Nat) → (Cron × (String → Option Nat)) × Bool
  | [], made => (made, false)
  | backup :: backups, made =>
    if !backup.enabled || backup.schedule == "" then addUntilPanic backups made
    else match outcome backup.schedule with
      | .panics => (made, true)
      | _ => addUntilPanic backups (addBackup (accepts outcome) made backup)

/-- `Reload` with the scheduler that it leaves, and whether it panicked. -/
def reloadOrPanic (s : Scheduler) (cfg : Config) : Scheduler × Bool :=
  let made := addUntilPanic outcome cfg.backups ({}, fun _ => none)
  ({ cron := some (if made.2 then made.1.1 else made.1.1.start)
     entries := made.1.2
     earlier := match s.cron with
      | none => s.earlier
      | some cron => cron.stop :: s.earlier }, made.2)

/-- An enabled backup whose schedule stops the parser. -/
def Panicky (backup : Backup) : Prop := backup.enabled = true ∧ backup.schedule ≠ "" ∧ outcome backup.schedule = .panics

variable {outcome} {backups : List Backup} {made : Cron × (String → Option Nat)} {cfg : Config} {s : Scheduler}

theorem addUntilPanic_panics : (addUntilPanic outcome backups made).2 = true ↔
    ∃ backup ∈ backups, Panicky outcome backup := by
  induction backups generalizing made with
  | nil => simp [addUntilPanic]
  | cons backup backups ih =>
    simp only [List.mem_cons, exists_eq_or_imp]
    unfold addUntilPanic
    split
    · rename_i skips
      have calm : ¬ Panicky outcome backup := by
        rintro ⟨enabled, given, _⟩
        simp [enabled, given] at skips
      rw [ih]
      simp [calm]
    · rename_i wanted
      have given : backup.enabled = true ∧ backup.schedule ≠ "" := by simpa using wanted
      cases found : outcome backup.schedule with
      | panics => simp [Panicky, given, found]
      | ok a =>
        rw [ih]
        simp [Panicky, found]
      | error e =>
        rw [ih]
        simp [Panicky, found]

/-- Without a panic the loop adds what parses. -/
theorem addUntilPanic_calm (calm : ∀ backup ∈ backups, ¬ Panicky outcome backup) :
    addUntilPanic outcome backups made = (backups.foldl (addBackup (accepts outcome)) made, false) := by
  induction backups generalizing made with
  | nil => rfl
  | cons backup backups ih =>
    have others := fun b member => calm b (List.mem_cons_of_mem _ member)
    have rest := fun made => @ih made others
    rw [List.foldl_cons]
    unfold addUntilPanic
    split
    · rename_i skips
      have same : addBackup (accepts outcome) made backup = made := by
        unfold addBackup
        rw [if_pos skips]
      rw [rest, same]
    · rename_i wanted
      have given : backup.enabled = true ∧ backup.schedule ≠ "" := by simpa using wanted
      cases found : outcome backup.schedule with
      | panics => exact absurd ⟨given.1, given.2, found⟩ (calm backup List.mem_cons_self)
      | ok a => exact rest _
      | error e => exact rest _

theorem reloadOrPanic_calm (calm : ∀ backup ∈ cfg.backups, ¬ Panicky outcome backup) :
    reloadOrPanic outcome s cfg = (reload (accepts outcome) s cfg, false) := by
  simp only [reloadOrPanic]
  rw [addUntilPanic_calm calm]
  rfl

/-- Of the entries made none fires: they are not started. -/
theorem addUntilPanic_stopped (running : made.1.running = false) :
    (addUntilPanic outcome backups made).1.1.running = false := by
  have adds : ∀ (backup : Backup) (made : Cron × (String → Option Nat)), made.1.running = false →
      (addBackup (accepts outcome) made backup).1.running = false := by
    intro backup made running
    unfold addBackup
    split
    · exact running
    · cases parsed : accepts outcome backup.schedule <;> simp [Cron.addFunc, parsed, running]
  induction backups generalizing made with
  | nil => exact running
  | cons backup backups ih =>
    unfold addUntilPanic
    split
    · exact ih running
    · split
      · exact running
      · exact ih (adds backup made running)

theorem reloadOrPanic_stopped (stopped : s.Stopped) : (reloadOrPanic outcome s cfg).1.Stopped := by
  have same : (reload (accepts outcome) s cfg).Stopped := reload_stopped stopped
  exact same

theorem reloadOrPanic_live (stopped : s.Stopped) (panicked : (reloadOrPanic outcome s cfg).2 = true) :
    (reloadOrPanic outcome s cfg).1.live = [] := by
  have none_ : (reloadOrPanic outcome s cfg).1.earlier.flatMap Cron.live = [] :=
    List.flatMap_eq_nil_iff.mpr (reloadOrPanic_stopped stopped)
  have idle : (addUntilPanic outcome cfg.backups ({}, fun _ => none)).1.1.running = false := addUntilPanic_stopped rfl
  rw [live, List.flatMap_append, none_, List.append_nil]
  simp only [reloadOrPanic] at panicked ⊢
  simp [panicked, Cron.live, idle]

variable (outcome) in
/-- The scheduler after these reloads, each of which may have panicked. -/
def reloadsOrPanics (cfgs : List Config) : Scheduler := cfgs.foldl (fun s cfg => (reloadOrPanic outcome s cfg).1) {}

theorem reloadsOrPanics_stopped (cfgs : List Config) : (reloadsOrPanics outcome cfgs).Stopped := by
  unfold reloadsOrPanics
  have start : Stopped {} := fun cron member => absurd member List.not_mem_nil
  generalize ({} : Scheduler) = s at start
  induction cfgs generalizing s with
  | nil => exact start
  | cons cfg cfgs ih => exact ih _ (reloadOrPanic_stopped start)

/-- After any reloads, one panics exactly if an enabled backup's schedule names a time zone and
has no blank. Then nothing fires any more, else exactly the timetable does. -/
theorem reload_panics_or_live {Location : Type} (loadLocation : Strings.Str → Option Location)
    (parseDuration : Strings.Str → Option Int) (before : List Config) (cfg : Config) :
    let outcome := fun spec : String => Crontab.parse loadLocation parseDuration spec.toList
    let reloaded := reloadOrPanic outcome (reloadsOrPanics outcome before) cfg
    (reloaded.2 = true ↔ ∃ backup ∈ cfg.backups, backup.enabled = true ∧ Zoned backup.schedule.toList ∧
      ' ' ∉ backup.schedule.toList) ∧
    reloaded.1.live.map (fun e => (e.schedule, e.unit)) =
      if reloaded.2 then [] else (timetable (accepts outcome) cfg).map fun b => (b.schedule, b.unit) := by
  intro outcome reloaded
  have stopped : (reloadsOrPanics outcome before).Stopped := reloadsOrPanics_stopped before
  have panicky : ∀ backup, Panicky outcome backup ↔
      backup.enabled = true ∧ Zoned backup.schedule.toList ∧ ' ' ∉ backup.schedule.toList := by
    intro backup
    show _ ∧ _ ∧ _ ↔ _
    rw [show outcome backup.schedule = .panics ↔ _ from Crontab.parse_panics]
    constructor
    · rintro ⟨enabled, _, zoned⟩
      exact ⟨enabled, zoned⟩
    · rintro ⟨enabled, zoned⟩
      refine ⟨enabled, ?_, zoned⟩
      intro empty
      rw [empty] at zoned
      exact absurd zoned.1 (by decide)
  have panics : reloaded.2 = true ↔ _ := addUntilPanic_panics
  simp only [panicky] at panics
  refine ⟨panics, ?_⟩
  split
  · rename_i panicked
    rw [show reloaded.1.live = [] from reloadOrPanic_live stopped panicked]
    rfl
  · rename_i calm
    have calm' : ∀ backup ∈ cfg.backups, ¬ Panicky outcome backup :=
      fun backup member panicky => calm (addUntilPanic_panics.mpr ⟨backup, member, panicky⟩)
    rw [show reloaded = _ from reloadOrPanic_calm calm', reload_live stopped]
    exact (made_addBackups cfg.backups).entries

end Scheduler
end HomelabDaemon
