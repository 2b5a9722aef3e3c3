import HomelabDaemon.Scheduler
import HomelabDaemon.System

/-!
# Cron entries and the config

Each reload makes a new cron instance and a new map from units to entry ids. The map keeps one
id for a unit, the instance one entry for a backup, so they agree as long as no two scheduled
backups share a unit.
-/

namespace HomelabDaemon
open Concurrency Program

/-- `cron.Entry`, with the unit whose backup its job runs. -/
structure CronEntry where
  id : Nat := 0
  schedule : String := ""
  unit : String := ""
  deriving DecidableEq

structure Cron where
  entries : List CronEntry := []
  nextID : Nat := 0
  running : Bool := false

namespace Cron

/-- `AddFunc`: the new entry's id, unless the schedule does not parse. -/
def addFunc (parses : String → Bool) (cron : Cron) (schedule unit : String) : Option Nat × Cron :=
  if parses schedule then
    (some (cron.nextID + 1),
      { cron with entries := cron.entries ++ [⟨cron.nextID + 1, schedule, unit⟩], nextID := cron.nextID + 1 })
  else (none, cron)

def start (cron : Cron) : Cron := { cron with running := true }

def stop (cron : Cron) : Cron := { cron with running := false }

/-- The zero entry when there is none with the id. -/
def entry (cron : Cron) (id : Nat) : CronEntry := (cron.entries.find? (·.id == id)).getD {}

/-- The entries that can fire. -/
def live (cron : Cron) : List CronEntry := if cron.running then cron.entries else []

end Cron

structure Scheduler where
  cron : Option Cron := none
  entries : String → Option Nat := fun _ => none
  /-- The instances of earlier reloads. -/
  earlier : List Cron := []

namespace Scheduler
variable (parses : String → Bool)

/-- The loop body of `Reload`, on the new instance and the new map. -/
def addBackup (made : Cron × (String → Option Nat)) (backup : Backup) : Cron × (String → Option Nat) :=
  if !backup.enabled || backup.schedule == "" then made
  else match made.1.addFunc parses backup.schedule backup.unit with
    | (none, cron) => (cron, made.2)
    | (some id, cron) => (cron, Function.update made.2 backup.unit (some id))

def addBackups (backups : List Backup) : Cron × (String → Option Nat) :=
  backups.foldl (addBackup parses) ({}, fun _ => none)

def reload (s : Scheduler) (cfg : Config) : Scheduler where
  cron := some (addBackups parses cfg.backups).1.start
  entries := (addBackups parses cfg.backups).2
  earlier := match s.cron with
    | none => s.earlier
    | some cron => cron.stop :: s.earlier

def getEntry (s : Scheduler) (unit : String) : Option CronEntry := do
  let id ← s.entries unit
  let cron ← s.cron
  return cron.entry id

def live (s : Scheduler) : List CronEntry := (s.cron.toList ++ s.earlier).flatMap Cron.live

/-- The scheduler after these reloads, the first of which `NewScheduler` makes. -/
def reloads (cfgs : List Config) : Scheduler := cfgs.foldl (reload parses) {}

def scheduled (backup : Backup) : Bool := backup.enabled && !(backup.schedule == "") && parses backup.schedule

def timetable (cfg : Config) : List Backup := cfg.backups.filter (scheduled parses)

/-! ### One reload -/

/-- What the loop has made of the backups so far. The map knows the last entry of each unit. -/
structure Made (backups : List Backup) (made : Cron × (String → Option Nat)) : Prop where
  entries : made.1.entries.map (fun e => (e.schedule, e.unit)) =
    (backups.filter (scheduled parses)).map fun b => (b.schedule, b.unit)
  fresh : ∀ e ∈ made.1.entries, e.id ≤ made.1.nextID
  distinct : (made.1.entries.map (·.id)).Nodup
  last : ∀ unit, made.2 unit = (made.1.entries.reverse.find? (·.unit == unit)).map (·.id)

variable {parses} {backups : List Backup} {made : Cron × (String → Option Nat)} {cfg : Config} {s : Scheduler}

theorem addBackup_skips {backup : Backup} (skips : scheduled parses backup = false) :
    addBackup parses made backup = made := by
  unfold addBackup
  split
  · rfl
  · rename_i wanted
    have unparsable : parses backup.schedule = false := by
      simp only [scheduled] at skips
      grind
    simp [Cron.addFunc, unparsable]

theorem addBackup_adds {backup : Backup} (adds : scheduled parses backup = true) : addBackup parses made backup =
    ({ made.1 with entries := made.1.entries ++ [⟨made.1.nextID + 1, backup.schedule, backup.unit⟩],
                   nextID := made.1.nextID + 1 },
      Function.update made.2 backup.unit (some (made.1.nextID + 1))) := by
  simp only [scheduled, Bool.and_eq_true, Bool.not_eq_true'] at adds
  obtain ⟨⟨enabled, given⟩, ok⟩ := adds
  simp [addBackup, enabled, given, Cron.addFunc, ok]

theorem Made.add (h : Made parses backups made) (backup : Backup) :
    Made parses (backups ++ [backup]) (addBackup parses made backup) := by
  cases adds : scheduled parses backup with
  | false =>
    rw [addBackup_skips adds]
    exact { h with entries := by simpa [List.filter_append, adds] using h.entries }
  | true =>
    rw [addBackup_adds adds]
    constructor
    case entries => simp [List.filter_append, adds, h.entries]
    case fresh =>
      intro e member
      rcases List.mem_append.mp member with old | new
      · exact Nat.le_succ_of_le (h.fresh e old)
      · obtain rfl := List.mem_singleton.mp new
        exact Nat.le_refl _
    case distinct =>
      have higher : made.1.nextID + 1 ∉ made.1.entries.map (·.id) := by
        intro member
        obtain ⟨e, old, same⟩ := List.mem_map.mp member
        have := h.fresh e old
        omega
      rw [List.map_append, List.map_singleton, ← List.concat_eq_append]
      exact h.distinct.concat higher
    case last =>
      intro unit
      by_cases same : unit = backup.unit
      · subst same
        simp
      · simp [Function.update_of_ne same, h.last unit, Ne.symm same]

theorem made_addBackups (backups : List Backup) : Made parses backups (addBackups parses backups) := by
  induction backups using List.reverseRecOn with
  | nil => exact ⟨rfl, by simp [addBackups], by simp [addBackups], fun _ => rfl⟩
  | append_singleton backups backup ih =>
    rw [addBackups, List.foldl_append]
    exact ih.add backup

theorem Made.entry (h : Made parses backups made) {e : CronEntry} (member : e ∈ made.1.entries) :
    made.1.entry e.id = e := by
  unfold Cron.entry
  cases found : made.1.entries.find? (·.id == e.id) with
  | none =>
    have off := List.find?_eq_none.mp found e member
    simp at off
  | some e' =>
    have same : e'.id = e.id := by simpa using List.find?_some found
    exact List.inj_on_of_nodup_map h.distinct (List.mem_of_find?_eq_some found) member same

/-- Earlier instances are stopped by the reload that replaces them. -/
def Stopped (s : Scheduler) : Prop := ∀ cron ∈ s.earlier, cron.live = []

theorem reload_stopped (stopped : s.Stopped) : (reload parses s cfg).Stopped := by
  intro cron member
  cases current : s.cron with
  | none =>
    simp only [reload, current] at member
    exact stopped cron member
  | some old =>
    simp only [reload, current] at member
    rcases List.mem_cons.mp member with rfl | earlier
    · rfl
    · exact stopped cron earlier

theorem reload_live (stopped : s.Stopped) : (reload parses s cfg).live = (addBackups parses cfg.backups).1.entries := by
  have none : (reload parses s cfg).earlier.flatMap Cron.live = [] :=
    List.flatMap_eq_nil_iff.mpr (reload_stopped stopped)
  have current : (reload parses s cfg).cron = some (addBackups parses cfg.backups).1.start := rfl
  rw [live, List.flatMap_append, none, current, List.append_nil]
  simp [Cron.live, Cron.start]

/-- The entry of a unit is its last one that is live. -/
theorem reload_getEntry (stopped : s.Stopped) (unit : String) :
    (reload parses s cfg).getEntry unit = (reload parses s cfg).live.reverse.find? (·.unit == unit) := by
  have made : Made parses cfg.backups (addBackups parses cfg.backups) := made_addBackups cfg.backups
  rw [reload_live stopped]
  simp only [getEntry, reload, made.last unit]
  cases found : (addBackups parses cfg.backups).1.entries.reverse.find? (·.unit == unit) with
  | none => rfl
  | some e =>
    have member := List.mem_reverse.mp (List.mem_of_find?_eq_some found)
    exact congrArg some (made.entry member)

theorem reload_units (stopped : s.Stopped) :
    (reload parses s cfg).live.map (·.unit) = (timetable parses cfg).map (·.unit) := by
  rw [reload_live stopped]
  have made : Made parses cfg.backups (addBackups parses cfg.backups) := made_addBackups cfg.backups
  have entries := congrArg (List.map Prod.snd) made.entries
  rwa [List.map_map, List.map_map] at entries

/-! ### Every reload -/

variable (parses) in
structure Matches (cfg : Config) (s : Scheduler) : Prop where
  own : ∀ backup ∈ timetable parses cfg, ∃ e,
    s.live.filter (·.unit == backup.unit) = [e] ∧ s.getEntry backup.unit = some e
  others : ∀ e ∈ s.live, ∃ backup ∈ timetable parses cfg, backup.unit = e.unit
  earlier : ∀ cron ∈ s.earlier, cron.live = []

theorem reload_matches_iff (stopped : s.Stopped) :
    Matches parses cfg (reload parses s cfg) ↔ ((timetable parses cfg).map (·.unit)).Nodup := by
  have units : (reload parses s cfg).live.map (·.unit) = (timetable parses cfg).map (·.unit) := reload_units stopped
  have counted : ∀ unit, ((timetable parses cfg).map (·.unit)).count unit =
      ((reload parses s cfg).live.filter (·.unit == unit)).length := by
    intro unit
    rw [← units, List.count_eq_countP, List.countP_map, List.countP_eq_length_filter]
    rfl
  constructor
  · intro fits
    rw [List.nodup_iff_count_le_one]
    intro unit
    by_cases member : unit ∈ (timetable parses cfg).map (·.unit)
    · obtain ⟨backup, scheduled, rfl⟩ := List.mem_map.mp member
      obtain ⟨e, single, _⟩ := fits.own backup scheduled
      rw [counted, single]
      exact Nat.le_refl _
    · rw [List.count_eq_zero_of_not_mem member]
      exact Nat.zero_le _
  · intro nodup
    constructor
    case own =>
      intro backup scheduled
      have once := List.count_eq_one_of_mem nodup (List.mem_map_of_mem scheduled)
      rw [counted] at once
      obtain ⟨e, single⟩ := List.length_eq_one_iff.mp once
      refine ⟨e, single, ?_⟩
      rw [reload_getEntry stopped, ← List.head?_filter, List.filter_reverse, single]
      rfl
    case others =>
      intro e live
      have member : e.unit ∈ (reload parses s cfg).live.map (·.unit) := List.mem_map_of_mem live
      rw [units] at member
      exact List.mem_map.mp member
    case earlier => exact reload_stopped stopped

theorem reloads_snoc (before : List Config) (cfg : Config) :
    reloads parses (before ++ [cfg]) = reload parses (reloads parses before) cfg := by
  simp [reloads]

theorem reloads_stopped (cfgs : List Config) : (reloads parses cfgs).Stopped := by
  induction cfgs using List.reverseRecOn with
  | nil => exact fun _ member => nomatch member
  | append_singleton before cfg ih =>
    rw [reloads_snoc]
    exact reload_stopped ih

/-- The entries match the config after each reload, if and only if no config schedules two backups
of one unit. -/
theorem reloads_match_iff (parses : String → Bool) (cfgs : List Config) :
    (∀ before cfg after, cfgs = before ++ cfg :: after → Matches parses cfg (reloads parses (before ++ [cfg]))) ↔
      ∀ cfg ∈ cfgs, ((timetable parses cfg).map (·.unit)).Nodup := by
  have each : ∀ before cfg, Matches parses cfg (reloads parses (before ++ [cfg])) ↔
      ((timetable parses cfg).map (·.unit)).Nodup := by
    intro before cfg
    rw [reloads_snoc]
    exact reload_matches_iff (reloads_stopped before)
  constructor
  · intro fits cfg member
    obtain ⟨before, after, split⟩ := List.append_of_mem member
    exact (each before cfg).mp (fits before cfg after split)
  · rintro distinct before cfg after rfl
    exact (each before cfg).mpr (distinct cfg (by simp))

/-- Two backups of one unit, which the daemon loads. -/
theorem duplicate_unmatched : ¬ ∀ (parses : String → Bool) (cfgs : List Config),
    (∀ cfg ∈ cfgs, ∀ svc ∈ cfg.services, svc.Valid) →
    ∀ before cfg after, cfgs = before ++ cfg :: after → Matches parses cfg (reloads parses (before ++ [cfg])) := by
  intro claim
  let backup : Backup := { unit := "b2.service", enabled := true, schedule := "0 3 * * *" }
  have fits := claim (· == "0 3 * * *") [{ backups := [backup, backup] }] (by simp) [] _ [] rfl
  have none : Stopped {} := fun _ member => absurd member List.not_mem_nil
  rw [reloads_snoc] at fits
  exact absurd ((reload_matches_iff none).mp fits) (by decide)

end Scheduler

/-! ### The daemon's reload -/

/-- The daemon, when `AddFunc` goes by the schedule's text. -/
def parsing (parses : String → Bool) : Machine Op Op.Ans World Actor Env :=
  { daemon with permits := fun w op ans => w.permits op ans && match op, ans with
      | .ask (.cronAddFunc _ spec), added => added == parses spec
      | _, _ => true }

section Daemon
variable {parses : String → Bool} {w w' : World}

theorem schedule_ends {backup : Backup} (ended : (parsing parses).Ends (schedule backup) w () w') :
    w' = { w with entries := w.entries ++ [backup].filter (Scheduler.scheduled parses) } := by
  unfold schedule at ended
  split at ended
  · rename_i skips
    have off : Scheduler.scheduled parses backup = false := by
      simp only [Scheduler.scheduled]
      grind
    obtain ⟨_, rfl⟩ := Machine.ends_done.mp ended
    simp [off]
  rename_i wanted
  obtain ⟨added, mid, asked, ended⟩ := Machine.ends_bind.mp ended
  obtain ⟨permitted, rfl⟩ := Machine.ends_perform.mp asked
  obtain rfl : added = parses backup.schedule := by
    simp only [parsing, Bool.and_eq_true, beq_iff_eq] at permitted
    exact permitted.2
  have same : Scheduler.scheduled parses backup = parses backup.schedule := by
    simp only [Scheduler.scheduled]
    grind
  split at ended
  · rename_i ok
    obtain ⟨_, rfl⟩ := Machine.ends_perform.mp ended
    simp [same, ok]
    rfl
  · rename_i fails
    obtain ⟨_, rfl⟩ := Machine.ends_done.mp ended
    simp [same, fails]

theorem schedules_end {backups : List Backup} (ended : (parsing parses).Ends (each schedule backups) w () w') :
    w' = { w with entries := w.entries ++ backups.filter (Scheduler.scheduled parses) } := by
  induction backups generalizing w with
  | nil =>
    obtain ⟨_, rfl⟩ := Machine.ends_done.mp ended
    simp
  | cons backup backups ih =>
    obtain ⟨_, mid, first, rest⟩ := Machine.ends_bind.mp ended
    rw [ih rest, schedule_ends first]
    cases scheduled : Scheduler.scheduled parses backup <;> simp [scheduled]

/-- The daemon's reload leaves the entries that the scheduler's reload makes. -/
theorem reloadScheduler_ends (ended : (parsing parses).Ends reloadScheduler w () w') {s : Scheduler}
    (stopped : s.Stopped) :
    w'.entries.map (fun b => (b.schedule, b.unit)) =
      (s.reload parses w.cfg).live.map fun e => (e.schedule, e.unit) := by
  obtain ⟨_, _, locked, ended⟩ := Machine.ends_bind.mp ended
  obtain ⟨_, rfl⟩ := Machine.ends_perform.mp locked
  obtain ⟨_, _, made, ended⟩ := Machine.ends_bind.mp ended
  obtain ⟨_, rfl⟩ := Machine.ends_perform.mp made
  obtain ⟨cfg, _, read, ended⟩ := Machine.ends_bind.mp ended
  obtain ⟨permitted, rfl⟩ := Machine.ends_perform.mp read
  obtain rfl : cfg = w.cfg := by
    simp only [parsing, Bool.and_eq_true] at permitted
    exact of_decide_eq_true permitted.1
  obtain ⟨_, _, added, ended⟩ := Machine.ends_bind.mp ended
  obtain ⟨_, rfl⟩ := Machine.ends_perform.mp ended
  rw [schedules_end added, Scheduler.reload_live stopped, (Scheduler.made_addBackups w.cfg.backups).entries]
  rfl

end Daemon
end HomelabDaemon
