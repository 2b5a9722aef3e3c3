import HomelabDaemon.System

/-!
# What a backup leaves behind

One run of a backup while nothing else happens. It stops the service that it pauses, and starts
it at its end.
-/

namespace HomelabDaemon
open Concurrency Program Machine

namespace Restore

/-- The units are named in full. -/
structure Site where
  world : World
  mounted : String → Bool
  active : Finset String

variable (stays : String → Bool)

namespace Site

/-- Each call of systemctl succeeds. -/
def permits (s : Site) : (op : Op) → op.Ans → Bool
  | .ask (.isActive unit), active => decide (active = decide (withServiceSuffix unit ∈ s.active))
  | .ask (.isMounted path), mounted => decide (mounted = s.mounted path)
  | .wait _ _, exit => decide (exit = .ok)
  | op, ans => s.world.permits op ans

/-- A unit that is started becomes active; if it does not stay so, as a job does not, its end is awaited. -/
def effect (s : Site) (op : Op) (ans : op.Ans) : Site where
  world := s.world.effect op ans
  mounted := s.mounted
  active := match op with
    | .wait .stop unit => s.active.erase (withServiceSuffix unit)
    | .wait _ unit =>
      if stays (withServiceSuffix unit) then insert (withServiceSuffix unit) s.active
      else s.active.erase (withServiceSuffix unit)
    | _ => s.active

end Site

def site : Machine Op Op.Ans Site Actor Env where
  permits := Site.permits
  effect := Site.effect stays
  code := Actor.code
  forks := forks
  arrives := Actor.arrives
  envPermits s := s.world.envPermits
  envEffect s move := { s with world := s.world.envEffect move }

/-- The full name of the service that the backup pauses. -/
abbrev paused (backup : Backup) : String := withServiceSuffix backup.pauseService

/-- The user has stopped the unit, under one of its names. -/
def UserStopped (s : Site) (unit : String) : Prop := ∃ u ∈ s.world.userStopped, SameUnit u unit

def Starts (unit : String) (trace : List (Act Op Op.Ans)) : Prop := ∃ u, SameUnit u unit ∧ ⟨.spawn .start u, ()⟩ ∈ trace

/-- The paused service is as it was, and was not started against the user. -/
structure Restored (backup : Backup) (s s' : Site) (trace : List (Act Op Op.Ans)) : Prop where
  activity : paused backup ∈ s'.active ↔ paused backup ∈ s.active
  respected : UserStopped s backup.pauseService → ¬ Starts backup.pauseService trace

/-- A required mount is missing, or a dependency is not active. -/
def Blocked (backup : Backup) (s : Site) : Prop :=
  (∃ mnt ∈ backup.requiresMounts, s.mounted mnt = false) ∨ ∃ dep ∈ backup.dependsOn, withServiceSuffix dep ∉ s.active

section Alone
variable {stays : String → Bool} {s s' : Site} {backup : Backup} {trace : List (Act Op Op.Ans)} {α : Type} {res : α}

theorem asks_alone {p : Prog α} (asks : AsksOnly p) (ran : (site stays).Alone p s trace res s') :
    s' = s ∧ ∀ unit, ⟨.spawn .start unit, ()⟩ ∉ trace := by
  refine ⟨Ends.keeps (fun s => s) ?_ asks ⟨trace, ran⟩, fun unit member => ?_⟩
  · intro s op ans asks
    cases op <;> first | rfl | exact asks.elim
  · exact Alone.uses asks ran _ member

theorem startUnit_alone {unit : String} {error : Option String}
    (ran : (site stays).Alone (startUnit unit) s trace error s') :
    error = none ∧ ⟨.spawn .start unit, ()⟩ ∈ trace ∧
      ∀ u, u ∈ s'.active ↔ if u = withServiceSuffix unit then stays u = true else u ∈ s.active := by
  obtain ⟨_, _, rfl, _, _, _, rfl, _, _, _, rfl, _, exit, _, rfl, ended, _, _, rfl, _, rfl, rfl, rfl⟩ := ran
  obtain rfl : exit = .ok := of_decide_eq_true ended
  refine ⟨rfl, by simp, fun u => ?_⟩
  change u ∈ (if stays (withServiceSuffix unit) then insert (withServiceSuffix unit) s.active
    else s.active.erase (withServiceSuffix unit)) ↔ _
  by_cases same : u = withServiceSuffix unit
  · subst same
    split <;> simp [*]
  · split <;> simp [same]

theorem missingMount_alone {missing : Option String}
    (ran : (site stays).Alone (missingMount backup) s trace missing s') :
    missing = none ↔ ∀ mnt ∈ backup.requiresMounts, s.mounted mnt = true := by
  have each : ∀ {mnt : String} {r : Option String} {v : Site}, (site stays).Ends (do
      let mounted ← isMounted mnt
      return if mounted then none else some ("mount " ++ quoted mnt ++ " not present")) s r v →
      r = (if s.mounted mnt then none else some ("mount " ++ quoted mnt ++ " not present")) ∧ v = s := by
    rintro mnt r v ⟨_, mounted, _, _, answered, _, rfl, rfl⟩
    obtain rfl : mounted = s.mounted mnt := of_decide_eq_true answered
    exact ⟨rfl, rfl⟩
  obtain ⟨rfl, _⟩ := Ends.firstSome each ⟨trace, ran⟩
  rw [List.findSome?_eq_none_iff]
  simp

theorem missingDependency_alone {missing : Option String}
    (ran : (site stays).Alone (missingDependency backup) s trace missing s') :
    missing = none ↔ ∀ dep ∈ backup.dependsOn, withServiceSuffix dep ∈ s.active := by
  have each : ∀ {dep : String} {r : Option String} {v : Site}, (site stays).Ends (do
      let active ← isActive dep
      return if active then none else some ("dependency " ++ quoted dep ++ " not active")) s r v →
      r = (if withServiceSuffix dep ∈ s.active then none else some ("dependency " ++ quoted dep ++ " not active")) ∧
        v = s := by
    rintro dep r v ⟨_, active, _, _, answered, _, rfl, rfl⟩
    obtain rfl : active = decide (withServiceSuffix dep ∈ s.active) := of_decide_eq_true answered
    exact ⟨by simp, rfl⟩
  obtain ⟨rfl, _⟩ := Ends.firstSome each ⟨trace, ran⟩
  rw [List.findSome?_eq_none_iff]
  simp

/-- After the pause: the job, and the service started again. -/
theorem resumed_alone {error : Option String} (pauses : backup.pauseService ≠ "")
    (ran : (site stays).Alone (do
      ping backup "/start"
      pause backup
      let error ← runJob backup
      resume backup
      return error) s trace error s') :
    (paused backup ∈ s'.active ↔ stays (paused backup) = true) ∧ Starts backup.pauseService trace := by
  obtain ⟨_, _, _, _, rfl, _, ran⟩ := alone_bind.mp ran
  obtain ⟨_, _, _, _, rfl, _, ran⟩ := alone_bind.mp ran
  obtain ⟨_, _, _, _, rfl, _, ran⟩ := alone_bind.mp ran
  obtain ⟨_, _, _, _, rfl, resumed, rfl, rfl, rfl⟩ := alone_bind.mp ran
  rw [resume, if_neg pauses] at resumed
  obtain ⟨_, _, rfl, _, resumed⟩ := resumed
  change (site stays).Alone (startUnit backup.pauseService >>= fun _ => return ()) _ _ _ _ at resumed
  obtain ⟨_, _, _, _, rfl, started, rfl, _, rfl⟩ := alone_bind.mp resumed
  obtain ⟨_, spawned, active⟩ := startUnit_alone started
  refine ⟨by simpa using active (paused backup), backup.pauseService, rfl, ?_⟩
  simp [spawned]

theorem checks_alone {rest : Prog (Option String)} {error : Option String} (ran : (site stays).Alone (do
      let missing ← missingMount backup
      if missing.isSome then return missing else do
        let inactive ← missingDependency backup
        if inactive.isSome then return inactive else rest) s trace error s') :
    (Blocked backup s → s' = s ∧ ∀ unit, ⟨.spawn .start unit, ()⟩ ∉ trace) ∧
    (¬ Blocked backup s → ∃ first later, trace = first ++ later ∧ (site stays).Alone rest s later error s') := by
  obtain ⟨first, _, missing, mid, rfl, looked, ran⟩ := alone_bind.mp ran
  obtain ⟨rfl, quiet⟩ := asks_alone (missingMount_asks backup) looked
  have mounts := missingMount_alone looked
  cases missing with
  | some message =>
    obtain ⟨rfl, _, rfl⟩ := ran
    refine ⟨fun _ => ⟨rfl, by simpa using quiet⟩, fun clear => ?_⟩
    simp only [Blocked, not_or, not_exists, not_and, Bool.not_eq_false] at clear
    cases mounts.mpr clear.1
  | none =>
    obtain ⟨second, later, inactive, mid, rfl, asked, ran⟩ := alone_bind.mp ran
    obtain ⟨rfl, quiet'⟩ := asks_alone (missingDependency_asks backup) asked
    have dependencies := missingDependency_alone asked
    cases inactive with
    | some message =>
      obtain ⟨rfl, _, rfl⟩ := ran
      refine ⟨fun _ => ⟨rfl, fun unit member => ?_⟩, fun clear => ?_⟩
      · rcases List.mem_append.mp member with member | member
        · exact quiet unit member
        · exact quiet' unit (by simpa using member)
      · simp only [Blocked, not_or, not_exists, not_and, not_not] at clear
        cases dependencies.mpr clear.2
    | none =>
      refine ⟨fun blocked => ?_, fun _ => ⟨first ++ second, later, by simp, ran⟩⟩
      rcases blocked with ⟨mnt, member, absent⟩ | ⟨dep, member, inactive⟩
      · rw [mounts.mp rfl mnt member] at absent
        cases absent
      · exact absurd (dependencies.mp rfl dep member) inactive

theorem runBackup_alone {unit : String} {error : Option String}
    (found : s.world.cfg.backups.find? (·.unit == unit) = some backup) (pauses : backup.pauseService ≠ "")
    (ran : (site stays).Alone (runBackup unit) s trace error s') :
    (Blocked backup s → s'.active = s.active ∧ ¬ Starts backup.pauseService trace) ∧
    (¬ Blocked backup s →
      (paused backup ∈ s'.active ↔ stays (paused backup) = true) ∧ Starts backup.pauseService trace) := by
  obtain ⟨_, _, rfl, _, ran⟩ := ran
  obtain ⟨cfg, _, rfl, answered, ran⟩ := ran
  obtain rfl : cfg = s.world.cfg := of_decide_eq_true answered
  obtain ⟨_, _, rfl, _, ran⟩ := ran
  simp only [found] at ran
  obtain ⟨_, _, rfl, _, ran⟩ := ran
  obtain ⟨_, _, rfl, _, ran⟩ := ran
  obtain ⟨_, _, rfl, _, ran⟩ := ran
  change (site stays).Alone (missingMount backup >>= _) { s with world := _ } _ _ _ at ran
  obtain ⟨blocked, clear⟩ := checks_alone ran
  constructor
  · intro blocks
    obtain ⟨same, quiet⟩ := blocked blocks
    refine ⟨by rw [same], fun starts => ?_⟩
    obtain ⟨u, _, member⟩ := starts
    simp only [List.mem_cons, Sigma.mk.injEq, reduceCtorEq, false_and, false_or] at member
    exact quiet u member
  · intro passes
    obtain ⟨first, later, rfl, rest⟩ := clear passes
    obtain ⟨active, u, same, member⟩ := resumed_alone pauses rest
    exact ⟨active, u, same, by simp [member]⟩

/-- A backup restores the service that it pauses if it ends before the pause; else if the service
was active and the user has not stopped it. -/
theorem restored_iff {unit : String} {error : Option String}
    (found : s.world.cfg.backups.find? (·.unit == unit) = some backup) (pauses : backup.pauseService ≠ "")
    (ran : (site stays).Alone (runBackup unit) s trace error s') :
    Restored backup s s' trace ↔ Blocked backup s ∨
      (paused backup ∈ s.active ↔ stays (paused backup) = true) ∧ ¬ UserStopped s backup.pauseService := by
  obtain ⟨early, late⟩ := runBackup_alone found pauses ran
  by_cases blocked : Blocked backup s
  · obtain ⟨same, quiet⟩ := early blocked
    exact ⟨fun _ => .inl blocked, fun _ => ⟨by rw [same], fun _ => quiet⟩⟩
  · obtain ⟨active, starts⟩ := late blocked
    constructor
    · intro restored
      exact .inr ⟨restored.activity.symm.trans active, fun stopped => restored.respected stopped starts⟩
    · rintro (blocks | ⟨was, running⟩)
      · exact absurd blocks blocked
      · exact ⟨active.trans was.symm, fun stopped => absurd stopped running⟩

end Alone

/-! ### A backup that pauses a service -/

def backup : Backup := { unit := "backup.service", enabled := true, pauseService := "a.service" }

/-- Jobs end; services stay. -/
def services (unit : String) : Bool := unit != "backup.service"

def before (active : Finset String) : Site where
  world := { cfg := { backups := [backup] } }
  mounted := fun _ => false
  active := active

def answer (s : Site) : (op : Op) → op.Ans
  | .ask (.isActive unit) => decide (withServiceSuffix unit ∈ s.active)
  | .ask (.isMounted path) => s.mounted path
  | .wait _ _ => .ok
  | op => ({} : Outside).answer s.world op

theorem backup_runs (active : Finset String)
    (h : (playAlone (site services) answer (runBackup "backup.service") (before active)).isSome = true) :
    ∃ trace error s', (site services).Alone (runBackup "backup.service") (before active) trace error s' := by
  obtain ⟨⟨trace, error, s'⟩, played⟩ := Option.isSome_iff_exists.mp h
  exact ⟨trace, error, s', playAlone_alone played⟩

/-- The service was active and is active again. -/
theorem restored_iff_active : ∃ trace error s',
    (site services).Alone (runBackup "backup.service") (before {"a.service"}) trace error s' ∧
    Restored backup (before {"a.service"}) s' trace := by
  obtain ⟨trace, error, s', ran⟩ := backup_runs {"a.service"} (by decide)
  refine ⟨trace, error, s', ran, (restored_iff (by decide) (by decide) ran).mpr (.inr ⟨by decide, ?_⟩)⟩
  rintro ⟨u, stopped, _⟩
  cases stopped

/-- A service that was inactive is active after the backup. -/
theorem inactive_started : ∃ (s s' : Site) (trace : List (Act Op Op.Ans)) (error : Option String),
    s.world.cfg.backups.find? (·.unit == "backup.service") = some backup ∧
    (site services).Alone (runBackup "backup.service") s trace error s' ∧
    paused backup ∉ s.active ∧ paused backup ∈ s'.active ∧ ¬ Restored backup s s' trace := by
  obtain ⟨trace, error, s', ran⟩ := backup_runs ∅ (by decide)
  have clear : ¬ Blocked backup (before ∅) := by
    rintro (⟨_, member, _⟩ | ⟨_, member, _⟩) <;> cases member
  have active : paused backup ∈ s'.active := ((runBackup_alone (by decide) (by decide) ran).2 clear).1.mpr (by decide)
  have inactive : paused backup ∉ (before ∅).active := by decide
  exact ⟨before ∅, s', trace, error, by decide, ran, inactive, active,
    fun restored => inactive (restored.activity.mp active)⟩

end Restore
end HomelabDaemon
