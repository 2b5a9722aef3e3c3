import HomelabDaemon.System

/-!
# What a backup reports

The client of a job's start is killed after 30 s; systemd lets the job run on. What `RunBackup`
reports is the end of the client.
-/

namespace HomelabDaemon
open Concurrency Program

namespace Outcome

/-- The timeout of each systemctl call, in nanoseconds. -/
def systemctlTimeout : Nat := 30 * second

/-- A job that takes a while and then succeeds or fails. One that cannot be started fails at once. -/
structure Job where
  duration : Nat
  failure : Option String

namespace Job

/-- The end of a job that is waited for. -/
def exit (job : Job) : Exit :=
  match job.failure with
  | none => .ok
  | some message => .failed message

/-- The client waits for the end of the job until its context expires. -/
inductive Exits (job : Job) : Exit → Prop where
  | ended (inTime : job.duration ≤ systemctlTimeout) : Exits job job.exit
  | killed (message : String) (late : systemctlTimeout ≤ job.duration) : Exits job (.killed message)

@[simp] theorem exit_error (job : Job) : job.exit.error = job.failure := by
  unfold exit
  cases job.failure <;> rfl

end Job

/-- The mounts and dependencies of the backup are satisfied, and its job is this one. -/
def Answers (cfg : Config) (backup : Backup) (job : Job) : (op : Op) → op.Ans → Prop
  | .config, answer => answer = cfg
  | .ask (.isMounted path), mounted => path ∈ backup.requiresMounts → mounted = true
  | .ask (.isActive unit), active => unit ∈ backup.dependsOn → active = true
  | .wait .start unit, exit => unit = backup.unit → job.Exits exit
  | _, _ => True

/-- A run of the backup, with what it did, the newest first. -/
structure Ran (cfg : Config) (backup : Backup) (job : Job) (returned : Option String) (past : Past Op Op.Ans) :
    Prop where
  path : (runBackup backup.unit).Path [] returned past
  answers : ∀ act ∈ past, Answers cfg backup job act.1 act.2

def pinged (backup : Backup) (suffix : String) : Act Op Op.Ans :=
  ⟨.ask (.pingHealthcheck ("https://hc-ping.com/" ++ backup.healthcheckUUID ++ suffix)), ()⟩

structure Faithful (backup : Backup) (job : Job) (returned : Option String) (past : Past Op Op.Ans) : Prop where
  returns : returned = none ↔ job.failure = none
  success : backup.healthcheckUUID ≠ "" → (pinged backup "" ∈ past ↔ job.failure = none)
  failure : pinged backup "/fail" ∈ past → job.failure ≠ none
  mail : (∃ subject body sent, ⟨.ask (.send subject body), sent⟩ ∈ past) → job.failure ≠ none

/-- Pings and mails. -/
def report : Act Op Op.Ans → Bool
  | ⟨.ask (.pingHealthcheck _), _⟩ | ⟨.ask (.send _ _), _⟩ => true
  | _ => false

def quiet (op : Op) : Prop := ∀ ans, report ⟨op, ans⟩ = false

section Path
variable {cfg : Config} {backup : Backup} {job : Job} {past past' : Past Op Op.Ans} {returned : Option String}

theorem startUnit_quiet {unit : String} : (startUnit unit).Uses quiet := by
  have plain : ∀ {op : Op}, (∀ q, op ≠ .ask q) → quiet op := by
    intro op notAsk ans
    cases op with
    | ask q => exact absurd rfl (notAsk q)
    | _ => rfl
  exact .bind (.perform (plain nofun)) fun _ => .bind (.perform (plain nofun)) fun _ =>
    .bind (.bind (.perform (plain nofun)) fun _ => .perform (plain nofun)) fun _ =>
    .bind (.perform (plain nofun)) fun _ => .done _

theorem startUnit_path {unit : String} (path : (startUnit unit).Path past returned past') :
    ∃ exit, ⟨.wait .start unit, exit⟩ ∈ past' ∧ returned = exit.error ∧ past'.filter report = past.filter report := by
  have kept := path.filter startUnit_quiet
  obtain ⟨_, _, _, exit, _, rfl, rfl⟩ := path
  exact ⟨exit, by simp, rfl, kept⟩

/-- What is pinged, if the backup has a healthcheck. -/
def pings (backup : Backup) (suffix : String) : List (Act Op Op.Ans) :=
  if backup.healthcheckUUID = "" then [] else [pinged backup suffix]

theorem ping_path {suffix : String} {r : Unit} (path : (ping backup suffix).Path past r past') :
    past'.filter report = pings backup suffix ++ past.filter report := by
  unfold ping at path
  unfold pings
  split at path
  · rename_i none
    obtain ⟨_, rfl⟩ := path
    simp [none]
  · rename_i some
    obtain ⟨ans, _, rfl⟩ := path
    rw [if_neg some]
    rfl

theorem mailFailure_path {unit error : String} {r : Unit} (path : (mailFailure unit error).Path past r past') :
    ∃ mails, (∀ act ∈ mails, ∃ subject body sent, act = ⟨.ask (.send subject body), sent⟩) ∧
      past'.filter report = mails ++ past.filter report := by
  obtain ⟨enabled, path⟩ := path
  cases enabled with
  | true =>
    obtain ⟨mail, sent, _, rfl⟩ := path
    refine ⟨[⟨.ask (.send mail.1 mail.2), sent⟩], fun act member => ?_, rfl⟩
    obtain rfl := List.mem_singleton.mp member
    exact ⟨_, _, _, rfl⟩
  | false =>
    obtain ⟨_, rfl⟩ := path
    exact ⟨[], by simp, by simp [report]⟩

/-- What a backup returns, with what it reports, the newest first. -/
inductive Reports (backup : Backup) : Option String → List (Act Op Op.Ans) → Prop where
  | success : Reports backup none (pings backup "" ++ pings backup "/start")
  | failure (message : String) (mails : List (Act Op Op.Ans))
      (only : ∀ act ∈ mails, ∃ subject body sent, act = ⟨.ask (.send subject body), sent⟩) :
      Reports backup (some message) (mails ++ (pings backup "/fail" ++ pings backup "/start"))

theorem runJob_path (started : past.filter report = pings backup "/start")
    (path : (runJob backup).Path past returned past') :
    ∃ exit, ⟨.wait .start backup.unit, exit⟩ ∈ past' ∧ returned = exit.error ∧
    Reports backup returned (past'.filter report) := by
  obtain ⟨error, mid, start, path⟩ := path_bind.mp path
  obtain ⟨exit, waited, rfl, kept⟩ := startUnit_path start
  have grown := path.suffix
  refine ⟨exit, grown.subset waited, ?_⟩
  cases ended : exit.error with
  | none =>
    rw [ended] at path
    obtain ⟨_, _, pinged, rfl, rfl⟩ := path_bind.mp path
    refine ⟨rfl, ?_⟩
    rw [ping_path pinged, kept, started]
    exact .success
  | some message =>
    rw [ended] at path
    obtain ⟨_, _, pinged, path⟩ := path_bind.mp path
    obtain ⟨_, _, mailed, rfl, rfl⟩ := path_bind.mp path
    obtain ⟨mails, only, sent⟩ := mailFailure_path mailed
    refine ⟨rfl, ?_⟩
    rw [sent, ping_path pinged, kept, started]
    exact .failure message mails only

theorem missingMount_quiet : (missingMount backup).Uses quiet :=
  .firstSome fun _ => .bind (.perform fun _ => rfl) fun _ => .done _

theorem missingDependency_quiet : (missingDependency backup).Uses quiet :=
  .firstSome fun _ => .bind (.perform fun _ => rfl) fun _ => .done _

theorem pause_quiet : (pause backup).Uses quiet := by
  unfold pause
  split
  · exact .done _
  refine .bind ?_ fun _ => .done _
  refine .bind (.perform fun _ => rfl) fun _ =>
    .bind (.bind (.perform fun _ => rfl) fun _ => .perform fun _ => rfl) fun exit =>
    .bind ?_ fun _ => .bind (.perform fun _ => rfl) fun _ => .bind (.perform fun _ => rfl) fun _ => .done _
  split
  · refine .bind (.perform fun _ => rfl) fun state => ?_
    split
    · exact .bind (.perform fun _ => rfl) fun _ => .done _
    · exact .done _
  · exact .done _

theorem resume_quiet : (resume backup).Uses quiet := by
  unfold resume
  split
  · exact .done _
  · exact .bind (.perform fun _ => rfl) fun _ => .bind startUnit_quiet fun _ => .done _

theorem missingMount_path (answers : ∀ act ∈ past', Answers cfg backup job act.1 act.2)
    (path : (missingMount backup).Path past returned past') : returned = none := by
  cases returned with
  | none => rfl
  | some message =>
    obtain ⟨mnt, member, start, stop, _, ⟨mounted, looked, rfl⟩, ends⟩ := (path_firstSome path).2 message rfl
    have there : mounted = true := answers ⟨.ask (.isMounted mnt), mounted⟩ (ends.subset List.mem_cons_self) member
    rw [there] at looked
    cases looked

theorem missingDependency_path (answers : ∀ act ∈ past', Answers cfg backup job act.1 act.2)
    (path : (missingDependency backup).Path past returned past') : returned = none := by
  cases returned with
  | none => rfl
  | some message =>
    obtain ⟨dep, member, start, stop, _, ⟨active, looked, rfl⟩, ends⟩ := (path_firstSome path).2 message rfl
    have running : active = true := answers ⟨.ask (.isActive dep), active⟩ (ends.subset List.mem_cons_self) member
    rw [running] at looked
    cases looked

/-- A backup that is not held up runs its job and reports how the client of its start ended. -/
theorem runBackup_path (found : cfg.backups.find? (·.unit == backup.unit) = some backup)
    (ran : Ran cfg backup job returned past) :
    ∃ exit, ⟨.wait .start backup.unit, exit⟩ ∈ past ∧ returned = exit.error ∧
    Reports backup returned (past.filter report) := by
  obtain ⟨path, answers⟩ := ran
  obtain ⟨_, cfg', _, path⟩ := path
  have same : cfg' = cfg := answers ⟨.config, cfg'⟩ (path.suffix.subset (by simp))
  subst same
  simp only [found] at path
  change (recordRun backup.unit >>= _).Path _ _ _ at path
  obtain ⟨_, _, ⟨_, _, _, _, rfl⟩, path⟩ := path_bind.mp path
  obtain ⟨missing, mid, looked, path⟩ := path_bind.mp path
  have mounts := looked.filter missingMount_quiet
  obtain rfl := missingMount_path (fun act member => answers act (path.suffix.subset member)) looked
  obtain ⟨inactive, mid', asked, path⟩ := path_bind.mp path
  have dependencies := asked.filter missingDependency_quiet
  obtain rfl := missingDependency_path (fun act member => answers act (path.suffix.subset member)) asked
  obtain ⟨_, _, begins, path⟩ := path_bind.mp path
  obtain ⟨_, _, pauses, path⟩ := path_bind.mp path
  obtain ⟨error, after, runs, path⟩ := path_bind.mp path
  obtain ⟨_, _, resumes, rfl, rfl⟩ := path_bind.mp path
  have started := pauses.filter pause_quiet
  rw [ping_path begins, dependencies, mounts] at started
  obtain ⟨exit, waited, rfl, reports⟩ := runJob_path (by simpa [report] using started) runs
  rw [← resumes.filter resume_quiet] at reports
  exact ⟨exit, resumes.suffix.subset waited, rfl, reports⟩

theorem pinged_inj {suffix suffix' : String} : pinged backup suffix = pinged backup suffix' ↔ suffix = suffix' := by
  constructor
  · intro same
    have url : "https://hc-ping.com/" ++ backup.healthcheckUUID ++ suffix =
        "https://hc-ping.com/" ++ backup.healthcheckUUID ++ suffix' :=
      Query.pingHealthcheck.inj (Op.ask.inj (congrArg Sigma.fst same))
    have text := congrArg String.toList url
    simp only [String.toList_append, List.append_right_inj] at text
    exact String.toList_injective text
  · rintro rfl
    rfl

theorem mem_pings {act : Act Op Op.Ans} {suffix : String} :
    act ∈ pings backup suffix ↔ backup.healthcheckUUID ≠ "" ∧ act = pinged backup suffix := by
  unfold pings
  split <;> simp [*]

/-- The reports agree with the returned value, so all of them are faithful or none is. -/
theorem faithful_iff_returns (reports : Reports backup returned (past.filter report)) :
    Faithful backup job returned past ↔ (returned = none ↔ job.failure = none) := by
  have pinged_mem : ∀ suffix, pinged backup suffix ∈ past ↔ pinged backup suffix ∈ past.filter report := by
    simp [pinged, report]
  have sent_mem : ∀ subject body sent, ⟨.ask (.send subject body), sent⟩ ∈ past ↔
      (⟨.ask (.send subject body), sent⟩ : Act Op Op.Ans) ∈ past.filter report := by
    simp [report]
  refine ⟨Faithful.returns, fun returns => ?_⟩
  generalize past.filter report = reported at *
  cases reports with
  | success =>
    have succeeded := returns.mp rfl
    refine ⟨returns, fun some => ?_, fun failed => ?_, fun sent => ?_⟩
    · simp [pinged_mem, mem_pings, some, succeeded]
    · simp [pinged_mem, mem_pings, pinged_inj] at failed
    · obtain ⟨subject, body, sent, member⟩ := sent
      rw [sent_mem] at member
      simp [mem_pings, pinged] at member
  | failure message mails only =>
    have failed : job.failure ≠ none := fun none => nomatch returns.mpr none
    have quiet : pinged backup "" ∉ mails := by
      intro member
      obtain ⟨_, _, _, same⟩ := only _ member
      cases same
    refine ⟨returns, fun some => ?_, fun _ => failed, fun _ => failed⟩
    simp [pinged_mem, mem_pings, pinged_inj, quiet, failed]

/-- Everything is there, and the client of each start is killed. -/
def late (cfg : Config) : (op : Op) → op.Ans
  | .config => cfg
  | .ask (.isMounted _) | .ask (.isActive _) => true
  | .wait .start _ => .killed "signal: killed"
  | op => ({} : Outside).answer { cfg := cfg } op

/-- A job that takes 30 s may be reported as failed. -/
theorem late_ran (found : cfg.backups.find? (·.unit == backup.unit) = some backup)
    (long : systemctlTimeout ≤ job.duration) :
    ∃ message past, Ran cfg backup job (some message) past ∧ Reports backup (some message) (past.filter report) := by
  have answers : ∀ act ∈ ((runBackup backup.unit).follow (late cfg) []).2, Answers cfg backup job act.1 act.2 := by
    rintro ⟨op, ans⟩ member
    rcases follow_answers member with old | answered
    · cases old
    obtain rfl : ans = late cfg op := answered
    cases op with
    | config => rfl
    | ask q => cases q <;> first | trivial | exact fun _ => rfl
    | wait verb unit =>
      cases verb with
      | start => exact fun _ => .killed _ long
      | stop | restart => trivial
    | _ => trivial
  have ran : Ran cfg backup job _ _ := ⟨follow_path (runBackup backup.unit) [], answers⟩
  obtain ⟨exit, waited, returned, reports⟩ := runBackup_path found ran
  have killed : exit = .killed "signal: killed" := by
    rcases follow_answers waited with old | answered
    · cases old
    · exact answered
  rw [killed] at returned
  rw [returned] at ran reports
  exact ⟨_, _, ran, reports⟩

/-- The reports are faithful, in every run, of a job that takes less than 30 s and of one that fails. -/
theorem faithful_iff (found : cfg.backups.find? (·.unit == backup.unit) = some backup) :
    (∀ returned past, Ran cfg backup job returned past → Faithful backup job returned past) ↔
      job.duration < systemctlTimeout ∨ job.failure ≠ none := by
  constructor
  · intro faithful
    by_contra long
    simp only [not_or, Nat.not_lt, not_not] at long
    obtain ⟨message, past, ran, _⟩ := late_ran found long.1
    cases (faithful _ past ran).returns.mpr long.2
  · intro regular returned past ran
    obtain ⟨exit, waited, rfl, reports⟩ := runBackup_path found ran
    rw [faithful_iff_returns reports]
    have ends : job.Exits exit := ran.answers _ waited rfl
    cases ends with
    | ended _ => simp
    | killed message late =>
      have failed : job.failure ≠ none := regular.resolve_left (Nat.not_lt.mpr late)
      simp [Exit.error, failed]

end Path

/-! ### A backup with a healthcheck -/

def nightly : Backup := { unit := "backup.service", enabled := true, healthcheckUUID := "c0ffee" }

theorem faithful_iff_short : 10 * second < systemctlTimeout ∧ ∀ returned past,
    Ran { backups := [nightly] } nightly ⟨10 * second, none⟩ returned past →
    Faithful nightly ⟨10 * second, none⟩ returned past := by
  have short : 10 * second < systemctlTimeout := by decide
  exact ⟨short, (faithful_iff (by decide)).mpr (.inl short)⟩

/-- A job that succeeds after a minute is reported as failed. -/
theorem long_failed : ∃ message past, Ran { backups := [nightly] } nightly ⟨60 * second, none⟩ (some message) past ∧
    pinged nightly "/fail" ∈ past ∧ ¬ Faithful nightly ⟨60 * second, none⟩ (some message) past := by
  have found : { backups := [nightly] : Config }.backups.find? (·.unit == nightly.unit) = some nightly := by decide
  have long : systemctlTimeout ≤ (⟨60 * second, none⟩ : Job).duration := by decide
  obtain ⟨message, past, ran, reports⟩ := late_ran found long
  refine ⟨message, past, ran, ?_, fun faithful => nomatch faithful.returns.mpr rfl⟩
  have pinged : pinged nightly "/fail" ∈ past.filter report := by
    generalize past.filter report = reported at reports
    cases reports with
    | failure _ mails _ => simp [mem_pings, nightly]
  exact (List.mem_filter.mp pinged).1

end Outcome
end HomelabDaemon
