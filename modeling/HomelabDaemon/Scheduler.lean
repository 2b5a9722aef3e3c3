import HomelabDaemon.Systemctl

/-!
# Backups

The cron entries and one run of a backup, which may pause a service for its job.
-/

namespace HomelabDaemon
open Concurrency Program

/-- The loop body of `Reload`. -/
def schedule (backup : Backup) : Prog Unit :=
  if !backup.enabled || backup.schedule == "" then return () else do
    let added ← ask (.cronAddFunc backup.unit backup.schedule)
    if added then perform (Op.cronEntry backup) else return ()

/-- `Scheduler.Reload`: a new cron with an entry for each enabled backup. -/
def reloadScheduler : Prog Unit := do
  perform Op.lockScheduler
  perform Op.cronNew
  let cfg ← readConfig
  each schedule cfg.backups
  perform Op.unlockScheduler

def missingMount (backup : Backup) : Prog (Option String) :=
  firstSome (fun mnt => do
    let mounted ← isMounted mnt
    return if mounted then none else some ("mount " ++ quoted mnt ++ " not present")) backup.requiresMounts

def missingDependency (backup : Backup) : Prog (Option String) :=
  firstSome (fun dep => do
    let active ← isActive dep
    return if active then none else some ("dependency " ++ quoted dep ++ " not active")) backup.dependsOn

/-- A ping of the healthcheck, if the backup has one; `suffix` is "/start", "/fail" or "". -/
def ping (backup : Backup) (suffix : String) : Prog Unit :=
  if backup.healthcheckUUID = "" then return ()
  else ask (.pingHealthcheck ("https://hc-ping.com/" ++ backup.healthcheckUUID ++ suffix))

def pause (backup : Backup) : Prog Unit :=
  if backup.pauseService = "" then return () else do
    let _ ← stopUnit backup.pauseService
    return ()

/-- The deferred function. -/
def resume (backup : Backup) : Prog Unit :=
  if backup.pauseService = "" then return () else do
    mark (.resume backup.pauseService)
    let _ ← startUnit backup.pauseService
    return ()

def mailFailure (unit error : String) : Prog Unit := do
  let enabled ← ask .notifyEnabled
  if enabled then do
    let mail ← ask (.backupFailed unit error)
    let _ ← ask (.send mail.1 mail.2)
    return ()
  else return ()

/-- The job itself, and the report of its end. -/
def runJob (backup : Backup) : Prog (Option String) := do
  let error ← startUnit backup.unit
  match error with
  | some message => do
    ping backup "/fail"
    mailFailure backup.unit message
    return some message
  | none => do
    ping backup ""
    return none

/-- The start of a run is written under the mutex, and to the state behind it. -/
def recordRun (unit : String) : Prog Unit := do
  perform Op.lockScheduler
  perform Op.unlockScheduler
  perform (Op.setBackupLastRun unit)

/-- `Scheduler.RunBackup`. -/
def runBackup (unit : String) : Prog (Option String) := do
  perform Op.lockScheduler
  let cfg ← readConfig
  perform Op.unlockScheduler
  match cfg.backups.find? (·.unit == unit) with
  | none => return some ("backup job " ++ quoted unit ++ " not found")
  | some backup => do
    recordRun unit
    let missing ← missingMount backup
    if missing.isSome then return missing else do
      let inactive ← missingDependency backup
      if inactive.isSome then return inactive else do
        ping backup "/start"
        pause backup
        let error ← runJob backup
        resume backup
        return error

/-! ### What they may do -/

/-- The plain operations of requests. -/
def Op.onRequest : Op → Prop
  | .isUserStopped _ | .breakerState _ | .breakerIsOpen _ | .recordFailure _ | .inFlightLoadOrStore _
  | .inFlightDelete _ | .goRestart _ => False
  | .mark (.startUnit _) | .mark (.stopUnit _) | .lockUnit _ | .unlockUnit _ | .spawn _ _ | .wait _ _ => False
  | _ => True

/-- Code of a request. -/
abbrev OnRequest {α : Type} (p : Prog α) : Prop := BuiltFrom (fun _ => True) Op.onRequest p

theorem AsksOnly.onRequest {α : Type} {p : Prog α} (h : AsksOnly p) : OnRequest p := h.built fun _ => trivial

theorem reloadScheduler_built : OnRequest reloadScheduler := by
  refine .bind (.single (.op trivial)) fun _ => .bind (.single (.op trivial)) fun _ =>
    .bind (.single (.op trivial)) fun _ =>
    .bind (.each fun backup => ?_) fun _ => .single (.op trivial)
  unfold schedule
  split
  · exact .done _
  refine .bind (.single (.op trivial)) fun added => ?_
  split
  · exact .single (.op trivial)
  · exact .done _

theorem missingMount_asks (backup : Backup) : AsksOnly (missingMount backup) :=
  .firstSome fun _ => .bind (ask_asks _) fun _ => .done _

theorem missingDependency_asks (backup : Backup) : AsksOnly (missingDependency backup) :=
  .firstSome fun _ => .bind (ask_asks _) fun _ => .done _

theorem ping_asks (backup : Backup) (suffix : String) : AsksOnly (ping backup suffix) := by
  unfold ping
  split
  · exact .done _
  · exact ask_asks _

theorem mailFailure_asks (unit error : String) : AsksOnly (mailFailure unit error) := by
  refine .bind (ask_asks _) fun enabled => ?_
  split
  · exact .bind (ask_asks _) fun _ => .bind (ask_asks _) fun _ => .done _
  · exact .done _

/-- The plain operations of a backup. -/
def Op.onBackup : Op → Prop
  | .ask _ | .config | .lockScheduler | .unlockScheduler | .setBackupLastRun _ | .mark (.resume _) => True
  | _ => False

abbrev OnBackup {α : Type} (p : Prog α) : Prop := BuiltFrom (· ≠ .restart) Op.onBackup p

theorem AsksOnly.onBackup {α : Type} {p : Prog α} (h : AsksOnly p) : OnBackup p := h.built fun _ => trivial

theorem pause_built (backup : Backup) : OnBackup (pause backup) := by
  unfold pause
  split
  · exact .done _
  · exact .bind (.block (.stop _ (by simp))) fun _ => .done _

theorem resume_built (backup : Backup) : OnBackup (resume backup) := by
  unfold resume
  split
  · exact .done _
  · exact .bind (.single (.op trivial)) fun _ => .bind (.block (.start _ (by simp))) fun _ => .done _

theorem runJob_built (backup : Backup) : OnBackup (runJob backup) := by
  refine .bind (.block (.start _ (by simp))) fun error => ?_
  cases error with
  | none => exact .bind (ping_asks _ _).onBackup fun _ => .done _
  | some message =>
    exact .bind (ping_asks _ _).onBackup fun _ => .bind (mailFailure_asks _ _).onBackup fun _ => .done _

theorem recordRun_built (unit : String) : OnBackup (recordRun unit) :=
  .bind (.single (.op trivial)) fun _ => .bind (.single (.op trivial)) fun _ => .single (.op trivial)

theorem runBackup_built (unit : String) : OnBackup (runBackup unit) := by
  refine .bind (.single (.op trivial)) fun _ => .bind (.single (.op trivial)) fun cfg =>
    .bind (.single (.op trivial)) fun _ => ?_
  split
  · exact .done _
  rename_i backup _
  refine .bind (recordRun_built unit) fun _ => .bind (missingMount_asks backup).onBackup fun _ => ?_
  split
  · exact .done _
  refine .bind (missingDependency_asks backup).onBackup fun _ => ?_
  split
  · exact .done _
  exact .bind (ping_asks backup _).onBackup fun _ => .bind (pause_built backup) fun _ =>
    .bind (runJob_built backup) fun _ => .bind (resume_built backup) fun _ => .done _

end HomelabDaemon
