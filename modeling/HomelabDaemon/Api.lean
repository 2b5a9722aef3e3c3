import HomelabDaemon.Scheduler
import HomelabDaemon.ConfigWriter

/-!
# The HTTP handlers

The requests that start and stop units, change the configuration and unmount. A path value arrives
decoded; a body arrives as its decoded payload, or as `none` when it is no JSON of that type.
-/

namespace HomelabDaemon
open Concurrency Program

structure ConfigPatch where
  enabled : Option Bool := none
  order : Option Int := none
  bootDelay : Option Int := none
  dependsOn : Option (List String) := none
  restart : Option String := none
  restartDelay : Option Int := none
  deriving DecidableEq

structure BackupPatch where
  enabled : Option Bool := none
  schedule : Option String := none
  healthcheckUUID : Option String := none
  pauseService : Option String := none
  dependsOn : Option (List String) := none
  deriving DecidableEq

structure StorageConfigPatch where
  pools : List StoragePoolConfig := []
  deriving DecidableEq

inductive Request where
  | start (unit : String)
  | stop (unit : String)
  | restart (unit : String)
  | startAll
  | stopAll
  | reload
  | patchConfig (unit : String) (body : Option ConfigPatch)
  | patchBackup (unit : String) (body : Option BackupPatch)
  | patchStorage (body : Option StorageConfigPatch)
  | runBackup (unit : String)
  | unmount (body : Option String)
  deriving DecidableEq

inductive Response where
  | httpError (body : String) (status : Nat)
  | success
  | failure (error : String)
  | totals (success : Bool) (total failed : Nat)
  | services (count : Nat)
  | service (svc : Option Service)
  | backup (backup : Option Backup)
  | conflict (error message : String) (activeDeps : List String)
  deriving DecidableEq

/-- The body of an error. -/
def errorBody (message : String) : String := "\x7b\"error\":\"" ++ message ++ "\"\x7d"

def Response.ofError : Option String → Response
  | none => .success
  | some error => .failure error

/-- The constraints of the first service with exactly this name. -/
def constraintsOf (unit : String) : Prog (Option String) := do
  let cfg ← readConfig
  match cfg.services.find? (·.unit == unit) with
  | none => return none
  | some svc => checkConstraints svc

def handleStart (unit : String) : Prog Response := do
  let cfg ← readConfig
  if !isManaged cfg unit then return .httpError (errorBody "unknown unit") 400 else do
    setUserStopped unit false
    let unmet ← constraintsOf unit
    match unmet with
    | some error => return .failure error
    | none => do
      let error ← startUnit unit
      return .ofError error

def handleStop (unit : String) : Prog Response := do
  let cfg ← readConfig
  if !isManaged cfg unit then return .httpError (errorBody "unknown unit") 400 else do
    setUserStopped unit true
    let error ← stopUnit unit
    return .ofError error

def handleRestart (unit : String) : Prog Response := do
  let cfg ← readConfig
  if !isManaged cfg unit then return .httpError (errorBody "unknown unit") 400 else do
    setUserStopped unit false
    let error ← restartUnit unit
    match error with
    | some message => return .failure message
    | none => do
      (if hasPrefix unit "podman-" then ask .triggerCheck else pure ())
      return .success

/-- The loop body of start-all; `failed` counts. -/
def startOne (failed : Nat) (unit : String) : Prog Nat := do
  let unmet ← constraintsOf unit
  if unmet.isSome then return failed + 1 else do
    let error ← startUnit unit
    return if error.isSome then failed + 1 else failed

def handleStartAll : Prog Response := do
  let cfg ← readConfig
  let units := enabledUnits cfg
  perform (Op.setAllUserStopped units false)
  let failed ← fold startOne 0 units
  return .totals (failed == 0) units.length failed

def stopOne (failed : Nat) (unit : String) : Prog Nat := do
  let error ← stopUnit unit
  return if error.isSome then failed + 1 else failed

def handleStopAll : Prog Response := do
  let cfg ← readConfig
  let units := enabledUnits cfg
  perform (Op.setAllUserStopped units true)
  let failed ← fold stopOne 0 units
  return .totals (failed == 0) units.length failed

/-! ### Changing the configuration -/

def handleReload : Prog Response := do
  let loaded ← ask .loadConfig
  match loaded with
  | .error error => return .failure error.text
  | .ok newCfg => do
    perform (Op.updateConfig fun _ => newCfg)
    reloadScheduler
    let _ ← verifyRunningServices
    let cfg ← readConfig
    return .services cfg.services.length

/-- `cfg.Services[idx].field = value`; out of range it would panic, here it changes nothing. -/
def modifyService (idx : Nat) (f : Service → Service) : Prog Unit :=
  perform (Op.updateConfig fun cfg => { cfg with services := cfg.services.modify idx f })

def modifyBackup (idx : Nat) (f : Backup → Backup) : Prog Unit :=
  perform (Op.updateConfig fun cfg => { cfg with backups := cfg.backups.modify idx f })

/-- The assignment for a field that the payload may leave out. -/
def assign {α : Type} (value : Option α) (set : α → Prog Unit) : Prog Unit :=
  match value with
  | none => return ()
  | some v => set v

def policies : List String := ["no", "on-failure", "unless-stopped", "always"]

/-- Re-enabling clears the user stop and the breaker. -/
def assignEnabled (unit : String) (idx : Nat) (enabled : Bool) : Prog Unit := do
  modifyService idx fun s => { s with enabled := enabled }
  if enabled then do
    setUserStopped unit false
    perform (Op.breakerReset unit)
  else return ()

/-- Saves the configuration; `answer` is the response when that succeeds. -/
def save (answer : Prog Response) : Prog Response := do
  let error ← writeConfig
  if error.isSome then return .httpError (errorBody "failed to save config") 500 else answer

def patchService (unit : String) (idx : Nat) (payload : ConfigPatch) : Prog Response := do
  assign payload.enabled (assignEnabled unit idx)
  assign payload.order fun v => modifyService idx fun s => { s with order := v }
  assign payload.bootDelay fun v => modifyService idx fun s => { s with bootDelay := v }
  assign payload.dependsOn fun v => modifyService idx fun s => { s with dependsOn := v }
  if payload.restart.all (· ∈ policies) then do
    assign payload.restart fun v => modifyService idx fun s => { s with restart := v }
    assign payload.restartDelay fun v => modifyService idx fun s => { s with restartDelay := v }
    save do
      let cfg ← readConfig
      return .service cfg.services[idx]?
  else return .httpError (errorBody "invalid restart policy") 400

def handlePatchConfig (name : String) (body : Option ConfigPatch) : Prog Response :=
  let unit := withServiceSuffix name
  match body with
  | none => return .httpError (errorBody "invalid JSON") 400
  | some payload => do
    let cfg ← readConfig
    match cfg.services.findIdx? (·.unit == unit) with
    | none => return .httpError (errorBody "unknown unit") 404
    | some idx => patchService unit idx payload

def patchBackupAt (idx : Nat) (payload : BackupPatch) : Prog Response := do
  assign payload.enabled fun v => modifyBackup idx fun b => { b with enabled := v }
  assign payload.schedule fun v => modifyBackup idx fun b => { b with schedule := v }
  assign payload.healthcheckUUID fun v => modifyBackup idx fun b => { b with healthcheckUUID := v }
  assign payload.pauseService fun v => modifyBackup idx fun b => { b with pauseService := v }
  assign payload.dependsOn fun v => modifyBackup idx fun b => { b with dependsOn := v }
  save do
    reloadScheduler
    let cfg ← readConfig
    return .backup cfg.backups[idx]?

def handlePatchBackup (name : String) (body : Option BackupPatch) : Prog Response :=
  let unit := withServiceSuffix name
  match body with
  | none => return .httpError (errorBody "invalid JSON") 400
  | some payload => do
    let cfg ← readConfig
    match cfg.backups.findIdx? (·.unit == unit) with
    | none => return .httpError (errorBody "backup not found") 404
    | some idx => patchBackupAt idx payload

def handlePatchStorage (body : Option StorageConfigPatch) : Prog Response :=
  match body with
  | none => return .httpError (errorBody "invalid JSON") 400
  | some payload => do
    perform (Op.updateConfig fun cfg => { cfg with storage := { cfg.storage with pools := payload.pools } })
    let error ← writeConfig
    match error with
    | some message => return .httpError message 500
    | none => return .success

def handleRunBackup (name : String) : Prog Response := do
  perform (Op.goRunBackup (withServiceSuffix name))
  return .success

/-! ### Unmounting -/

/-- The active services that require exactly this mountpoint. -/
def activeDependents (mountpoint : String) (services : List Service) : Prog (List String) :=
  fold (fun activeDeps svc =>
    if mountpoint ∈ svc.requiresMounts then do
      let active ← isActive svc.unit
      return if active then activeDeps ++ [svc.unit] else activeDeps
    else return activeDeps) [] services

def handleUnmount (body : Option String) : Prog Response :=
  match body with
  | none => return .httpError (errorBody "invalid JSON") 400
  | some mountpoint => do
    let cfg ← readConfig
    let activeDeps ← activeDependents mountpoint cfg.services
    if activeDeps.length > 0 then
      return .conflict "dependent_services_running" ("Cannot unmount " ++ mountpoint ++ ": " ++
        toString activeDeps.length ++ " dependent services are running") activeDeps
    else do
      let error ← ask (.umount mountpoint)
      match error with
      | some message => return .httpError message 500
      | none => return .success

def handle : Request → Prog Response
  | .start unit => handleStart unit
  | .stop unit => handleStop unit
  | .restart unit => handleRestart unit
  | .startAll => handleStartAll
  | .stopAll => handleStopAll
  | .reload => handleReload
  | .patchConfig unit body => handlePatchConfig unit body
  | .patchBackup unit body => handlePatchBackup unit body
  | .patchStorage body => handlePatchStorage body
  | .runBackup unit => handleRunBackup unit
  | .unmount body => handleUnmount body

/-- The plain operations of starting and stopping. -/
def Op.onCommand : Op → Prop
  | .ask _ | .config | .setUserStopped _ _ | .setAllUserStopped _ _ => True
  | _ => False

/-- Code of a request that starts or stops units. -/
abbrev OnCommand {α : Type} (p : Prog α) : Prop := BuiltFrom (fun _ => True) Op.onCommand p

theorem AsksOnly.onCommand {α : Type} {p : Prog α} (h : AsksOnly p) : OnCommand p := h.built fun _ => trivial

theorem constraintsOf_built (unit : String) : OnCommand (constraintsOf unit) := by
  refine .bind (.single (.op trivial)) fun cfg => ?_
  split
  · exact .done _
  · exact (checkConstraints_asks _).onCommand

theorem handleStart_built (unit : String) : OnCommand (handleStart unit) := by
  refine .bind (.single (.op trivial)) fun cfg => ?_
  split
  · exact .done _
  refine .bind (.single (.op trivial)) fun _ => .bind (constraintsOf_built unit) fun unmet => ?_
  cases unmet with
  | some error => exact .done _
  | none => exact .bind (.block (.start unit trivial)) fun _ => .done _

theorem handleStop_built (unit : String) : OnCommand (handleStop unit) := by
  refine .bind (.single (.op trivial)) fun cfg => ?_
  split
  · exact .done _
  exact .bind (.single (.op trivial)) fun _ => .bind (.block (.stop unit trivial)) fun _ => .done _

theorem handleRestart_built (unit : String) : OnCommand (handleRestart unit) := by
  refine .bind (.single (.op trivial)) fun cfg => ?_
  split
  · exact .done _
  refine .bind (.single (.op trivial)) fun _ => .bind (.block (.restart unit trivial)) fun error => ?_
  cases error with
  | some message => exact .done _
  | none =>
    refine .bind ?_ fun _ => .done _
    split
    · exact .single (.op trivial)
    · exact .done _

theorem startOne_built (failed : Nat) (unit : String) : OnCommand (startOne failed unit) := by
  refine .bind (constraintsOf_built unit) fun unmet => ?_
  split
  · exact .done _
  · exact .bind (.block (.start unit trivial)) fun _ => .done _

theorem handleStartAll_built : OnCommand handleStartAll :=
  .bind (.single (.op trivial)) fun _ => .bind (.single (.op trivial)) fun _ =>
    .bind (.fold fun failed unit => startOne_built failed unit) fun _ => .done _

theorem handleStopAll_built : OnCommand handleStopAll :=
  .bind (.single (.op trivial)) fun _ => .bind (.single (.op trivial)) fun _ =>
    .bind (.fold fun _ unit => .bind (.block (.stop unit trivial)) fun _ => .done _) fun _ => .done _

theorem onCommand_onRequest {α : Type} {p : Prog α} (h : OnCommand p) : OnRequest p := by
  refine h.widen (fun _ _ => trivial) fun op commands => ?_
  cases op <;> trivial

theorem handleReload_built : OnRequest handleReload := by
  refine .bind (.single (.op trivial)) fun loaded => ?_
  cases loaded with
  | error error => exact .done _
  | ok newCfg =>
    have verify : OnRequest verifyRunningServices := by
      refine verifyRunningServices_built.widen (fun _ _ => trivial) fun op looks => ?_
      cases op <;> trivial
    exact .bind (.single (.op trivial)) fun _ => .bind reloadScheduler_built fun _ => .bind verify fun _ =>
      .bind (.single (.op trivial)) fun _ => .done _

theorem assign_built {α : Type} (value : Option α) (set : α → Prog Unit)
    (h : ∀ v, OnRequest (set v)) : OnRequest (assign value set) := by
  cases value with
  | none => exact .done _
  | some v => exact h v

theorem writeConfig_built : OnRequest writeConfig := by
  refine .of_uses writeConfig_uses fun op member => .op ?_
  cases op <;> trivial

theorem save_built {answer : Prog Response} (h : OnRequest answer) : OnRequest (save answer) := by
  refine .bind writeConfig_built fun error => ?_
  split
  · exact .done _
  · exact h

theorem handlePatchConfig_built (name : String) (body : Option ConfigPatch) :
    OnRequest (handlePatchConfig name body) := by
  cases body with
  | none => exact .done _
  | some payload =>
    refine .bind (.single (.op trivial)) fun cfg => ?_
    split
    · exact .done _
    refine .bind (assign_built _ _ fun v => .bind (.single (.op trivial)) fun _ => ?_) fun _ =>
      .bind (assign_built _ _ fun _ => .single (.op trivial)) fun _ =>
      .bind (assign_built _ _ fun _ => .single (.op trivial)) fun _ =>
      .bind (assign_built _ _ fun _ => .single (.op trivial)) fun _ => ?_
    · split
      · exact .bind (.single (.op trivial)) fun _ => .single (.op trivial)
      · exact .done _
    split
    · exact .bind (assign_built _ _ fun _ => .single (.op trivial)) fun _ =>
        .bind (assign_built _ _ fun _ => .single (.op trivial)) fun _ =>
        save_built (.bind (.single (.op trivial)) fun _ => .done _)
    · exact .done _

theorem handlePatchBackup_built (name : String) (body : Option BackupPatch) :
    OnRequest (handlePatchBackup name body) := by
  cases body with
  | none => exact .done _
  | some payload =>
    refine .bind (.single (.op trivial)) fun cfg => ?_
    split
    · exact .done _
    exact .bind (assign_built _ _ fun _ => .single (.op trivial)) fun _ =>
      .bind (assign_built _ _ fun _ => .single (.op trivial)) fun _ =>
      .bind (assign_built _ _ fun _ => .single (.op trivial)) fun _ =>
      .bind (assign_built _ _ fun _ => .single (.op trivial)) fun _ =>
      .bind (assign_built _ _ fun _ => .single (.op trivial)) fun _ =>
      save_built (.bind reloadScheduler_built fun _ => .bind (.single (.op trivial)) fun _ => .done _)

theorem handlePatchStorage_built (body : Option StorageConfigPatch) :
    OnRequest (handlePatchStorage body) := by
  cases body with
  | none => exact .done _
  | some payload =>
    refine .bind (.single (.op trivial)) fun _ => .bind writeConfig_built fun error => ?_
    cases error <;> exact .done _

theorem handleUnmount_looks (body : Option String) : (handleUnmount body).Uses Op.looks := by
  cases body with
  | none => exact .done _
  | some mountpoint =>
    refine .bind (.perform trivial) fun cfg => .bind (.fold fun activeDeps svc => ?_) fun activeDeps => ?_
    · split
      · exact .bind (.perform trivial) fun _ => .done _
      · exact .done _
    split
    · exact .done _
    refine .bind (.perform trivial) fun error => ?_
    cases error <;> exact .done _

theorem handle_built (request : Request) : OnRequest (handle request) := by
  cases request with
  | start unit => exact onCommand_onRequest (handleStart_built unit)
  | stop unit => exact onCommand_onRequest (handleStop_built unit)
  | restart unit => exact onCommand_onRequest (handleRestart_built unit)
  | startAll => exact onCommand_onRequest handleStartAll_built
  | stopAll => exact onCommand_onRequest handleStopAll_built
  | reload => exact handleReload_built
  | patchConfig unit body => exact handlePatchConfig_built unit body
  | patchBackup unit body => exact handlePatchBackup_built unit body
  | patchStorage body => exact handlePatchStorage_built body
  | runBackup unit => exact .bind (.single (.op trivial)) fun _ => .done _
  | unmount body =>
    refine .of_uses (handleUnmount_looks body) fun op looks => .op ?_
    cases op <;> trivial

/-! ### What they lead to -/

/-- An assignment of the payload. The policy is one of the known. -/
inductive ConfigPatch.Sets (p : ConfigPatch) : (Service → Service) → Prop where
  | enabled {v : Bool} (given : v ∈ p.enabled) : p.Sets fun s => { s with enabled := v }
  | order {v : Int} (given : v ∈ p.order) : p.Sets fun s => { s with order := v }
  | bootDelay {v : Int} (given : v ∈ p.bootDelay) : p.Sets fun s => { s with bootDelay := v }
  | dependsOn {v : List String} (given : v ∈ p.dependsOn) : p.Sets fun s => { s with dependsOn := v }
  | restart {v : String} (given : v ∈ p.restart) (valid : v ∈ policies) : p.Sets fun s => { s with restart := v }
  | restartDelay {v : Int} (given : v ∈ p.restartDelay) : p.Sets fun s => { s with restartDelay := v }

inductive BackupPatch.Sets (p : BackupPatch) : (Backup → Backup) → Prop where
  | enabled {v : Bool} (given : v ∈ p.enabled) : p.Sets fun b => { b with enabled := v }
  | schedule {v : String} (given : v ∈ p.schedule) : p.Sets fun b => { b with schedule := v }
  | healthcheckUUID {v : String} (given : v ∈ p.healthcheckUUID) : p.Sets fun b => { b with healthcheckUUID := v }
  | pauseService {v : String} (given : v ∈ p.pauseService) : p.Sets fun b => { b with pauseService := v }
  | dependsOn {v : List String} (given : v ∈ p.dependsOn) : p.Sets fun b => { b with dependsOn := v }

/-- An operation on the temporary file, which gets this content. -/
def Op.onTemp (file : Nat) (data : Text) : Op → Prop
  | .writeTemp f d => f = file ∧ d = data
  | .syncTemp f | .closeTemp f | .chmodTemp f | .renameTemp f | .removeTemp f => f = file
  | _ => False

section Reaches
variable {may : (op : Op) → op.Ans → Prop} {target : Op → Prop}

theorem assign_reaches {α : Type} {value : Option α} {set : α → Prog Unit} (h : (assign value set).Reaches may target) :
    ∃ v ∈ value, (set v).Reaches may target := by
  cases value with
  | none => exact False.elim h
  | some v => exact ⟨v, rfl, h⟩

/-- Only its own temporary file is touched, and only what was read is written. -/
theorem writeConfig_reaches (h : writeConfig.Reaches may target) :
    target .config ∨ target .createTemp ∨ ∃ cfg file op, may .config cfg ∧ may .createTemp (.ok file) ∧
      op.onTemp file (render cfg) ∧ target op := by
  rcases (reaches_bind _ _).mp h with h | ⟨_, ⟨cfg, read, rfl⟩, h⟩
  · exact .inl ((reaches_perform _).mp h)
  rcases (reaches_bind _ _).mp h with h | ⟨_, ⟨created, fresh, rfl⟩, h⟩
  · exact .inr (.inl ((reaches_perform _).mp h))
  refine .inr (.inr ?_)
  cases created with
  | error error => exact False.elim h
  | ok file =>
    have own : ∀ {op : Op}, (perform op).Reaches may target → op.onTemp file (render cfg) →
      ∃ cfg file op, may .config cfg ∧
        may .createTemp (.ok file) ∧ op.onTemp file (render cfg) ∧ target op :=
      fun h temp => ⟨cfg, file, _, read, fresh, temp, (reaches_perform _).mp h⟩
    have cleaned : ∀ {error : String}, (cleanup file error).Reaches may target → ∃ cfg file op, may .config cfg ∧
        may .createTemp (.ok file) ∧ op.onTemp file (render cfg) ∧ target op := by
      intro error h
      rcases (reaches_bind _ _).mp h with h | ⟨_, _, h⟩
      · exact own h rfl
      rcases (reaches_bind _ _).mp h with h | ⟨_, _, h⟩
      · exact own h rfl
      · exact False.elim h
    rcases (reaches_bind _ _).mp h with h | ⟨written, _, h⟩
    · exact own h ⟨rfl, rfl⟩
    cases written with
    | some error => exact cleaned h
    | none =>
      rcases (reaches_bind _ _).mp h with h | ⟨synced, _, h⟩
      · exact own h rfl
      cases synced with
      | some error => exact cleaned h
      | none =>
        rcases (reaches_bind _ _).mp h with h | ⟨closed, _, h⟩
        · exact own h rfl
        split at h
        · exact False.elim h
        rcases (reaches_bind _ _).mp h with h | ⟨chmodded, _, h⟩
        · exact own h rfl
        cases chmodded with
        | some error => exact cleaned h
        | none => exact own h rfl

theorem save_reaches {answer : Prog Response} (h : (save answer).Reaches may target) :
    writeConfig.Reaches may target ∨ answer.Reaches may target := by
  rcases (reaches_bind _ _).mp h with h | ⟨error, _, h⟩
  · exact .inl h
  split at h
  · exact False.elim h
  · exact .inr h

theorem handleReload_reaches (h : handleReload.Reaches may target) :
    target (.ask .loadConfig) ∨ (∃ cfg, may (.ask .loadConfig) (.ok cfg) ∧ target (.updateConfig fun _ => cfg)) ∨
    reloadScheduler.Reaches may target ∨ verifyRunningServices.Reaches may target ∨ target .config := by
  rcases (reaches_bind _ _).mp h with h | ⟨_, ⟨loaded, read, rfl⟩, h⟩
  · exact .inl ((reaches_perform _).mp h)
  cases loaded with
  | error error => exact False.elim h
  | ok cfg =>
    rcases (reaches_bind _ _).mp h with h | ⟨_, _, h⟩
    · exact .inr (.inl ⟨cfg, read, (reaches_perform _).mp h⟩)
    rcases (reaches_bind _ _).mp h with h | ⟨_, _, h⟩
    · exact .inr (.inr (.inl h))
    rcases (reaches_bind _ _).mp h with h | ⟨_, _, h⟩
    · exact .inr (.inr (.inr (.inl h)))
    rcases (reaches_bind _ _).mp h with h | ⟨_, _, h⟩
    · exact .inr (.inr (.inr (.inr ((reaches_perform _).mp h))))
    · exact False.elim h

theorem handlePatchConfig_reaches {name : String} {body : Option ConfigPatch}
    (h : (handlePatchConfig name body).Reaches may target) :
    target .config ∨ (∃ p idx f, body = some p ∧ p.Sets f ∧
      (∃ cfg, may .config cfg ∧ cfg.services.findIdx? (·.unit == withServiceSuffix name) = some idx) ∧
      target (.updateConfig fun cfg => { cfg with services := cfg.services.modify idx f })) ∨
    target (.setUserStopped (withServiceSuffix name) false) ∨ target (.breakerReset (withServiceSuffix name)) ∨
    writeConfig.Reaches may target := by
  unfold handlePatchConfig at h
  cases body with
  | none => exact False.elim h
  | some p =>
    rcases (reaches_bind _ _).mp h with h | ⟨_, ⟨cfg, read, rfl⟩, h⟩
    · exact .inl ((reaches_perform _).mp h)
    split at h
    · exact False.elim h
    rename_i idx found
    have sets : ∀ {f}, p.Sets f → (modifyService idx f).Reaches may target → ∃ q idx f, some p = some q ∧ q.Sets f ∧
        (∃ cfg, may .config cfg ∧ cfg.services.findIdx? (·.unit == withServiceSuffix name) = some idx) ∧
        target (.updateConfig fun cfg => { cfg with services := cfg.services.modify idx f }) :=
      fun sets h => ⟨p, idx, _, rfl, sets, ⟨cfg, read, found⟩, (reaches_perform _).mp h⟩
    unfold patchService at h
    rcases (reaches_bind _ _).mp h with h | ⟨_, _, h⟩
    · obtain ⟨enabled, given, h⟩ := assign_reaches h
      rcases (reaches_bind _ _).mp h with h | ⟨_, _, h⟩
      · exact .inr (.inl (sets (.enabled given) h))
      split at h
      · rcases (reaches_bind _ _).mp h with h | ⟨_, _, h⟩
        · exact .inr (.inr (.inl ((reaches_perform _).mp h)))
        · exact .inr (.inr (.inr (.inl ((reaches_perform _).mp h))))
      · exact False.elim h
    rcases (reaches_bind _ _).mp h with h | ⟨_, _, h⟩
    · obtain ⟨order, given, h⟩ := assign_reaches h
      exact .inr (.inl (sets (.order given) h))
    rcases (reaches_bind _ _).mp h with h | ⟨_, _, h⟩
    · obtain ⟨bootDelay, given, h⟩ := assign_reaches h
      exact .inr (.inl (sets (.bootDelay given) h))
    rcases (reaches_bind _ _).mp h with h | ⟨_, _, h⟩
    · obtain ⟨dependsOn, given, h⟩ := assign_reaches h
      exact .inr (.inl (sets (.dependsOn given) h))
    split at h
    · rename_i valid
      rcases (reaches_bind _ _).mp h with h | ⟨_, _, h⟩
      · obtain ⟨policy, given, h⟩ := assign_reaches h
        rw [Option.mem_def.mp given] at valid
        exact .inr (.inl (sets (.restart given (of_decide_eq_true valid)) h))
      rcases (reaches_bind _ _).mp h with h | ⟨_, _, h⟩
      · obtain ⟨restartDelay, given, h⟩ := assign_reaches h
        exact .inr (.inl (sets (.restartDelay given) h))
      rcases save_reaches h with h | h
      · exact .inr (.inr (.inr (.inr h)))
      rcases (reaches_bind _ _).mp h with h | ⟨_, _, h⟩
      · exact .inl ((reaches_perform _).mp h)
      · exact False.elim h
    · exact False.elim h

theorem handlePatchBackup_reaches {name : String} {body : Option BackupPatch}
    (h : (handlePatchBackup name body).Reaches may target) :
    target .config ∨ (∃ p idx f, body = some p ∧ p.Sets f ∧
      (∃ cfg, may .config cfg ∧ cfg.backups.findIdx? (·.unit == withServiceSuffix name) = some idx) ∧
      target (.updateConfig fun cfg => { cfg with backups := cfg.backups.modify idx f })) ∨
    reloadScheduler.Reaches may target ∨ writeConfig.Reaches may target := by
  unfold handlePatchBackup at h
  cases body with
  | none => exact False.elim h
  | some p =>
    rcases (reaches_bind _ _).mp h with h | ⟨_, ⟨cfg, read, rfl⟩, h⟩
    · exact .inl ((reaches_perform _).mp h)
    split at h
    · exact False.elim h
    rename_i idx found
    have sets : ∀ {f}, p.Sets f → (modifyBackup idx f).Reaches may target → ∃ q idx f, some p = some q ∧ q.Sets f ∧
        (∃ cfg, may .config cfg ∧ cfg.backups.findIdx? (·.unit == withServiceSuffix name) = some idx) ∧
        target (.updateConfig fun cfg => { cfg with backups := cfg.backups.modify idx f }) :=
      fun sets h => ⟨p, idx, _, rfl, sets, ⟨cfg, read, found⟩, (reaches_perform _).mp h⟩
    unfold patchBackupAt at h
    rcases (reaches_bind _ _).mp h with h | ⟨_, _, h⟩
    · obtain ⟨enabled, given, h⟩ := assign_reaches h
      exact .inr (.inl (sets (.enabled given) h))
    rcases (reaches_bind _ _).mp h with h | ⟨_, _, h⟩
    · obtain ⟨schedule, given, h⟩ := assign_reaches h
      exact .inr (.inl (sets (.schedule given) h))
    rcases (reaches_bind _ _).mp h with h | ⟨_, _, h⟩
    · obtain ⟨healthcheckUUID, given, h⟩ := assign_reaches h
      exact .inr (.inl (sets (.healthcheckUUID given) h))
    rcases (reaches_bind _ _).mp h with h | ⟨_, _, h⟩
    · obtain ⟨pauseService, given, h⟩ := assign_reaches h
      exact .inr (.inl (sets (.pauseService given) h))
    rcases (reaches_bind _ _).mp h with h | ⟨_, _, h⟩
    · obtain ⟨dependsOn, given, h⟩ := assign_reaches h
      exact .inr (.inl (sets (.dependsOn given) h))
    rcases save_reaches h with h | h
    · exact .inr (.inr (.inr h))
    rcases (reaches_bind _ _).mp h with h | ⟨_, _, h⟩
    · exact .inr (.inr (.inl h))
    rcases (reaches_bind _ _).mp h with h | ⟨_, _, h⟩
    · exact .inl ((reaches_perform _).mp h)
    · exact False.elim h

theorem handlePatchStorage_reaches {body : Option StorageConfigPatch}
    (h : (handlePatchStorage body).Reaches may target) :
    (∃ p, body = some p ∧ target (.updateConfig fun cfg =>
    { cfg with storage := { cfg.storage with pools := p.pools } })) ∨
    writeConfig.Reaches may target := by
  cases body with
  | none => exact False.elim h
  | some p =>
    rcases (reaches_bind _ _).mp h with h | ⟨_, _, h⟩
    · exact .inl ⟨p, rfl, (reaches_perform _).mp h⟩
    rcases (reaches_bind _ _).mp h with h | ⟨error, _, h⟩
    · exact .inr h
    cases error <;> exact False.elim h

end Reaches

end HomelabDaemon
