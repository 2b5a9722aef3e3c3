import HomelabDaemon.System

/-!
# What a PATCH does

The effect of each PATCH when nothing else runs: the fields it sets, and the ways it ends.
-/

namespace HomelabDaemon
open Concurrency Program Machine

namespace ConfigPatch

def valid (p : ConfigPatch) : Bool := p.restart.all (· ∈ policies)

/-- The fields that are assigned before the policy is checked. -/
def early (p : ConfigPatch) (s : Service) : Service :=
  { s with
    enabled := p.enabled.getD s.enabled
    order := p.order.getD s.order
    bootDelay := p.bootDelay.getD s.bootDelay
    dependsOn := p.dependsOn.getD s.dependsOn }

def apply (p : ConfigPatch) (s : Service) : Service :=
  { p.early s with
    restart := p.restart.getD s.restart
    restartDelay := p.restartDelay.getD s.restartDelay }

end ConfigPatch

def BackupPatch.apply (p : BackupPatch) (b : Backup) : Backup :=
  { b with
    enabled := p.enabled.getD b.enabled
    schedule := p.schedule.getD b.schedule
    healthcheckUUID := p.healthcheckUUID.getD b.healthcheckUUID
    pauseService := p.pauseService.getD b.pauseService
    dependsOn := p.dependsOn.getD b.dependsOn }

def Config.setService (cfg : Config) (idx : Nat) (f : Service → Service) : Config :=
  { cfg with services := cfg.services.modify idx f }

def Config.setBackup (cfg : Config) (idx : Nat) (f : Backup → Backup) : Config :=
  { cfg with backups := cfg.backups.modify idx f }

def Config.setPools (cfg : Config) (pools : List StoragePoolConfig) : Config :=
  { cfg with storage := { cfg.storage with pools := pools } }

theorem Config.setService_setService (cfg : Config) (idx : Nat) (f g : Service → Service) :
    (cfg.setService idx f).setService idx g = cfg.setService idx (g ∘ f) := by
  unfold Config.setService
  rw [List.modify_modify_eq]

theorem Config.setService_id (cfg : Config) (idx : Nat) : cfg.setService idx (fun s => s) = cfg := by
  have same : cfg.services.modify idx (fun s => s) = cfg.services := List.modify_id idx cfg.services
  unfold Config.setService
  rw [same]

theorem Config.setBackup_setBackup (cfg : Config) (idx : Nat) (f g : Backup → Backup) :
    (cfg.setBackup idx f).setBackup idx g = cfg.setBackup idx (g ∘ f) := by
  unfold Config.setBackup
  rw [List.modify_modify_eq]

theorem Config.setBackup_id (cfg : Config) (idx : Nat) : cfg.setBackup idx (fun b => b) = cfg := by
  have same : cfg.backups.modify idx (fun b => b) = cfg.backups := List.modify_id idx cfg.backups
  unfold Config.setBackup
  rw [same]

/-- Re-enabling a unit clears its user stop and its breaker. -/
def World.reenable (w : World) (unit : String) (enabled : Option Bool) : World :=
  if enabled = some true then
    { w with userStopped := w.userStopped.erase unit, breaker := Function.update w.breaker unit {} }
  else w

section Ends
variable {α : Type} {g : Unit → Prog α} {w w' : World} {res : α}

theorem alone_readConfig {f : Config → Prog α} {trace : List (Act Op Op.Ans)} :
    daemon.Alone (readConfig >>= f) w trace res w' ↔
      ∃ rest, trace = ⟨.config, w.cfg⟩ :: rest ∧ daemon.Alone (f w.cfg) w rest res w' := by
  rw [perform_bind, alone_call]
  constructor
  · rintro ⟨cfg, rest, rfl, read, h⟩
    obtain rfl : cfg = w.cfg := of_decide_eq_true read
    exact ⟨rest, rfl, h⟩
  · rintro ⟨rest, rfl, h⟩
    exact ⟨w.cfg, rest, rfl, decide_eq_true rfl, h⟩

theorem ends_readConfig {f : Config → Prog α} :
    daemon.Ends (readConfig >>= f) w res w' ↔ daemon.Ends (f w.cfg) w res w' := by
  constructor
  · rintro ⟨trace, alone⟩
    obtain ⟨rest, _, h⟩ := alone_readConfig.mp alone
    exact ⟨rest, h⟩
  · rintro ⟨rest, h⟩
    exact ⟨_, alone_readConfig.mpr ⟨rest, rfl, h⟩⟩

theorem ends_update {f : Config → Config} :
    daemon.Ends (perform (Op.updateConfig f) >>= g) w res w' ↔
      daemon.Ends (g ()) { w with cfg := f w.cfg } res w' := by
  rw [perform_bind, ends_call]
  exact ⟨fun ⟨_, _, h⟩ => h, fun h => ⟨(), rfl, h⟩⟩

theorem ends_assignService {β : Type} {value : Option β} {idx : Nat} (field : Service → β)
    (set : β → Service → Service) (same : ∀ s, set (field s) s = s) :
    daemon.Ends (assign value (fun v => modifyService idx (set v)) >>= g) w res w' ↔
      daemon.Ends (g ()) { w with cfg := w.cfg.setService idx fun s => set (value.getD (field s)) s } res w' := by
  cases value with
  | none =>
    simp only [Option.getD, same, Config.setService_id]
    rfl
  | some v => exact ends_update

theorem ends_assignBackup {β : Type} {value : Option β} {idx : Nat} (field : Backup → β)
    (set : β → Backup → Backup) (same : ∀ b, set (field b) b = b) :
    daemon.Ends (assign value (fun v => modifyBackup idx (set v)) >>= g) w res w' ↔
      daemon.Ends (g ()) { w with cfg := w.cfg.setBackup idx fun b => set (value.getD (field b)) b } res w' := by
  cases value with
  | none =>
    simp only [Option.getD, same, Config.setBackup_id]
    rfl
  | some v => exact ends_update

theorem ends_assignEnabled {enabled : Option Bool} {unit : String} {idx : Nat} :
    daemon.Ends (assign enabled (assignEnabled unit idx) >>= g) w res w' ↔
      daemon.Ends (g ()) { w.reenable unit enabled with
        cfg := w.cfg.setService idx fun s => { s with enabled := enabled.getD s.enabled } } res w' := by
  cases enabled with
  | none =>
    have same : w.cfg.setService idx (fun s => { s with enabled := none.getD s.enabled }) = w.cfg :=
      w.cfg.setService_id idx
    rw [same]
    rfl
  | some value =>
    change daemon.Ends ((modifyService idx _ >>= _) >>= g) w res w' ↔ _
    rw [bind_assoc, modifyService, ends_update]
    cases value with
    | false => rfl
    | true =>
      constructor
      · intro h
        obtain ⟨_, _, h⟩ := ends_call.mp h
        obtain ⟨_, _, h⟩ := ends_call.mp h
        exact h
      · intro h
        exact ends_call.mpr ⟨(), rfl, ends_call.mpr ⟨(), rfl, h⟩⟩

end Ends

/-! ### Saving -/

/-- What a PATCH must leave alone when it fails. -/
structure Unchanged (w w' : World) : Prop where
  cfg : w'.cfg = w.cfg
  userStopped : w'.userStopped = w.userStopped
  breaker : w'.breaker = w.breaker
  entries : w'.entries = w.entries
  file : w'.file = w.file

variable {w w' : World}

theorem Unchanged.refl (w : World) : Unchanged w w := ⟨rfl, rfl, rfl, rfl, rfl⟩

theorem cleanup_ends {file : Nat} {message : String} {error : Option String}
    (h : daemon.Ends (cleanup file message) w error w') : error = some message ∧ Unchanged w w' := by
  obtain ⟨_, _, h⟩ := ends_call.mp h
  obtain ⟨removed, _, h⟩ := ends_call.mp h
  obtain ⟨rfl, rfl⟩ := ends_done.mp h
  refine ⟨rfl, ?_⟩
  cases removed <;> exact ⟨rfl, rfl, rfl, rfl, rfl⟩

theorem renamed_text (temps : Nat → Option Text) (file : Nat) (text : Text) :
    (Function.update temps file (some text) file).getD [] = text := by
  rw [Function.update_self]
  rfl

theorem writeConfig_ends {error : Option String} (h : daemon.Ends writeConfig w error w') :
    Unchanged { w with file := if error.isSome then w.file else render w.cfg } w' := by
  have failed : ∀ {v : World} {file : Nat} {message : String},
      daemon.Ends (cleanup file message) v error w' → Unchanged w v →
      Unchanged { w with file := if error.isSome then w.file else render w.cfg } w' := by
    intro v file message h before
    obtain ⟨rfl, after⟩ := cleanup_ends h
    exact ⟨after.cfg.trans before.cfg, after.userStopped.trans before.userStopped,
      after.breaker.trans before.breaker, after.entries.trans before.entries, after.file.trans before.file⟩
  unfold writeConfig at h
  rw [ends_readConfig] at h
  obtain ⟨created, _, h⟩ := ends_call.mp h
  cases created with
  | error message =>
    obtain ⟨rfl, rfl⟩ := ends_done.mp h
    exact Unchanged.refl _
  | ok file =>
    obtain ⟨written, _, h⟩ := ends_call.mp h
    cases written with
    | some message => exact failed h ⟨rfl, rfl, rfl, rfl, rfl⟩
    | none =>
      obtain ⟨synced, _, h⟩ := ends_call.mp h
      cases synced with
      | some message => exact failed h ⟨rfl, rfl, rfl, rfl, rfl⟩
      | none =>
        obtain ⟨closed, _, h⟩ := ends_call.mp h
        cases closed with
        | some message =>
          obtain ⟨rfl, rfl⟩ := ends_done.mp h
          exact ⟨rfl, rfl, rfl, rfl, rfl⟩
        | none =>
          obtain ⟨chmodded, _, h⟩ := ends_call.mp h
          cases chmodded with
          | some message => exact failed h ⟨rfl, rfl, rfl, rfl, rfl⟩
          | none =>
            obtain ⟨renamed, _, h⟩ := ends_call.mp h
            obtain ⟨rfl, rfl⟩ := ends_done.mp h
            cases error with
            | some message => exact ⟨rfl, rfl, rfl, rfl, rfl⟩
            | none =>
              refine ⟨rfl, rfl, rfl, rfl, ?_⟩
              exact renamed_text _ file (render w.cfg)

/-- A write may fail before it touches anything. -/
theorem writeConfig_fails (w : World) (message : String) : daemon.Ends writeConfig w (some message) w :=
  ends_readConfig.mpr (ends_call.mpr ⟨.error message, rfl, ends_done.mpr ⟨rfl, rfl⟩⟩)

/-- The world in which a service's PATCH goes on after the assignments `set`. -/
def World.patchService (w : World) (unit : String) (idx : Nat) (enabled : Option Bool)
    (set : Service → Service) : World :=
  { w.reenable unit enabled with cfg := w.cfg.setService idx set }

variable {res : Response}

theorem ends_save {answer : Prog Response} :
    daemon.Ends (save answer) w res w' ↔ ∃ error mid, daemon.Ends writeConfig w error mid ∧
      if error.isSome then res = .httpError (errorBody "failed to save config") 500 ∧ w' = mid
      else daemon.Ends answer mid res w' := by
  unfold save
  rw [ends_bind]
  apply exists_congr
  intro error
  apply exists_congr
  intro mid
  cases error with
  | none => rfl
  | some message => exact and_congr_right fun _ => ends_done

theorem ends_patchService {unit : String} {idx : Nat} {p : ConfigPatch} :
    daemon.Ends (patchService unit idx p) w res w' ↔
      if p.valid then daemon.Ends (save (readConfig >>= fun cfg => return .service cfg.services[idx]?))
        (w.patchService unit idx p.enabled p.apply) res w'
      else res = .httpError (errorBody "invalid restart policy") 400 ∧
        w' = w.patchService unit idx p.enabled p.early := by
  unfold patchService
  rw [ends_assignEnabled]
  rw [ends_assignService (·.order) (fun v s => { s with order := v }) fun _ => rfl]
  rw [ends_assignService (·.bootDelay) (fun v s => { s with bootDelay := v }) fun _ => rfl]
  rw [ends_assignService (·.dependsOn) (fun v s => { s with dependsOn := v }) fun _ => rfl]
  simp only [Config.setService_setService]
  change daemon.Ends (if p.valid = true then _ else _) _ _ _ ↔ _
  by_cases valid : p.valid
  · rw [if_pos valid, if_pos valid]
    rw [ends_assignService (·.restart) (fun v s => { s with restart := v }) fun _ => rfl]
    rw [ends_assignService (·.restartDelay) (fun v s => { s with restartDelay := v }) fun _ => rfl]
    simp only [Config.setService_setService]
    rfl
  · rw [if_neg valid, if_neg valid]
    exact ends_done

theorem ends_patchBackup {idx : Nat} {p : BackupPatch} :
    daemon.Ends (patchBackupAt idx p) w res w' ↔
      daemon.Ends (save (reloadScheduler >>= fun _ => readConfig >>= fun cfg => return .backup cfg.backups[idx]?))
        { w with cfg := w.cfg.setBackup idx p.apply } res w' := by
  unfold patchBackupAt
  rw [ends_assignBackup (·.enabled) (fun v b => { b with enabled := v }) fun _ => rfl]
  rw [ends_assignBackup (·.schedule) (fun v b => { b with schedule := v }) fun _ => rfl]
  rw [ends_assignBackup (·.healthcheckUUID) (fun v b => { b with healthcheckUUID := v }) fun _ => rfl]
  rw [ends_assignBackup (·.pauseService) (fun v b => { b with pauseService := v }) fun _ => rfl]
  rw [ends_assignBackup (·.dependsOn) (fun v b => { b with dependsOn := v }) fun _ => rfl]
  simp only [Config.setBackup_setBackup]
  rfl

theorem ends_patchStorage {p : StorageConfigPatch} :
    daemon.Ends (handlePatchStorage (some p)) w res w' ↔ ∃ error,
      daemon.Ends writeConfig { w with cfg := w.cfg.setPools p.pools } error w' ∧
      res = match error with | some message => .httpError message 500 | none => .success := by
  unfold handlePatchStorage
  rw [ends_update, ends_bind]
  apply exists_congr
  intro error
  constructor
  · rintro ⟨mid, written, h⟩
    cases error <;> obtain ⟨rfl, rfl⟩ := ends_done.mp h <;> exact ⟨written, rfl⟩
  · rintro ⟨written, rfl⟩
    exact ⟨w', written, by cases error <;> exact ends_done.mpr ⟨rfl, rfl⟩⟩

end HomelabDaemon
