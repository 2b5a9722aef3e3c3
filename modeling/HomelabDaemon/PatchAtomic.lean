import HomelabDaemon.Patch

/-!
# Failed PATCHes

A PATCH assigns its fields before it knows that they are valid and saved, and takes nothing
back. So a failed one changes nothing only where it asked for nothing new.
-/

namespace HomelabDaemon
open Concurrency Program Machine

namespace PatchAtomic

inductive Patch where
  | config (name : String) (body : Option ConfigPatch)
  | backup (name : String) (body : Option BackupPatch)
  | storage (body : Option StorageConfigPatch)

def Patch.request : Patch → Request
  | config name body => .patchConfig name body
  | backup name body => .patchBackup name body
  | storage body => .patchStorage body

def isError : Response → Bool
  | .httpError _ _ => true
  | _ => false

def Atomic (w : World) (patch : Patch) : Prop :=
  ∀ res w', daemon.Ends (handle patch.request) w res w' → isError res = true → Unchanged w w'

def agreesEarly (p : ConfigPatch) (s : Service) : Prop :=
  (∀ v ∈ p.enabled, s.enabled = v) ∧ (∀ v ∈ p.order, s.order = v) ∧ (∀ v ∈ p.bootDelay, s.bootDelay = v) ∧
  ∀ v ∈ p.dependsOn, s.dependsOn = v

def agreesLate (p : ConfigPatch) (s : Service) : Prop :=
  (∀ v ∈ p.restart, s.restart = v) ∧ ∀ v ∈ p.restartDelay, s.restartDelay = v

def agrees (p : BackupPatch) (b : Backup) : Prop :=
  (∀ v ∈ p.enabled, b.enabled = v) ∧ (∀ v ∈ p.schedule, b.schedule = v) ∧
  (∀ v ∈ p.healthcheckUUID, b.healthcheckUUID = v) ∧ (∀ v ∈ p.pauseService, b.pauseService = v) ∧
  ∀ v ∈ p.dependsOn, b.dependsOn = v

/-- Neither a user stop nor a failure would be cleared. -/
def untroubled (w : World) (unit : String) (enabled : Option Bool) : Prop :=
  enabled = some true → unit ∉ w.userStopped ∧ w.breaker unit = {}

/-- What is assigned before a step that may fail is there already. An invalid policy fails after
the early fields, a write after all of them. -/
def Patch.idle (w : World) : Patch → Prop
  | config name (some p) => ∀ svc, w.cfg.services.find? (·.unit == withServiceSuffix name) = some svc →
      untroubled w (withServiceSuffix name) p.enabled ∧ agreesEarly p svc ∧ (p.valid = true → agreesLate p svc)
  | backup name (some p) => ∀ b, w.cfg.backups.find? (·.unit == withServiceSuffix name) = some b → agrees p b
  | storage (some p) => p.pools = w.cfg.storage.pools
  | _ => True

theorem getD_eq_iff {α : Type} {o : Option α} {a : α} : o.getD a = a ↔ ∀ v ∈ o, a = v := by
  cases o with
  | none => simp
  | some v => simp [eq_comm]

theorem early_eq_iff {p : ConfigPatch} {s : Service} : p.early s = s ↔ agreesEarly p s := by
  cases s
  simp only [ConfigPatch.early, agreesEarly, Service.mk.injEq, getD_eq_iff, true_and, and_true]

theorem apply_eq_iff {p : ConfigPatch} {s : Service} :
    p.apply s = s ↔ agreesEarly p s ∧ agreesLate p s := by
  cases s
  simp only [ConfigPatch.apply, ConfigPatch.early, agreesEarly, agreesLate, Service.mk.injEq, getD_eq_iff,
    true_and, and_true, and_assoc]

theorem backupApply_eq_iff {p : BackupPatch} {b : Backup} : p.apply b = b ↔ agrees p b := by
  cases b
  simp only [BackupPatch.apply, agrees, Backup.mk.injEq, getD_eq_iff, true_and]
  tauto

theorem modify_eq_self_iff {α : Type} {xs : List α} {i : Nat} {a : α} {f : α → α} (found : xs[i]? = some a) :
    xs.modify i f = xs ↔ f a = a := by
  constructor
  · intro same
    have at_ : (xs.modify i f)[i]? = some (f a) := by
      rw [List.getElem?_modify_eq, found]
      rfl
    rw [same, found] at at_
    exact (Option.some.inj at_).symm
  · intro same
    apply List.ext_getElem?
    intro j
    rw [List.getElem?_modify]
    by_cases here : i = j
    · subst here
      simp [found, same]
    · simp [here]

theorem found_at {α : Type} {xs : List α} {test : α → Bool} {i : Nat} (found : xs.findIdx? test = some i) :
    ∃ a, xs.find? test = some a ∧ xs[i]? = some a := by
  obtain ⟨bound, passes, first⟩ := List.findIdx?_eq_some_iff_getElem.mp found
  refine ⟨xs[i], List.find?_eq_some_iff_getElem.mpr ⟨passes, i, bound, rfl, ?_⟩, List.getElem?_eq_getElem bound⟩
  intro j before
  have fails := first j before
  simpa using fails

theorem find_none {α : Type} {xs : List α} {test : α → Bool} (none : xs.findIdx? test = none) :
    xs.find? test = .none := by
  rw [List.find?_eq_none]
  intro a member
  have fails := List.findIdx?_eq_none_iff.mp none a member
  simpa using fails

/-! ### Worlds that stay -/

variable {w w' : World}

theorem Unchanged.trans {w₁ w₂ w₃ : World} (first : Unchanged w₁ w₂) (second : Unchanged w₂ w₃) :
    Unchanged w₁ w₃ :=
  ⟨second.cfg.trans first.cfg, second.userStopped.trans first.userStopped, second.breaker.trans first.breaker,
    second.entries.trans first.entries, second.file.trans first.file⟩

theorem reenable_eq_iff {unit : String} {enabled : Option Bool} :
    (w.reenable unit enabled).userStopped = w.userStopped ∧ (w.reenable unit enabled).breaker = w.breaker ↔
      untroubled w unit enabled := by
  unfold World.reenable untroubled
  by_cases enabling : enabled = some true
  · simp only [enabling, ↓reduceIte, forall_const]
    exact and_congr Finset.erase_eq_self (Function.update_eq_self_iff.trans eq_comm)
  · simp [enabling]

theorem patchService_unchanged_iff {unit : String} {idx : Nat} {enabled : Option Bool} {set : Service → Service}
    {svc : Service} (found : w.cfg.services[idx]? = some svc) :
    Unchanged w (w.patchService unit idx enabled set) ↔ untroubled w unit enabled ∧ set svc = svc := by
  have entries : (w.patchService unit idx enabled set).entries = w.entries := by
    unfold World.patchService World.reenable
    split <;> rfl
  have file : (w.patchService unit idx enabled set).file = w.file := by
    unfold World.patchService World.reenable
    split <;> rfl
  rw [← reenable_eq_iff, ← modify_eq_self_iff found]
  constructor
  · intro same
    exact ⟨⟨same.userStopped, same.breaker⟩, congrArg Config.services same.cfg⟩
  · rintro ⟨⟨stops, breaker⟩, services⟩
    refine ⟨?_, stops, breaker, entries, file⟩
    change { w.cfg with services := w.cfg.services.modify idx set } = w.cfg
    rw [services]

/-- When everything before the save is in `mid`, a failure leaves exactly `mid`. -/
theorem save_atomic_iff {mid : World} {answer : Prog Response}
    (silent : ∀ {v res w'}, daemon.Ends answer v res w' → isError res = false) :
    (∀ res w', daemon.Ends (save answer) mid res w' → isError res = true → Unchanged w w') ↔ Unchanged w mid := by
  constructor
  · intro atomic
    exact atomic (.httpError (errorBody "failed to save config") 500) mid
      (ends_save.mpr ⟨some "no space left on device", mid, writeConfig_fails mid _, rfl, rfl⟩) rfl
  · intro same res w' ended failed
    obtain ⟨error, v, written, h⟩ := ends_save.mp ended
    cases error with
    | none =>
      have succeeded := silent h
      rw [failed] at succeeded
      cases succeeded
    | some message =>
      obtain ⟨_, rfl⟩ := h
      exact Unchanged.trans same (writeConfig_ends written)

theorem config_atomic_iff {name : String} {p : ConfigPatch} :
    Atomic w (.config name (some p)) ↔ Patch.idle w (.config name (some p)) := by
  unfold Atomic Patch.idle
  simp only [Patch.request, handle, handlePatchConfig, ends_readConfig]
  cases found : w.cfg.services.findIdx? (·.unit == withServiceSuffix name) with
  | none =>
    simp only [find_none found, reduceCtorEq, false_implies, implies_true, iff_true]
    intro res w' ended _
    obtain ⟨_, rfl⟩ := ends_done.mp ended
    exact Unchanged.refl _
  | some idx =>
    obtain ⟨svc, first, at_⟩ := found_at found
    simp only [first, Option.some.injEq, forall_eq']
    by_cases valid : p.valid = true
    · simp only [ends_patchService, if_pos valid]
      rw [save_atomic_iff, patchService_unchanged_iff at_, apply_eq_iff, forall_prop_of_true valid]
      intro v res w' ended
      obtain ⟨cfg, _, h⟩ := ends_call.mp ended
      obtain ⟨rfl, _⟩ := ends_done.mp h
      rfl
    · simp only [ends_patchService, if_neg valid]
      have late : (p.valid = true → agreesLate p svc) ↔ True := iff_true_intro fun h => absurd h valid
      rw [late, and_true, ← early_eq_iff]
      refine Iff.trans ?_ (patchService_unchanged_iff at_)
      constructor
      · exact fun atomic => atomic _ _ ⟨rfl, rfl⟩ rfl
      · rintro same res w' ⟨rfl, rfl⟩ _
        exact same

theorem backup_atomic_iff {name : String} {p : BackupPatch} :
    Atomic w (.backup name (some p)) ↔ Patch.idle w (.backup name (some p)) := by
  unfold Atomic Patch.idle
  simp only [Patch.request, handle, handlePatchBackup, ends_readConfig]
  cases found : w.cfg.backups.findIdx? (·.unit == withServiceSuffix name) with
  | none =>
    simp only [find_none found, reduceCtorEq, false_implies, implies_true, iff_true]
    intro res w' ended _
    obtain ⟨_, rfl⟩ := ends_done.mp ended
    exact Unchanged.refl _
  | some idx =>
    obtain ⟨b, first, at_⟩ := found_at found
    simp only [first, Option.some.injEq, forall_eq', ends_patchBackup]
    rw [save_atomic_iff, ← backupApply_eq_iff, ← modify_eq_self_iff at_]
    · constructor
      · exact fun same => congrArg Config.backups same.cfg
      · intro same
        refine ⟨?_, rfl, rfl, rfl, rfl⟩
        change { w.cfg with backups := w.cfg.backups.modify idx p.apply } = w.cfg
        rw [same]
    · intro v res w' ended
      obtain ⟨_, _, _, h⟩ := ends_bind.mp ended
      obtain ⟨cfg, _, h⟩ := ends_call.mp h
      obtain ⟨rfl, _⟩ := ends_done.mp h
      rfl

theorem storage_atomic_iff {p : StorageConfigPatch} :
    Atomic w (.storage (some p)) ↔ Patch.idle w (.storage (some p)) := by
  have unchanged : Unchanged w { w with cfg := w.cfg.setPools p.pools } ↔ p.pools = w.cfg.storage.pools := by
    constructor
    · exact fun same => congrArg (·.storage.pools) same.cfg
    · intro same
      refine ⟨?_, rfl, rfl, rfl, rfl⟩
      change { w.cfg with storage := { w.cfg.storage with pools := p.pools } } = w.cfg
      rw [same]
  refine Iff.trans ⟨fun atomic => ?_, fun same res w' ended failed => ?_⟩ unchanged
  · exact atomic (.httpError "no space left on device" 500) _
      (ends_patchStorage.mpr ⟨some "no space left on device", writeConfig_fails _ _, rfl⟩) rfl
  · obtain ⟨error, written, rfl⟩ := ends_patchStorage.mp ended
    cases error with
    | none => cases failed
    | some message => exact Unchanged.trans same (writeConfig_ends written)

/-- Which PATCHes are atomic in a world. -/
theorem atomic_iff (w : World) (patch : Patch) : Atomic w patch ↔ patch.idle w := by
  have undecodable : ∀ {res w'}, daemon.Ends (return .httpError (errorBody "invalid JSON") 400) w res w' →
      isError res = true → Unchanged w w' := by
    intro res w' ended _
    obtain ⟨_, rfl⟩ := ends_done.mp ended
    exact Unchanged.refl _
  cases patch with
  | config name body =>
    cases body with
    | none => exact iff_of_true (fun _ _ => undecodable) trivial
    | some p => exact config_atomic_iff
  | backup name body =>
    cases body with
    | none => exact iff_of_true (fun _ _ => undecodable) trivial
    | some p => exact backup_atomic_iff
  | storage body =>
    cases body with
    | none => exact iff_of_true (fun _ _ => undecodable) trivial
    | some p => exact storage_atomic_iff

/-- An invalid policy is refused after the service has been enabled. -/
theorem patch_halfApplied : ¬ ∀ (w : World) (patch : Patch), Atomic w patch := by
  intro claim
  let service : Service := { unit := "a.service", restart := "always" }
  let before : World := { cfg := { version := 1, services := [service] }, userStopped := {"a.service"} }
  let payload : ConfigPatch := { enabled := some true, restart := some "bogus" }
  have ended : daemon.Ends (handle (.patchConfig "a" (some payload))) before
      (.httpError (errorBody "invalid restart policy") 400)
      (before.patchService "a.service" 0 payload.enabled payload.early) :=
    ends_readConfig.mpr (ends_patchService.mpr ⟨rfl, rfl⟩)
  have same := claim before (.config "a" (some payload)) _ _ ended rfl
  have enabled : ({ service with enabled := true } : Service) = service :=
    List.head_eq_of_cons_eq (congrArg Config.services same.cfg)
  cases congrArg Service.enabled enabled

end PatchAtomic
end HomelabDaemon
