import HomelabDaemon.PatchFrame

/-!
# What the writer writes loads

The configuration in memory is printed without quotes. It loads as it was, and so does the file on
the disk, as long as only strings came in that need none.
-/

namespace HomelabDaemon
open Concurrency Program Machine Yaml

namespace RoundTrip
open PatchAtomic PatchFrame

def StoragePoolConfig.strings (p : StoragePoolConfig) : String × String × String := (p.uuid, p.mountpoint, p.options)

def Service.strings (s : Service) : String × List String × List String × String :=
  (s.unit, s.dependsOn, s.requiresMounts, s.restart)

def Backup.strings (b : Backup) : String × String × List String × List String × String × String :=
  (b.unit, b.schedule, b.dependsOn, b.requiresMounts, b.healthcheckUUID, b.pauseService)

/-- The strings that `writeConfig` prints, entry by entry. -/
def strings (cfg : Config) :=
  (cfg.storage.pools.map StoragePoolConfig.strings, cfg.services.map Service.strings, cfg.backups.map Backup.strings)

/-- What is written of the configuration loads, with the same strings. -/
def Rereads (unmarshal : Unmarshal) (path : String) (cfg : Config) : Prop :=
  ∃ loaded, loadConfig unmarshal path (.ok (render cfg)) = .ok loaded ∧ strings loaded = strings cfg

def Loads (unmarshal : Unmarshal) (path : String) (text : Text) : Prop :=
  ∃ loaded, loadConfig unmarshal path (.ok text) = .ok loaded

/-- No string needs quotes, the services pass the checks, and no policy is printed as another. -/
structure Sound (cfg : Config) : Prop where
  plain : cfg.Plain
  valid : ∀ s ∈ cfg.services, s.Valid
  settled : ∀ s ∈ cfg.services, s.restart ≠ ""

theorem kept_strings {cfg : Config} (settled : ∀ s ∈ cfg.services, s.restart ≠ "") :
    strings cfg.kept = strings cfg := by
  have pools : cfg.kept.storage.pools.map StoragePoolConfig.strings =
    cfg.storage.pools.map StoragePoolConfig.strings := by
    show (cfg.storage.pools.map (·.kept)).map StoragePoolConfig.strings = _
    rw [List.map_map]
    rfl
  have services : cfg.kept.services.map Service.strings = cfg.services.map Service.strings := by
    show (cfg.services.map (·.kept)).map Service.strings = _
    rw [List.map_map, List.map_inj_left]
    intro s member
    have policy : (if s.restart = "" then "no" else s.restart) = s.restart := if_neg (settled s member)
    simp [Service.strings, Service.kept, policy]
  unfold strings
  rw [pools, services]
  rfl

section Load
variable {unmarshal : Unmarshal} {path : String} {cfg : Config}

theorem sound_rereads (reads : ReadsPlain unmarshal) (sound : Sound cfg) : Rereads unmarshal path cfg :=
  ⟨cfg.kept, load_render reads sound.plain sound.valid, kept_strings sound.settled⟩

theorem sound_loads (reads : ReadsPlain unmarshal) (sound : Sound cfg) : Loads unmarshal path (render cfg) :=
  ⟨cfg.kept, load_render reads sound.plain sound.valid⟩

theorem empty_loads (reads : ReadsPlain unmarshal) : Loads unmarshal path [] := by
  have empty : decodeConfig .null = some {} := by decide
  exact ⟨{}, load_ok (reads [] .null {} rfl empty) fun s member => nomatch member⟩

end Load

section Assign
variable {cfg : Config} {idx : Nat}

theorem sets_plain {p : ConfigPatch} {f : Service → Service} {name : String} (sets : p.Sets f)
    (payload : PlainPayload (.config name (some p))) {s : Service} (plain : s.Plain) : (f s).Plain := by
  obtain ⟨order, bootDelay, restartDelay, dependsOn⟩ := payload
  cases sets with
  | enabled given => exact { plain with }
  | order given => exact { plain with order := order _ given }
  | bootDelay given => exact { plain with bootDelay := bootDelay _ given }
  | dependsOn given => exact { plain with dependsOn := dependsOn _ given }
  | restart given valid => exact { plain with restart := .inr (policy_isText valid) }
  | restartDelay given => exact { plain with restartDelay := restartDelay _ given }

theorem policy_ne {policy : String} (member : policy ∈ policies) : policy ≠ "" := by
  have each : ∀ p ∈ policies, p ≠ "" := by decide
  exact each policy member

/-- The unit stays, and the policy is one of the known. -/
theorem sets_valid {p : ConfigPatch} {f : Service → Service} (sets : p.Sets f) {s : Service} (valid : s.Valid) :
    (f s).Valid := by
  cases sets with
  | restart given known => exact ⟨valid.unit, policies_load known⟩
  | _ => exact ⟨valid.unit, valid.restart⟩

theorem sets_settled {p : ConfigPatch} {f : Service → Service} (sets : p.Sets f) {s : Service}
    (settled : s.restart ≠ "") :
    (f s).restart ≠ "" := by
  cases sets with
  | restart given known => exact policy_ne known
  | _ => exact settled

theorem sets_plainBackup {p : BackupPatch} {f : Backup → Backup} {name : String} (sets : p.Sets f)
    (payload : PlainPayload (.backup name (some p))) {b : Backup} (plain : b.Plain) : (f b).Plain := by
  obtain ⟨schedule, healthcheckUUID, pauseService, dependsOn⟩ := payload
  cases sets with
  | enabled given => exact { plain with }
  | schedule given => exact { plain with schedule := schedule _ given }
  | healthcheckUUID given => exact { plain with healthcheckUUID := healthcheckUUID _ given }
  | pauseService given => exact { plain with pauseService := pauseService _ given }
  | dependsOn given => exact { plain with dependsOn := dependsOn _ given }

/-- What holds of each service and is kept by the assignment. -/
theorem modify_forall {α : Type} {P : α → Prop} {xs : List α} {f : α → α} (all : ∀ x ∈ xs, P x)
    (keeps : ∀ x, P x → P (f x)) :
    ∀ x ∈ xs.modify idx f, P x := by
  intro x member
  rcases mem_modify member with inside | ⟨t, inside, rfl⟩
  · exact all x inside
  · exact keeps t (all t inside)

theorem modifyService_plain {p : ConfigPatch} {f : Service → Service} {name : String} (sets : p.Sets f)
    (payload : PlainPayload (.config name (some p))) (plain : cfg.Plain) :
    Config.Plain { cfg with services := cfg.services.modify idx f } :=
  ⟨plain.pools, modify_forall plain.services fun _ => sets_plain sets payload, plain.backups⟩

theorem modifyBackup_plain {p : BackupPatch} {f : Backup → Backup} {name : String} (sets : p.Sets f)
    (payload : PlainPayload (.backup name (some p))) (plain : cfg.Plain) :
    Config.Plain { cfg with backups := cfg.backups.modify idx f } :=
  ⟨plain.pools, plain.services, modify_forall plain.backups fun _ => sets_plainBackup sets payload⟩

theorem modifyService_sound {p : ConfigPatch} {f : Service → Service} {name : String} (sets : p.Sets f)
    (payload : PlainPayload (.config name (some p))) (sound : Sound cfg) :
    Sound { cfg with services := cfg.services.modify idx f } where
  plain := modifyService_plain sets payload sound.plain
  valid := modify_forall sound.valid fun _ => sets_valid sets
  settled := modify_forall sound.settled fun _ => sets_settled sets

end Assign

/-! ### What the code keeps -/

section Code
variable {unmarshal : Unmarshal} {path : String} {old : Nat → Prop} {α : Type} {p : Prog α}

/-- What must not happen: the configuration or a file gets what does not load, or a temporary file
that was left over is touched. -/
def Spoils (unmarshal : Unmarshal) (path : String) (old : Nat → Prop) : Op → Prop
  | .updateConfig f => ¬ ∀ cfg, Sound cfg → Sound (f cfg)
  | .writeTemp file data => old file ∨ ¬ Loads unmarshal path data
  | .renameTemp file | .removeTemp file => old file
  | _ => False

/-- The configuration reads sound, and so does a file that is loaded; a temporary file is new. -/
def Sees (old : Nat → Prop) : (op : Op) → op.Ans → Prop
  | .config, cfg => Sound cfg
  | .ask .loadConfig, .ok cfg => Sound cfg
  | .createTemp, .ok file => ¬ old file
  | _, _ => True

theorem elsewhere_spoils (h : p.Uses Op.elsewhere) : ¬ p.Reaches (Sees old) (Spoils unmarshal path old) := by
  refine h.not_reaches fun op away spoils => ?_
  cases op <;> first | exact away | exact spoils

theorem writeConfig_spoils (reads : ReadsPlain unmarshal) : ¬ writeConfig.Reaches (Sees old)
    (Spoils unmarshal path old) := by
  intro h
  rcases writeConfig_reaches h with h | h | ⟨cfg, file, op, sound, fresh, temp, spoils⟩
  · exact h
  · exact h
  · cases op with
    | writeTemp f data =>
      obtain ⟨rfl, rfl⟩ := temp
      rcases spoils with used | broken
      · exact fresh used
      · exact broken (sound_loads reads sound)
    | renameTemp f | removeTemp f =>
      obtain rfl := temp
      exact fresh spoils
    | _ => first | exact temp | exact spoils

theorem handleReload_spoils : ¬ handleReload.Reaches (Sees old) (Spoils unmarshal path old) := by
  intro h
  rcases handleReload_reaches h with h | ⟨cfg, sound, h⟩ | h | h | h
  · exact h
  · exact h fun _ _ => sound
  · exact elsewhere_spoils reloadScheduler_elsewhere h
  · refine elsewhere_spoils (built_elsewhere verifyRunningServices_built fun op looks => ?_) h
    cases op <;> trivial
  · exact h

theorem patch_spoils (reads : ReadsPlain unmarshal) {patch : Patch} (payload : PlainPayload patch) :
    ¬ (handle patch.request).Reaches (Sees old) (Spoils unmarshal path old) := by
  intro h
  cases patch with
  | config name body =>
    rcases handlePatchConfig_reaches h with h | ⟨p, idx, f, rfl, sets, _, h⟩ | h | h | h
    · exact h
    · exact h fun _ => modifyService_sound sets payload
    · exact h
    · exact h
    · exact writeConfig_spoils reads h
  | backup name body =>
    rcases handlePatchBackup_reaches h with h | ⟨p, idx, f, rfl, sets, _, h⟩ | h | h
    · exact h
    · exact h fun _ sound => { sound with plain := modifyBackup_plain sets payload sound.plain }
    · exact elsewhere_spoils reloadScheduler_elsewhere h
    · exact writeConfig_spoils reads h
  | storage body =>
    rcases handlePatchStorage_reaches h with ⟨p, rfl, sets⟩ | h
    · exact sets fun cfg sound => ⟨⟨payload, sound.plain.services, sound.plain.backups⟩, sound.valid, sound.settled⟩
    · exact writeConfig_spoils reads h

/-- Strings that need no quotes, if the request brings any. -/
def Brings (who : Actor) : Prop := ∀ patch : Patch, who = .api patch.request → PlainPayload patch

theorem code_spoils (reads : ReadsPlain unmarshal) {who : Actor} (brings : Brings who) :
    ¬ (daemon.code who).Reaches (Sees old) (Spoils unmarshal path old) := by
  cases changes : who.changes with
  | false => exact elsewhere_spoils (code_elsewhere changes)
  | true =>
    cases who with
    | api request =>
      intro h
      rcases (reaches_bind _ _).mp h with h | ⟨_, _, h⟩
      · cases request with
        | reload => exact handleReload_spoils h
        | patchConfig unit body => exact patch_spoils reads (brings (.config unit body) rfl) h
        | patchBackup unit body => exact patch_spoils reads (brings (.backup unit body) rfl) h
        | patchStorage body => exact patch_spoils reads (brings (.storage body) rfl) h
        | start | stop | restart | startAll | stopAll | runBackup | unmount => cases changes
      · exact h
    | boot | monitor | restart | backup => cases changes

end Code

/-! ### Runs -/

/-- A reload finds, and a request brings, what is printed as it reads. -/
def BringsPlain (_ : Story) (_ : Configuration) : Step → Prop
  | .act _ _ (.ask .loadConfig) (.ok cfg) => Sound cfg
  | .arrive who => Brings who
  | _ => True

/-- All that is read or may become the file loads. The files that were left over are still there. -/
structure Intact (unmarshal : Unmarshal) (path : String) (old : Nat → Prop) (w : World) : Prop where
  cfg : Sound w.cfg
  file : Loads unmarshal path w.file
  temps : ∀ i data, w.temps i = some data → old i ∨ Loads unmarshal path data
  kept : ∀ i, old i → w.temps i ≠ none

section Run
variable {unmarshal : Unmarshal} {path : String} {old : Nat → Prop} {w : World} {ticks : Nat} {hist : Story}
  {c : Configuration}

/-- A temporary file that was not left over gets content that loads. -/
theorem update_temps {data : Text} (file : Nat) (intact : Intact unmarshal path old w)
    (loads : Loads unmarshal path data) :
    (∀ i d, Function.update w.temps file (some data) i = some d → old i ∨ Loads unmarshal path d) ∧
    ∀ i, old i → Function.update w.temps file (some data) i ≠ none := by
  refine ⟨fun i d at_ => ?_, fun i isOld => ?_⟩
  · by_cases same : i = file
    · rw [same, Function.update_self] at at_
      obtain rfl := Option.some.inj at_
      exact .inr loads
    · rw [Function.update_of_ne same] at at_
      exact intact.temps i d at_
  · by_cases same : i = file
    · rw [same, Function.update_self]
      exact Option.some_ne_none data
    · rw [Function.update_of_ne same]
      exact intact.kept i isOld

theorem drop_temps {file : Nat} (intact : Intact unmarshal path old w) (new : ¬ old file) :
    (∀ i d, Function.update w.temps file none i = some d → old i ∨ Loads unmarshal path d) ∧
    ∀ i, old i → Function.update w.temps file none i ≠ none := by
  refine ⟨fun i d at_ => ?_, fun i isOld => ?_⟩
  · by_cases same : i = file
    · rw [same, Function.update_self] at at_
      cases at_
    · rw [Function.update_of_ne same] at at_
      exact intact.temps i d at_
  · have other : i ≠ file := by
      rintro rfl
      exact new isOld
    rw [Function.update_of_ne other]
    exact intact.kept i isOld

theorem effect_intact (reads : ReadsPlain unmarshal) {op : Op} {ans : op.Ans} (intact : Intact unmarshal path old w)
    (quiet : ¬ Spoils unmarshal path old op) : Intact unmarshal path old (w.effect op ans) := by
  cases op with
  | updateConfig f =>
    have keeps : ∀ cfg, Sound cfg → Sound (f cfg) := Classical.not_not.mp quiet
    exact { intact with cfg := keeps w.cfg intact.cfg }
  | spawn verb unit => cases verb <;> exact { intact with }
  | createTemp =>
    cases ans with
    | error e => exact { intact with }
    | ok file =>
      obtain ⟨temps, kept⟩ := update_temps file intact (empty_loads reads)
      exact { intact with temps := temps, kept := kept }
  | writeTemp file data =>
    cases ans with
    | some e => exact { intact with }
    | none =>
      have loads : Loads unmarshal path data := Classical.not_not.mp fun broken => quiet (.inr broken)
      obtain ⟨temps, kept⟩ := update_temps file intact loads
      exact { intact with temps := temps, kept := kept }
  | renameTemp file =>
    cases ans with
    | some e => exact { intact with }
    | none =>
      obtain ⟨temps, kept⟩ := drop_temps intact quiet
      refine { intact with file := ?_, temps := temps, kept := kept }
      show Loads unmarshal path ((w.temps file).getD [])
      cases content : w.temps file with
      | none => exact empty_loads reads
      | some data => exact (intact.temps file data content).resolve_left quiet
  | removeTemp file =>
    cases ans with
    | some e => exact { intact with }
    | none =>
      obtain ⟨temps, kept⟩ := drop_temps intact quiet
      exact { intact with temps := temps, kept := kept }
  | _ => exact { intact with }

theorem run_intact (reads : ReadsPlain unmarshal) (start : Intact unmarshal path old w)
    (run : daemon.Run BringsPlain (started w ticks) hist c) : Intact unmarshal path old c.world := by
  have start' : Intact unmarshal path old
    { w with breaker := fun _ => {}, inFlight := ∅, locks := ∅, schedulerLocked := false } :=
    { start with }
  refine (Machine.Run.shielded (Sees old) (Intact unmarshal path old) (fun _ => Spoils unmarshal path old) ?_
    (fun intact _ => effect_intact reads intact) ?_ ?_ ?_ ?_ start' run).1
  · intro hist c i who op ans met intact permitted
    cases op with
    | config =>
      have read : ans = c.world.cfg := of_decide_eq_true permitted
      rw [read]
      exact intact.cfg
    | ask q =>
      cases q with
      | loadConfig =>
        cases ans with
        | error e => trivial
        | ok cfg => exact met
      | _ => trivial
    | createTemp =>
      cases ans with
      | error e => trivial
      | ok file =>
        have absent : c.world.temps file = none := of_decide_eq_true permitted
        exact fun isOld => intact.kept file isOld absent
    | _ => trivial
  · intro v move intact
    cases move <;> exact { intact with }
  · intro who op new _ forked
    apply code_spoils reads
    intro patch same
    rw [same] at forked
    cases op with
    | goRestart svc => cases List.mem_singleton.mp forked
    | goRunBackup unit => cases List.mem_singleton.mp forked
    | _ => cases forked
  · intro _ _ who brings _
    exact code_spoils reads brings
  · intro who member
    apply code_spoils reads
    intro patch same
    rw [same] at member
    rcases List.mem_cons.mp member with member | member
    · cases member
    · cases List.mem_singleton.mp member

theorem startConfig_ok {loaded : Except LoadError Config} {registryFile : ReadFile} {cfg : Config}
    (starts : startConfig loaded registryFile = some cfg) : ∃ whole, loaded = .ok whole := by
  cases loaded with
  | error e => cases starts
  | ok whole => exact ⟨whole, rfl⟩

/-- In a run that brings only what is printed as it reads, the configuration and the file load. -/
theorem run_rereads {registryFile : ReadFile} (reads : ReadsPlain unmarshal)
    (starts : startConfig (loadConfig unmarshal path (.ok w.file)) registryFile = some w.cfg) (sound : Sound w.cfg)
    (run : daemon.Run BringsPlain (started w ticks) hist c) :
    Rereads unmarshal path c.world.cfg ∧ Loads unmarshal path c.world.file := by
  have start : Intact unmarshal path (fun i => w.temps i ≠ none) w := {
    cfg := sound
    file := startConfig_ok starts
    temps := fun i data at_ => .inl (by simp [at_])
    kept := fun i isOld => isOld }
  have intact := run_intact reads start run
  exact ⟨sound_rereads reads intact.cfg, intact.file⟩

end Run

/-! ### Schedules -/

def path : String := "/etc/homelab/services.yaml"

def world : World := { cfg := covered, file := render covered }

theorem covered_valid : ∀ s ∈ covered.services, s.Valid :=
  checkServices_eq_none.mp (show checkServices 0 covered.services = none by decide)

theorem covered_sound : Sound covered := ⟨covered_plain, covered_valid, by decide⟩

theorem world_starts : startConfig (loadConfig plainOnly path (.ok world.file)) .notExist = some world.cfg := by
  have load : loadConfig plainOnly path (.ok (render covered)) = .ok covered :=
    load_render plainOnly_reads covered_plain covered_valid
  rw [show world.file = render covered from rfl, load]
  rfl

def reschedule (schedule : String) : BackupPatch := { schedule := some schedule }

/-- The backups have this schedule. -/
def hasSchedule (schedule : String) (s : Story × Configuration) : Bool :=
  decide (s.2.world.cfg.backups.map (·.schedule) = [schedule])

def quietRequest (schedule : String) (_ : Story) (_ : Configuration) : Step → Bool
  | .act _ _ (.ask .loadConfig) (.ok _) => false
  | .arrive who => decide (who = .api (.patchBackup "b" (some (reschedule schedule))))
  | _ => true

/-- A request moves the backup to another hour. -/
theorem run_rereads_moved : ∃ hist c, hasSchedule "0 4 * * *" (hist, c) = true ∧
    daemon.Run BringsPlain (started world 1) hist c ∧ Rereads plainOnly path c.world.cfg ∧
    Loads plainOnly path c.world.file := by
  obtain ⟨hist, c, run, shown⟩ := schedule_run (quietRequest "0 4 * * *") world 1
    [.arrive (.api (.patchBackup "b" (some (reschedule "0 4 * * *")))), .go 2 {} 8] (hasSchedule "0 4 * * *")
      (by decide)
  have plain : daemon.Run BringsPlain (started world 1) hist c := by
    refine run.weaken fun hist c e met => ?_
    cases e with
    | act i who op ans =>
      cases op with
      | ask q =>
        cases q with
        | loadConfig =>
          cases ans with
          | error e => trivial
          | ok cfg => cases met
        | _ => trivial
      | _ => trivial
    | env move => trivial
    | arrive who =>
      have only : who = .api (.patchBackup "b" (some (reschedule "0 4 * * *"))) := of_decide_eq_true met
      intro patch same
      rw [only] at same
      cases patch with
      | backup name body =>
        obtain ⟨rfl, rfl⟩ := Request.patchBackup.inj (Actor.api.inj same)
        refine ⟨fun s given => ?_, nofun, nofun, nofun⟩
        obtain rfl := Option.some.inj given
        decide
      | config | storage => cases same
  exact ⟨hist, c, shown, plain, run_rereads plainOnly_reads world_starts covered_sound plain⟩

/-- A schedule for every five minutes reads as an alias. -/
theorem alias_written : ¬ ∀ (unmarshal : Unmarshal) (path : String) (registryFile : ReadFile) (w : World) (ticks : Nat)
    (hist : Story) (c : Configuration), ReadsPlain unmarshal →
    startConfig (loadConfig unmarshal path (.ok w.file)) registryFile = some w.cfg → Sound w.cfg →
    daemon.Run Machine.anyStep (started w ticks) hist c →
    Rereads unmarshal path c.world.cfg ∧ Loads unmarshal path c.world.file := by
  intro claim
  obtain ⟨hist, c, run, shown⟩ := schedule_anyRun world 1
    [.arrive (.api (.patchBackup "b" (some (reschedule "*/5 * * * *")))), .go 2 {} 16]
    (fun s => match loadConfig plainOnly path (.ok s.2.world.file) with
      | .ok _ => false
      | .error _ => true) (by decide)
  obtain ⟨loaded, loads⟩ := (claim plainOnly path .notExist world 1 hist c plainOnly_reads world_starts covered_sound run).2
  simp only [loads] at shown
  cases shown

end RoundTrip
end HomelabDaemon
