import HomelabDaemon.PatchAtomic
import HomelabDaemon.LoadConfig
import HomelabDaemon.Registry

/-!
# What a PATCH leaves in the file

A successful PATCH rewrites services.yaml from the configuration in memory. The file loads as the
requested configuration where the writer covers all that was in it, and the registry has all
services.
-/

namespace HomelabDaemon
open Concurrency Program Machine Yaml

namespace PatchFrame
open PatchAtomic

/-- The first entry that passes the test is modified. -/
def modifyFirst {α : Type} (test : α → Bool) (f : α → α) (xs : List α) : List α :=
  match xs.findIdx? test with
  | some idx => xs.modify idx f
  | none => xs

/-- The configuration with the values of the request. -/
def requested : Patch → Config → Config
  | .config name (some p), cfg =>
    { cfg with services := modifyFirst (·.unit == withServiceSuffix name) p.apply cfg.services }
  | .backup name (some p), cfg =>
    { cfg with backups := modifyFirst (·.unit == withServiceSuffix name) p.apply cfg.backups }
  | .storage (some p), cfg => cfg.setPools p.pools
  | _, cfg => cfg

/-- The restart policy `""` reads as `no`. -/
def settle (s : Service) : Service := { s with restart := if s.restart = "" then "no" else s.restart }

def Alike (cfg cfg' : Config) : Prop :=
  { cfg with services := cfg.services.map settle } = { cfg' with services := cfg'.services.map settle }

/-- The file loads as what was loaded before, with the values of the request. -/
def Frames (unmarshal : Unmarshal) (path : String) (loaded : Config) (patch : Patch) (file : Text) : Prop :=
  ∃ reloaded, loadConfig unmarshal path (.ok file) = .ok reloaded ∧ Alike reloaded (requested patch loaded)

/-- Strings that need no quotes, and numbers as Go has them. -/
def PlainPayload : Patch → Prop
  | .config _ (some p) => (∀ n ∈ p.order, IsInt64 n) ∧ (∀ n ∈ p.bootDelay, IsInt64 n) ∧
    (∀ n ∈ p.restartDelay, IsInt64 n) ∧
      ∀ deps ∈ p.dependsOn, ∀ dep ∈ deps, IsText dep
  | .backup _ (some p) => (∀ s ∈ p.schedule, IsOptionalText s) ∧ (∀ s ∈ p.healthcheckUUID, IsOptionalText s) ∧
      (∀ s ∈ p.pauseService, IsOptionalText s) ∧ ∀ deps ∈ p.dependsOn, ∀ dep ∈ deps, IsText dep
  | .storage (some p) => ∀ pool ∈ p.pools, pool.Plain
  | _ => True

/-- The pools that are to be written. -/
def pools (patch : Patch) (loaded : Config) : List StoragePoolConfig :=
  match patch with
  | .storage (some p) => p.pools
  | _ => loaded.storage.pools

/-- Nothing is in the file that the writer leaves out, and no service that startup drops. -/
structure Covered (registry : Option (Finset String)) (loaded : Config) (patch : Patch) : Prop where
  notify : loaded.notify = {}
  vpn : loaded.vpn = {}
  qui : loaded.qui = {}
  names : ∀ p ∈ pools patch loaded, p.name = ""
  links : ∀ s ∈ loaded.services, s.iconURL = "" ∧ s.homepageURL = ""
  registered : ∀ units ∈ registry, InScope units loaded

section Saved
variable {w w' : World} {res : Response} {patch : Patch}

theorem reloadScheduler_file {u : Unit} (ended : daemon.Ends reloadScheduler w u w') : w'.file = w.file := by
  refine Ends.keeps (·.file) (fun v op ans elsewhere => ?_) reloadScheduler_elsewhere ended
  cases op with
  | spawn verb unit => cases verb <;> rfl
  | createTemp | writeTemp | renameTemp | removeTemp | updateConfig => exact elsewhere.elim
  | _ => rfl

theorem writeConfig_file (ended : daemon.Ends writeConfig w none w') : w'.file = render w.cfg :=
  (writeConfig_ends ended).file

theorem saved_file {answer : Prog Response} (keeps : ∀ {v v' r}, daemon.Ends answer v r v' → v'.file = v.file)
    (ended : daemon.Ends (save answer) w res w') (succeeded : isError res = false) : w'.file = render w.cfg := by
  obtain ⟨error, mid, written, h⟩ := ends_save.mp ended
  cases error with
  | none =>
    rw [keeps h]
    exact writeConfig_file written
  | some message =>
    obtain ⟨rfl, _⟩ := h
    cases succeeded

/-- A successful PATCH writes the requested configuration; an invalid policy is no success. -/
theorem patch_file (ended : daemon.Ends (handle patch.request) w res w') (succeeded : isError res = false) :
    w'.file = render (requested patch w.cfg) ∧ ∀ name p, patch = .config name (some p) → p.valid = true := by
  cases patch with
  | config name body =>
    cases body with
    | none =>
      obtain ⟨rfl, _⟩ := ends_done.mp ended
      cases succeeded
    | some p =>
      have handled := ends_readConfig.mp ended
      cases found : w.cfg.services.findIdx? (·.unit == withServiceSuffix name) with
      | none =>
        simp only [found] at handled
        obtain ⟨rfl, _⟩ := ends_done.mp handled
        cases succeeded
      | some idx =>
        simp only [found] at handled
        rw [ends_patchService] at handled
        split at handled
        · rename_i valid
          have file := saved_file (fun ended => by
            obtain ⟨_, _, h⟩ := ends_call.mp ended
            obtain ⟨_, rfl⟩ := ends_done.mp h
            rfl) handled succeeded
          refine ⟨?_, fun _ _ same => ?_⟩
          · rw [file]
            simp only [requested, modifyFirst, found]
            rfl
          · obtain ⟨_, bodies⟩ := Patch.config.inj same
            obtain rfl := Option.some.inj bodies
            exact valid
        · obtain ⟨rfl, _⟩ := handled
          cases succeeded
  | backup name body =>
    refine ⟨?_, fun _ _ same => nomatch same⟩
    cases body with
    | none =>
      obtain ⟨rfl, _⟩ := ends_done.mp ended
      cases succeeded
    | some p =>
      have handled := ends_readConfig.mp ended
      cases found : w.cfg.backups.findIdx? (·.unit == withServiceSuffix name) with
      | none =>
        simp only [found] at handled
        obtain ⟨rfl, _⟩ := ends_done.mp handled
        cases succeeded
      | some idx =>
        simp only [found] at handled
        rw [ends_patchBackup] at handled
        rw [saved_file (fun ended => by
          obtain ⟨_, mid, reloaded, h⟩ := ends_bind.mp ended
          obtain ⟨_, _, h⟩ := ends_call.mp h
          obtain ⟨_, rfl⟩ := ends_done.mp h
          exact reloadScheduler_file reloaded) handled succeeded]
        simp only [requested, modifyFirst, found]
        rfl
  | storage body =>
    refine ⟨?_, fun _ _ same => nomatch same⟩
    cases body with
    | none =>
      obtain ⟨rfl, _⟩ := ends_done.mp ended
      cases succeeded
    | some p =>
      obtain ⟨error, written, rfl⟩ := ends_patchStorage.mp ended
      cases error with
      | none => exact writeConfig_file written
      | some message => cases succeeded

end Saved

/-! ### What the request keeps -/

section Requested
variable {patch : Patch} {cfg loaded : Config} {s : Service} {name : String}

theorem modifyFirst_mem {α : Type} {test : α → Bool} {f : α → α} {xs : List α} {x : α}
    (member : x ∈ modifyFirst test f xs) :
    x ∈ xs ∨ ∃ t ∈ xs, x = f t := by
  unfold modifyFirst at member
  split at member
  · exact mem_modify member
  · exact .inl member

theorem modifyFirst_map {α β : Type} (view : α → β) {test : α → Bool} {f : α → α} (same : ∀ x, view (f x) = view x)
    (xs : List α) : (modifyFirst test f xs).map view = xs.map view := by
  unfold modifyFirst
  split
  · exact map_modify same xs _
  · rfl

theorem getD_of_forall {α : Type} {P : α → Prop} {o : Option α} {a : α} (given : ∀ v ∈ o, P v) (default : P a) :
    P (o.getD a) := by
  cases o with
  | none => exact default
  | some v => exact given v rfl

theorem policy_isText {policy : String} (member : policy ∈ policies) : IsText policy := by
  have each : ∀ p ∈ policies, IsText p := by decide
  exact each policy member

theorem policies_load {policy : String} (member : policy ∈ policies) :
    policy ∈ loadPolicies := List.mem_cons_of_mem _ member

theorem valid_restart {p : ConfigPatch} (valid : p.valid = true) : ∀ policy ∈ p.restart, policy ∈ policies := by
  intro policy given
  unfold ConfigPatch.valid at valid
  rw [Option.mem_def.mp given] at valid
  exact of_decide_eq_true valid

theorem requested_plain (plain : cfg.Plain) (payload : PlainPayload patch)
    (valid : ∀ name p, patch = .config name (some p) → p.valid = true) : (requested patch cfg).Plain := by
  cases patch with
  | config name body =>
    cases body with
    | none => exact plain
    | some p =>
      obtain ⟨order, bootDelay, restartDelay, dependsOn⟩ := payload
      refine ⟨plain.pools, fun s member => ?_, plain.backups⟩
      rcases modifyFirst_mem member with inside | ⟨t, inside, rfl⟩
      · exact plain.services s inside
      · have before := plain.services t inside
        exact {
          unit := before.unit
          order := getD_of_forall order before.order
          bootDelay := getD_of_forall bootDelay before.bootDelay
          dependsOn := getD_of_forall dependsOn before.dependsOn
          requiresMounts := before.requiresMounts
          restart := getD_of_forall (fun policy given =>
            .inr (policy_isText (valid_restart (valid _ _ rfl) policy given))) before.restart
          restartDelay := getD_of_forall restartDelay before.restartDelay }
  | backup name body =>
    cases body with
    | none => exact plain
    | some p =>
      obtain ⟨schedule, healthcheck, pauseService, dependsOn⟩ := payload
      refine ⟨plain.pools, plain.services, fun b member => ?_⟩
      rcases modifyFirst_mem member with inside | ⟨t, inside, rfl⟩
      · exact plain.backups b inside
      · have before := plain.backups t inside
        exact {
          unit := before.unit
          schedule := getD_of_forall schedule before.schedule
          dependsOn := getD_of_forall dependsOn before.dependsOn
          requiresMounts := before.requiresMounts
          healthcheckUUID := getD_of_forall healthcheck before.healthcheckUUID
          pauseService := getD_of_forall pauseService before.pauseService }
  | storage body =>
    cases body with
    | none => exact plain
    | some p => exact ⟨payload, plain.services, plain.backups⟩

theorem requested_valid (checked : ∀ s ∈ cfg.services, s.Valid)
    (valid : ∀ name p, patch = .config name (some p) → p.valid = true) :
    ∀ s ∈ (requested patch cfg).services, s.Valid := by
  intro s member
  cases patch with
  | config name body =>
    cases body with
    | none => exact checked s member
    | some p =>
      rcases modifyFirst_mem member with inside | ⟨t, inside, rfl⟩
      · exact checked s inside
      · have before := checked t inside
        exact {
          unit := before.unit
          restart := getD_of_forall (fun policy given =>
            policies_load (valid_restart (valid _ _ rfl) policy given)) before.restart }
  | backup name body => cases body <;> exact checked s member
  | storage body => cases body <;> exact checked s member

/-- A request changes what it names, and the rest not even in part. -/
theorem requested_sections (patch : Patch) (cfg : Config) : (requested patch cfg).version = cfg.version ∧
    (requested patch cfg).notify = cfg.notify ∧
    (requested patch cfg).vpn = cfg.vpn ∧ (requested patch cfg).qui = cfg.qui := by
  cases patch with
  | config name body | backup name body => cases body <;> exact ⟨rfl, rfl, rfl, rfl⟩
  | storage body => cases body <;> exact ⟨rfl, rfl, rfl, rfl⟩

theorem requested_pools : (requested patch cfg).storage.pools = pools patch cfg := by
  cases patch with
  | config name body | backup name body => cases body <;> rfl
  | storage body => cases body <;> rfl

theorem requested_links {β : Type} (patch : Patch) (cfg : Config) (view : Service → β)
    (same : ∀ p s, view (ConfigPatch.apply p s) = view s) :
    (requested patch cfg).services.map view = cfg.services.map view := by
  cases patch with
  | config name body =>
    cases body with
    | none => rfl
    | some p => exact modifyFirst_map view (same p) cfg.services
  | backup name body | storage body => cases body <;> rfl

/-- Dropped services matter to nothing but the services. -/
theorem requested_other {services : List Service} :
    (requested patch { cfg with services := services }).backups = (requested patch cfg).backups := by
  cases patch with
  | config name body | backup name body => cases body <;> rfl
  | storage body => cases body <;> rfl

end Requested

/-! ### What comes back -/

section Frames
variable {patch : Patch} {cfg loaded : Config}

theorem kept_pools_iff {pools : List StoragePoolConfig} : pools.map (·.kept) = pools ↔ ∀ p ∈ pools, p.name = "" := by
  have one : ∀ p : StoragePoolConfig, p.kept = p ↔ p.name = "" := by
    intro p
    cases p
    simp [StoragePoolConfig.kept, eq_comm]
  constructor
  · intro same p member
    have each := List.map_inj_left.mp (same.trans (List.map_id pools).symm) p member
    exact (one p).mp each
  · intro unnamed
    refine Eq.trans (List.map_inj_left.mpr fun p member => ?_) (List.map_id pools)
    exact (one p).mpr (unnamed p member)

theorem kept_services_iff {services : List Service} : (services.map (·.kept)).map settle = services.map settle ↔
    ∀ s ∈ services, s.iconURL = "" ∧ s.homepageURL = "" := by
  rw [List.map_map, List.map_inj_left]
  refine forall₂_congr fun s _ => ?_
  have settled : settle s.kept = { settle s with iconURL := "", homepageURL := "" } := by
    by_cases none : s.restart = "" <;> simp [settle, Service.kept, none]
  show settle s.kept = settle s ↔ _
  rw [settled]
  constructor
  · intro same
    exact ⟨(congrArg Service.iconURL same).symm, (congrArg Service.homepageURL same).symm⟩
  · rintro ⟨icon, homepage⟩
    simp [settle, icon, homepage]

theorem alike_iff : Alike cfg loaded ↔ cfg.version = loaded.version ∧ cfg.notify = loaded.notify ∧
    cfg.storage.pools = loaded.storage.pools ∧ cfg.vpn = loaded.vpn ∧ cfg.qui = loaded.qui ∧
    cfg.services.map settle = loaded.services.map settle ∧ cfg.backups = loaded.backups := by
  obtain ⟨_, _, ⟨_⟩, _, _, _, _⟩ := cfg
  obtain ⟨_, _, ⟨_⟩, _, _, _, _⟩ := loaded
  simp [Alike]

/-- The services come back when startup has dropped none and none has a link. -/
theorem services_iff (patch : Patch) {services : List Service} (sub : services.Sublist loaded.services)
    (same : services = loaded.services → (requested patch cfg).services = (requested patch loaded).services)
    (length : (requested patch cfg).services.length = services.length) :
    ((requested patch cfg).services.map (·.kept)).map settle = (requested patch loaded).services.map settle ↔
      services = loaded.services ∧ ∀ s ∈ loaded.services, s.iconURL = "" ∧ s.homepageURL = "" := by
  have links : (∀ s ∈ (requested patch loaded).services, s.iconURL = "" ∧ s.homepageURL = "") ↔
      ∀ s ∈ loaded.services, s.iconURL = "" ∧ s.homepageURL = "" := by
    have views := requested_links patch loaded (fun s => (s.iconURL, s.homepageURL)) fun _ _ => rfl
    have member : ∀ services : List Service, (∀ s ∈ services, s.iconURL = "" ∧ s.homepageURL = "") ↔
        ∀ v ∈ services.map fun s => (s.iconURL, s.homepageURL), v.1 = "" ∧ v.2 = "" := by
      intro services
      simp
    rw [member, member, views]
  constructor
  · intro back
    have lengths := congrArg List.length back
    have whole := requested_links patch loaded (fun _ => ()) fun _ _ => rfl
    have count := congrArg List.length whole
    simp only [List.length_map] at lengths count
    have all := sub.eq_of_length (by omega)
    rw [same all] at back
    exact ⟨all, links.mp (kept_services_iff.mp back)⟩
  · rintro ⟨all, none⟩
    rw [same all]
    exact kept_services_iff.mpr (links.mpr none)

theorem startConfig_services {registryFile : ReadFile} {registry : Option (Finset String)}
    (read : loadManagedUnits registryFile = .ok registry) (starts : startConfig (.ok loaded) registryFile = some cfg) :
    cfg = (filterByRegistry loaded registry).1 := by
  unfold startConfig at starts
  rw [read] at starts
  exact (Option.some.inj starts).symm

theorem filtered_iff {registry : Option (Finset String)} :
    (filterByRegistry loaded registry).1.services = loaded.services ↔ ∀ units ∈ registry, InScope units loaded := by
  cases registry with
  | none => simp [filterByRegistry]
  | some units =>
    show loaded.services.filter (·.unit ∈ units) = loaded.services ↔ _
    rw [List.filter_eq_self]
    simp [InScope]

theorem filtered_sub (loaded : Config) (registry : Option (Finset String)) :
    (filterByRegistry loaded registry).1.services.Sublist loaded.services ∧
    (filterByRegistry loaded registry).1 =
    { loaded with services := (filterByRegistry loaded registry).1.services } := by
  cases registry with
  | none => exact ⟨List.Sublist.refl _, rfl⟩
  | some units => exact ⟨List.filter_sublist, rfl⟩

end Frames

section Reload
variable {unmarshal : Unmarshal} {path : String} {text : Text} {loaded : Config} {registryFile : ReadFile}
  {registry : Option (Finset String)} {w w' : World} {patch : Patch} {res : Response}

/-- The file loads as what the writer keeps of the requested configuration. -/
theorem reload_requested (registry : Option (Finset String)) (reads : ReadsPlain unmarshal)
    (load : loadConfig unmarshal path (.ok text) = .ok loaded)
    (plain : loaded.Plain) (started : w.cfg = (filterByRegistry loaded registry).1) (payload : PlainPayload patch)
    (ended : daemon.Ends (handle patch.request) w res w') (succeeded : isError res = false) :
    loadConfig unmarshal path (.ok w'.file) = .ok (requested patch w.cfg).kept := by
  obtain ⟨file, valid⟩ := patch_file ended succeeded
  obtain ⟨sub, shape⟩ := filtered_sub loaded registry
  rw [← started] at sub shape
  have plainStart : w.cfg.Plain := by
    rw [shape]
    exact ⟨plain.pools, fun s member => plain.services s (sub.subset member), plain.backups⟩
  have validStart : ∀ s ∈ w.cfg.services, s.Valid := fun s member => load_valid load s (sub.subset member)
  rw [file]
  exact load_render reads (requested_plain plainStart payload valid) (requested_valid validStart valid)

/-- A successful PATCH keeps everything else in the file exactly when the writer and the registry
cover what was loaded. -/
theorem frames_iff (reads : ReadsPlain unmarshal) (load : loadConfig unmarshal path (.ok text) = .ok loaded)
    (version : loaded.version = 1) (plain : loaded.Plain) (read : loadManagedUnits registryFile = .ok registry)
    (starts : startConfig (.ok loaded) registryFile = some w.cfg) (payload : PlainPayload patch)
    (ended : daemon.Ends (handle patch.request) w res w') (succeeded : isError res = false) :
    Frames unmarshal path loaded patch w'.file ↔ Covered registry loaded patch := by
  have started := startConfig_services read starts
  have reload := reload_requested registry reads load plain started payload ended succeeded
  obtain ⟨sub, shape⟩ := filtered_sub loaded registry
  rw [← started] at sub shape
  have alike : Frames unmarshal path loaded patch w'.file ↔
    Alike (requested patch w.cfg).kept (requested patch loaded) := by
    unfold Frames
    rw [reload]
    constructor
    · rintro ⟨reloaded, same, alike⟩
      obtain rfl := Except.ok.inj same
      exact alike
    · intro alike
      exact ⟨_, rfl, alike⟩
  obtain ⟨version', notify, vpn, qui⟩ := requested_sections patch loaded
  have samePools : pools patch w.cfg = pools patch loaded := by
    rw [shape]
    cases patch with
    | config name body | backup name body => rfl
    | storage body => cases body <;> rfl
  have sameBackups : (requested patch w.cfg).backups = (requested patch loaded).backups := by
    rw [shape]
    exact requested_other
  have length : (requested patch w.cfg).services.length = w.cfg.services.length := by
    have views := congrArg List.length (requested_links patch w.cfg (fun _ => ()) fun _ _ => rfl)
    simpa using views
  have services := services_iff patch sub (fun same => by
    rw [shape, same]) length
  rw [alike, alike_iff]
  show 1 = _ ∧ ({} : NotifyConfig) = _ ∧ (requested patch w.cfg).storage.pools.map (·.kept) = _ ∧ ({} : VPNConfig) = _ ∧
    ({} : QuiConfig) = _ ∧
    ((requested patch w.cfg).services.map (·.kept)).map settle = _ ∧ (requested patch w.cfg).backups = _ ↔ _
  rw [version', notify, vpn, qui, requested_pools, requested_pools, samePools, kept_pools_iff, services, started,
    filtered_iff,
    ← started]
  constructor
  · rintro ⟨_, notify, names, vpn, qui, ⟨registered, links⟩, _⟩
    exact ⟨notify.symm, vpn.symm, qui.symm, names, links, registered⟩
  · intro h
    exact ⟨version.symm, h.notify.symm, h.names, h.vpn.symm, h.qui.symm, ⟨h.registered, h.links⟩, sameBackups⟩

end Reload

/-! ### Two files -/

/-- Nothing fails, and the temporary file is the first. -/
theorem writeConfig_succeeds {w : World} (free : w.temps 0 = none) : ∃ w', daemon.Ends writeConfig w none w' := by
  let written : World := { w with temps := Function.update (Function.update w.temps 0 (some [])) 0 (some (render w.cfg)) }
  have renamed : daemon.Ends (perform (Op.renameTemp 0)) written none (written.effect (.renameTemp 0) none) :=
    ends_perform.mpr ⟨rfl, rfl⟩
  refine ⟨written.effect (.renameTemp 0) none, ends_readConfig.mpr (ends_call.mpr ⟨.ok 0, decide_eq_true free, ?_⟩)⟩
  exact ends_call.mpr ⟨none, rfl, ends_call.mpr
    ⟨none, rfl, ends_call.mpr ⟨none, rfl, ends_call.mpr ⟨none, rfl, renamed⟩⟩⟩⟩

theorem storage_succeeds {w : World} (free : w.temps 0 = none) (p : StorageConfigPatch) :
    ∃ w', daemon.Ends (handle (Patch.storage (some p)).request) w .success w' := by
  obtain ⟨w', written⟩ := writeConfig_succeeds (w := { w with cfg := w.cfg.setPools p.pools }) free
  exact ⟨w', ends_patchStorage.mpr ⟨none, written, rfl⟩⟩

def covered : Config :=
  { version := 1
    services := [{ unit := "a.service", enabled := true, order := 10, restart := "always" }]
    backups := [{ unit := "b.service", enabled := true, schedule := "0 3 * * *" }] }

def pool : StoragePoolConfig := { uuid := "1f2e", mountpoint := "/mnt/pool", autoMount := true }

theorem covered_plain : covered.Plain where
  pools p member := nomatch member
  services s member := by
    obtain rfl := List.mem_singleton.mp member
    exact { unit := by decide, order := by decide, bootDelay := by decide, dependsOn := by decide,
            requiresMounts := by decide,
            restart := by decide, restartDelay := by decide }
  backups b member := by
    obtain rfl := List.mem_singleton.mp member
    exact { unit := by decide, schedule := by decide, dependsOn := by decide, requiresMounts := by decide,
            healthcheckUUID := by decide, pauseService := by decide }

/-- A pool is added to a file that the writer covers. -/
theorem frames_iff_covered : ∃ w', daemon.Ends (handle (Patch.storage (some ⟨[pool]⟩)).request)
    { cfg := covered } .success w' ∧
    (Frames plainOnly "/etc/services.yaml" covered (.storage (some ⟨[pool]⟩)) w'.file ↔
      Covered none covered (.storage (some ⟨[pool]⟩))) := by
  obtain ⟨w', ended⟩ := storage_succeeds (w := { cfg := covered }) rfl ⟨[pool]⟩
  have load : loadConfig plainOnly "/etc/services.yaml" (.ok (render covered)) = .ok covered :=
    load_render plainOnly_reads covered_plain (checkServices_eq_none.mp
      (show checkServices 0 covered.services = none by decide))
  have payload : PlainPayload (.storage (some ⟨[pool]⟩)) := by
    intro p member
    obtain rfl := List.mem_singleton.mp member
    exact { uuid := by decide, mountpoint := by decide, options := by decide }
  have read : loadManagedUnits .notExist = .ok none := rfl
  have iff := frames_iff plainOnly_reads load rfl covered_plain read rfl payload ended rfl
  exact ⟨w', ended, iff⟩

def withQui : Config := { version := 1, qui := { enabled := true, url := "http://127.0.0.1:7476" } }

def withQuiFile : Text := "version: 1\nqui:\n  enabled: true\n  url: http://127.0.0.1:7476\n".toList

theorem withQui_loads : loadConfig plainOnly "/etc/services.yaml" (.ok withQuiFile) = .ok withQui := by decide

/-- The pools are written, and the qui section is gone. -/
theorem qui_dropped : ¬ ∀ (unmarshal : Unmarshal) (path : String) (text : Text) (loaded : Config)
    (registryFile : ReadFile)
    (registry : Option (Finset String)) (w w' : World) (patch : Patch) (res : Response), ReadsPlain unmarshal →
    loadConfig unmarshal path (.ok text) = .ok loaded → loaded.version = 1 → loaded.Plain →
    loadManagedUnits registryFile = .ok registry → startConfig (.ok loaded) registryFile = some w.cfg →
    PlainPayload patch →
    daemon.Ends (handle patch.request) w res w' → isError res = false → Frames unmarshal path loaded patch w'.file := by
  intro claim
  have plain : withQui.Plain := ⟨(fun p member => nomatch member), (fun s member => nomatch member),
    (fun b member => nomatch member)⟩
  obtain ⟨w', ended⟩ := storage_succeeds (w := { cfg := withQui }) rfl ⟨[]⟩
  have payload : PlainPayload (.storage (some ⟨[]⟩)) := fun p member => nomatch member
  obtain ⟨reloaded, again, alike⟩ := claim plainOnly "/etc/services.yaml" withQuiFile withQui .notExist none
    { cfg := withQui } w'
    (.storage (some ⟨[]⟩)) .success plainOnly_reads withQui_loads rfl plain rfl rfl payload ended rfl
  have kept := reload_requested none plainOnly_reads withQui_loads plain rfl payload ended rfl
  rw [again] at kept
  obtain rfl := Except.ok.inj kept
  have qui : ({} : QuiConfig) = withQui.qui := (alike_iff.mp alike).2.2.2.2.1
  revert qui
  decide

end PatchFrame
end HomelabDaemon
