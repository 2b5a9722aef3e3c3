import HomelabDaemon.LoadConfig

/-!
# Merging the defaults

`merge-config` brings services.yaml up to date with the file that the activation generates:
missing entries are added, and the fields that the system configuration owns are taken over.
-/

namespace HomelabDaemon
open Yaml

/-- The index of each unit; of two entries with one unit the last counts. -/
def places {α : Type} (unit : α → String) (entries : List α) : String → Option Nat :=
  entries.zipIdx.foldl (fun place entry => Function.update place (unit entry.1) (some entry.2)) fun _ => none

/-- The loop over the defaults: an entry that exists is synced, another is added. With it, whether
anything was modified. -/
def mergeEntries {α : Type} (unit : α → String) (differs : α → α → Bool) (sync : α → α → α)
    (existing defaults : List α) :
    List α × Bool :=
  let place := places unit existing
  defaults.foldl (fun acc d =>
    match place (unit d) with
    | some idx => (acc.1.modify idx (sync d), acc.2 || acc.1[idx]?.any (differs d))
    | none => (acc.1 ++ [d], true)) (existing, false)

section Entries
variable {α : Type} {unit : α → String} {differs : α → α → Bool} {sync : α → α → α} {existing defaults : List α}

theorem mergeEntries_induction (P : List α → Prop) (start : P existing)
    (add : ∀ acc, P acc → ∀ d ∈ defaults, P (acc ++ [d]))
    (synced : ∀ acc, P acc → ∀ d ∈ defaults, ∀ idx, P (acc.modify idx (sync d))) :
    P (mergeEntries unit differs sync existing defaults).1 := by
  unfold mergeEntries
  generalize places unit existing = place
  generalize hacc : (existing, false) = acc
  have before : P acc.1 := by
    rw [← hacc]
    exact start
  clear hacc start
  induction defaults generalizing acc with
  | nil => exact before
  | cons d rest ih =>
    rw [List.foldl_cons]
    refine ih (fun acc keeps e member => add acc keeps e (List.mem_cons_of_mem d member))
      (fun acc keeps e member => synced acc keeps e (List.mem_cons_of_mem d member)) _ ?_
    cases place (unit d) with
    | none => exact add acc.1 before d List.mem_cons_self
    | some idx => exact synced acc.1 before d List.mem_cons_self idx

theorem mergeEntries_forall {P : α → Prop} (old : ∀ x ∈ existing, P x) (new : ∀ d ∈ defaults, P d)
    (keeps : ∀ d x, P d → P x → P (sync d x)) : ∀ x ∈ (mergeEntries unit differs sync existing defaults).1, P x := by
  refine mergeEntries_induction (fun acc => ∀ x ∈ acc, P x) old ?_ ?_
  · intro acc all d member x inside
    rcases List.mem_append.mp inside with inside | inside
    · exact all x inside
    · obtain rfl := List.mem_singleton.mp inside
      exact new x member
  · intro acc all d member idx x inside
    rcases mem_modify inside with old | ⟨t, old, rfl⟩
    · exact all x old
    · exact keeps d t (new d member) (all t old)

end Entries

/-- The fields that the system configuration owns are taken from the default. -/
def Service.sync (s existing : Service) : Service :=
  { existing with
    requiresMounts := s.requiresMounts
    dependsOn := s.dependsOn
    iconURL := s.iconURL
    homepageURL := s.homepageURL }

def Service.differs (s existing : Service) : Bool :=
  decide (existing.requiresMounts ≠ s.requiresMounts) || decide (existing.dependsOn ≠ s.dependsOn) ||
  decide (existing.iconURL ≠ s.iconURL) || decide (existing.homepageURL ≠ s.homepageURL)

def Backup.sync (b existing : Backup) : Backup :=
  { existing with requiresMounts := b.requiresMounts, dependsOn := b.dependsOn }

def Backup.differs (b existing : Backup) : Bool :=
  decide (existing.requiresMounts ≠ b.requiresMounts) || decide (existing.dependsOn ≠ b.dependsOn)

def migrate (cfg : Config) : Config × Bool := if cfg.version < 1 then ({ cfg with version := 1 }, true)
    else (cfg, false)

/-- The existing configuration with the defaults merged into it, and whether it was modified. -/
def merged (existingCfg defaultCfg : Config) : Config × Bool :=
  let services := mergeEntries Service.unit Service.differs Service.sync existingCfg.services defaultCfg.services
  let backups := mergeEntries Backup.unit Backup.differs Backup.sync existingCfg.backups defaultCfg.backups
  let cfg := migrate { existingCfg with services := services.1, backups := backups.1, qui := defaultCfg.qui }
  (cfg.1, services.2 || backups.2 || decide (existingCfg.qui ≠ defaultCfg.qui) || cfg.2)

/-- How `handleMergeConfig` goes on after it has loaded both files. -/
inductive MergeResult where
  | exits
  | upToDate
  | saves (cfg : Config)
  deriving DecidableEq

/-- `os.IsNotExist` does not look into an error that `loadConfig` has wrapped. -/
def isNotExist (_ : LoadError) : Bool := false

def bootstrapFromDefaults (defaultCfg : Except LoadError Config) : MergeResult :=
  match defaultCfg with
  | .error _ => .exits
  | .ok cfg => .saves (migrate cfg).1

def handleMergeConfig (existingCfg defaultCfg : Except LoadError Config) : MergeResult :=
  match existingCfg with
  | .error error => if isNotExist error then bootstrapFromDefaults defaultCfg else .exits
  | .ok existing =>
    match defaultCfg with
    | .error _ => .exits
    | .ok default =>
      let result := merged existing default
      if result.2 then .saves result.1 else .upToDate

/-- `saveConfig` prints a header and what `yaml.Marshal` makes of the configuration. -/
def header : Text :=
  "# homelab-daemon — service orchestration config\n".toList ++
  "# Generated from NixOS managedServices declarations on activation.\n".toList ++
  "# Edit this file freely to adjust order, delays, and restart policies.\n".toList ++
  "# Restart policies: no | on-failure | unless-stopped | always\n".toList ++
  "# unless-stopped: like always, but remembers user-initiated stops across reboots.\n\n".toList

def saveText (marshal : Config → Text) (cfg : Config) : Text := header ++ marshal cfg

/-! ### What a merge keeps -/

section Merged
variable {existing default cfg : Config}

theorem migrate_lists (cfg : Config) : (migrate cfg).1.storage = cfg.storage ∧ (migrate cfg).1.services = cfg.services ∧
    (migrate cfg).1.backups = cfg.backups := by
  unfold migrate
  split <;> exact ⟨rfl, rfl, rfl⟩

theorem merged_services : (merged existing default).1.services =
    (mergeEntries Service.unit Service.differs Service.sync existing.services default.services).1 :=
    (migrate_lists _).2.1

theorem merged_backups : (merged existing default).1.backups =
    (mergeEntries Backup.unit Backup.differs Backup.sync existing.backups default.backups).1 := (migrate_lists _).2.2

theorem handleMergeConfig_saves {existingCfg defaultCfg : Except LoadError Config}
    (saves : handleMergeConfig existingCfg defaultCfg = .saves cfg) :
    ∃ existing default, existingCfg = .ok existing ∧ defaultCfg = .ok default ∧ cfg = (merged existing default).1 := by
  cases existingCfg with
  | error e => cases saves
  | ok existing =>
    cases defaultCfg with
    | error e => cases saves
    | ok default =>
      unfold handleMergeConfig at saves
      simp only at saves
      split at saves
      · exact ⟨existing, default, rfl, rfl, (MergeResult.saves.inj saves).symm⟩
      · cases saves

theorem merged_valid (old : ∀ s ∈ existing.services, s.Valid) (new : ∀ s ∈ default.services, s.Valid) :
    ∀ s ∈ (merged existing default).1.services, s.Valid := by
  rw [merged_services]
  exact mergeEntries_forall old new fun _ x _ valid => ⟨valid.unit, valid.restart⟩

theorem merged_plain (old : existing.Plain) (new : default.Plain) : (merged existing default).1.Plain where
  pools := by
    rw [show (merged existing default).1.storage = existing.storage from (migrate_lists _).1]
    exact old.pools
  services := by
    rw [merged_services]
    exact mergeEntries_forall old.services new.services fun _ x given plain =>
      { plain with dependsOn := given.dependsOn, requiresMounts := given.requiresMounts }
  backups := by
    rw [merged_backups]
    exact mergeEntries_forall old.backups new.backups fun _ x given plain =>
      { plain with dependsOn := given.dependsOn, requiresMounts := given.requiresMounts }

/-- No service has a link. -/
def Unlinked (cfg : Config) : Prop := ∀ s ∈ cfg.services, s.iconURL = "" ∧ s.homepageURL = ""

theorem merged_unlinked (old : Unlinked existing) (new : Unlinked default) : Unlinked (merged existing default).1 := by
  unfold Unlinked
  rw [merged_services]
  exact mergeEntries_forall old new fun _ x given _ => given

end Merged

end HomelabDaemon
