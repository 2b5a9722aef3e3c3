import HomelabDaemon.CliDecoding
import Mathlib.Tactic.MkIffOfInductiveProp

/-!
# What the command line shows

The columns of the tables beside the daemon's values. Where a text is UTF-8, a column shows it, apart from the last
run of a backup: it is decoded from a member that the daemon does not send.
-/

namespace HomelabDaemon.Cli
open Json Wire

def bytes (s : String) : Bytes := Utf8.encode s.toList

@[mk_iff] structure Backup.Shows (b : Backup) (status : Wire.BackupStatus) : Prop where
  unit : bytes b.unit = status.unit
  enabled : b.enabled = status.enabled
  lastRun : bytes b.lastRun = status.lastRunStart
  nextRun : bytes b.next = status.nextRun

@[mk_iff] structure ServiceStatus.Shows (s : ServiceStatus) (status : Wire.ServiceStatus) : Prop where
  unit : bytes s.unit = status.unit
  active : s.active = status.active
  enabled : s.enabled = status.enabled
  failures : s.failureCount = status.failureCount
  blocked : bytes s.blockedReason = status.blockedReason

@[mk_iff] structure SecretEntry.Shows (s : SecretEntry) (status : Wire.SecretStatus) : Prop where
  name : bytes s.name = status.name
  description : bytes s.description = status.description
  present : s.present = status.present
  modified : bytes s.modifiedAt = status.modifiedAt

@[mk_iff] structure Update.Shows (u : Update) (info : Wire.UpdateInfo) : Prop where
  current : bytes u.currentVersion = info.currentVersion
  newest : bytes u.remoteVersion = info.remoteVersion
  available : u.hasUpdate = info.hasUpdate

@[mk_iff] structure VMInfo.Shows (v : VMInfo) (info : Wire.VMInfo) : Prop where
  name : bytes v.name = info.name
  state : bytes v.state = info.state
  memory : bytes v.memory = info.memory
  cpus : v.cpus = info.cpus

section Storage
variable {F : Type} [Zero F]

@[mk_iff] structure PoolUsage.Shows (u : PoolUsage F) (usage : Wire.PoolUsage F) : Prop where
  used : u.usedBytes = usage.usedBytes
  total : u.totalBytes = usage.totalBytes
  percent : u.usedPercent = usage.usedPercent

@[mk_iff] structure Pool.Shows (p : Pool F) (pool : Wire.Pool F) : Prop where
  name : bytes p.name = pool.name
  /-- A pool without a name is shown by its UUID. -/
  uuid : p.name = "" → bytes p.uuid = pool.uuid
  mount : bytes p.mountdir = pool.mountdir
  state : bytes p.state = pool.state
  usage : Option.Rel PoolUsage.Shows p.usage pool.usage

end Storage

/-- Every command decodes the body that it gets, and shows in each column the daemon's value. -/
structure Recovers {F : Type} [Zero F] (fl : FloatFormat F) (d : Responses F) : Prop where
  backups : ∃ rows, handleBackupStatus fl d.getBackups = some rows ∧ List.Forall₂ Backup.Shows rows d.backups
  services : ∃ rows, handleStatus d.getStatus = some rows ∧ List.Forall₂ ServiceStatus.Shows rows d.services
  secrets : ∃ result, handleSecretList d.getSecrets = some result ∧
    List.Forall₂ SecretEntry.Shows result.secrets d.secrets ∧
    result.deployPending = d.deployPending
  updates : ∃ rows, handleUpdateStatus d.getUpdates = some rows ∧
    ∀ name, Option.Rel Update.Shows (rows.lookup name) (d.updates.lookup name)
  pools : ∃ rows, handleStorageStatus fl (d.getStorage fl) = some rows ∧ List.Forall₂ Pool.Shows rows (d.pools.getD [])
  vms : ∃ rows, handleVMList d.getVMs = some rows ∧ List.Forall₂ VMInfo.Shows rows (d.vms.getD [])

/-- The texts that are shown are UTF-8. -/
structure Encoded {F : Type} (d : Responses F) : Prop where
  backups : ∀ b ∈ d.backups, Utf8.Valid b.unit ∧ Utf8.Valid b.nextRun
  services : ∀ s ∈ d.services, Utf8.Valid s.unit ∧ Utf8.Valid s.blockedReason
  secrets : ∀ s ∈ d.secrets, Utf8.Valid s.name ∧ Utf8.Valid s.description ∧ Utf8.Valid s.modifiedAt
  updates : ∀ name, ∀ u ∈ d.updates.lookup name, Utf8.Valid u.currentVersion ∧ Utf8.Valid u.remoteVersion
  pools : ∀ p ∈ d.pools.getD [], Utf8.Valid p.name ∧ (p.name = [] → Utf8.Valid p.uuid) ∧ Utf8.Valid p.mountdir ∧
    Utf8.Valid p.state
  vms : ∀ v ∈ d.vms.getD [], Utf8.Valid v.name ∧ Utf8.Valid v.state ∧ Utf8.Valid v.memory

@[simp] theorem bytes_received (s : Bytes) : bytes (received s) = s ↔ Utf8.Valid s := by
  rw [bytes, received, String.toList_ofList, Utf8.encode_decode]

theorem received_empty (s : Bytes) : received s = "" ↔ s = [] := by
  constructor
  · intro none
    have decoded : Utf8.decode s = [] := by
      have chars := congrArg String.toList none
      rwa [received, String.toList_ofList] at chars
    cases s with
    | nil => rfl
    | cons b s =>
      rw [Utf8.decode, Utf8.decodeFrom] at decoded
      split at decoded <;> cases decoded
  · rintro rfl
    rfl

theorem backup_shows (b : Wire.BackupStatus) :
    (Backup.of b).Shows b ↔ Utf8.Valid b.unit ∧ b.lastRunStart = [] ∧ Utf8.Valid b.nextRun := by
  have never : bytes "" = b.lastRunStart ↔ b.lastRunStart = [] := eq_comm
  simp [Backup.shows_iff, Backup.of, never]

theorem service_shows (s : Wire.ServiceStatus) :
    (ServiceStatus.of s).Shows s ↔ Utf8.Valid s.unit ∧ Utf8.Valid s.blockedReason := by
  simp [ServiceStatus.shows_iff, ServiceStatus.of]

theorem secret_shows (s : Wire.SecretStatus) :
    (SecretEntry.of s).Shows s ↔ Utf8.Valid s.name ∧ Utf8.Valid s.description ∧ Utf8.Valid s.modifiedAt := by
  simp [SecretEntry.shows_iff, SecretEntry.of]

theorem update_shows (u : Wire.UpdateInfo) :
    (Update.of u).Shows u ↔ Utf8.Valid u.currentVersion ∧ Utf8.Valid u.remoteVersion := by
  simp [Update.shows_iff, Update.of]

theorem vm_shows (v : Wire.VMInfo) : (VMInfo.of v).Shows v ↔ Utf8.Valid v.name ∧ Utf8.Valid v.state ∧
    Utf8.Valid v.memory := by
  simp [VMInfo.shows_iff, VMInfo.of]

section Storage
variable {F : Type} [Zero F]

theorem pool_shows (p : Wire.Pool F) : (Pool.of p).Shows p ↔
    Utf8.Valid p.name ∧ (p.name = [] → Utf8.Valid p.uuid) ∧ Utf8.Valid p.mountdir ∧ Utf8.Valid p.state := by
  have usage : Option.Rel PoolUsage.Shows (p.usage.map PoolUsage.of) p.usage := by
    cases p.usage with
    | none => exact .none
    | some u => exact .some ⟨rfl, rfl, rfl⟩
  simp [Pool.shows_iff, Pool.of, received_empty, usage]

end Storage

/-! ### All rows -/

theorem rows_iff {α β : Type} {R : α → β → Prop} {decoded : Option (List α)} {of : β → α} {sent : List β}
    (read : decoded = some (sent.map of)) : (∃ rows, decoded = some rows ∧ List.Forall₂ R rows sent) ↔
    ∀ x ∈ sent, R (of x) x := by
  simp [read, List.forall₂_map_left_iff, List.forall₂_same]

section Tables
variable {F : Type} (fl : FloatFormat F) (d : Responses F)

theorem backups_iff : (∃ rows, handleBackupStatus fl d.getBackups = some rows ∧
    List.Forall₂ Backup.Shows rows d.backups) ↔
    (∀ b ∈ d.backups, b.lastRunStart = []) ∧ ∀ b ∈ d.backups, Utf8.Valid b.unit ∧ Utf8.Valid b.nextRun := by
  rw [rows_iff (handleBackupStatus_getBackups fl d), ← forall₂_and]
  refine forall₂_congr fun b _ => ?_
  rw [backup_shows, and_left_comm]

theorem secrets_iff : (∃ result, handleSecretList d.getSecrets = some result ∧
      List.Forall₂ SecretEntry.Shows result.secrets d.secrets ∧ result.deployPending = d.deployPending) ↔
    ∀ s ∈ d.secrets, Utf8.Valid s.name ∧ Utf8.Valid s.description ∧ Utf8.Valid s.modifiedAt := by
  simp [handleSecretList_getSecrets, List.forall₂_map_left_iff, List.forall₂_same, secret_shows]

theorem updates_iff : (∃ rows, handleUpdateStatus d.getUpdates = some rows ∧
      ∀ name, Option.Rel Update.Shows (rows.lookup name) (d.updates.lookup name)) ↔
    ∀ name, ∀ u ∈ d.updates.lookup name, Utf8.Valid u.currentVersion ∧ Utf8.Valid u.remoteVersion := by
  rw [handleUpdateStatus_getUpdates]
  simp only [Option.some.injEq, exists_eq_left', lookup_mapMaybe]
  refine forall_congr' fun name => ?_
  cases d.updates.lookup name with
  | none => exact iff_of_true .none nofun
  | some u =>
    rw [Option.bind_some]
    constructor
    · rintro ⟨shows'⟩ u ⟨⟩
      exact (update_shows u).mp shows'
    · exact fun valid => .some ((update_shows u).mpr (valid u rfl))

variable [Zero F]

theorem columns_iff : Recovers fl d ↔ (∀ b ∈ d.backups, b.lastRunStart = []) ∧ Encoded d := by
  have services := rows_iff (R := ServiceStatus.Shows) (handleStatus_getStatus d)
  have pools := rows_iff (R := Pool.Shows) (handleStorageStatus_getStorage fl d)
  have vms := rows_iff (R := VMInfo.Shows) (handleVMList_getVMs d)
  simp only [service_shows, pool_shows, vm_shows] at services pools vms
  constructor
  · rintro ⟨ranBackups, ranServices, ranSecrets, ranUpdates, ranPools, ranVMs⟩
    obtain ⟨never, texts⟩ := (backups_iff fl d).mp ranBackups
    exact ⟨never, texts, services.mp ranServices, (secrets_iff d).mp ranSecrets, (updates_iff d).mp ranUpdates,
      pools.mp ranPools, vms.mp ranVMs⟩
  · rintro ⟨never, encoded⟩
    exact ⟨(backups_iff fl d).mpr ⟨never, encoded.backups⟩, services.mpr encoded.services,
      (secrets_iff d).mpr encoded.secrets,
      (updates_iff d).mpr encoded.updates, pools.mpr encoded.pools, vms.mpr encoded.vms⟩

end Tables

section Demo

/-- The whole numbers that a float holds exactly, written as they are. -/
def parseWhole (text : List Char) : Option (Fin (2 ^ 53)) :=
  match Strings.parseUint text 0 with
  | .ok n => if small : n < 2 ^ 53 then some ⟨n, small⟩ else none
  | .error _ => none

theorem parseWhole_toDigits (x : Fin (2 ^ 53)) : parseWhole (Nat.toDigits 10 x) = some x := by
  rw [parseWhole, Strings.parseUint_toDigits (by omega)]
  simp

def wholeNumbers : FloatFormat (Fin (2 ^ 53)) where
  format x := Nat.toDigits 10 x
  parse := parseWhole
  isNumber_format x := (isNumber_toDigits x).1
  parse_format := parseWhole_toDigits

local instance whole_zero : Zero (Fin (2 ^ 53)) := ⟨⟨0, Nat.two_pow_pos 53⟩⟩

/-- A backup that has not run yet. -/
def idle : Responses (Fin (2 ^ 53)) where
  backups := [{ unit := bytes "immich-backup.service", enabled := true, nextRun := bytes "2026-01-02T03:00:00Z" }]
  services := [{
    unit := bytes "immich-server.service", enabled := true, active := false, userStopped := false
    restart := bytes "always", order := 1, bootDelay := 0, restartDelay := 5
    failureCount := 3, backoffUntil := bytes "2026-01-01T00:05:00Z", blockedReason := bytes "backing off" }]
  secrets := [{ name := bytes "caddy/TOKEN", present := true, modifiedAt := bytes "2026-01-01T00:00:00Z" }]
  updates := Finmap.singleton "immich" { hasUpdate := true, currentVersion := bytes "1.0", remoteVersion := bytes "1.1" }
  pools := some [{
    uuid := bytes "0b7e", name := bytes "tank", state := bytes "mounted", mountdir := bytes "/pool"
    usage := some { totalBytes := 1000, usedBytes := 550, availableBytes := 450, usedPercent := 55 } }]
  vms := some [{ name := bytes "win11", state := bytes "Running", memory := bytes "4.0 GB", cpus := 4 }]

theorem valid_bytes (s : String) : Utf8.Valid (bytes s) := ⟨s.toList, rfl⟩

theorem idle_columns : Recovers wholeNumbers idle := by
  have empty : Utf8.Valid [] := ⟨[], rfl⟩
  refine (columns_iff wholeNumbers idle).mpr ⟨by simp [idle], ?_⟩
  refine ⟨by simp [idle, valid_bytes], by simp [idle, valid_bytes], by simp [idle, valid_bytes, empty], ?_,
    by simp [idle, valid_bytes], by simp [idle, valid_bytes]⟩
  intro name u found
  by_cases same : name = "immich"
  · subst same
    rw [idle, Finmap.lookup_singleton_eq] at found
    cases found
    exact ⟨valid_bytes _, valid_bytes _⟩
  · have other : idle.updates.lookup name = none := Finmap.lookup_eq_none.mpr (by simpa [idle] using same)
    rw [other] at found
    cases found

/-- The backup ran, and the next one is due. -/
def ran : Responses (Fin (2 ^ 53)) where
  backups := [{
    unit := bytes "immich-backup.service", enabled := true
    lastRunStart := bytes "2026-01-01T03:00:00Z", nextRun := bytes "2026-01-02T03:00:00Z" }]

theorem last_run_unseen : (handleBackupStatus wholeNumbers ran.getBackups).map (·.map Backup.lastRun) = some [""] ∧
    ¬ Recovers wholeNumbers ran := by
  constructor
  · rw [handleBackupStatus_getBackups]
    rfl
  · intro recovers
    obtain ⟨never, _⟩ := (backups_iff wholeNumbers ran).mp recovers.backups
    have filled : bytes "2026-01-01T03:00:00Z" ≠ [] := by decide
    exact filled (never _ List.mem_cons_self)

end Demo

end HomelabDaemon.Cli
