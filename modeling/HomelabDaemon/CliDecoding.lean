import HomelabDaemon.WireTypes

/-!
# What the command line decodes

`homelab` declares the structs of the responses once more, with the fields that it shows, and decodes the bodies
into them.
-/

namespace HomelabDaemon.Cli
open Json Wire

/-- Of a job in `handleBackupStatus`. -/
structure Backup where
  unit : String := ""
  lastRun : String := ""
  next : String := ""
  enabled : Bool := false

def Backup.fields : List (StructField Backup) := [
  .plain "unit" decodeString fun b s => { b with unit := s },
  .plain "last_run" decodeString fun b s => { b with lastRun := s },
  .plain "next_run" decodeString fun b s => { b with next := s },
  .plain "enabled" decodeBool fun b on => { b with enabled := on }]

structure ServiceStatus where
  unit : String := ""
  enabled : Bool := false
  active : Bool := false
  userStopped : Bool := false
  restart : String := ""
  order : Int64 := 0
  failureCount : Int64 := 0
  backoffUntil : String := ""
  blockedReason : String := ""

def ServiceStatus.fields : List (StructField ServiceStatus) := [
  .plain "unit" decodeString fun s x => { s with unit := x },
  .plain "enabled" decodeBool fun s x => { s with enabled := x },
  .plain "active" decodeBool fun s x => { s with active := x },
  .plain "user_stopped" decodeBool fun s x => { s with userStopped := x },
  .plain "restart" decodeString fun s x => { s with restart := x },
  .plain "order" decodeInt fun s x => { s with order := x },
  .plain "failure_count" decodeInt fun s x => { s with failureCount := x },
  .plain "backoff_until" decodeString fun s x => { s with backoffUntil := x },
  .plain "blocked_reason" decodeString fun s x => { s with blockedReason := x }]

structure SecretEntry where
  name : String := ""
  description : String := ""
  present : Bool := false
  modifiedAt : String := ""
  preview : String := ""

def SecretEntry.fields : List (StructField SecretEntry) := [
  .plain "name" decodeString fun s x => { s with name := x },
  .plain "description" decodeString fun s x => { s with description := x },
  .plain "present" decodeBool fun s x => { s with present := x },
  .plain "modified_at" decodeString fun s x => { s with modifiedAt := x },
  .plain "preview" decodeString fun s x => { s with preview := x }]

structure Secrets where
  secrets : List SecretEntry := []
  deployPending : Bool := false

structure Update where
  hasUpdate : Bool := false
  currentVersion : String := ""
  remoteVersion : String := ""

def Update.fields : List (StructField Update) := [
  .plain "has_update" decodeBool fun u x => { u with hasUpdate := x },
  .plain "current_version" decodeString fun u x => { u with currentVersion := x },
  .plain "remote_version" decodeString fun u x => { u with remoteVersion := x }]

abbrev Updates := Finmap fun _ : String => Update

structure PoolUsage (F : Type) [Zero F] where
  totalBytes : UInt64 := 0
  usedBytes : UInt64 := 0
  usedPercent : F := 0

structure Pool (F : Type) [Zero F] where
  uuid : String := ""
  name : String := ""
  state : String := ""
  mountdir : String := ""
  usage : Option (PoolUsage F) := none

structure VMInfo where
  name : String := ""
  state : String := ""
  memory : String := ""
  cpus : UInt64 := 0

def VMInfo.fields : List (StructField VMInfo) := [
  .plain "name" decodeString fun v x => { v with name := x },
  .plain "state" decodeString fun v x => { v with state := x },
  .plain "memory" decodeString fun v x => { v with memory := x },
  .plain "cpus" decodeUint fun v x => { v with cpus := x }]

/-! ### Decoding -/

def into {α : Type} (fields : List (StructField α)) (s : α) : Decoder α := decodeStruct StateFile.foldName fields s

def Secrets.fields : List (StructField Secrets) := [
  .slice "secrets" (into SecretEntry.fields {}) fun r x => { r with secrets := x },
  .plain "deploy_pending" decodeBool fun r x => { r with deployPending := x }]

def decodeMap {V : Type} (decode : Decoder V) (m : Finmap fun _ : String => V) : Decoder (Finmap fun _ : String => V)
  | .null => some ∅
  | .object members => members.foldlM (fun m (key, v) => (decode v).map (m.insert key)) m
  | _ => none

def Updates.fields : List (StructField Updates) := [
  { name := "updates", set := fun v m => decodeMap (into Update.fields {}) m v }]

section Storage
variable {F : Type} [Zero F] (fl : FloatFormat F)

def PoolUsage.fields : List (StructField (PoolUsage F)) := [
  .plain "total_bytes" decodeUint fun u x => { u with totalBytes := x },
  .plain "used_bytes" decodeUint fun u x => { u with usedBytes := x },
  .plain "used_percent" (decodeFloat fl) fun u x => { u with usedPercent := x }]

def Pool.fields : List (StructField (Pool F)) := [
  .plain "uuid" decodeString fun p x => { p with uuid := x },
  .plain "name" decodeString fun p x => { p with name := x },
  .plain "state" decodeString fun p x => { p with state := x },
  .plain "mountdir" decodeString fun p x => { p with mountdir := x },
  .pointer "usage" (into (PoolUsage.fields fl)) {} Pool.usage fun p x => { p with usage := x }]

def poolsFields : List (StructField (List (Pool F))) := [.slice "pools" (into (Pool.fields fl) {}) fun _ x => x]

end Storage

/-- The first value of a body, as a decoder of the stream reads it. -/
def readBody (body : Bytes) : Option Value := (Reader.readValue {} (Utf8.decode body)).map Prod.fst

section Handlers
variable {F : Type} (fl : FloatFormat F) (body : Bytes)

/-- The value is decoded without a type at first, written once more and decoded from there. -/
def handleBackupStatus : Option (List Backup) := do
  let result ← decodeAny fl (← readBody body)
  decodeSlice (into Backup.fields {}) (← unmarshal (jsonMarshal result))

def handleStatus : Option (List ServiceStatus) := (readBody body).bind (decodeSlice (into ServiceStatus.fields {}))

def handleSecretList : Option Secrets := (readBody body).bind (into Secrets.fields {})

def handleUpdateStatus : Option Updates := (readBody body).bind (into Updates.fields ∅)

def handleStorageStatus [Zero F] : Option (List (Pool F)) := (readBody body).bind (into (poolsFields fl) [])

def handleVMList : Option (List VMInfo) := (readBody body).bind (decodeSlice (into VMInfo.fields {}))

end Handlers

section Values
variable {v : Value}

theorem readBody_writeJSON (fits : Fits maxNestingDepth v) (other : ∀ text, v ≠ .number text) :
    readBody (writeJSON v) = some v := by
  rw [readBody, writeJSON, Utf8.decode_encode, readValue_compact fits other, Option.map_some]

theorem readBody_jsonMarshal (fits : Fits maxNestingDepth v) (other : ∀ text, v ≠ .number text) :
    readBody (jsonMarshal v) = some v := by
  have read := readValue_compact fits other []
  rw [List.append_nil] at read
  rw [readBody, jsonMarshal, Utf8.decode_encode, read, Option.map_some]

theorem unmarshal_jsonMarshal (fits : Fits maxNestingDepth v) (other : ∀ text, v ≠ .number text) :
    unmarshal (jsonMarshal v) = some v := by
  rw [unmarshal, jsonMarshal, Utf8.decode_encode, parse_compact fits other]

end Values

/-- A text as it comes out of JSON. -/
def received (s : Bytes) : String := String.ofList (Utf8.decode s)

@[simp] theorem plain_text {α : Type} (name : String) (set : α → String → α) (s : Bytes) (x : α) :
    (StructField.plain name decodeString set).set (text s) x = some (set x (received s)) := rfl

def Backup.of (b : Wire.BackupStatus) : Backup where
  unit := received b.unit
  next := received b.nextRun
  enabled := b.enabled

theorem members_sorted (b : Wire.BackupStatus) : sortMembers b.members = [
    ("active_state", text b.activeState),
    ("depends_on", encodeSlice text b.dependsOn),
    ("enabled", .bool b.enabled),
    ("healthcheck_uuid", text b.healthcheckUUID),
    ("last_run_end", text b.lastRunEnd),
    ("last_run_start", text b.lastRunStart),
    ("next_run", text b.nextRun),
    ("pause_service", text b.pauseService),
    ("requires_mount", encodeSlice text b.requiresMounts),
    ("result", text b.result),
    ("schedule", text b.schedule),
    ("unit", text b.unit)] := by
  simp [sortMembers, insertMember, before, Wire.BackupStatus.members]

theorem backup_sorted (b : Wire.BackupStatus) :
    into Backup.fields {} (.object (sortMembers b.members)) = some (Backup.of b) := by
  rw [members_sorted]
  rfl

def ServiceStatus.of (s : Wire.ServiceStatus) : ServiceStatus where
  unit := received s.unit
  enabled := s.enabled
  active := s.active
  userStopped := s.userStopped
  restart := received s.restart
  order := s.order
  failureCount := s.failureCount
  backoffUntil := received s.backoffUntil
  blockedReason := received s.blockedReason

theorem service_toJson (s : Wire.ServiceStatus) : into ServiceStatus.fields {} s.toJson = some (.of s) := by
  have members : assigned StateFile.foldName ServiceStatus.fields s.members = ServiceStatus.fields.zip [text s.unit,
      .bool s.enabled, .bool s.active, .bool s.userStopped, text s.restart, encodeInt s.order, encodeInt s.failureCount,
      text s.backoffUntil, text s.blockedReason] := rfl
  rw [Wire.ServiceStatus.toJson, into, decodeStruct, assigned_append, assigned_append, members, assigned_unknown rfl,
    assigned_unknown rfl]
  simp [ServiceStatus.fields, ServiceStatus.of]

def SecretEntry.of (s : Wire.SecretStatus) : SecretEntry where
  name := received s.name
  description := received s.description
  present := s.present
  modifiedAt := received s.modifiedAt
  preview := received s.preview

theorem secret_toJson (s : Wire.SecretStatus) : into SecretEntry.fields {} s.toJson = some (.of s) := by
  have members : assigned StateFile.foldName SecretEntry.fields s.members = [
      (.plain "name" decodeString fun s x => { s with name := x }, text s.name),
      (.plain "description" decodeString fun s x => { s with description := x }, text s.description),
      (.plain "present" decodeBool fun s x => { s with present := x }, .bool s.present)] := rfl
  have empty : received [] = "" := rfl
  rw [Wire.SecretStatus.toJson, into, decodeStruct, assigned_append, assigned_append, members, assigned_known rfl,
    assigned_known rfl]
  by_cases unstamped : s.modifiedAt = [] <;> by_cases hidden : s.preview = [] <;>
    simp [nonEmpty, unstamped, hidden, SecretEntry.of, empty]

def Update.of (u : Wire.UpdateInfo) : Update where
  hasUpdate := u.hasUpdate
  currentVersion := received u.currentVersion
  remoteVersion := received u.remoteVersion

theorem update_toJson (u : Wire.UpdateInfo) : into Update.fields {} u.toJson = some (.of u) := rfl

def VMInfo.of (v : Wire.VMInfo) : VMInfo where
  name := received v.name
  state := received v.state
  memory := received v.memory
  cpus := v.cpus

theorem vm_toJson (v : Wire.VMInfo) : into VMInfo.fields {} v.toJson = some (.of v) := by
  have members : assigned StateFile.foldName VMInfo.fields [("name", text v.name), ("state", text v.state),
      ("memory", text v.memory), ("cpus", encodeUint v.cpus)] = VMInfo.fields.zip [text v.name, text v.state,
        text v.memory,
      encodeUint v.cpus] := rfl
  rw [Wire.VMInfo.toJson, into, decodeStruct, members]
  simp [VMInfo.fields, VMInfo.of]

section Storage
variable {F : Type} [Zero F] {fl : FloatFormat F}

def PoolUsage.of (u : Wire.PoolUsage F) : PoolUsage F where
  totalBytes := u.totalBytes
  usedBytes := u.usedBytes
  usedPercent := u.usedPercent

theorem usage_toJson (u : Wire.PoolUsage F) : into (PoolUsage.fields fl) {} (u.toJson fl) = some (.of u) := by
  have members : assigned StateFile.foldName (PoolUsage.fields fl) [("total_bytes", encodeUint u.totalBytes),
      ("used_bytes", encodeUint u.usedBytes), ("available_bytes", encodeUint u.availableBytes),
      ("used_percent", encodeFloat fl u.usedPercent)] = (PoolUsage.fields fl).zip [encodeUint u.totalBytes,
      encodeUint u.usedBytes, encodeFloat fl u.usedPercent] := by
    simp +decide [assigned, findField, PoolUsage.fields, StructField.plain]
  rw [Wire.PoolUsage.toJson, into, decodeStruct, members]
  simp [PoolUsage.fields, PoolUsage.of]

def Pool.of (p : Wire.Pool F) : Pool F where
  uuid := received p.uuid
  name := received p.name
  state := received p.state
  mountdir := received p.mountdir
  usage := p.usage.map PoolUsage.of

theorem pool_toJson (p : Wire.Pool F) : into (Pool.fields fl) {} (p.toJson fl) = some (.of p) := by
  have members : assigned StateFile.foldName (Pool.fields fl) p.members = (Pool.fields fl).zip
    [text p.uuid, text p.name,
      text p.state, text p.mountdir] := by
    simp +decide [assigned, findField, Pool.fields, Wire.Pool.members, StructField.plain, StructField.pointer]
  rw [Wire.Pool.toJson, into, decodeStruct, assigned_append, members, assigned_known rfl]
  cases used : p.usage with
  | none => simp [Pool.fields, Pool.of, used]
  | some u =>
    have read : ∀ p : Pool F, p.usage = none → (StructField.pointer "usage" (into (PoolUsage.fields fl)) {} Pool.usage
        fun p x => { p with usage := x }).set (u.toJson fl) p = some { p with usage := some (.of u) } :=
      fun p fresh => StructField.pointer_fresh "usage" p (by simp [Wire.PoolUsage.toJson]) fresh (usage_toJson u)
    simp [Pool.fields, Pool.of, used, read]

end Storage

/-! ### Maps -/

theorem decodeMap_encodeMap {V W : Type} {encode : V → Value} {decode : Decoder W} {f : V → W}
    (read : ∀ v, decode (encode v) = some (f v)) (m : Finmap fun _ : String => V) :
    decodeMap decode ∅ (encodeMap encode m) = some (mapMaybe (fun v => some (f v)) m) := by
  rw [encodeMap, decodeMap, mapMaybe, ← sortedKeys]
  generalize (∅ : Finmap fun _ : String => W) = made
  induction sortedKeys m generalizing made with
  | nil => rfl
  | cons key keys ih =>
    cases found : m.lookup key with
    | none => simp [found, ih]
    | some v => simp [found, read, ih]

section Bodies
variable {F : Type} (fl : FloatFormat F) (d : Wire.Responses F)

theorem decodeAny_backup (b : Wire.BackupStatus) : decodeAny fl b.toJson = some (.object (sortMembers b.members)) := by
  have texts : ∀ items, decodeAny fl (encodeSlice text items) = some (encodeSlice text items) :=
    decodeAny_slice fun _ => rfl
  refine decodeAny_object ?_
  simp [Wire.BackupStatus.members, texts, text, decodeAny]

theorem handleBackupStatus_getBackups : handleBackupStatus fl d.getBackups = some (d.backups.map Backup.of) := by
  have sent : Fits (9999 + 1) (encodeSlice Wire.BackupStatus.toJson (some d.backups)) :=
    fits_encodeSlice Wire.BackupStatus.fits _
  have sorted : Fits (9999 + 1) (encodeSlice (fun b => .object (sortMembers b.members)) (some d.backups)) :=
    fits_encodeSlice (fun b => fits_object fun member there => b.fits_members member (mem_sortMembers there)) _
  rw [handleBackupStatus, Responses.getBackups, readBody_writeJSON sent nofun]
  simp only [Option.bind_eq_bind, Option.bind_some, decodeAny_slice (decodeAny_backup fl),
    unmarshal_jsonMarshal sorted nofun,
    decodeSlice_encodeSlice backup_sorted, Option.getD_some]

theorem handleStatus_getStatus : handleStatus d.getStatus = some (d.services.map ServiceStatus.of) := by
  have sent : Fits (9999 + 1) (encodeSlice Wire.ServiceStatus.toJson (some d.services)) :=
    fits_encodeSlice Wire.ServiceStatus.fits _
  rw [handleStatus, Responses.getStatus, readBody_writeJSON sent nofun, Option.bind_some,
    decodeSlice_encodeSlice service_toJson,
    Option.getD_some]

theorem handleVMList_getVMs : handleVMList d.getVMs = some ((d.vms.getD []).map VMInfo.of) := by
  have sent : Fits (9999 + 1) (encodeSlice Wire.VMInfo.toJson d.vms) := fits_encodeSlice Wire.VMInfo.fits _
  have other : ∀ text, encodeSlice Wire.VMInfo.toJson d.vms ≠ .number text := by
    cases d.vms <;> exact nofun
  rw [handleVMList, Responses.getVMs, readBody_writeJSON sent other, Option.bind_some,
    decodeSlice_encodeSlice vm_toJson]

theorem sort_two {first second : String} {v w : Value} (behind : before second first = true)
    (apart : before first second = false) :
    sortMembers [(first, v), (second, w)] = [(second, w), (first, v)] := by
  simp [sortMembers, insertMember, behind, apart]

theorem handleSecretList_getSecrets :
    handleSecretList d.getSecrets = some
    { secrets := d.secrets.map SecretEntry.of, deployPending := d.deployPending } := by
  have sent : Fits (9999 + 1) (.object [("deploy_pending", .bool d.deployPending),
      ("secrets", encodeSlice Wire.SecretStatus.toJson (some d.secrets))]) := by
    refine fits_object ?_
    simp [fits_encodeSlice Wire.SecretStatus.fits]
  have members : assigned StateFile.foldName Secrets.fields [("deploy_pending", .bool d.deployPending),
      ("secrets", encodeSlice Wire.SecretStatus.toJson (some d.secrets))] = [
      (.plain "deploy_pending" decodeBool fun r x => { r with deployPending := x }, .bool d.deployPending),
      (.slice "secrets" (into SecretEntry.fields {}) fun r x => { r with secrets := x },
        encodeSlice Wire.SecretStatus.toJson (some d.secrets))] := rfl
  rw [handleSecretList, Responses.getSecrets, sort_two rfl rfl, readBody_writeJSON sent nofun, Option.bind_some, into,
    decodeStruct, members]
  simp [StructField.slice, decodeSlice_encodeSlice secret_toJson]

theorem handleUpdateStatus_getUpdates :
    handleUpdateStatus d.getUpdates = some (mapMaybe (fun u => some (Update.of u)) d.updates) := by
  have sent : Fits (9999 + 1) (.object [("metadata", encodeMap Wire.MetadataEntry.toJson d.metadata),
      ("updates", encodeMap Wire.UpdateInfo.toJson d.updates)]) := by
    refine fits_object ?_
    simp [fits_encodeMap Wire.MetadataEntry.fits, fits_encodeMap Wire.UpdateInfo.fits]
  have members : assigned StateFile.foldName Updates.fields
    [("metadata", encodeMap Wire.MetadataEntry.toJson d.metadata),
      ("updates", encodeMap Wire.UpdateInfo.toJson d.updates)] =
      Updates.fields.zip [encodeMap Wire.UpdateInfo.toJson d.updates] := rfl
  rw [handleUpdateStatus, Responses.getUpdates, sort_two rfl rfl, readBody_writeJSON sent nofun, Option.bind_some, into,
    decodeStruct, members]
  simp [Updates.fields, decodeMap_encodeMap update_toJson]

theorem handleStorageStatus_getStorage [Zero F] :
    handleStorageStatus fl (d.getStorage fl) = some ((d.pools.getD []).map Pool.of) := by
  have sorted : sortMembers [("pools", encodeSlice (Wire.Pool.toJson fl) d.pools),
      ("unassigned", encodeSlice Wire.Disk.toJson d.unassigned),
      ("subvolumes", encodeSlice Wire.Subvolume.toJson d.subvolumes)] = [
      ("pools", encodeSlice (Wire.Pool.toJson fl) d.pools),
        ("subvolumes", encodeSlice Wire.Subvolume.toJson d.subvolumes),
      ("unassigned", encodeSlice Wire.Disk.toJson d.unassigned)] := by
    simp [sortMembers, insertMember, before]
  have sent : Fits (9999 + 1) (.object [("pools", encodeSlice (Wire.Pool.toJson fl) d.pools),
      ("subvolumes", encodeSlice Wire.Subvolume.toJson d.subvolumes),
      ("unassigned", encodeSlice Wire.Disk.toJson d.unassigned)]) := by
    refine fits_object ?_
    simp [fits_encodeSlice Wire.Pool.fits, fits_encodeSlice Wire.Disk.fits,
      fits_encodeSlice Wire.Subvolume.fits]
  have members : assigned StateFile.foldName (poolsFields fl) [("pools", encodeSlice (Wire.Pool.toJson fl) d.pools),
      ("subvolumes", encodeSlice Wire.Subvolume.toJson d.subvolumes),
      ("unassigned", encodeSlice Wire.Disk.toJson d.unassigned)] =
      (poolsFields fl).zip [encodeSlice (Wire.Pool.toJson fl) d.pools] := by
    simp +decide [assigned, findField, poolsFields, StructField.slice]
  rw [handleStorageStatus, Responses.getStorage, sorted, readBody_jsonMarshal sent (by simp), Option.bind_some, into,
    decodeStruct,
    members]
  simp [poolsFields, StructField.slice, decodeSlice_encodeSlice pool_toJson]

end Bodies

end HomelabDaemon.Cli
