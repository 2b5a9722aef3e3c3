import HomelabDaemon.Json.Fields
import HomelabDaemon.State

/-!
# The responses of the daemon

The bodies that the daemon sends about backups, services, secrets, image updates, storage and virtual machines.
Texts are bytes, and a nil slice is `none`.
-/

namespace HomelabDaemon.Wire
open Json

abbrev Bytes := List UInt8

/-- A byte that begins no character is written as the replacement character. -/
def text (s : Bytes) : Value := .string (String.ofList (Utf8.decode s))

def nonEmpty (s : Bytes) : Option Value := if s = [] then none else some (text s)

structure BackupStatus where
  unit : Bytes
  enabled : Bool
  schedule : Bytes := []
  dependsOn : Option (List Bytes) := none
  requiresMounts : Option (List Bytes) := none
  healthcheckUUID : Bytes := []
  pauseService : Bytes := []
  activeState : Bytes := []
  result : Bytes := []
  lastRunStart : Bytes := []
  lastRunEnd : Bytes := []
  nextRun : Bytes := []

def BackupStatus.members (b : BackupStatus) : List (String × Value) := [
  ("unit", text b.unit),
  ("enabled", .bool b.enabled),
  ("schedule", text b.schedule),
  ("depends_on", encodeSlice text b.dependsOn),
  ("requires_mount", encodeSlice text b.requiresMounts),
  ("healthcheck_uuid", text b.healthcheckUUID),
  ("pause_service", text b.pauseService),
  ("active_state", text b.activeState),
  ("result", text b.result),
  ("last_run_start", text b.lastRunStart),
  ("last_run_end", text b.lastRunEnd),
  ("next_run", text b.nextRun)]

def BackupStatus.toJson (b : BackupStatus) : Value := .object b.members

structure ServiceStatus where
  unit : Bytes
  enabled : Bool
  active : Bool
  activeState : Bytes := []
  subState : Bytes := []
  description : Bytes := []
  userStopped : Bool
  restart : Bytes
  order : Int64
  bootDelay : Int64
  restartDelay : Int64
  dependsOn : Option (List Bytes) := none
  requiresMounts : Option (List Bytes) := none
  failureCount : Int64
  backoffUntil : Bytes
  blockedReason : Bytes
  iconURL : Bytes := []
  homepageURL : Bytes := []

def ServiceStatus.members (s : ServiceStatus) : List (String × Value) := [
  ("unit", text s.unit),
  ("enabled", .bool s.enabled),
  ("active", .bool s.active),
  ("active_state", text s.activeState),
  ("sub_state", text s.subState),
  ("description", text s.description),
  ("user_stopped", .bool s.userStopped),
  ("restart", text s.restart),
  ("order", encodeInt s.order),
  ("boot_delay", encodeInt s.bootDelay),
  ("restart_delay", encodeInt s.restartDelay),
  ("depends_on", encodeSlice text s.dependsOn),
  ("requires_mount", encodeSlice text s.requiresMounts),
  ("failure_count", encodeInt s.failureCount),
  ("backoff_until", text s.backoffUntil),
  ("blocked_reason", text s.blockedReason)]

def ServiceStatus.toJson (s : ServiceStatus) : Value :=
  .object (s.members ++ (omitEmpty "icon_url" (nonEmpty s.iconURL) ++
    omitEmpty "homepage_url" (nonEmpty s.homepageURL)))

/-! ### Secrets -/

structure SecretEntry where
  name : Bytes
  description : Bytes := []
  services : Option (List Bytes) := none
  runPath : Bytes := []

structure SecretStatus extends SecretEntry where
  present : Bool := false
  modifiedAt : Bytes := []
  preview : Bytes := []

def SecretStatus.members (s : SecretStatus) : List (String × Value) := [
  ("name", text s.name),
  ("description", text s.description),
  ("services", encodeSlice text s.services),
  ("runPath", text s.runPath),
  ("present", .bool s.present)]

def SecretStatus.toJson (s : SecretStatus) : Value :=
  .object (s.members ++ (omitEmpty "modified_at" (nonEmpty s.modifiedAt) ++ omitEmpty "preview" (nonEmpty s.preview)))

structure UpdateInfo where
  hasUpdate : Bool
  currentVersion : Bytes
  remoteVersion : Bytes
  localID : Bytes := []
  remoteID : Bytes := []

def UpdateInfo.toJson (u : UpdateInfo) : Value := .object [
  ("has_update", .bool u.hasUpdate),
  ("current_version", text u.currentVersion),
  ("remote_version", text u.remoteVersion),
  ("local_id", text u.localID),
  ("remote_id", text u.remoteID)]

structure PortBinding where
  containerPort : Int64
  hostPort : Int64
  protocol : Bytes
  hostIP : Bytes

def PortBinding.toJson (p : PortBinding) : Value := .object ([
  ("container_port", encodeInt p.containerPort),
  ("host_port", encodeInt p.hostPort),
  ("protocol", text p.protocol)] ++ omitEmpty "host_ip" (nonEmpty p.hostIP))

structure MetadataEntry where
  image : Bytes
  description : Bytes
  revisionURL : Bytes
  ports : List PortBinding

def MetadataEntry.toJson (m : MetadataEntry) : Value := .object ([
  ("image", text m.image),
  ("description", text m.description),
  ("revision_url", text m.revisionURL)] ++
  omitEmpty "ports" (if m.ports = [] then none else some (encodeSlice PortBinding.toJson (some m.ports))))

structure DiskIOStats where
  deviceName : Bytes
  readIOs : UInt64
  writeIOs : UInt64
  readSectors : UInt64
  writeSectors : UInt64
  ioInProgress : UInt64

def DiskIOStats.toJson (s : DiskIOStats) : Value := .object [
  ("device_name", text s.deviceName),
  ("read_ios", encodeUint s.readIOs),
  ("write_ios", encodeUint s.writeIOs),
  ("read_sectors", encodeUint s.readSectors),
  ("write_sectors", encodeUint s.writeSectors),
  ("io_in_progress", encodeUint s.ioInProgress)]

structure PoolUsage (F : Type) where
  totalBytes : UInt64
  usedBytes : UInt64
  availableBytes : UInt64
  usedPercent : F

def PoolUsage.toJson {F : Type} (fl : FloatFormat F) (u : PoolUsage F) : Value := .object [
  ("total_bytes", encodeUint u.totalBytes),
  ("used_bytes", encodeUint u.usedBytes),
  ("available_bytes", encodeUint u.availableBytes),
  ("used_percent", encodeFloat fl u.usedPercent)]

structure Disk where
  name : Bytes
  path : Bytes
  size : UInt64
  type : Bytes
  model : Bytes
  serial : Bytes
  fstype : Bytes
  mountpoint : Bytes
  label : Bytes
  hasChildren : Bool
  bcachefsLabel : Bytes
  dataTarget : Bytes
  metadataTarget : Bytes
  io : Option DiskIOStats
  friendlyName : Bytes

def Disk.toJson (d : Disk) : Value := .object ([
  ("name", text d.name),
  ("path", text d.path),
  ("size", encodeUint d.size),
  ("type", text d.type),
  ("model", text d.model),
  ("serial", text d.serial),
  ("fstype", text d.fstype),
  ("mountpoint", text d.mountpoint),
  ("label", text d.label),
  ("has_children", .bool d.hasChildren),
  ("bcachefs_label", text d.bcachefsLabel),
  ("data_target", text d.dataTarget),
  ("metadata_target", text d.metadataTarget)] ++
  omitEmpty "io" (d.io.map DiskIOStats.toJson) ++ [("friendly_name", text d.friendlyName)])

structure Pool (F : Type) where
  uuid : Bytes
  name : Bytes
  state : Bytes
  mountdir : Bytes
  label : Bytes := []
  dataReplicas : Int64 := 0
  metadataReplicas : Int64 := 0
  disks : Option (List Disk) := none
  usage : Option (PoolUsage F) := none

def Pool.members {F : Type} (p : Pool F) : List (String × Value) := [
  ("uuid", text p.uuid),
  ("name", text p.name),
  ("state", text p.state),
  ("mountdir", text p.mountdir),
  ("label", text p.label),
  ("data_replicas", encodeInt p.dataReplicas),
  ("metadata_replicas", encodeInt p.metadataReplicas),
  ("disks", encodeSlice Disk.toJson p.disks)]

def Pool.toJson {F : Type} (fl : FloatFormat F) (p : Pool F) : Value :=
  .object (p.members ++ omitEmpty "usage" (p.usage.map (PoolUsage.toJson fl)))

structure Subvolume where
  id : Bytes
  path : Bytes
  usedBytes : Int64

def Subvolume.toJson (s : Subvolume) : Value := .object [
  ("id", text s.id),
  ("path", text s.path),
  ("used_bytes", encodeInt s.usedBytes)]

/-! ### Virtual machines -/

structure VMInfo where
  name : Bytes
  state : Bytes
  memory : Bytes
  cpus : UInt64

def VMInfo.toJson (v : VMInfo) : Value := .object [
  ("name", text v.name),
  ("state", text v.state),
  ("memory", text v.memory),
  ("cpus", encodeUint v.cpus)]

/-- What the handlers send. The keys of a map are UTF-8: they are decoded from JSON. -/
structure Responses (F : Type) where
  backups : List BackupStatus := []
  services : List ServiceStatus := []
  secrets : List SecretStatus := []
  deployPending : Bool := false
  updates : Finmap (fun _ : String => UpdateInfo) := ∅
  metadata : Finmap (fun _ : String => MetadataEntry) := ∅
  pools : Option (List (Pool F)) := none
  unassigned : Option (List Disk) := none
  subvolumes : Option (List Subvolume) := none
  vms : Option (List VMInfo) := none

def encodeMap {V : Type} (encode : V → Value) (m : Finmap fun _ : String => V) : Value :=
  .object ((sortedKeys m).filterMap fun key => (m.lookup key).map fun v => (key, encode v))

def jsonMarshal (v : Value) : Bytes := Utf8.encode (compact v)

/-- An encoder of a stream ends a value with a line break. -/
def writeJSON (v : Value) : Bytes := Utf8.encode (compact v ++ ['\n'])

namespace Responses
variable {F : Type} (fl : FloatFormat F) (d : Responses F)

def getBackups : Bytes := writeJSON (encodeSlice BackupStatus.toJson (some d.backups))

def getStatus : Bytes := writeJSON (encodeSlice ServiceStatus.toJson (some d.services))

def getSecrets : Bytes := writeJSON <| .object <| sortMembers [
  ("secrets", encodeSlice SecretStatus.toJson (some d.secrets)),
  ("deploy_pending", .bool d.deployPending)]

def getUpdates : Bytes := writeJSON <| .object <| sortMembers [
  ("updates", encodeMap UpdateInfo.toJson d.updates),
  ("metadata", encodeMap MetadataEntry.toJson d.metadata)]

def getStorage : Bytes := jsonMarshal <| .object <| sortMembers [
  ("pools", encodeSlice (Pool.toJson fl) d.pools),
  ("unassigned", encodeSlice Disk.toJson d.unassigned),
  ("subvolumes", encodeSlice Subvolume.toJson d.subvolumes)]

def getVMs : Bytes := writeJSON (encodeSlice VMInfo.toJson d.vms)

end Responses

section Fits
variable {F : Type} {fl : FloatFormat F} {room : Nat}

@[simp] theorem fits_text (s : Bytes) : Fits room (text s) := trivial

theorem fits_nonEmpty {key : String} (s : Bytes) : ∀ member ∈ omitEmpty key (nonEmpty s), Fits room member.2 := by
  refine fits_omitEmpty fun v filled => ?_
  unfold nonEmpty at filled
  split_ifs at filled
  · cases filled
  · cases filled
    exact fits_text s

theorem fits_texts (items : Option (List Bytes)) : Fits (room + 1) (encodeSlice text items) :=
  fits_encodeSlice fits_text items

theorem BackupStatus.fits_members (b : BackupStatus) : ∀ member ∈ b.members, Fits (room + 1) member.2 := by
  simp [members, fits_texts]

theorem BackupStatus.fits (b : BackupStatus) : Fits (room + 2) b.toJson := fits_object b.fits_members

theorem ServiceStatus.fits (s : ServiceStatus) : Fits (room + 2) s.toJson := by
  refine fits_object ?_
  simp only [List.forall_mem_append]
  exact ⟨by simp [members, fits_texts], fits_nonEmpty _, fits_nonEmpty _⟩

theorem SecretStatus.fits (s : SecretStatus) : Fits (room + 2) s.toJson := by
  refine fits_object ?_
  simp only [List.forall_mem_append]
  exact ⟨by simp [members, fits_texts], fits_nonEmpty _, fits_nonEmpty _⟩

theorem UpdateInfo.fits (u : UpdateInfo) : Fits (room + 1) u.toJson := fits_object (by simp)

theorem PortBinding.fits (p : PortBinding) : Fits (room + 1) p.toJson := by
  refine fits_object ?_
  simp only [List.forall_mem_append]
  exact ⟨by simp, fits_nonEmpty _⟩

theorem MetadataEntry.fits (m : MetadataEntry) : Fits (room + 3) m.toJson := by
  refine fits_object ?_
  simp only [List.forall_mem_append]
  refine ⟨by simp, fits_omitEmpty fun v filled => ?_⟩
  split_ifs at filled
  · cases filled
  · cases filled
    exact fits_encodeSlice PortBinding.fits _

theorem PoolUsage.fits (u : PoolUsage F) : Fits (room + 1) (u.toJson fl) := fits_object (by simp)

theorem DiskIOStats.fits (s : DiskIOStats) : Fits (room + 1) s.toJson := fits_object (by simp)

theorem Disk.fits (d : Disk) : Fits (room + 2) d.toJson := by
  refine fits_object ?_
  simp only [List.forall_mem_append]
  refine ⟨⟨by simp, fits_omitEmpty fun v filled => ?_⟩, by simp⟩
  obtain ⟨io, _, rfl⟩ := Option.map_eq_some_iff.mp filled
  exact io.fits

theorem Pool.fits (p : Pool F) : Fits (room + 4) (p.toJson fl) := by
  refine fits_object ?_
  simp only [List.forall_mem_append]
  refine ⟨?_, fits_omitEmpty fun v filled => ?_⟩
  · simp [members, fits_encodeSlice Disk.fits]
  · obtain ⟨usage, _, rfl⟩ := Option.map_eq_some_iff.mp filled
    exact usage.fits

theorem Subvolume.fits (s : Subvolume) : Fits (room + 1) s.toJson := fits_object (by simp)

theorem VMInfo.fits (v : VMInfo) : Fits (room + 1) v.toJson := fits_object (by simp)

theorem fits_encodeMap {V : Type} {encode : V → Value} (fits : ∀ v, Fits room (encode v))
    (m : Finmap fun _ : String => V) :
    Fits (room + 1) (encodeMap encode m) := by
  refine fits_object fun member there => ?_
  obtain ⟨key, _, found⟩ := List.mem_filterMap.mp there
  obtain ⟨v, _, rfl⟩ := Option.map_eq_some_iff.mp found
  exact fits v

end Fits

/-! ### Texts that are read again -/

section Texts

def decodeText : Decoder Bytes := fun v => (decodeString v).map fun s => Utf8.encode s.toList

/-- Bytes that begin no character come back as replacement characters. -/
def cleaned (s : Bytes) : Bytes := Utf8.encode (Utf8.decode s)

@[simp] theorem cleaned_encode (s : List Char) : cleaned (Utf8.encode s) = Utf8.encode s := by
  rw [cleaned, Utf8.decode_encode]

@[simp] theorem cleaned_nil : cleaned [] = [] := rfl

@[simp] theorem decodeText_text (s : Bytes) : decodeText (text s) = some (cleaned s) := by
  simp [text, decodeText, decodeString, cleaned]

@[simp] theorem plain_cleaned {α : Type} (name : String) (set : α → Bytes → α) (s : Bytes) (x : α) :
    (StructField.plain name decodeText set).set (text s) x = some (set x (cleaned s)) :=
  congrArg (Option.map (set x)) (decodeText_text s)

end Texts

end HomelabDaemon.Wire
