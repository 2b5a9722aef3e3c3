import HomelabDaemon.CliDecoding
import HomelabDaemon.InPlace
import HomelabDaemon.WireTypes

/-!
# The files of the updates module

The maps that the checks of the containers leave are written to two files, one after the other and in place, and
are read again when the daemon starts.
-/

namespace HomelabDaemon.UpdatesState
open Json Strings Wire InPlace

structure PodmanPort where
  hostIP : Str
  containerPort : Int64
  hostPort : Int64
  protocol : Str

/-- An entry of `podman ps`. An absent label is empty. -/
structure PodmanPsEntry where
  names : List String
  image : Str
  labels : String → Str
  ports : List PodmanPort

def description (labels : String → Str) : Str :=
  ((["homepage.description", "org.opencontainers.image.description", "description"].map fun key =>
    trimSpace (labels key)).find?
    (· ≠ [])).getD []

def trimGit (s : Str) : Str := if Strings.hasSuffix s ".git".toList then s.take (s.length - 4) else s

def revisionURL (labels : String → Str) : Str :=
  let rev := trimSpace (labels "org.opencontainers.image.revision")
  let sourceURL := trimGit (trimSpace (labels "org.opencontainers.image.source"))
  if rev ≠ [] ∧ sourceURL ≠ [] then
    if contains sourceURL "github.com".toList ∨ contains sourceURL "gitlab.com".toList then
      sourceURL ++ "/commit/".toList ++ rev
    else sourceURL
  else []

def portBinding (p : PodmanPort) : Option PortBinding :=
  if p.containerPort = 0 ∨ p.hostPort = 0 then none
  else some {
    containerPort := p.containerPort
    hostPort := p.hostPort
    protocol := Utf8.encode p.protocol
    hostIP := if p.hostIP = "0.0.0.0".toList ∨ p.hostIP = "::".toList then [] else Utf8.encode p.hostIP }

def metadataEntry (c : PodmanPsEntry) : MetadataEntry where
  image := Utf8.encode c.image
  description := Utf8.encode (description c.labels)
  revisionURL := Utf8.encode (revisionURL c.labels)
  ports := c.ports.filterMap portBinding

abbrev Updates := Finmap fun _ : String => UpdateInfo
abbrev Metadata := Finmap fun _ : String => MetadataEntry

structure Module where
  updates : Updates := ∅
  metadata : Metadata := ∅

/-- One container of the loop, with what `checkSingleImage` returned for its image. -/
def Module.add (m : Module) (c : PodmanPsEntry) (info : UpdateInfo) : Module :=
  match c.names with
  | [] => m
  | name :: _ =>
    if c.image = [] then m
    else { updates := m.updates.insert name info, metadata := m.metadata.insert name (metadataEntry c) }

/-- The maps that a check makes of the containers that podman lists. -/
def checked (containers : List (PodmanPsEntry × UpdateInfo)) : Module :=
  containers.foldl (fun m c => m.add c.1 c.2) {}

def updateFields : List (StructField UpdateInfo) := [
  .plain "has_update" decodeBool fun u x => { u with hasUpdate := x },
  .plain "current_version" decodeText fun u x => { u with currentVersion := x },
  .plain "remote_version" decodeText fun u x => { u with remoteVersion := x },
  .plain "local_id" decodeText fun u x => { u with localID := x },
  .plain "remote_id" decodeText fun u x => { u with remoteID := x }]

def portFields : List (StructField PortBinding) := [
  .plain "container_port" decodeInt fun p x => { p with containerPort := x },
  .plain "host_port" decodeInt fun p x => { p with hostPort := x },
  .plain "protocol" decodeText fun p x => { p with protocol := x },
  .plain "host_ip" decodeText fun p x => { p with hostIP := x }]

def decodePort : Decoder PortBinding := Cli.into portFields
    { containerPort := 0, hostPort := 0, protocol := [], hostIP := [] }

def metadataFields : List (StructField MetadataEntry) := [
  .plain "image" decodeText fun m x => { m with image := x },
  .plain "description" decodeText fun m x => { m with description := x },
  .plain "revision_url" decodeText fun m x => { m with revisionURL := x },
  .slice "ports" decodePort fun m x => { m with ports := x }]

def decodeUpdate : Decoder UpdateInfo :=
  Cli.into updateFields { hasUpdate := false, currentVersion := [], remoteVersion := [] }

def decodeMetadata : Decoder MetadataEntry :=
  Cli.into metadataFields { image := [], description := [], revisionURL := [], ports := [] }

/-! ### What a text comes back as -/

def cleanedUpdate (u : UpdateInfo) : UpdateInfo where
  hasUpdate := u.hasUpdate
  currentVersion := cleaned u.currentVersion
  remoteVersion := cleaned u.remoteVersion
  localID := cleaned u.localID
  remoteID := cleaned u.remoteID

def cleanedPort (p : PortBinding) : PortBinding :=
  { p with protocol := cleaned p.protocol, hostIP := cleaned p.hostIP }

def cleanedMetadata (m : MetadataEntry) : MetadataEntry where
  image := cleaned m.image
  description := cleaned m.description
  revisionURL := cleaned m.revisionURL
  ports := m.ports.map cleanedPort

theorem decodeUpdate_toJson (u : UpdateInfo) : decodeUpdate u.toJson = some (cleanedUpdate u) := by
  have members : assigned StateFile.foldName updateFields [("has_update", .bool u.hasUpdate),
    ("current_version", text u.currentVersion),
      ("remote_version", text u.remoteVersion), ("local_id", text u.localID), ("remote_id", text u.remoteID)] =
      updateFields.zip [.bool u.hasUpdate, text u.currentVersion, text u.remoteVersion, text u.localID,
        text u.remoteID] := rfl
  rw [decodeUpdate, UpdateInfo.toJson, Cli.into, decodeStruct, members]
  simp [updateFields, cleanedUpdate]

theorem decodePort_toJson (p : PortBinding) : decodePort p.toJson = some (cleanedPort p) := by
  have members : assigned StateFile.foldName portFields [("container_port", encodeInt p.containerPort),
      ("host_port", encodeInt p.hostPort), ("protocol", text p.protocol)] =
      (portFields.take 3).zip [encodeInt p.containerPort, encodeInt p.hostPort, text p.protocol] := rfl
  rw [decodePort, PortBinding.toJson, Cli.into, decodeStruct, assigned_append, members, assigned_known rfl]
  by_cases anywhere : p.hostIP = [] <;> simp [portFields, nonEmpty, anywhere, cleanedPort]

theorem decodeMetadata_toJson (m : MetadataEntry) : decodeMetadata m.toJson = some (cleanedMetadata m) := by
  have members : assigned StateFile.foldName metadataFields [("image", text m.image),
    ("description", text m.description),
      ("revision_url", text m.revisionURL)] = (metadataFields.take 3).zip [text m.image, text m.description,
        text m.revisionURL] := rfl
  have ports : ∀ made : MetadataEntry, (StructField.slice "ports" decodePort fun (m : MetadataEntry) x =>
    { m with ports := x }).set
      (encodeSlice PortBinding.toJson (some m.ports)) made = some { made with ports := m.ports.map cleanedPort } := by
    intro made
    rw [StructField.slice]
    dsimp only
    rw [decodeSlice_encodeSlice decodePort_toJson]
    rfl
  rw [decodeMetadata, MetadataEntry.toJson, Cli.into, decodeStruct, assigned_append, members, assigned_known rfl]
  by_cases closed : m.ports = []
  · simp [metadataFields, closed, cleanedMetadata]
  · simp [metadataFields, closed, cleanedMetadata, ports]

def mapCodec {V : Type} {encode : V → Value} {decode : Decoder V} {clean : V → V}
    (read : ∀ v, decode (encode v) = some (clean v))
    (fits : ∀ v, Fits 9999 (encode v)) : Codec (Finmap fun _ : String => V) (Finmap fun _ : String => V) where
  encode m := marshal (encodeMap encode m)
  decode data := (unmarshal data).bind (Cli.decodeMap decode ∅)
  image m := mapMaybe (fun v => some (clean v)) m
  decode_encode m := by
    rw [unmarshal_marshal (fits_encodeMap fits m)]
    exact Cli.decodeMap_encodeMap read m
  decode_cut m k short := by
    rw [encodeMap, unmarshal_cut (fits_encodeMap fits m) short]
    rfl

def updatesCodec : Codec Updates Updates := mapCodec decodeUpdate_toJson UpdateInfo.fits

def metadataCodec : Codec Metadata Metadata := mapCodec decodeMetadata_toJson MetadataEntry.fits

/-- `podman-updates.json` and `podman-metadata.json`. -/
structure Files where
  updates : File := none
  metadata : File := none

/-- Which of the files that are there can be read. -/
structure Access where
  updates : Bool := true
  metadata : Bool := true

def loadState (files : Files) (access : Access) : Module where
  updates := (if access.updates then updatesCodec.read files.updates else none).getD ∅
  metadata := (if access.metadata then metadataCodec.read files.metadata else none).getD ∅

def saveState (files : Files) (m : Module) (updates metadata : Write) : Files where
  updates := updates.leaves files.updates (updatesCodec.encode m.updates)
  metadata := metadata.leaves files.metadata (metadataCodec.encode m.metadata)

/-- A daemon that is killed inside a check has written so much, and is restarted. -/
inductive Event where
  | check (containers : List (PodmanPsEntry × UpdateInfo)) (updates metadata : Write)
  /-- podman fails or prints no list. -/
  | checkFails
  | restart (access : Access)

structure State where
  memory : Module := {}
  files : Files := {}

def State.step (s : State) : Event → State
  | .check containers updates metadata =>
    { memory := checked containers, files := saveState s.files (checked containers) updates metadata }
  | .checkFails => s
  | .restart access => { s with memory := loadState s.files access }

/-- From a fresh state directory on. -/
def run (events : List Event) : State := events.foldl State.step {}

/-- A container can be reached at the port from somewhere. -/
structure Routable (p : PortBinding) : Prop where
  containerPort : p.containerPort ≠ 0
  hostPort : p.hostPort ≠ 0
  hostIP : p.hostIP ≠ Utf8.encode "0.0.0.0".toList ∧ p.hostIP ≠ Utf8.encode "::".toList

/-- Each of the maps is one that a check of the run made, or empty. Of the texts about updates, what is no UTF-8
may have been replaced. -/
structure Sound (events : List Event) (m : Module) : Prop where
  updates : m.updates = ∅ ∨ ∃ containers w w', .check containers w w' ∈ events ∧
    (m.updates = (checked containers).updates ∨ m.updates = updatesCodec.image (checked containers).updates)
  metadata : m.metadata = ∅ ∨ ∃ containers w w', .check containers w w' ∈ events ∧
    m.metadata = (checked containers).metadata
  routable : ∀ name entry, m.metadata.lookup name = some entry → ∀ p ∈ entry.ports, Routable p

/-! ### What a check leaves -/

theorem encode_inj {s t : Str} (same : Utf8.encode s = Utf8.encode t) : s = t := by
  rw [← Utf8.decode_encode s, same, Utf8.decode_encode]

theorem portBinding_routable {p : PodmanPort} {made : PortBinding} (bound : portBinding p = some made) :
    Routable made := by
  unfold portBinding at bound
  split_ifs at bound with zero any
  · cases bound
    have anywhere : ([] : Bytes) ≠ Utf8.encode "0.0.0.0".toList ∧ ([] : Bytes) ≠ Utf8.encode "::".toList := by decide
    exact ⟨fun none_ => zero (.inl none_), fun none_ => zero (.inr none_), anywhere⟩
  · cases bound
    exact ⟨fun none_ => zero (.inl none_), fun none_ => zero (.inr none_), fun same => any (.inl (encode_inj same)),
      fun same => any (.inr (encode_inj same))⟩

theorem portBinding_cleaned {p : PodmanPort} {made : PortBinding} (bound : portBinding p = some made) :
    cleanedPort made = made := by
  unfold portBinding at bound
  split_ifs at bound <;> cases bound <;> simp [cleanedPort]

theorem metadataEntry_cleaned (c : PodmanPsEntry) : cleanedMetadata (metadataEntry c) = metadataEntry c := by
  have ports : (c.ports.filterMap portBinding).map cleanedPort = c.ports.filterMap portBinding := by
    rw [List.map_filterMap]
    refine List.filterMap_congr fun p _ => ?_
    cases bound : portBinding p with
    | none => rfl
    | some made => exact congrArg some (portBinding_cleaned bound)
  simp [cleanedMetadata, metadataEntry, ports]

theorem add_entries {m : Module} {c : PodmanPsEntry} {info : UpdateInfo} {name : String} {entry : MetadataEntry}
    (found : (m.add c info).metadata.lookup name = some entry) :
    m.metadata.lookup name = some entry ∨ entry = metadataEntry c := by
  unfold Module.add at found
  split at found
  · exact .inl found
  · rename_i first names named
    split_ifs at found with blank
    · exact .inl found
    · by_cases same : name = first
      · subst same
        rw [Finmap.lookup_insert] at found
        exact .inr (Option.some.inj found).symm
      · rw [Finmap.lookup_insert_of_ne _ same] at found
        exact .inl found

theorem checked_entries {containers : List (PodmanPsEntry × UpdateInfo)} {name : String} {entry : MetadataEntry}
    (found : (checked containers).metadata.lookup name = some entry) : ∃ c, entry = metadataEntry c := by
  have folded : ∀ (items : List (PodmanPsEntry × UpdateInfo)) (m : Module),
      (items.foldl (fun m c => m.add c.1 c.2) m).metadata.lookup name = some entry →
      m.metadata.lookup name = some entry ∨ ∃ c, entry = metadataEntry c := by
    intro items
    induction items with
    | nil => exact fun m found => .inl found
    | cons c items ih =>
      intro m found
      rcases ih _ found with earlier | new
      · exact (add_entries earlier).imp_right fun same => ⟨c.1, same⟩
      · exact .inr new
  rcases folded containers {} found with impossible | of
  · cases (Finmap.lookup_empty name).symm.trans impossible
  · exact of

theorem checked_routable {containers : List (PodmanPsEntry × UpdateInfo)} {name : String} {entry : MetadataEntry}
    (found : (checked containers).metadata.lookup name = some entry) : ∀ p ∈ entry.ports, Routable p := by
  obtain ⟨c, rfl⟩ := checked_entries found
  intro p listed
  obtain ⟨port, _, bound⟩ := List.mem_filterMap.mp listed
  exact portBinding_routable bound

/-- The metadata that a check makes is text, and comes back as it was. -/
theorem image_checked (containers : List (PodmanPsEntry × UpdateInfo)) :
    metadataCodec.image (checked containers).metadata = (checked containers).metadata := by
  refine Finmap.ext_lookup fun name => ?_
  have image : (metadataCodec.image (checked containers).metadata).lookup name =
      ((checked containers).metadata.lookup name).bind fun v => some (cleanedMetadata v) := lookup_mapMaybe _ _ name
  rw [image]
  cases found : (checked containers).metadata.lookup name with
  | none => rfl
  | some entry =>
    obtain ⟨c, rfl⟩ := checked_entries found
    rw [Option.bind_some, metadataEntry_cleaned]

/-- What the files tell a reader, without their bytes. -/
structure Held where
  updates : Option Updates := none
  metadata : Option Metadata := none

def Held.step (h : Held) : Event → Held
  | .check containers updates metadata => {
    updates := updatesCodec.after h.updates (checked containers).updates updates
    metadata := metadataCodec.after h.metadata (checked containers).metadata metadata }
  | _ => h

def Files.held (files : Files) : Held where
  updates := updatesCodec.read files.updates
  metadata := metadataCodec.read files.metadata

theorem step_held (s : State) (e : Event) : (s.step e).files.held = s.files.held.step e := by
  cases e with
  | check containers updates metadata =>
    simp only [State.step, saveState, Files.held, Held.step, Codec.read_leaves]
  | checkFails => rfl
  | restart => rfl

theorem run_held (events : List Event) : (run events).files.held = events.foldl Held.step {} := by
  have folded : ∀ (events : List Event) (s : State), (events.foldl State.step s).files.held =
    events.foldl Held.step s.files.held := by
    intro events
    induction events with
    | nil => exact fun s => rfl
    | cons e events ih =>
      intro s
      rw [List.foldl_cons, List.foldl_cons, ih, step_held]
  exact folded events {}

theorem loadState_held (files : Files) (access : Access) : loadState files access = {
    updates := (if access.updates then files.held.updates else none).getD ∅
    metadata := (if access.metadata then files.held.metadata else none).getD ∅ } := rfl

/-- Nothing, or what a check of the run wrote. -/
structure Held.Sound (events : List Event) (h : Held) : Prop where
  updates : ∀ m, h.updates = some m → ∃ containers w w', .check containers w w' ∈ events ∧
    m = updatesCodec.image (checked containers).updates
  metadata : ∀ m, h.metadata = some m → ∃ containers w w', .check containers w w' ∈ events ∧
    m = (checked containers).metadata

theorem Held.Sound.step {events : List Event} {h : Held} (sound : h.Sound events) (e : Event) :
    (h.step e).Sound (events ++ [e]) := by
  have older : ∀ {containers w w'}, Event.check containers w w' ∈ events → Event.check containers w w' ∈ events ++
    [e] :=
    fun member => List.mem_append_left _ member
  have kept : h.Sound (events ++ [e]) := by
    refine ⟨fun m held => ?_, fun m held => ?_⟩
    · obtain ⟨containers, w, w', member, same⟩ := sound.updates m held
      exact ⟨containers, w, w', older member, same⟩
    · obtain ⟨containers, w, w', member, same⟩ := sound.metadata m held
      exact ⟨containers, w, w', older member, same⟩
  cases e with
  | checkFails => exact kept
  | restart => exact kept
  | check containers w w' =>
    have new : Event.check containers w w' ∈ events ++ [.check containers w w'] := by simp
    refine ⟨fun m held => ?_, fun m held => ?_⟩
    · rcases Codec.after_cases (c := updatesCodec) h.updates (checked containers).updates w with same | same | same
      · exact kept.updates m (same.symm.trans held)
      · cases same.symm.trans held
      · cases same.symm.trans held
        exact ⟨containers, w, w', new, rfl⟩
    · rcases Codec.after_cases (c := metadataCodec) h.metadata (checked containers).metadata w' with same | same | same
      · exact kept.metadata m (same.symm.trans held)
      · cases same.symm.trans held
      · cases same.symm.trans held
        exact ⟨containers, w, w', new, image_checked containers⟩

/-! ### What a run has in memory -/

theorem Sound.checkedLast (events : List Event) (containers : List (PodmanPsEntry × UpdateInfo)) (w w' : Write) :
    Sound (events ++ [.check containers w w']) (checked containers) where
  updates := .inr ⟨containers, w, w', by simp, .inl rfl⟩
  metadata := .inr ⟨containers, w, w', by simp, rfl⟩
  routable _ _ found := checked_routable found

theorem Held.Sound.load {events : List Event} {files : Files} (sound : files.held.Sound events) (access : Access) :
    UpdatesState.Sound events (loadState files access) := by
  rw [loadState_held]
  have metadata : (if access.metadata then files.held.metadata else none).getD ∅ = ∅ ∨
      ∃ containers w w', .check containers w w' ∈ events ∧
        (if access.metadata then files.held.metadata else none).getD ∅ = (checked containers).metadata := by
    cases found : (if access.metadata then files.held.metadata else none) with
    | none => exact .inl rfl
    | some m =>
      have held : files.held.metadata = some m := by
        split_ifs at found
        exact found
      exact .inr (sound.metadata m held)
  refine ⟨?_, metadata, fun name entry found => ?_⟩
  · dsimp only
    cases found : (if access.updates then files.held.updates else none) with
    | none => exact .inl rfl
    | some m =>
      have held : files.held.updates = some m := by
        split_ifs at found
        exact found
      obtain ⟨containers, w, w', member, same⟩ := sound.updates m held
      exact .inr ⟨containers, w, w', member, .inr same⟩
  · dsimp only at found
    rcases metadata with none_ | ⟨containers, _, _, _, same⟩
    · rw [none_] at found
      simp at found
    · rw [same] at found
      exact checked_routable found

theorem Sound.longer {events : List Event} {m : Module} (sound : Sound events m) (e : Event) :
    Sound (events ++ [e]) m := by
  obtain ⟨updates, metadata, routable⟩ := sound
  refine ⟨updates.imp_right ?_, metadata.imp_right ?_, routable⟩
  · rintro ⟨containers, w, w', member, same⟩
    exact ⟨containers, w, w', List.mem_append_left _ member, same⟩
  · rintro ⟨containers, w, w', member, same⟩
    exact ⟨containers, w, w', List.mem_append_left _ member, same⟩

theorem run_append (events later : List Event) : run (events ++ later) = later.foldl State.step (run events) :=
  List.foldl_append

theorem run_sound (events : List Event) : Sound events (run events).memory ∧ (run events).files.held.Sound events := by
  induction events using List.reverseRecOn with
  | nil =>
    refine ⟨⟨.inl rfl, .inl rfl, fun name entry found => ?_⟩, ⟨fun m held => ?_, fun m held => ?_⟩⟩
    · have nothing : (run []).memory.metadata.lookup name = none := Finmap.lookup_empty name
      cases nothing.symm.trans found
    · cases held
    · cases held
  | append_singleton events e ih =>
    obtain ⟨memory, files⟩ := ih
    have held : (run (events ++ [e])).files.held.Sound (events ++ [e]) := by
      rw [run_append, List.foldl_cons, List.foldl_nil, step_held]
      exact files.step e
    refine ⟨?_, held⟩
    rw [run_append, List.foldl_cons, List.foldl_nil]
    cases e with
    | check containers w w' => exact Sound.checkedLast events containers w w'
    | checkFails => exact memory.longer _
    | restart access =>
      have before : (run events).files.held.Sound (events ++ [.restart access]) := by
        rw [run_append, List.foldl_cons, List.foldl_nil, step_held] at held
        exact held
      exact before.load access

def Event.isCheck : Event → Bool
  | .check .. => true
  | _ => false

theorem idle_held {later : List Event} (idle : ∀ e ∈ later, e.isCheck = false) (h : Held) :
    later.foldl Held.step h = h := by
  induction later with
  | nil => rfl
  | cons e later ih =>
    have stays : h.step e = h := by
      cases e with
      | check => cases idle _ List.mem_cons_self
      | checkFails => rfl
      | restart => rfl
    rw [List.foldl_cons, stays]
    exact ih fun e member => idle e (List.mem_cons_of_mem _ member)

/-- In every run, wherever writes stopped, memory has in each map what one check of the run made of its containers, or
nothing; what a check wrote to the end is restored by every restart before the next check. -/
theorem restart_restores (events : List Event) : Sound events (run events).memory ∧
    ∀ containers later, (∀ e ∈ later, e.isCheck = false) →
      (run (events ++ .check containers .whole .whole :: later ++ [.restart {}])).memory =
        { updates := updatesCodec.image (checked containers).updates, metadata := (checked containers).metadata } := by
  refine ⟨(run_sound events).1, fun containers later idle => ?_⟩
  have held : (run (events ++ .check containers .whole .whole :: later)).files.held =
      { updates := some (updatesCodec.image (checked containers).updates)
        metadata := some (checked containers).metadata } := by
    rw [run_held, List.foldl_append, List.foldl_cons, idle_held idle, ← image_checked containers]
    rfl
  rw [run_append, List.foldl_cons, List.foldl_nil, State.step]
  dsimp only
  rw [loadState_held, held]
  rfl

def app : PodmanPsEntry where
  names := ["app"]
  image := "registry.local/app:latest".toList
  labels _ := []
  ports := [{ hostIP := "0.0.0.0".toList, containerPort := 80, hostPort := 8080, protocol := "tcp".toList }]

/-- A check with one container is restored past a failed check and a restart that could not read the files. -/
theorem restart_restores_app (info : UpdateInfo) :
    (run ([] ++ .check [(app, info)] .whole .whole :: [.checkFails, .restart { updates := false }] ++
    [.restart {}])).memory =
      { updates := updatesCodec.image (checked [(app, info)]).updates, metadata := (checked [(app, info)]).metadata } :=
  (restart_restores []).2 [(app, info)] [.checkFails, .restart { updates := false }] (by simp [Event.isCheck])

end HomelabDaemon.UpdatesState
