import HomelabDaemon.ConfigWriter
import HomelabDaemon.Yaml.Decode

/-!
# Loading the configuration

`loadConfig` reads services.yaml with a YAML library. Of the library only this is used: a document
of block collections and plain scalars that decodes without doubt is decoded so. Then a file that
`writeConfig` wrote of plain strings loads as what it kept.
-/

namespace HomelabDaemon
open Yaml

def decodeQui (node : Node) : Option QuiConfig := do
  let fs ← node.fields ["enabled", "url"]
  return { enabled := ← (field fs "enabled").bool, url := ← (field fs "url").text }

def decodeVPN (node : Node) : Option VPNConfig := do
  let fs ← node.fields ["enabled", "netns_name", "interface", "address", "dns", "peer_public_key", "peer_endpoint",
    "allowed_ips", "private_key_file", "provider", "type", "server_country", "veth_host_ip", "veth_netns_ip",
      "port_file",
    "refresh_interval_seconds"]
  return {
    enabled := ← (field fs "enabled").bool
    netnsName := ← (field fs "netns_name").text
    interface := ← (field fs "interface").text
    address := ← (field fs "address").text
    dns := ← (field fs "dns").text
    peerPublicKey := ← (field fs "peer_public_key").text
    peerEndpoint := ← (field fs "peer_endpoint").text
    allowedIPs := ← (field fs "allowed_ips").text
    privateKeyFile := ← (field fs "private_key_file").text
    provider := ← (field fs "provider").text
    type := ← (field fs "type").text
    serverCountry := ← (field fs "server_country").text
    vethHostIP := ← (field fs "veth_host_ip").text
    vethNetnsIP := ← (field fs "veth_netns_ip").text
    portFile := ← (field fs "port_file").text
    refreshIntervalSeconds := ← (field fs "refresh_interval_seconds").int }

def decodeSMTP (node : Node) : Option SMTPConfig := do
  let fs ← node.fields ["host", "port", "username", "password"]
  return {
    host := ← (field fs "host").text
    port := ← (field fs "port").int
    username := ← (field fs "username").text
    password := ← (field fs "password").text }

def decodeNotify (node : Node) : Option NotifyConfig := do
  let fs ← node.fields ["smtp", "from", "to"]
  return {
    smtp := ← decodeSMTP (field fs "smtp")
    fromAddr := ← (field fs "from").text
    toAddr := ← (field fs "to").text }

def decodePool (node : Node) : Option StoragePoolConfig := do
  let fs ← node.record ["uuid", "mountpoint", "options", "auto_mount", "name"]
  return {
    uuid := ← (field fs "uuid").text
    mountpoint := ← (field fs "mountpoint").text
    options := ← (field fs "options").text
    autoMount := ← (field fs "auto_mount").bool
    name := ← (field fs "name").text }

def decodeStorage (node : Node) : Option StorageConfig := do
  let fs ← node.fields ["pools"]
  return { pools := ← (← (field fs "pools").items).mapM decodePool }

def decodeService (node : Node) : Option Service := do
  let fs ← node.record ["unit", "enabled", "order", "boot_delay", "depends_on", "requires_mount", "restart",
    "restart_delay",
    "icon_url", "homepage_url"]
  return {
    unit := ← (field fs "unit").text
    enabled := ← (field fs "enabled").bool
    order := ← (field fs "order").int
    bootDelay := ← (field fs "boot_delay").int
    dependsOn := ← (field fs "depends_on").texts
    requiresMounts := ← (field fs "requires_mount").texts
    restart := ← (field fs "restart").text
    restartDelay := ← (field fs "restart_delay").int
    iconURL := ← (field fs "icon_url").text
    homepageURL := ← (field fs "homepage_url").text }

def decodeBackup (node : Node) : Option Backup := do
  let fs ← node.record ["unit", "enabled", "schedule", "depends_on", "requires_mount", "healthcheck_uuid",
    "pause_service"]
  return {
    unit := ← (field fs "unit").text
    enabled := ← (field fs "enabled").bool
    schedule := ← (field fs "schedule").text
    dependsOn := ← (field fs "depends_on").texts
    requiresMounts := ← (field fs "requires_mount").texts
    healthcheckUUID := ← (field fs "healthcheck_uuid").text
    pauseService := ← (field fs "pause_service").text }

def decodeConfig (node : Node) : Option Config := do
  let fs ← node.fields ["version", "notify", "storage", "vpn", "qui", "services", "backups"]
  return {
    version := ← (field fs "version").int
    notify := ← decodeNotify (field fs "notify")
    storage := ← decodeStorage (field fs "storage")
    vpn := ← decodeVPN (field fs "vpn")
    qui := ← decodeQui (field fs "qui")
    services := ← (← (field fs "services").items).mapM decodeService
    backups := ← (← (field fs "backups").items).mapM decodeBackup }

/-! ### Loading -/

/-- `yaml.Unmarshal` into the configuration. -/
abbrev Unmarshal := Text → Except String Config

/-- It decodes what decodes without doubt. -/
def ReadsPlain (unmarshal : Unmarshal) : Prop :=
  ∀ text node cfg, read text = some node → decodeConfig node = some cfg → unmarshal text = .ok cfg

/-- A library that decodes nothing else. -/
def plainOnly : Unmarshal := fun text =>
  match (Yaml.read text).bind decodeConfig with
  | some cfg => .ok cfg
  | none => .error "yaml: not plain"

theorem plainOnly_reads : ReadsPlain plainOnly := by
  intro text node cfg read decoded
  simp [plainOnly, read, decoded]

/-- `loadConfig` on what reading the file at `path` gives. -/
def loadConfig (unmarshal : Unmarshal) (path : String) (data : Except String Text) : Except LoadError Config :=
  match data with
  | .error error => .error (.read ("read config " ++ quoted path ++ ": " ++ error))
  | .ok text =>
    match unmarshal text with
    | .error error => .error (.parse ("parse config " ++ quoted path ++ ": " ++ error))
    | .ok cfg =>
      match checkServices 0 cfg.services with
      | some error => .error error
      | none => .ok cfg

def StoragePoolConfig.kept (p : StoragePoolConfig) : StoragePoolConfig := { p with name := "" }

def Service.kept (s : Service) : Service :=
  { s with restart := if s.restart = "" then "no" else s.restart, iconURL := "", homepageURL := "" }

/-- The configuration less the sections and fields that `writeConfig` does not print. -/
def Config.kept (cfg : Config) : Config :=
  { version := 1
    storage := { pools := cfg.storage.pools.map (·.kept) }
    services := cfg.services.map (·.kept)
    backups := cfg.backups }

/-- The strings are plain scalars, and the numbers are of 64 bits. -/
structure StoragePoolConfig.Plain (p : StoragePoolConfig) : Prop where
  uuid : IsOptionalText p.uuid
  mountpoint : IsOptionalText p.mountpoint
  options : IsOptionalText p.options

structure Service.Plain (s : Service) : Prop where
  unit : IsOptionalText s.unit
  order : IsInt64 s.order
  bootDelay : IsInt64 s.bootDelay
  dependsOn : ∀ dep ∈ s.dependsOn, IsText dep
  requiresMounts : ∀ mnt ∈ s.requiresMounts, IsText mnt
  restart : IsOptionalText s.restart
  restartDelay : IsInt64 s.restartDelay

structure Backup.Plain (b : Backup) : Prop where
  unit : IsOptionalText b.unit
  schedule : IsOptionalText b.schedule
  dependsOn : ∀ dep ∈ b.dependsOn, IsText dep
  requiresMounts : ∀ mnt ∈ b.requiresMounts, IsText mnt
  healthcheckUUID : IsOptionalText b.healthcheckUUID
  pauseService : IsOptionalText b.pauseService

structure Config.Plain (cfg : Config) : Prop where
  pools : ∀ p ∈ cfg.storage.pools, p.Plain
  services : ∀ s ∈ cfg.services, s.Plain
  backups : ∀ b ∈ cfg.backups, b.Plain

def textEntry (name value : String) : Entry String := ⟨name, textTokens value, textNode value⟩

def optionalEntry (name value : String) : List (Entry String) := if value = "" then [] else [textEntry name value]

def listEntry (name : String) (items : List String) : List (Entry String) :=
  if items = [] then [] else [⟨name, items.flatMap fun item => [.dash 6, .scalar item], .seq (items.map .scalar)⟩]

def poolEntries (p : StoragePoolConfig) : List (Entry String) :=
  [textEntry "uuid" p.uuid, textEntry "mountpoint" p.mountpoint] ++ optionalEntry "options" p.options ++
  [textEntry "auto_mount" (printBool p.autoMount)]

def serviceEntries (s : Service) : List (Entry String) :=
  [textEntry "unit" s.unit, textEntry "enabled" (printBool s.enabled), textEntry "order" (printInt s.order),
   textEntry "boot_delay" (printInt s.bootDelay), textEntry "restart_delay" (printInt s.restartDelay),
   textEntry "restart" (if s.restart = "" then "no" else s.restart)] ++
  listEntry "depends_on" s.dependsOn ++ listEntry "requires_mount" s.requiresMounts

def backupEntries (b : Backup) : List (Entry String) :=
  [textEntry "unit" b.unit, textEntry "enabled" (printBool b.enabled)] ++ optionalEntry "schedule" b.schedule ++
  optionalEntry "healthcheck_uuid" b.healthcheckUUID ++ optionalEntry "pause_service" b.pauseService ++
  listEntry "depends_on" b.dependsOn ++ listEntry "requires_mount" b.requiresMounts

/-- The fields of a mapping with keys at column `col`. -/
def entryTokens (col : Nat) (entries : List (Entry String)) : List Token :=
  entries.flatMap fun e => .key col e.label :: e.tokens

def fieldsOf (entries : List (Entry String)) : List (String × Node) := entries.map fun e => (e.label, e.node)

section Lines
variable {value : String} {items : List String}

theorem printBool_isText (b : Bool) : IsText (printBool b) := by
  cases b <;> decide

theorem printInt_isText (n : Int) : IsText (printInt n) := isText_toString n

theorem lexes_textEntry (pre : String) (k : Nat) (name : String)
    (shape : pre.toList = List.replicate k ' ' ++ (name.toList ++ [':', ' '])) (isName : IsName name)
    (h : IsOptionalText value) : Lexes [pre ++ value] (entryTokens k [textEntry name value]) := by
  have read := lexes_field pre k name shape isName h
  simpa [entryTokens, textEntry] using read

theorem lexes_optionalEntry (pre : String) (k : Nat) (name : String)
    (shape : pre.toList = List.replicate k ' ' ++ (name.toList ++ [':', ' '])) (isName : IsName name)
    (h : IsOptionalText value) : Lexes (optionalLine pre value) (entryTokens k (optionalEntry name value)) := by
  unfold optionalLine optionalEntry
  split
  · exact .nil
  · exact lexes_textEntry pre k name shape isName h

theorem lexes_listEntry (pre : String) (k : Nat) (name : String)
    (shape : pre.toList = List.replicate k ' ' ++ (name.toList ++ [':'])) (isName : IsName name)
    (h : ∀ item ∈ items, IsText item) : Lexes (listLines pre items) (entryTokens k (listEntry name items)) := by
  unfold listLines listEntry
  split
  · exact .nil
  · have header := lexes_header pre k name shape isName
    have below : Lexes (items.flatMap fun item => ["      - " ++ item])
      (items.flatMap fun item => [.dash 6, .scalar item]) :=
      .flatMap fun item member => lexes_item 6 rfl (h item member)
    have lines := header.append below
    rw [← List.map_eq_flatMap] at lines
    simpa [entryTokens] using lines

theorem poolLines_lexes {p : StoragePoolConfig} (h : p.Plain) :
    Lexes (poolLines p) (.dash 4 :: entryTokens 6 (poolEntries p)) := by
  have uuid := lexes_first "    - uuid: " 4 "uuid" rfl (by decide) h.uuid
  have mountpoint := lexes_textEntry "      mountpoint: " 6 "mountpoint" rfl (by decide) h.mountpoint
  have options := lexes_optionalEntry "      options: " 6 "options" rfl (by decide) h.options
  have autoMount := lexes_textEntry "      auto_mount: " 6 "auto_mount" rfl (by decide)
    (.inr (printBool_isText p.autoMount))
  have lines := ((uuid.append mountpoint).append options).append autoMount
  simpa [poolLines, poolEntries, entryTokens, textEntry] using lines

theorem restart_isText {s : Service} (h : IsOptionalText s.restart) :
    IsText (if s.restart = "" then "no" else s.restart) := by
  split
  · decide
  · rename_i notEmpty
    exact h.resolve_left notEmpty

theorem serviceLines_lexes {s : Service} (h : s.Plain) :
    Lexes (serviceLines s) (.dash 2 :: entryTokens 4 (serviceEntries s)) := by
  have unit := lexes_first "  - unit: " 2 "unit" rfl (by decide) h.unit
  have enabled := lexes_textEntry "    enabled: " 4 "enabled" rfl (by decide)
    (.inr (printBool_isText s.enabled))
  have order := lexes_textEntry "    order: " 4 "order" rfl (by decide) (.inr (printInt_isText s.order))
  have bootDelay := lexes_textEntry "    boot_delay: " 4 "boot_delay" rfl (by decide)
    (.inr (printInt_isText s.bootDelay))
  have restartDelay := lexes_textEntry "    restart_delay: " 4 "restart_delay" rfl (by decide)
    (.inr (printInt_isText s.restartDelay))
  have restart := lexes_textEntry "    restart: " 4 "restart" rfl (by decide)
    (.inr (restart_isText h.restart))
  have dependsOn := lexes_listEntry "    depends_on:" 4 "depends_on" rfl (by decide) h.dependsOn
  have requiresMounts := lexes_listEntry "    requires_mount:" 4 "requires_mount" rfl (by decide)
    h.requiresMounts
  have lines := ((((((unit.append enabled).append order).append bootDelay).append restartDelay).append restart).append
    dependsOn).append requiresMounts
  simpa [serviceLines, serviceEntries, entryTokens, textEntry] using lines

theorem backupLines_lexes {b : Backup} (h : b.Plain) :
    Lexes (backupLines b) (.dash 2 :: entryTokens 4 (backupEntries b)) := by
  have unit := lexes_first "  - unit: " 2 "unit" rfl (by decide) h.unit
  have enabled := lexes_textEntry "    enabled: " 4 "enabled" rfl (by decide)
    (.inr (printBool_isText b.enabled))
  have schedule := lexes_optionalEntry "    schedule: " 4 "schedule" rfl (by decide) h.schedule
  have healthcheck := lexes_optionalEntry "    healthcheck_uuid: " 4 "healthcheck_uuid" rfl (by decide)
    h.healthcheckUUID
  have pauseService := lexes_optionalEntry "    pause_service: " 4 "pause_service" rfl (by decide)
    h.pauseService
  have dependsOn := lexes_listEntry "    depends_on:" 4 "depends_on" rfl (by decide) h.dependsOn
  have requiresMounts := lexes_listEntry "    requires_mount:" 4 "requires_mount" rfl (by decide)
    h.requiresMounts
  have lines := (((((unit.append enabled).append schedule).append healthcheck).append pauseService).append dependsOn).append
    requiresMounts
  simpa [backupLines, backupEntries, entryTokens, textEntry] using lines

end Lines

/-! ### The whole file -/

def recordTokens (col : Nat) (entries : List (Entry String)) : List Token := .dash col :: entryTokens (col + 2) entries

/-- A section whose items are records. -/
def sectionEntry (name : String) (col : Nat) (records : List (List (Entry String))) : Entry String :=
  ⟨name, records.flatMap (recordTokens col), if records = [] then .null
    else .seq (records.map fun entries => .map (fieldsOf entries))⟩

def optionalSection (name : String) (col : Nat) (records : List (List (Entry String))) : List (Entry String) :=
  if records = [] then [] else [sectionEntry name col records]

def storageEntry (pools : List StoragePoolConfig) : List (Entry String) :=
  if pools = [] then []
  else
    let entry := sectionEntry "pools" 4 (pools.map poolEntries)
    [⟨"storage", entryTokens 2 [entry], .map (fieldsOf [entry])⟩]

def configEntries (cfg : Config) : List (Entry String) :=
  [textEntry "version" "1"] ++ storageEntry cfg.storage.pools ++
  [sectionEntry "services" 2 (cfg.services.map serviceEntries)] ++
  optionalSection "backups" 2 (cfg.backups.map backupEntries)

theorem configLines_lexes {cfg : Config} (h : cfg.Plain) :
    Lexes (configLines cfg) (entryTokens 0 (configEntries cfg)) := by
  have one : IsOptionalText "1" := by decide
  have version := lexes_textEntry "version: " 0 "version" rfl (by decide) one
  have storage : Lexes (if cfg.storage.pools = [] then [] else ["storage:", "  pools:"] ++
    cfg.storage.pools.flatMap poolLines)
      (entryTokens 0 (storageEntry cfg.storage.pools)) := by
    unfold storageEntry
    split
    · exact .nil
    · have storage := lexes_header "storage:" 0 "storage" rfl (by decide)
      have pools := lexes_header "  pools:" 2 "pools" rfl (by decide)
      have below : Lexes (cfg.storage.pools.flatMap poolLines)
        (cfg.storage.pools.flatMap fun p => recordTokens 4 (poolEntries p)) :=
        .flatMap fun p member => poolLines_lexes (h.pools p member)
      have lines := (storage.append pools).append below
      simpa [entryTokens, sectionEntry, List.flatMap_map] using lines
  have services := lexes_header "services:" 0 "services" rfl (by decide)
  have serviceLines : Lexes (cfg.services.flatMap serviceLines)
    (cfg.services.flatMap fun s => recordTokens 2 (serviceEntries s)) :=
    .flatMap fun s member => serviceLines_lexes (h.services s member)
  have backups : Lexes (if cfg.backups = [] then [] else "backups:" :: cfg.backups.flatMap backupLines)
      (entryTokens 0 (optionalSection "backups" 2 (cfg.backups.map backupEntries))) := by
    unfold optionalSection
    simp only [List.map_eq_nil_iff]
    split
    · exact .nil
    · have header := lexes_header "backups:" 0 "backups" rfl (by decide)
      have below : Lexes (cfg.backups.flatMap backupLines)
        (cfg.backups.flatMap fun b => recordTokens 2 (backupEntries b)) :=
        .flatMap fun b member => backupLines_lexes (h.backups b member)
      have lines := header.append below
      simpa [entryTokens, sectionEntry, List.flatMap_map] using lines
  have lines := (((version.append storage).append services).append serviceLines).append backups
  simpa [configLines, configEntries, entryTokens, sectionEntry, List.flatMap_map] using lines

section Presents
variable {min col : Nat} {name value : String} {items : List String} {entries more : List (Entry String)}

/-- The entries' tokens present their values from column `min` on. -/
def AllPresent (min : Nat) (entries : List (Entry String)) : Prop := ∀ e ∈ entries, Presents min e.tokens e.node

theorem AllPresent.append (h : AllPresent min entries) (h' : AllPresent min more) :
    AllPresent min (entries ++ more) := by
  intro e member
  exact (List.mem_append.mp member).elim (h e) (h' e)

theorem AllPresent.cons {e : Entry String} (h : Presents min e.tokens e.node) (h' : AllPresent min entries) :
    AllPresent min (e :: entries) := List.forall_mem_cons.mpr ⟨h, h'⟩

theorem AllPresent.nil : AllPresent min [] := fun _ member => nomatch member

theorem textEntry_presents : Presents min (textEntry name value).tokens (textEntry name value).node :=
  presents_text value

theorem optionalEntry_presents : AllPresent min (optionalEntry name value) := by
  unfold optionalEntry
  split
  · exact .nil
  · exact .cons textEntry_presents .nil

theorem listEntry_presents (le : min ≤ 6) : AllPresent min (listEntry name items) := by
  unfold listEntry
  split
  · exact .nil
  · rename_i notEmpty
    refine .cons ?_ .nil
    have each : ∀ e ∈ items.map fun item => (⟨(), [.scalar item], .scalar item⟩ : Entry Unit),
      Presents 7 e.tokens e.node := by
      intro e member
      obtain ⟨item, _, rfl⟩ := List.mem_map.mp member
      exact presents_scalar item
    have presents := presents_seq (by simpa using notEmpty) le each
    simpa [List.flatMap_map, Function.comp_def] using presents

theorem entryTokens_presents (le : min ≤ col) (h : AllPresent (col + 1) entries) (notEmpty : entries ≠ []) :
    Presents min (entryTokens col entries) (.map (fieldsOf entries)) := presents_map notEmpty le h

theorem sectionEntry_presents {records : List (List (Entry String))} (le : min ≤ col)
    (h : ∀ entries ∈ records, AllPresent (col + 3) entries ∧ entries ≠ []) :
    Presents min (sectionEntry name col records).tokens (sectionEntry name col records).node := by
  unfold sectionEntry recordTokens
  split
  · rename_i empty
    rw [empty]
    exact presents_null
  · rename_i notEmpty
    have each : ∀ e ∈ records.map fun entries =>
      (⟨(), entryTokens (col + 2) entries, .map (fieldsOf entries)⟩ : Entry Unit),
        Presents (col + 1) e.tokens e.node := by
      intro e member
      obtain ⟨entries, inRecords, rfl⟩ := List.mem_map.mp member
      obtain ⟨present, some⟩ := h entries inRecords
      exact entryTokens_presents (Nat.le_succ _) present some
    have presents := presents_seq (by simpa using notEmpty) le each
    simpa [List.flatMap_map, Function.comp_def] using presents

theorem poolEntries_present (p : StoragePoolConfig) : AllPresent min (poolEntries p) :=
  ((AllPresent.cons textEntry_presents (.cons textEntry_presents .nil)).append optionalEntry_presents).append
    (.cons textEntry_presents .nil)

theorem serviceEntries_present (s : Service) : AllPresent 5 (serviceEntries s) := by
  refine (AllPresent.append ?_ (listEntry_presents (by decide))).append (listEntry_presents (by decide))
  iterate 6 refine .cons textEntry_presents ?_
  exact .nil

theorem backupEntries_present (b : Backup) : AllPresent 5 (backupEntries b) := by
  refine (((((AllPresent.append ?_ optionalEntry_presents).append optionalEntry_presents).append
    optionalEntry_presents).append
    (listEntry_presents (by decide))).append (listEntry_presents (by decide)))
  iterate 2 refine .cons textEntry_presents ?_
  exact .nil

theorem configEntries_present (cfg : Config) : AllPresent 1 (configEntries cfg) := by
  have records : ∀ {α : Type} {xs : List α} {f : α → List (Entry String)} {col : Nat},
      (∀ x, AllPresent (col + 3) (f x) ∧ f x ≠ []) → ∀ entries ∈ xs.map f, AllPresent (col + 3) entries ∧
        entries ≠ [] := by
    intro α xs f col h entries member
    obtain ⟨x, _, rfl⟩ := List.mem_map.mp member
    exact h x
  refine ((AllPresent.append (.cons textEntry_presents .nil) ?_).append ?_).append ?_
  · unfold storageEntry
    split
    · exact .nil
    · refine .cons ?_ .nil
      refine entryTokens_presents (by decide) (.cons ?_ .nil) (by simp)
      exact sectionEntry_presents (by decide) (records fun p => ⟨poolEntries_present p, by simp [poolEntries]⟩)
  · refine .cons ?_ .nil
    exact sectionEntry_presents (by decide) (records fun s => ⟨serviceEntries_present s, by simp [serviceEntries]⟩)
  · unfold optionalSection
    split
    · exact .nil
    · refine .cons ?_ .nil
      exact sectionEntry_presents (by decide) (records fun b => ⟨backupEntries_present b, by simp [backupEntries]⟩)

/-- What the reader makes of the writer's file. -/
theorem read_render {cfg : Config} (h : cfg.Plain) :
    read (render cfg) = some (.map (fieldsOf (configEntries cfg))) := by
  have lexed := (configLines_lexes h).text
  have presents : Presents 0 _ _ := entryTokens_presents (Nat.le_refl 0) (configEntries_present cfg)
    (by simp [configEntries])
  unfold Yaml.read render
  rw [lexed, Option.bind_some]
  exact parse_of_presents presents

end Presents

/-! ### What is decoded of it -/

section Decode
variable {n name value : String} {items : List String} {entries more : List (Entry String)}

def labels (entries : List (Entry String)) : List String := entries.map (·.label)

theorem labels_append : labels (entries ++ more) = labels entries ++ labels more := List.map_append

theorem optionalEntry_labels : (labels (optionalEntry name value)).Sublist [name] := by
  unfold optionalEntry
  split
  · exact List.nil_sublist _
  · exact List.Sublist.refl _

theorem listEntry_labels : (labels (listEntry name items)).Sublist [name] := by
  unfold listEntry
  split
  · exact List.nil_sublist _
  · exact List.Sublist.refl _

/-- Entries in the order of some known names are the fields of a record. -/
theorem fields_of_sublist (order : List String) {names : List String} (sub : (labels entries).Sublist order)
    (nodup : order.Nodup)
    (known : ∀ name ∈ order, name ∈ names) : (Node.map (fieldsOf entries)).fields names = some (fieldsOf entries) := by
  have same : (fieldsOf entries).map (·.1) = labels entries := by
    unfold fieldsOf labels
    rw [List.map_map]
    rfl
  rw [Node.fields, same]
  refine if_pos ⟨fun f member => ?_, sub.nodup nodup⟩
  apply known
  apply sub.subset
  rw [← same]
  exact List.mem_map_of_mem member

theorem field_nil : field (fieldsOf []) name = .null := rfl

theorem field_cons {e : Entry String} : field (fieldsOf (e :: more)) name =
    if name = e.label then e.node else field (fieldsOf more) name := by
  unfold field fieldsOf
  rw [List.map_cons, List.lookup_cons]
  by_cases same : name = e.label
  · subst same
    simp
  · have differ : (name == e.label) = false := by simp [same]
    rw [differ, if_neg same]

/-- An entry that is left out under a condition. -/
theorem field_optional {c : Prop} [Decidable c] {e : Entry String} :
    field (fieldsOf ((if c then [] else [e]) ++ more)) name =
    if name = e.label then (if c then field (fieldsOf more) e.label else e.node) else field (fieldsOf more) name := by
  by_cases leftOut : c
  · rw [if_pos leftOut, if_pos leftOut]
    split
    · rename_i same
      rw [same]
      rfl
    · rfl
  · rw [if_neg leftOut, if_neg leftOut]
    exact field_cons

theorem field_last {c : Prop} [Decidable c] {e : Entry String} : field (fieldsOf (if c then [] else [e])) name =
    if name = e.label then (if c then .null else e.node) else .null := by
  have last : field (fieldsOf ((if c then [] else [e]) ++ [])) name = _ := field_optional
  rwa [List.append_nil, field_nil, field_nil] at last

theorem textNode_or : (if value = "" then .null else textNode value) = textNode value := by
  unfold textNode
  split <;> rfl

theorem texts_listEntry (h : ∀ item ∈ items, IsText item) :
    (if items = [] then Node.null else .seq (items.map .scalar)).texts = some items := by
  split
  · rename_i empty
    rw [empty]
    rfl
  · exact texts_seq h

theorem text_null : Node.null.text = some "" := rfl

theorem bool_print (b : Bool) : (textNode (printBool b)).bool = some b := bool_textNode b

theorem int_print {k : Int} (h : IsInt64 k) : (textNode (printInt k)).int = some k := int_textNode h

theorem decodePool_entries {p : StoragePoolConfig} (h : p.Plain) :
    decodePool (.map (fieldsOf (poolEntries p))) = some p.kept := by
  have fs : (Node.map (fieldsOf (poolEntries p))).record ["uuid", "mountpoint", "options", "auto_mount", "name"] =
      some (fieldsOf (poolEntries p)) := by
    refine fields_of_sublist ["uuid", "mountpoint", "options", "auto_mount"] ?_ (by decide) (by decide)
    unfold poolEntries
    rw [labels_append, labels_append]
    exact (List.Sublist.append (List.Sublist.refl ["uuid", "mountpoint"]) optionalEntry_labels).append
      (List.Sublist.refl ["auto_mount"])
  unfold decodePool
  rw [fs]
  simp [poolEntries, textEntry, optionalEntry, field_cons, field_optional, field_nil, text_textNode h.uuid,
    text_textNode h.mountpoint,
    text_textNode h.options, text_null, textNode_or, bool_print, StoragePoolConfig.kept]

theorem decodeService_entries {s : Service} (h : s.Plain) :
    decodeService (.map (fieldsOf (serviceEntries s))) = some s.kept := by
  have fs : (Node.map (fieldsOf (serviceEntries s))).record ["unit", "enabled", "order", "boot_delay", "depends_on",
    "requires_mount",
      "restart", "restart_delay", "icon_url", "homepage_url"] = some (fieldsOf (serviceEntries s)) := by
    refine fields_of_sublist ["unit", "enabled", "order", "boot_delay", "restart_delay", "restart", "depends_on",
      "requires_mount"] ?_ (by decide) (by decide)
    unfold serviceEntries
    rw [labels_append, labels_append]
    exact (List.Sublist.append (List.Sublist.refl ["unit", "enabled", "order", "boot_delay", "restart_delay",
      "restart"])
      listEntry_labels).append listEntry_labels
  unfold decodeService
  rw [fs]
  simp [serviceEntries, textEntry, listEntry, field_cons, field_optional, field_last, text_textNode h.unit,
    text_textNode (.inr (restart_isText h.restart)), text_null, bool_print, int_print h.order, int_print h.bootDelay,
    int_print h.restartDelay, texts_listEntry h.dependsOn, texts_listEntry h.requiresMounts, Service.kept]

theorem decodeBackup_entries {b : Backup} (h : b.Plain) :
    decodeBackup (.map (fieldsOf (backupEntries b))) = some b := by
  have fs : (Node.map (fieldsOf (backupEntries b))).record ["unit", "enabled", "schedule", "depends_on",
    "requires_mount",
      "healthcheck_uuid", "pause_service"] = some (fieldsOf (backupEntries b)) := by
    refine fields_of_sublist ["unit", "enabled", "schedule", "healthcheck_uuid", "pause_service", "depends_on",
      "requires_mount"] ?_ (by decide) (by decide)
    unfold backupEntries
    simp only [labels_append]
    exact (((((List.Sublist.refl ["unit", "enabled"]).append optionalEntry_labels).append optionalEntry_labels).append
      optionalEntry_labels).append listEntry_labels).append listEntry_labels
  unfold decodeBackup
  rw [fs]
  simp [backupEntries, textEntry, optionalEntry, listEntry, field_cons, field_optional, field_last,
    text_textNode h.unit,
    text_textNode h.schedule, text_textNode h.healthcheckUUID, text_textNode h.pauseService, textNode_or, bool_print,
    texts_listEntry h.dependsOn, texts_listEntry h.requiresMounts]

theorem sectionEntry_decodes {α β : Type} {decode : Node → Option β} (name : String) (col : Nat) {xs : List α}
    (f : α → List (Entry String)) (g : α → β) (h : ∀ x ∈ xs, decode (.map (fieldsOf (f x))) = some (g x)) :
    ((sectionEntry name col (xs.map f)).node.items.bind fun items => items.mapM decode) = some (xs.map g) := by
  have each : (xs.map fun x => Node.map (fieldsOf (f x))).mapM decode = some (xs.map g) := by
    induction xs with
    | nil => rfl
    | cons x xs ih =>
      have rest := ih fun y member => h y (List.mem_cons_of_mem x member)
      rw [List.map_cons, List.mapM_cons, h x List.mem_cons_self, rest]
      rfl
  unfold sectionEntry
  cases xs with
  | nil => rfl
  | cons x xs =>
    rw [List.map_map]
    exact each

theorem configEntries_labels (cfg : Config) :
    (labels (configEntries cfg)).Sublist ["version", "storage", "services", "backups"] := by
  have storage : (labels (storageEntry cfg.storage.pools)).Sublist ["storage"] := by
    unfold storageEntry
    split
    · exact List.nil_sublist _
    · exact List.Sublist.refl _
  have backups : (labels (optionalSection "backups" 2 (cfg.backups.map backupEntries))).Sublist ["backups"] := by
    unfold optionalSection
    split
    · exact List.nil_sublist _
    · exact List.Sublist.refl _
  unfold configEntries
  simp only [labels_append]
  exact (((List.Sublist.refl ["version"]).append storage).append (List.Sublist.refl ["services"])).append backups

theorem field_configEntries (cfg : Config) : field (fieldsOf (configEntries cfg)) name =
    if name = "version" then textNode "1"
    else if name = "storage" then
      if cfg.storage.pools = [] then .null
      else .map [("pools", (sectionEntry "pools" 4 (cfg.storage.pools.map poolEntries)).node)]
    else if name = "services" then (sectionEntry "services" 2 (cfg.services.map serviceEntries)).node
    else if name = "backups" then (sectionEntry "backups" 2 (cfg.backups.map backupEntries)).node
    else .null := by
  have empty : ∀ {records : List (List (Entry String))},
      (if records = [] then Node.null else (sectionEntry "backups" 2 records).node) =
        (sectionEntry "backups" 2 records).node := by
    intro records
    unfold sectionEntry
    split <;> rfl
  unfold configEntries storageEntry optionalSection
  rw [List.append_assoc, List.append_assoc, List.singleton_append, field_cons, field_optional, List.singleton_append,
    field_cons,
    field_cons, field_last, field_last, empty]
  have label : ∀ {n : String} {col : Nat} {records : List (List (Entry String))}, (sectionEntry n col records).label =
    n := rfl
  simp [textEntry, label, fieldsOf]

theorem decodeStorage_entries {pools : List StoragePoolConfig} (h : ∀ p ∈ pools, p.Plain) :
    decodeStorage (if pools = [] then .null
    else .map [("pools", (sectionEntry "pools" 4 (pools.map poolEntries)).node)]) =
      some { pools := pools.map (·.kept) } := by
  split
  · rename_i empty
    rw [empty]
    rfl
  · have decoded := sectionEntry_decodes "pools" 4 poolEntries (·.kept) fun p member => decodePool_entries (h p member)
    rw [Option.bind_eq_some_iff] at decoded
    obtain ⟨items, inside, decoded⟩ := decoded
    have fs : (Node.map [("pools", (sectionEntry "pools" 4 (pools.map poolEntries)).node)]).fields ["pools"] =
        some [("pools", (sectionEntry "pools" 4 (pools.map poolEntries)).node)] := by
      rw [Node.fields]
      simp
    unfold decodeStorage
    rw [fs]
    simp [field, inside, decoded]

theorem decodeConfig_entries {cfg : Config} (h : cfg.Plain) :
    decodeConfig (.map (fieldsOf (configEntries cfg))) = some cfg.kept := by
  have fs : (Node.map (fieldsOf (configEntries cfg))).fields ["version", "notify", "storage", "vpn", "qui", "services",
    "backups"] =
      some (fieldsOf (configEntries cfg)) := fields_of_sublist _ (configEntries_labels cfg) (by decide) (by decide)
  have version : (textNode "1").int = some 1 := by decide
  have notify : decodeNotify .null = some {} := rfl
  have vpn : decodeVPN .null = some {} := rfl
  have qui : decodeQui .null = some {} := rfl
  have services := sectionEntry_decodes "services" 2 serviceEntries (·.kept) fun s member =>
    decodeService_entries (h.services s member)
  have backups := sectionEntry_decodes "backups" 2 backupEntries (fun b => b) fun b member =>
    decodeBackup_entries (h.backups b member)
  rw [Option.bind_eq_some_iff] at services backups
  obtain ⟨serviceNodes, inServices, services⟩ := services
  obtain ⟨backupNodes, inBackups, backups⟩ := backups
  unfold decodeConfig
  rw [fs]
  simp [field_configEntries, version, notify, vpn, qui, decodeStorage_entries h.pools, inServices, services, inBackups,
    backups,
    Config.kept]

end Decode

/-! ### Loading what was written -/

section Load
variable {unmarshal : Unmarshal} {path : String} {cfg : Config}

theorem load_ok {text : Text} (read : unmarshal text = .ok cfg) (valid : ∀ s ∈ cfg.services, s.Valid) :
    loadConfig unmarshal path (.ok text) = .ok cfg := by
  unfold loadConfig
  simp only [read, checkServices_eq_none.mpr valid]

theorem load_valid {data : Except String Text} (loaded : loadConfig unmarshal path data = .ok cfg) :
    ∀ s ∈ cfg.services, s.Valid := by
  unfold loadConfig at loaded
  cases data with
  | error e => cases loaded
  | ok text =>
    cases read : unmarshal text with
    | error e => simp [read] at loaded
    | ok decoded =>
      simp only [read] at loaded
      cases checked : checkServices 0 decoded.services with
      | some e => simp [checked] at loaded
      | none =>
        simp only [checked, Except.ok.injEq] at loaded
        subst loaded
        exact checkServices_eq_none.mp checked

theorem kept_valid (valid : ∀ s ∈ cfg.services, s.Valid) : ∀ s ∈ cfg.kept.services, s.Valid := by
  intro s' member
  obtain ⟨s, inside, rfl⟩ := List.mem_map.mp member
  have checked := valid s inside
  refine ⟨checked.unit, ?_⟩
  show (if s.restart = "" then "no" else s.restart) ∈ loadPolicies
  split
  · decide
  · exact checked.restart

/-- The writer's file of plain strings loads as what the writer kept. -/
theorem load_render (plain : ReadsPlain unmarshal) (h : cfg.Plain) (valid : ∀ s ∈ cfg.services, s.Valid) :
    loadConfig unmarshal path (.ok (render cfg)) = .ok cfg.kept :=
  load_ok (plain _ _ _ (read_render h) (decodeConfig_entries h)) (kept_valid valid)

end Load

end HomelabDaemon
