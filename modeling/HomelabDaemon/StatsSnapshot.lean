import HomelabDaemon.CliDecoding
import HomelabDaemon.WireTypes

/-!
# The host's statistics

The snapshot of the collector as the statistics endpoint sends it and as the overview carries it over into its own
type, by JSON. A number of the collector may be no number or infinite, which JSON cannot tell.
-/

namespace HomelabDaemon.HostStats
open Json Wire Cli

section Types
variable (F G : Type)

/-- The type of the memory's percentage is the one of 32 bits. -/
structure ProcessStat where
  pid : Int32
  name : Bytes
  cpu : F
  memory : G

structure DiskStat where
  mountpoint : Bytes
  total : UInt64
  used : UInt64
  percent : F
  usedStr : Bytes
  totalStr : Bytes

structure HostInfo where
  hostname : Bytes
  os : Bytes
  kernelVersion : Bytes
  uptime : UInt64
  cpuModel : Bytes
  cpuCores : Int64
  motherboard : Bytes
  packages : Int64

structure GpuStats where
  renderBusy : F
  videoBusy : F
  freqMHz : F
  powerW : F
  rc6Pct : F
  available : Bool
  errMsg : Bytes

structure Stats where
  cpuUsage : F
  cpuTemp : F
  nvmeTemp : F
  memTotal : UInt64
  memUsed : UInt64
  memPercent : F
  disks : Option (List (DiskStat F))
  netSentRate : F
  netRecvRate : F
  topCPU : Option (List (ProcessStat F G))
  topMem : Option (List (ProcessStat F G))
  system : HostInfo
  gpu : GpuStats F
  memUsedStr : Bytes
  memTotalStr : Bytes
  uptimeStr : Bytes

end Types

section Zero
variable {F G : Type} [Zero F] [Zero G]

def ProcessStat.zero : ProcessStat F G := { pid := 0, name := [], cpu := 0, memory := 0 }

def DiskStat.zero : DiskStat F :=
  { mountpoint := [], total := 0, used := 0, percent := 0, usedStr := [], totalStr := [] }

def HostInfo.zero : HostInfo :=
  { hostname := [], os := [], kernelVersion := [], uptime := 0, cpuModel := [], cpuCores := 0, motherboard := [],
    packages := 0 }

def GpuStats.zero : GpuStats F :=
  { renderBusy := 0, videoBusy := 0, freqMHz := 0, powerW := 0, rc6Pct := 0, available := false, errMsg := [] }

def Stats.zero : Stats F G where
  cpuUsage := 0
  cpuTemp := 0
  nvmeTemp := 0
  memTotal := 0
  memUsed := 0
  memPercent := 0
  disks := none
  netSentRate := 0
  netRecvRate := 0
  topCPU := none
  topMem := none
  system := .zero
  gpu := .zero
  memUsedStr := []
  memTotalStr := []
  uptimeStr := []

end Zero

/-! ### Finite numbers -/

section Finite
variable {F G : Type}

def ProcessStat.finite (p : ProcessStat (Option F) (Option G)) : Option (ProcessStat F G) := do
  return { p with cpu := ← p.cpu, memory := ← p.memory }

def DiskStat.finite (d : DiskStat (Option F)) : Option (DiskStat F) := do
  return { d with percent := ← d.percent }

def GpuStats.finite (g : GpuStats (Option F)) : Option (GpuStats F) := do
  return { g with
    renderBusy := ← g.renderBusy, videoBusy := ← g.videoBusy, freqMHz := ← g.freqMHz, powerW := ← g.powerW,
    rc6Pct := ← g.rc6Pct }

def finiteSlice {α β : Type} (finite : α → Option β) : Option (List α) → Option (Option (List β))
  | none => some none
  | some items => (items.mapM finite).map some

/-- The snapshot, when all its numbers are finite. -/
def Stats.finite (s : Stats (Option F) (Option G)) : Option (Stats F G) := do
  return { s with
    cpuUsage := ← s.cpuUsage, cpuTemp := ← s.cpuTemp, nvmeTemp := ← s.nvmeTemp, memPercent := ← s.memPercent
    disks := ← finiteSlice DiskStat.finite s.disks, netSentRate := ← s.netSentRate, netRecvRate := ← s.netRecvRate
    topCPU := ← finiteSlice ProcessStat.finite s.topCPU, topMem := ← finiteSlice ProcessStat.finite s.topMem
    gpu := ← s.gpu.finite }

end Finite

def encodeInt32 (n : Int32) : Value := .number (toString n.toInt).toList

section Encode
variable {F G : Type} (fl : FloatFormat F) (fs : FloatFormat G)

def ProcessStat.toJson (p : ProcessStat F G) : Value := .object [
  ("PID", encodeInt32 p.pid),
  ("Name", text p.name),
  ("CPU", encodeFloat fl p.cpu),
  ("Memory", encodeFloat fs p.memory)]

def DiskStat.toJson (d : DiskStat F) : Value := .object [
  ("Mountpoint", text d.mountpoint),
  ("Total", encodeUint d.total),
  ("Used", encodeUint d.used),
  ("Percent", encodeFloat fl d.percent),
  ("UsedStr", text d.usedStr),
  ("TotalStr", text d.totalStr)]

def HostInfo.toJson (h : HostInfo) : Value := .object [
  ("Hostname", text h.hostname),
  ("OS", text h.os),
  ("KernelVersion", text h.kernelVersion),
  ("Uptime", encodeUint h.uptime),
  ("CPUModel", text h.cpuModel),
  ("CPUCores", encodeInt h.cpuCores),
  ("Motherboard", text h.motherboard),
  ("Packages", encodeInt h.packages)]

def GpuStats.toJson (g : GpuStats F) : Value := .object [
  ("RenderBusy", encodeFloat fl g.renderBusy),
  ("VideoBusy", encodeFloat fl g.videoBusy),
  ("FreqMHz", encodeFloat fl g.freqMHz),
  ("PowerW", encodeFloat fl g.powerW),
  ("RC6Pct", encodeFloat fl g.rc6Pct),
  ("Available", .bool g.available),
  ("ErrMsg", text g.errMsg)]

def Stats.members (s : Stats F G) : List (String × Value) := [
  ("CPUUsage", encodeFloat fl s.cpuUsage),
  ("CPUTemp", encodeFloat fl s.cpuTemp),
  ("NVMeTemp", encodeFloat fl s.nvmeTemp),
  ("MemTotal", encodeUint s.memTotal),
  ("MemUsed", encodeUint s.memUsed),
  ("MemPercent", encodeFloat fl s.memPercent),
  ("Disks", encodeSlice (DiskStat.toJson fl) s.disks),
  ("NetSentRate", encodeFloat fl s.netSentRate),
  ("NetRecvRate", encodeFloat fl s.netRecvRate),
  ("TopCPU", encodeSlice (ProcessStat.toJson fl fs) s.topCPU),
  ("TopMem", encodeSlice (ProcessStat.toJson fl fs) s.topMem),
  ("System", s.system.toJson),
  ("Gpu", s.gpu.toJson fl),
  ("MemUsedStr", text s.memUsedStr),
  ("MemTotalStr", text s.memTotalStr),
  ("UptimeStr", text s.uptimeStr)]

def Stats.toJson (s : Stats F G) : Value := .object (s.members fl fs)

/-- `json.Marshal` of a snapshot, which fails at the first number that is not finite. -/
def marshalStats (raw : Stats (Option F) (Option G)) : Option Value := raw.finite.map (Stats.toJson fl fs)

/-- The body of `GET /api/stats`. Nothing is written where the encoder fails. -/
def getStats (raw : Stats (Option F) (Option G)) : Bytes := ((marshalStats fl fs raw).map writeJSON).getD []

end Encode

/-! ### Reading -/

def decodeInt32 : Decoder Int32
  | .number text => match Strings.parseInt text with
    | (n, none) => if -2 ^ 31 ≤ n ∧ n < 2 ^ 31 then some (Int32.ofInt n) else none
    | (_, some _) => none
  | _ => none

/-- A null makes the slice nil. -/
def decodeNilSlice {α : Type} (decode : Decoder α) : Decoder (Option (List α))
  | .null => some none
  | .array items => (items.mapM decode).map some
  | _ => none

def nilSlice {α β : Type} (name : String) (decode : Decoder β) (set : α → Option (List β) → α) : StructField α where
  name := name
  set v s := (decodeNilSlice decode v).map (set s)

section Decode
variable {F G : Type} [Zero F] [Zero G] (fl : FloatFormat F) (fs : FloatFormat G)

def ProcessStat.fields : List (StructField (ProcessStat F G)) := [
  .plain "PID" decodeInt32 fun p x => { p with pid := x },
  .plain "Name" decodeText fun p x => { p with name := x },
  .plain "CPU" (decodeFloat fl) fun p x => { p with cpu := x },
  .plain "Memory" (decodeFloat fs) fun p x => { p with memory := x }]

def DiskStat.fields : List (StructField (DiskStat F)) := [
  .plain "Mountpoint" decodeText fun d x => { d with mountpoint := x },
  .plain "Total" decodeUint fun d x => { d with total := x },
  .plain "Used" decodeUint fun d x => { d with used := x },
  .plain "Percent" (decodeFloat fl) fun d x => { d with percent := x },
  .plain "UsedStr" decodeText fun d x => { d with usedStr := x },
  .plain "TotalStr" decodeText fun d x => { d with totalStr := x }]

def HostInfo.fields : List (StructField HostInfo) := [
  .plain "Hostname" decodeText fun h x => { h with hostname := x },
  .plain "OS" decodeText fun h x => { h with os := x },
  .plain "KernelVersion" decodeText fun h x => { h with kernelVersion := x },
  .plain "Uptime" decodeUint fun h x => { h with uptime := x },
  .plain "CPUModel" decodeText fun h x => { h with cpuModel := x },
  .plain "CPUCores" decodeInt fun h x => { h with cpuCores := x },
  .plain "Motherboard" decodeText fun h x => { h with motherboard := x },
  .plain "Packages" decodeInt fun h x => { h with packages := x }]

def GpuStats.fields : List (StructField (GpuStats F)) := [
  .plain "RenderBusy" (decodeFloat fl) fun g x => { g with renderBusy := x },
  .plain "VideoBusy" (decodeFloat fl) fun g x => { g with videoBusy := x },
  .plain "FreqMHz" (decodeFloat fl) fun g x => { g with freqMHz := x },
  .plain "PowerW" (decodeFloat fl) fun g x => { g with powerW := x },
  .plain "RC6Pct" (decodeFloat fl) fun g x => { g with rc6Pct := x },
  .plain "Available" decodeBool fun g x => { g with available := x },
  .plain "ErrMsg" decodeText fun g x => { g with errMsg := x }]

/-- The snapshot is decoded into the zero one, and with it the structures in it. -/
def Stats.fields : List (StructField (Stats F G)) := [
  .plain "CPUUsage" (decodeFloat fl) fun s x => { s with cpuUsage := x },
  .plain "CPUTemp" (decodeFloat fl) fun s x => { s with cpuTemp := x },
  .plain "NVMeTemp" (decodeFloat fl) fun s x => { s with nvmeTemp := x },
  .plain "MemTotal" decodeUint fun s x => { s with memTotal := x },
  .plain "MemUsed" decodeUint fun s x => { s with memUsed := x },
  .plain "MemPercent" (decodeFloat fl) fun s x => { s with memPercent := x },
  nilSlice "Disks" (into (DiskStat.fields fl) .zero) fun s x => { s with disks := x },
  .plain "NetSentRate" (decodeFloat fl) fun s x => { s with netSentRate := x },
  .plain "NetRecvRate" (decodeFloat fl) fun s x => { s with netRecvRate := x },
  nilSlice "TopCPU" (into (ProcessStat.fields fl fs) .zero) fun s x => { s with topCPU := x },
  nilSlice "TopMem" (into (ProcessStat.fields fl fs) .zero) fun s x => { s with topMem := x },
  .plain "System" (into HostInfo.fields .zero) fun s x => { s with system := x },
  .plain "Gpu" (into (GpuStats.fields fl) .zero) fun s x => { s with gpu := x },
  .plain "MemUsedStr" decodeText fun s x => { s with memUsedStr := x },
  .plain "MemTotalStr" decodeText fun s x => { s with memTotalStr := x },
  .plain "UptimeStr" decodeText fun s x => { s with uptimeStr := x }]

/-- A client of the endpoint, with the same types. -/
def handleStats (body : Bytes) : Option (Stats F G) := (readBody body).bind (into (Stats.fields fl fs) .zero)

/-- The statistics in `GET /api/overview`. Where marshalling fails there is nothing to unmarshal, and the snapshot
stays zero. -/
def overviewStats (raw : Stats (Option F) (Option G)) : Stats F G :=
  let b := ((marshalStats fl fs raw).map jsonMarshal).getD []
  ((unmarshal b).bind (into (Stats.fields fl fs) .zero)).getD .zero

end Decode

def ProcessStat.cleaned {F G : Type} (p : ProcessStat F G) : ProcessStat F G := { p with name := Wire.cleaned p.name }

def DiskStat.cleaned {F : Type} (d : DiskStat F) : DiskStat F :=
  { d with mountpoint := Wire.cleaned d.mountpoint, usedStr := Wire.cleaned d.usedStr, totalStr := Wire.cleaned d.totalStr }

def HostInfo.cleaned (h : HostInfo) : HostInfo :=
  { h with
    hostname := Wire.cleaned h.hostname
    os := Wire.cleaned h.os
    kernelVersion := Wire.cleaned h.kernelVersion
    cpuModel := Wire.cleaned h.cpuModel
    motherboard := Wire.cleaned h.motherboard }

def GpuStats.cleaned {F : Type} (g : GpuStats F) : GpuStats F := { g with errMsg := Wire.cleaned g.errMsg }

def Stats.cleaned {F G : Type} (s : Stats F G) : Stats F G :=
  { s with
    disks := s.disks.map (List.map DiskStat.cleaned)
    topCPU := s.topCPU.map (List.map ProcessStat.cleaned)
    topMem := s.topMem.map (List.map ProcessStat.cleaned)
    system := s.system.cleaned
    gpu := s.gpu.cleaned
    memUsedStr := Wire.cleaned s.memUsedStr
    memTotalStr := Wire.cleaned s.memTotalStr
    uptimeStr := Wire.cleaned s.uptimeStr }

section ReadBack
variable {F G : Type} [Zero F] [Zero G] {fl : FloatFormat F} {fs : FloatFormat G}

@[simp] theorem plain_int32 {α : Type} (name : String) (set : α → Int32 → α) (n : Int32) (s : α) :
    (StructField.plain name decodeInt32 set).set (encodeInt32 n) s = some (set s n) := by
  have low := n.le_toInt
  have high := n.toInt_lt
  have read : decodeInt32 (encodeInt32 n) = some n := by
    rw [encodeInt32, decodeInt32, Strings.parseInt_toString (by omega) (by omega)]
    dsimp only
    rw [if_pos ⟨low, high⟩, Int32.ofInt_toInt]
  exact congrArg (Option.map (set s)) read

theorem nilSlice_encodeSlice {α β γ : Type} (name : String) {encode : γ → Value} {decode : Decoder β} {f : γ → β}
    (read : ∀ x, decode (encode x) = some (f x)) (set : α → Option (List β) → α) (items : Option (List γ)) (s : α) :
    (nilSlice name decode set).set (encodeSlice encode items) s = some (set s (items.map (List.map f))) := by
  cases items with
  | none => rfl
  | some items =>
    have all := decodeSlice_encodeSlice read (some items)
    rw [encodeSlice, decodeSlice] at all
    rw [encodeSlice, nilSlice]
    dsimp only
    rw [decodeNilSlice, all]
    rfl

theorem process_toJson (p : ProcessStat F G) :
    into (ProcessStat.fields fl fs) .zero (p.toJson fl fs) = some p.cleaned := by
  have members : assigned StateFile.foldName (ProcessStat.fields fl fs) [("PID", encodeInt32 p.pid),
    ("Name", text p.name),
      ("CPU", encodeFloat fl p.cpu), ("Memory", encodeFloat fs p.memory)] = (ProcessStat.fields fl fs).zip
        [encodeInt32 p.pid,
      text p.name, encodeFloat fl p.cpu, encodeFloat fs p.memory] := rfl
  rw [ProcessStat.toJson, into, decodeStruct, members]
  simp [ProcessStat.fields, ProcessStat.cleaned]

theorem disk_toJson (d : DiskStat F) : into (DiskStat.fields fl) .zero (d.toJson fl) = some d.cleaned := by
  have members : assigned StateFile.foldName (DiskStat.fields fl) [("Mountpoint", text d.mountpoint),
    ("Total", encodeUint d.total),
      ("Used", encodeUint d.used), ("Percent", encodeFloat fl d.percent), ("UsedStr", text d.usedStr),
        ("TotalStr", text d.totalStr)] =
      (DiskStat.fields fl).zip [text d.mountpoint, encodeUint d.total, encodeUint d.used, encodeFloat fl d.percent,
        text d.usedStr,
      text d.totalStr] := rfl
  rw [DiskStat.toJson, into, decodeStruct, members]
  simp [DiskStat.fields, DiskStat.cleaned]

theorem host_toJson (h : HostInfo) : into HostInfo.fields .zero h.toJson = some h.cleaned := by
  have members : assigned StateFile.foldName HostInfo.fields [("Hostname", text h.hostname), ("OS", text h.os),
      ("KernelVersion", text h.kernelVersion), ("Uptime", encodeUint h.uptime), ("CPUModel", text h.cpuModel),
      ("CPUCores", encodeInt h.cpuCores), ("Motherboard", text h.motherboard), ("Packages", encodeInt h.packages)] =
      HostInfo.fields.zip [text h.hostname, text h.os, text h.kernelVersion, encodeUint h.uptime, text h.cpuModel,
      encodeInt h.cpuCores, text h.motherboard, encodeInt h.packages] := rfl
  rw [HostInfo.toJson, into, decodeStruct, members]
  simp [HostInfo.fields, HostInfo.cleaned]

theorem gpu_toJson (g : GpuStats F) : into (GpuStats.fields fl) .zero (g.toJson fl) = some g.cleaned := by
  have members : assigned StateFile.foldName (GpuStats.fields fl) [("RenderBusy", encodeFloat fl g.renderBusy),
      ("VideoBusy", encodeFloat fl g.videoBusy), ("FreqMHz", encodeFloat fl g.freqMHz),
        ("PowerW", encodeFloat fl g.powerW),
      ("RC6Pct", encodeFloat fl g.rc6Pct), ("Available", .bool g.available), ("ErrMsg", text g.errMsg)] =
      (GpuStats.fields fl).zip [encodeFloat fl g.renderBusy, encodeFloat fl g.videoBusy, encodeFloat fl g.freqMHz,
      encodeFloat fl g.powerW, encodeFloat fl g.rc6Pct, .bool g.available, text g.errMsg] := rfl
  rw [GpuStats.toJson, into, decodeStruct, members]
  simp [GpuStats.fields, GpuStats.cleaned]

theorem plain_object {α β : Type} (name : String) {decode : Decoder β} {v : Value} {x : β} (filled : v ≠ .null)
    (read : decode v = some x) (set : α → β → α) (s : α) :
    (StructField.plain name decode set).set v s = some (set s x) := by
  unfold StructField.plain
  dsimp only
  split
  · contradiction
  · rw [read, Option.map_some]

theorem stats_toJson (s : Stats F G) : into (Stats.fields fl fs) .zero (s.toJson fl fs) = some s.cleaned := by
  have members : assigned StateFile.foldName (Stats.fields fl fs) (s.members fl fs) =
      (Stats.fields fl fs).zip ((s.members fl fs).map Prod.snd) := rfl
  have system : ∀ made : Stats F G, (StructField.plain "System" (into HostInfo.fields .zero) fun (s : Stats F G) x =>
      { s with system := x }).set s.system.toJson made = some { made with system := s.system.cleaned } := fun made =>
    plain_object "System" (by simp [HostInfo.toJson]) (host_toJson s.system) _ made
  have gpu : ∀ made : Stats F G, (StructField.plain "Gpu" (into (GpuStats.fields fl) .zero) fun (s : Stats F G) x =>
      { s with gpu := x }).set (s.gpu.toJson fl) made = some { made with gpu := s.gpu.cleaned } := fun made =>
    plain_object "Gpu" (by simp [GpuStats.toJson]) (gpu_toJson s.gpu) _ made
  have disks : ∀ d : DiskStat F, into (DiskStat.fields fl) .zero (d.toJson fl) = some d.cleaned := disk_toJson
  have processes : ∀ p : ProcessStat F G, into (ProcessStat.fields fl fs) .zero (p.toJson fl fs) = some p.cleaned :=
    process_toJson
  rw [Stats.toJson, into, decodeStruct, members]
  simp [Stats.fields, Stats.members, Stats.cleaned, system, gpu, nilSlice_encodeSlice "Disks" disks,
    nilSlice_encodeSlice "TopCPU" processes, nilSlice_encodeSlice "TopMem" processes]

end ReadBack

/-! ### They can be read -/

section Fits
variable {F G : Type} {fl : FloatFormat F} {fs : FloatFormat G} {room : Nat}

@[simp] theorem fits_encodeInt32 (n : Int32) : Fits room (encodeInt32 n) := isNumber_toString n.toInt

theorem ProcessStat.fits (p : ProcessStat F G) : Fits (room + 1) (p.toJson fl fs) := fits_object (by simp)

theorem DiskStat.fits (d : DiskStat F) : Fits (room + 1) (d.toJson fl) := fits_object (by simp)

theorem HostInfo.fits (h : HostInfo) : Fits (room + 1) h.toJson := fits_object (by simp)

theorem GpuStats.fits (g : GpuStats F) : Fits (room + 1) (g.toJson fl) := fits_object (by simp)

theorem Stats.fits (s : Stats F G) : Fits (room + 3) (s.toJson fl fs) := by
  have disks : Fits (room + 2) (encodeSlice (DiskStat.toJson fl) s.disks) := fits_encodeSlice DiskStat.fits s.disks
  have tops : ∀ top, Fits (room + 2) (encodeSlice (ProcessStat.toJson fl fs) top) := fits_encodeSlice ProcessStat.fits
  have system : Fits (room + 2) s.system.toJson := s.system.fits
  have gpu : Fits (room + 2) (s.gpu.toJson fl) := s.gpu.fits
  exact fits_object (by simp [Stats.members, disks, tops, system, gpu])

end Fits

section Overview
variable {F G : Type} [Zero F] [Zero G]

/-- Where all numbers are finite, the overview has the statistics that the endpoint sends; else the endpoint sends
nothing at all and the overview has zeros in every field. -/
theorem overview_stats (fl : FloatFormat F) (fs : FloatFormat G) (raw : Stats (Option F) (Option G)) :
    (∀ s, raw.finite = some s → overviewStats fl fs raw = s.cleaned ∧
    handleStats fl fs (getStats fl fs raw) = some s.cleaned) ∧
    (raw.finite = none → overviewStats fl fs raw = .zero ∧ getStats fl fs raw = []) := by
  constructor
  · intro s finite
    have marshals : marshalStats fl fs raw = some (s.toJson fl fs) := by rw [marshalStats, finite, Option.map_some]
    have fits : Fits maxNestingDepth (s.toJson fl fs) := s.fits
    have object : ∀ text, s.toJson fl fs ≠ .number text := by simp [Stats.toJson]
    constructor
    · rw [overviewStats, marshals]
      dsimp only [Option.map_some, Option.getD_some]
      rw [unmarshal_jsonMarshal fits object, Option.bind_some, stats_toJson, Option.getD_some]
    · rw [handleStats, getStats, marshals, Option.map_some, Option.getD_some, readBody_writeJSON fits object,
        Option.bind_some,
        stats_toJson]
  · intro infinite
    have fails : marshalStats fl fs raw = none := by rw [marshalStats, infinite, Option.map_none]
    constructor
    · rw [overviewStats, fails]
      rfl
    · rw [getStats, fails]
      rfl

end Overview

namespace Demo

/-- Whole numbers for both widths. -/
def whole : FloatFormat Int64 where
  format n := (toString n.toInt).toList
  parse text := decodeInt (.number text)
  isNumber_format n := isNumber_toString n.toInt
  parse_format := decodeInt_encodeInt

/-- One process at work, and what the sensors tell of the processor. -/
def raw (temperature : Option Int64) : Stats (Option Int64) (Option Int64) where
  cpuUsage := some 5
  cpuTemp := temperature
  nvmeTemp := some 0
  memTotal := 2048
  memUsed := 1024
  memPercent := some 50
  disks := some []
  netSentRate := some 0
  netRecvRate := some 0
  topCPU := some [{ pid := 1, name := Utf8.encode "init".toList, cpu := some 3, memory := some 1 }]
  topMem := none
  system := .zero
  gpu := {
    renderBusy := some 0, videoBusy := some 0, freqMHz := some 0, powerW := some 0, rc6Pct := some 0, available := false,
    errMsg := [] }
  memUsedStr := []
  memTotalStr := []
  uptimeStr := []

end Demo

theorem overview_stats_whole : ∃ s, (Demo.raw (some 40)).finite = some s ∧
    overviewStats Demo.whole Demo.whole (Demo.raw (some 40)) = s.cleaned ∧
    overviewStats Demo.whole Demo.whole (Demo.raw none) = .zero ∧ getStats Demo.whole Demo.whole (Demo.raw none) = [] :=
  ⟨_, rfl, ((overview_stats Demo.whole Demo.whole (Demo.raw (some 40))).1 _ rfl).1,
    (overview_stats Demo.whole Demo.whole (Demo.raw none)).2 rfl⟩

end HomelabDaemon.HostStats
