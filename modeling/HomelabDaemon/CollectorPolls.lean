import HomelabDaemon.ByteSizes
import HomelabDaemon.Concurrency.Throttle
import HomelabDaemon.NetRates
import HomelabDaemon.Sorting
import HomelabDaemon.StatsSnapshot

/-!
# The collector's polls

A poll reads the sensors and counters of the host, but the table of processes at most every three seconds and the GPU
at most every five. In between the snapshot has what was read last.
-/

namespace HomelabDaemon.HostStats
open Concurrency Wire Sorting

section Readings
variable (F G : Type)

/-- The arithmetic of float64 and float32 and the printing, as far as they are used. -/
structure Numbers where
  isZero : F → Bool
  greater : F → F → Bool
  greater32 : G → G → Bool
  /-- A difference of counters divided by the seconds that the nanoseconds are. -/
  rate : UInt64 → Int → F
  quotient : UInt64 → Int64 → String

structure VirtualMemory where
  total : UInt64
  used : UInt64
  usedPercent : F

structure UsageStat where
  total : UInt64
  used : UInt64
  usedPercent : F

/-- What the host answers to one poll; nothing where the error is ignored. The GPU's are what `pollGPU` returns. -/
structure Reading where
  now : Int
  percent : Option F
  temperatures : List (String × F)
  memory : Option (VirtualMemory F)
  usage : Bytes → Option (UsageStat F)
  counters : List NetRates.IOCounters
  uptime : Option UInt64
  /-- None is a process whose name cannot be read. -/
  processes : List (Option (ProcessStat F G))
  gpu : GpuStats F

/-- The zero time is none. -/
structure Collector where
  stats : Stats F G
  net : NetRates.Collector
  staticInfo : HostInfo
  cachedTopCPU : Option (List (ProcessStat F G))
  cachedTopMem : Option (List (ProcessStat F G))
  lastProcessPoll : Option Int
  cachedGpu : GpuStats F
  lastGpuPoll : Option Int

end Readings

def seconds (n : Int) : Int := n * 1000000000

def formatUptime (uptime : UInt64) : String :=
  let days := uptime / 86400
  let hours := uptime % 86400 / 3600
  let mins := uptime % 3600 / 60
  if 0 < days then toString days ++ "d " ++ toString hours ++ "h" else toString hours ++ "h " ++ toString mins ++ "m"

section Poll
variable {F G : Type} [Zero F] [Zero G] (num : Numbers F G) (sorting : SortSlice (ProcessStat F G))
  (mounts : List Bytes)

def Collector.start (staticInfo : HostInfo) (seed : NetRates.Sample) : Collector F G where
  stats := .zero
  net := .start seed
  staticInfo := staticInfo
  cachedTopCPU := none
  cachedTopMem := none
  lastProcessPoll := none
  cachedGpu := .zero
  lastGpuPoll := none

def Numbers.formatBytes (b : UInt64) : Bytes := Utf8.encode ((ByteSizes.formatBytes num.quotient b).getD "").toList

def Numbers.cpuTemp (temps : List (String × F)) : F :=
  let t := ((temps.find? fun t =>
    t.1 == "coretemp_package_id_0" || t.1 == "k10temp_package_id_0" || t.1 == "coretemp_core_0").map Prod.snd).getD 0
  match temps with
  | first :: _ => if num.isZero t then first.2 else t
  | [] => t

def nvmeTemp (temps : List (String × F)) : F := ((temps.find? fun t => hasPrefix t.1 "nvme").map Prod.snd).getD 0

def Numbers.disks (r : Reading F G) : List (DiskStat F) :=
  mounts.filterMap fun mount => (r.usage mount).map fun usage => {
    mountpoint := mount
    total := usage.total
    used := usage.used
    percent := usage.usedPercent
    usedStr := num.formatBytes usage.used
    totalStr := num.formatBytes usage.total }

def Reading.pStats (r : Reading F G) : List (ProcessStat F G) := r.processes.filterMap id

/-- The first five, and of no processes what was there before. -/
def topFive (pStats : List (ProcessStat F G)) (cached : Option (List (ProcessStat F G))) :
    Option (List (ProcessStat F G)) :=
  let n := if 5 < pStats.length then 5 else pStats.length
  if 0 < n then some (pStats.take n) else cached

def Numbers.byCPU (p q : ProcessStat F G) : Bool := num.greater p.cpu q.cpu

def Numbers.byMemory (p q : ProcessStat F G) : Bool := num.greater32 p.memory q.memory

def Collector.pollProcesses (c : Collector F G) (r : Reading F G) : Collector F G :=
  if Throttle.due (seconds 3) c.lastProcessPoll r.now then
    let byCPU := sorting.sort num.byCPU r.pStats
    let byMemory := sorting.sort num.byMemory byCPU
    { c with
      cachedTopCPU := topFive byCPU c.cachedTopCPU
      cachedTopMem := topFive byMemory c.cachedTopMem
      lastProcessPoll := some r.now }
  else c

def Collector.pollGpu (c : Collector F G) (r : Reading F G) : Collector F G :=
  if Throttle.due (seconds 5) c.lastGpuPoll r.now then { c with cachedGpu := r.gpu, lastGpuPoll := some r.now } else c

def Collector.poll (c : Collector F G) (r : Reading F G) : Collector F G :=
  let (net, rates) := c.net.poll { now := r.now, counters := r.counters }
  let dt := r.now - c.net.lastPollTime
  let system := { c.staticInfo with uptime := r.uptime.getD c.staticInfo.uptime }
  let c := (c.pollProcesses num sorting r).pollGpu r
  { c with
    net := net
    stats := {
      cpuUsage := r.percent.getD 0
      cpuTemp := num.cpuTemp r.temperatures
      nvmeTemp := nvmeTemp r.temperatures
      memTotal := (r.memory.map (·.total)).getD 0
      memUsed := (r.memory.map (·.used)).getD 0
      memPercent := (r.memory.map (·.usedPercent)).getD 0
      disks := some (num.disks mounts r)
      netSentRate := (rates.map fun n => num.rate n.sent dt).getD 0
      netRecvRate := (rates.map fun n => num.rate n.recv dt).getD 0
      topCPU := c.cachedTopCPU
      topMem := c.cachedTopMem
      system := system
      gpu := c.cachedGpu
      memUsedStr := num.formatBytes ((r.memory.map (·.used)).getD 0)
      memTotalStr := num.formatBytes ((r.memory.map (·.total)).getD 0)
      uptimeStr := Utf8.encode (formatUptime system.uptime).toList } }

/-- The collector after some polls, the newest first. -/
def Collector.after (c : Collector F G) (readings : List (Reading F G)) : Collector F G :=
  readings.foldr (fun r c => c.poll num sorting mounts r) c

end Poll

/-! ### What the snapshot shows -/

section Shown
variable {F G : Type} (num : Numbers F G)

/-- The readings, the newest first, at which the table of processes is read. -/
def processSamples (readings : List (Reading F G)) :
    List (Reading F G) := Throttle.samples (seconds 3) Reading.now readings

def gpuSamples (readings : List (Reading F G)) : List (Reading F G) := Throttle.samples (seconds 5) Reading.now readings

/-- The lists of processes are those of the newest sample that had any. -/
inductive TopProcesses (samples : List (Reading F G)) :
    Option (List (ProcessStat F G)) → Option (List (ProcessStat F G)) → Prop where
  | none (empty : ∀ p ∈ samples, p.pStats = []) : TopProcesses samples none none
  | some {newer older : List (Reading F G)} {p : Reading F G} {topCPU topMem : List (ProcessStat F G)}
      (at_ : samples = newer ++ p :: older) (empty : ∀ q ∈ newer, q.pStats = []) (filled : p.pStats ≠ [])
      (cpu : Tops 5 num.byCPU p.pStats topCPU) (mem : Tops 5 num.byMemory p.pStats topMem) :
      TopProcesses samples (some topCPU) (some topMem)

end Shown

section Runs
variable {F G : Type} {num : Numbers F G} {sorting : SortSlice (ProcessStat F G)} {c : Collector F G}
  {readings : List (Reading F G)}

/-- The newest sample with a process. -/
def latest (readings : List (Reading F G)) : Option (Reading F G) := (processSamples readings).find? fun p =>
    !p.pStats.isEmpty

def Numbers.topCPU (num : Numbers F G) (sorting : SortSlice (ProcessStat F G)) (r : Reading F G) :
    List (ProcessStat F G) :=
  (sorting.sort num.byCPU r.pStats).take 5

def Numbers.topMem (num : Numbers F G) (sorting : SortSlice (ProcessStat F G)) (r : Reading F G) :
    List (ProcessStat F G) :=
  (sorting.sort num.byMemory (sorting.sort num.byCPU r.pStats)).take 5

theorem topFive_filled {items : List (ProcessStat F G)} (filled : items ≠ [])
    (cached : Option (List (ProcessStat F G))) :
    topFive items cached = some (items.take 5) := by
  have nonempty : 0 < items.length := List.length_pos_iff.mpr filled
  by_cases long : 5 < items.length
  · simp only [topFive, if_pos long]
    rfl
  · simp only [topFive, if_neg long, if_pos nonempty]
    rw [List.take_length, List.take_of_length_le (by omega)]

/-- A sample replaces the lists when it has a process. -/
theorem topFive_perm {items sorted : List (ProcessStat F G)} (perm : sorted.Perm items)
    (cached : Option (List (ProcessStat F G))) :
    topFive sorted cached = if items.isEmpty then cached else some (sorted.take 5) := by
  cases items with
  | nil =>
    obtain rfl := List.perm_nil.mp perm
    rfl
  | cons p items =>
    refine topFive_filled (fun empty => ?_) cached
    rw [empty] at perm
    exact absurd (List.nil_perm.mp perm) (List.cons_ne_nil p items)

theorem pollGpu_processes (c : Collector F G) (r : Reading F G) : (c.pollGpu r).cachedTopCPU = c.cachedTopCPU ∧
    (c.pollGpu r).cachedTopMem = c.cachedTopMem ∧ (c.pollGpu r).lastProcessPoll = c.lastProcessPoll := by
  unfold Collector.pollGpu
  split <;> exact ⟨rfl, rfl, rfl⟩

theorem pollProcesses_gpu (num : Numbers F G) (sorting : SortSlice (ProcessStat F G)) (c : Collector F G)
    (r : Reading F G) :
    (c.pollProcesses num sorting r).cachedGpu = c.cachedGpu ∧
    (c.pollProcesses num sorting r).lastGpuPoll = c.lastGpuPoll := by
  unfold Collector.pollProcesses
  split <;> exact ⟨rfl, rfl⟩

/-- What the collector keeps of the readings so far. -/
structure Follows [Zero F] (num : Numbers F G) (sorting : SortSlice (ProcessStat F G)) (c : Collector F G)
    (readings : List (Reading F G)) : Prop where
  lastProcess : c.lastProcessPoll = (processSamples readings).head?.map Reading.now
  topCPU : c.cachedTopCPU = (latest readings).map (num.topCPU sorting)
  topMem : c.cachedTopMem = (latest readings).map (num.topMem sorting)
  lastGpu : c.lastGpuPoll = (gpuSamples readings).head?.map Reading.now
  gpu : c.cachedGpu = ((gpuSamples readings).head?.map Reading.gpu).getD .zero

variable [Zero F]

theorem Follows.pollProcesses (follows : Follows num sorting c readings) (r : Reading F G) :
    (c.pollProcesses num sorting r).lastProcessPoll = (processSamples (r :: readings)).head?.map Reading.now ∧
    (c.pollProcesses num sorting r).cachedTopCPU = (latest (r :: readings)).map (num.topCPU sorting) ∧
    (c.pollProcesses num sorting r).cachedTopMem = (latest (r :: readings)).map (num.topMem sorting) := by
  have last := follows.lastProcess
  unfold Collector.pollProcesses
  cases isDue : Throttle.due (seconds 3) c.lastProcessPoll r.now with
  | false =>
    rw [last] at isDue
    have same : processSamples (r :: readings) = processSamples readings := Throttle.samples_early isDue
    rw [if_neg Bool.false_ne_true, latest, same]
    exact ⟨last, follows.topCPU, follows.topMem⟩
  | true =>
    rw [last] at isDue
    have more : processSamples (r :: readings) = r :: processSamples readings := Throttle.samples_due isDue
    have byCPU : (sorting.sort num.byCPU r.pStats).Perm r.pStats := sorting.perm _ _
    have byMemory := (sorting.perm num.byMemory (sorting.sort num.byCPU r.pStats)).trans byCPU
    rw [if_pos rfl, latest, more, List.find?_cons]
    dsimp only
    rw [topFive_perm byCPU, topFive_perm byMemory, follows.topCPU, follows.topMem]
    cases r.pStats.isEmpty <;> exact ⟨rfl, rfl, rfl⟩

theorem Follows.pollGpu (last : c.lastGpuPoll = (gpuSamples readings).head?.map Reading.now)
    (gpu : c.cachedGpu = ((gpuSamples readings).head?.map Reading.gpu).getD .zero) (r : Reading F G) :
    (c.pollGpu r).lastGpuPoll = (gpuSamples (r :: readings)).head?.map Reading.now ∧
    (c.pollGpu r).cachedGpu = ((gpuSamples (r :: readings)).head?.map Reading.gpu).getD .zero := by
  unfold Collector.pollGpu
  cases isDue : Throttle.due (seconds 5) c.lastGpuPoll r.now with
  | false =>
    rw [last] at isDue
    have same : gpuSamples (r :: readings) = gpuSamples readings := Throttle.samples_early isDue
    rw [if_neg Bool.false_ne_true, same]
    exact ⟨last, gpu⟩
  | true =>
    rw [last] at isDue
    have more : gpuSamples (r :: readings) = r :: gpuSamples readings := Throttle.samples_due isDue
    rw [if_pos rfl, more]
    exact ⟨rfl, rfl⟩

theorem Follows.poll [Zero G] (follows : Follows num sorting c readings) (mounts : List Bytes) (r : Reading F G) :
    Follows num sorting (c.poll num sorting mounts r) (r :: readings) := by
  obtain ⟨sameCPU, sameMem, sameLast⟩ := pollGpu_processes (c.pollProcesses num sorting r) r
  obtain ⟨sameGpu, sameLastGpu⟩ := pollProcesses_gpu num sorting c r
  obtain ⟨lastProcess, topCPU, topMem⟩ := follows.pollProcesses r
  obtain ⟨lastGpu, gpu⟩ := Follows.pollGpu (sameLastGpu.trans follows.lastGpu) (sameGpu.trans follows.gpu) r
  exact ⟨sameLast.trans lastProcess, sameCPU.trans topCPU, sameMem.trans topMem, lastGpu, gpu⟩

theorem Follows.topProcesses (follows : Follows num sorting c readings) :
    TopProcesses num (processSamples readings) c.cachedTopCPU c.cachedTopMem := by
  rw [follows.topCPU, follows.topMem]
  cases found : latest readings with
  | none =>
    refine .none fun p member => ?_
    simpa using List.find?_eq_none.mp found p member
  | some p =>
    obtain ⟨filled, newer, older, at_, empty⟩ := List.find?_eq_some_iff_append.mp found
    have byCPU : (sorting.sort num.byCPU p.pStats).Perm p.pStats := sorting.perm _ _
    exact .some at_ (by simpa using empty) (by simpa using filled) (tops_sort sorting 5 num.byCPU (List.Perm.refl _))
      (tops_sort sorting 5 num.byMemory byCPU)

variable [Zero G]

theorem after_follows (num : Numbers F G) (sorting : SortSlice (ProcessStat F G)) (mounts : List Bytes)
    (staticInfo : HostInfo) (seed : NetRates.Sample) (readings : List (Reading F G)) :
    Follows num sorting ((Collector.start staticInfo seed).after num sorting mounts readings) readings := by
  induction readings with
  | nil => exact ⟨rfl, rfl, rfl, rfl, rfl⟩
  | cons r readings ih => exact ih.poll mounts r

end Runs

section Throttled
variable {F G : Type} [Zero F] [Zero G]

/-- After any polls: the table of processes is sampled at most every three seconds and the GPU at most every five, no
sample is older when the snapshot is made, and the snapshot has the first five of the newest table with a process and
the newest GPU sample. -/
theorem stats_throttled (num : Numbers F G) (sorting : SortSlice (ProcessStat F G)) (mounts : List Bytes)
    (staticInfo : HostInfo) (seed : NetRates.Sample) (r : Reading F G) (earlier : List (Reading F G)) :
    let s := ((Collector.start staticInfo seed).after num sorting mounts (r :: earlier)).stats
    Throttle.Paced (seconds 3) Reading.now r.now (processSamples (r :: earlier)) ∧
    Throttle.Paced (seconds 5) Reading.now r.now (gpuSamples (r :: earlier)) ∧
    TopProcesses num (processSamples (r :: earlier)) s.topCPU s.topMem ∧
    (gpuSamples (r :: earlier)).head?.map Reading.gpu = some s.gpu := by
  have follows := after_follows num sorting mounts staticInfo seed (r :: earlier)
  have gpuPaced : Throttle.Paced (seconds 5) Reading.now r.now (gpuSamples (r :: earlier)) :=
    Throttle.samples_paced (by decide) r earlier
  refine ⟨Throttle.samples_paced (by decide) r earlier, gpuPaced, follows.topProcesses, ?_⟩
  obtain ⟨last, isLast, -⟩ := gpuPaced.recent
  have shown := follows.gpu
  rw [isLast] at shown ⊢
  exact congrArg some shown.symm

end Throttled

namespace Demo

def numbers : Numbers Int Int where
  isZero n := n == 0
  greater a b := decide (b < a)
  greater32 a b := decide (b < a)
  rate n _ := n.toNat
  quotient n _ := toString n

/-- One process at work. -/
def reading (now cpu : Int) : Reading Int Int where
  now := now
  percent := none
  temperatures := []
  memory := none
  usage _ := none
  counters := []
  uptime := none
  processes := [some { pid := 1, name := [], cpu := cpu, memory := 0 }, none]
  gpu := { renderBusy := cpu, videoBusy := 0, freqMHz := 0, powerW := 0, rc6Pct := 0, available := true, errMsg := [] }

def polled : Collector Int Int :=
  (Collector.start .zero { now := 0, counters := [] }).after numbers (.merge _) [] [reading (seconds 4) 7,
    reading (seconds 1) 3]

end Demo

/-- Three seconds later the processes are read again, the GPU not yet. -/
theorem stats_throttled_second :
    TopProcesses Demo.numbers [Demo.reading (seconds 4) 7,
    Demo.reading (seconds 1) 3] Demo.polled.stats.topCPU Demo.polled.stats.topMem ∧
    Demo.polled.stats.gpu.renderBusy = 3 := by
  obtain ⟨-, -, top, gpu⟩ := stats_throttled Demo.numbers (.merge _) [] .zero { now := 0, counters := [] }
    (Demo.reading (seconds 4) 7)
    [Demo.reading (seconds 1) 3]
  have processes : processSamples [Demo.reading (seconds 4) 7, Demo.reading (seconds 1) 3] =
    [Demo.reading (seconds 4) 7, Demo.reading (seconds 1) 3] := rfl
  have sample : gpuSamples [Demo.reading (seconds 4) 7, Demo.reading (seconds 1) 3] = [Demo.reading (seconds 1) 3] :=
    rfl
  rw [processes] at top
  rw [sample] at gpu
  exact ⟨top, (congrArg GpuStats.renderBusy (Option.some.inj gpu)).symm⟩

end HomelabDaemon.HostStats
