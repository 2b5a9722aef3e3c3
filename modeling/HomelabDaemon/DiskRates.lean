import HomelabDaemon.Concurrency.Trace
import HomelabDaemon.Strings.ParseInt
import Mathlib.Algebra.Order.Field.Rat
import Mathlib.Logic.Function.Basic
import Mathlib.Tactic.FieldSimp
import Mathlib.Tactic.Linarith

/-!
# Disk rates

The counters of the disks, which the daemon answers from a cache for a while, and the rates that the storage page
makes of successive responses. Times are in milliseconds, on the daemon's clock and on the page's.
-/

namespace HomelabDaemon.DiskRates
open Concurrency Strings

structure DiskIOStats where
  deviceName : String
  readIOs : Nat
  writeIOs : Nat
  readSectors : Nat
  writeSectors : Nat
  ioInProgress : Nat

/-- The value that comes back from `strconv.ParseUint`, with an error, too. -/
def counter (s : Str) : Nat :=
  if s = [] then 0
  else match parseUint s 0 with
    | .ok n => n
    | .error .invalid => 0
    | .error .range => 2 ^ 64 - 1

def addLine (deviceNames : List String) (stats : String → Option DiskIOStats) (line : Str) :
    String → Option DiskIOStats :=
  let fs := fields line
  if fs.length < 14 then stats
  else
    let devName := String.ofList (fs.getD 2 [])
    if devName ∉ deviceNames then stats
    else Function.update stats devName (some {
      deviceName := devName
      readIOs := counter (fs.getD 3 [])
      writeIOs := counter (fs.getD 7 [])
      readSectors := counter (fs.getD 5 [])
      writeSectors := counter (fs.getD 9 [])
      ioInProgress := counter (fs.getD 11 []) })

/-- The lines are those of /proc/diskstats, as the scanner hands them out. -/
def getDiskIO (deviceNames : List String) (diskstats : Except String (List Str)) :
    Except String (String → Option DiskIOStats) :=
  diskstats.map fun lines => lines.foldl (addLine deviceNames) fun _ => none

/-- A response, in what the page reads of it: the names of each pool's disks and their counters. -/
structure Snapshot where
  serial : Nat
  takenAt : Int
  pools : List (List String)
  io : String → Option DiskIOStats

def snapshot (serial : Nat) (now : Int) (pools : List (List String)) (diskstats : Except String (List Str)) :
    Snapshot where
  serial := serial
  takenAt := now
  pools := pools
  io :=
    let diskNames := pools.flatten.filter (· ≠ "")
    if diskNames = [] then fun _ => none
    else match getDiskIO diskNames diskstats with
      | .ok ioStats => ioStats
      | .error _ => fun _ => none

structure CacheEntry where
  response : Snapshot
  deadline : Int

def storageCacheTTL : Int := 10 * 1000

/-- A request that the cache does not answer. -/
inductive Handler where
  | discovering
  | holds (response : Snapshot)

structure Daemon where
  storageCache : Option CacheEntry := none
  handlers : Nat → Option Handler := fun _ => none
  responses : Nat → Option Snapshot := fun _ => none
  /-- Every snapshot so far. -/
  taken : List Snapshot := []

namespace Daemon

def fresh (d : Daemon) (now : Int) : Option Snapshot :=
  (d.storageCache.filter fun entry => decide (now < entry.deadline)).map (·.response)

/-- The handler up to the lookup in the cache. -/
def request (d : Daemon) (id : Nat) (now : Int) : Daemon :=
  match d.fresh now with
  | some response => { d with responses := Function.update d.responses id (some response) }
  | none => { d with handlers := Function.update d.handlers id (some .discovering) }

def take (d : Daemon) (id : Nat) (now : Int) (pools : List (List String)) (diskstats : Except String (List Str)) :
    Daemon :=
  let response := snapshot d.taken.length now pools diskstats
  { d with handlers := Function.update d.handlers id (some (.holds response)), taken := d.taken ++ [response] }

def store (d : Daemon) (id : Nat) (response : Snapshot) (now : Int) : Daemon :=
  { d with
    storageCache := some { response, deadline := now + storageCacheTTL }
    handlers := Function.update d.handlers id none
    responses := Function.update d.responses id (some response) }

end Daemon

/-! ### The page -/

structure DiskIORates where
  readBps : ℚ
  writeBps : ℚ
  readIops : ℚ
  writeIops : ℚ
  deriving DecidableEq

/-- An entry of `prevIo`, with the response that it comes from. -/
structure PrevIo where
  stats : DiskIOStats
  time : Int
  response : Snapshot

/-- What an effect has done for a disk. -/
structure Update where
  name : String
  stats : DiskIOStats
  now : Int
  response : Snapshot
  previous : Option PrevIo
  stored : Option DiskIORates
  before : Option DiskIORates

def Update.after (u : Update) : Option DiskIORates := u.stored.or u.before

structure Page where
  prevIo : String → Option PrevIo := fun _ => none
  ioRates : String → Option DiskIORates := fun _ => none
  /-- The newest first. -/
  updates : List Update := []

/-- The difference of two counters as numbers. -/
def difference (count : DiskIOStats → Nat) (stats stats' : DiskIOStats) : ℚ := (count stats' : ℚ) - count stats

def rates (prev : PrevIo) (stats : DiskIOStats) (dt : ℚ) : DiskIORates :=
  let dr := difference (·.readSectors) prev.stats stats * 512
  let dw := difference (·.writeSectors) prev.stats stats * 512
  { readBps := dr / dt
    writeBps := dw / dt
    readIops := if 0 < dr then difference (·.readIOs) prev.stats stats / dt else 0
    writeIops := if 0 < dw then difference (·.writeIOs) prev.stats stats / dt else 0 }

def seconds (milliseconds : Int) : ℚ := (milliseconds : ℚ) / 1000

def storedRates (previous : Option PrevIo) (stats : DiskIOStats) (now : Int) : Option DiskIORates :=
  previous.bind fun prev =>
    let dt := seconds (now - prev.time)
    if 0 < dt then some (rates prev stats dt) else none

namespace Page

/-- What is done for a disk with counters; rates that are not stored leave those from before. -/
def record (p : Page) (name : String) (stats : DiskIOStats) (response : Snapshot) (now : Int) : Page :=
  let stored := storedRates (p.prevIo name) stats now
  { prevIo := Function.update p.prevIo name (some { stats, time := now, response })
    ioRates := Function.update p.ioRates name (stored.or (p.ioRates name))
    updates := { name, stats, now, response, previous := p.prevIo name, stored, before := p.ioRates name } ::
      p.updates }

def disk (response : Snapshot) (now : Int) (p : Page) (name : String) : Page :=
  match response.io name with
  | none => p
  | some stats => p.record name stats response now

/-- The effect that runs when the status is another one. -/
def effect (p : Page) (response : Snapshot) (now : Int) : Page := response.pools.flatten.foldl (disk response now) p

end Page

structure World where
  daemon : Daemon := {}
  page : Page := {}

/-- A request, the page's or another client's, is known by its number. -/
inductive Event where
  | request (id : Nat) (now : Int)
  | takes (id : Nat) (now : Int) (pools : List (List String)) (diskstats : Except String (List Str))
  | stores (id : Nat) (now : Int)
  | fails (id : Nat)
  | receives (id : Nat) (now : Int)

def World.step (w : World) : Event → Option World
  | .request id now =>
    if (w.daemon.handlers id).isNone ∧ (w.daemon.responses id).isNone then some
    { w with daemon := w.daemon.request id now }
    else none
  | .takes id now pools diskstats => match w.daemon.handlers id with
    | some .discovering => some { w with daemon := w.daemon.take id now pools diskstats }
    | _ => none
  | .stores id now => match w.daemon.handlers id with
    | some (.holds response) => some { w with daemon := w.daemon.store id response now }
    | _ => none
  | .fails id => (w.daemon.handlers id).map fun _ =>
    { w with daemon := { w.daemon with handlers := Function.update w.daemon.handlers id none } }
  | .receives id now => (w.daemon.responses id).map fun response =>
    { daemon := { w.daemon with responses := Function.update w.daemon.responses id none }
      page := w.page.effect response now }

namespace Update

/-- Rates are stored of other snapshots only, and are the difference over the time between the two. -/
def Real (u : Update) : Prop :=
  ∀ prev, u.previous = some prev →
    if prev.response.serial = u.response.serial then u.after = u.before
    else ∀ stored, u.stored = some stored →
      stored.readBps = difference (·.readSectors) prev.stats u.stats * 512 / seconds
        (u.response.takenAt - prev.response.takenAt) ∧
      stored.writeBps = difference (·.writeSectors) prev.stats u.stats * 512 / seconds
        (u.response.takenAt - prev.response.takenAt)

/-- As long between the two effects as between the two snapshots, unless nothing is read or written in between; and
nothing to lose when the snapshot is the same. -/
def Aligned (u : Update) : Prop :=
  ∀ prev, u.previous = some prev → prev.time < u.now →
    if prev.response.serial = u.response.serial then u.before = some ⟨0, 0, 0, 0⟩
    else
      (prev.stats.readSectors = u.stats.readSectors ∨ u.now - prev.time = u.response.takenAt - prev.response.takenAt) ∧
      (prev.stats.writeSectors = u.stats.writeSectors ∨ u.now - prev.time = u.response.takenAt - prev.response.takenAt)

end Update

/-! ### One update -/

variable {u : Update} {prev : PrevIo}

theorem seconds_pos {milliseconds : Int} : 0 < seconds milliseconds ↔ 0 < milliseconds := by
  rw [seconds]
  constructor
  · intro positive
    have scaled : (0 : ℚ) < milliseconds := by linarith
    exact_mod_cast scaled
  · intro positive
    have cast : (0 : ℚ) < milliseconds := by exact_mod_cast positive
    linarith

theorem seconds_inj {a b : Int} : seconds a = seconds b ↔ a = b := by
  rw [seconds, seconds, div_left_inj' (by norm_num), Int.cast_inj]

theorem rate_eq_iff {count : DiskIOStats → Nat} {stats stats' : DiskIOStats} {dt taken : Int} :
    difference count stats stats' * 512 / seconds dt = difference count stats stats' * 512 / seconds taken ↔
      count stats = count stats' ∨ dt = taken := by
  have none : difference count stats stats' * 512 = 0 ↔ count stats = count stats' := by
    rw [mul_eq_zero_iff_right (by norm_num), difference, sub_eq_zero, Nat.cast_inj, eq_comm]
  by_cases changed : difference count stats stats' * 512 = 0
  · rw [changed, zero_div, zero_div]
    exact iff_of_true rfl (.inl (none.mp changed))
  · rw [div_eq_mul_inv, div_eq_mul_inv, mul_right_inj' changed, inv_inj, seconds_inj]
    exact (or_iff_right (fun same => changed (none.mpr same))).symm

theorem difference_self (count : DiskIOStats → Nat) (stats : DiskIOStats) :
    difference count stats stats = 0 := sub_self _

/-- Of two effects with one snapshot the second stores rates of zero. -/
theorem rates_self (prev : PrevIo) (dt : ℚ) : rates prev prev.stats dt = ⟨0, 0, 0, 0⟩ := by
  simp [rates, difference_self]

theorem storedRates_early {stats : DiskIOStats} {now : Int} (early : ¬ prev.time < now) :
    storedRates (some prev) stats now = none := by
  rw [storedRates, Option.bind_some]
  exact if_neg fun positive => early (by have := seconds_pos.mp positive; omega)

theorem storedRates_later {stats : DiskIOStats} {now : Int} (later : prev.time < now) :
    storedRates (some prev) stats now = some (rates prev stats (seconds (now - prev.time))) := by
  rw [storedRates, Option.bind_some]
  exact if_pos (seconds_pos.mpr (by omega))

theorem real_iff (stored : u.stored = storedRates u.previous u.stats u.now)
    (same : ∀ prev, u.previous = some prev → prev.response.serial = u.response.serial → u.stats = prev.stats) :
    u.Real ↔ u.Aligned := by
  refine forall_congr' fun prev => forall_congr' fun previous => ?_
  rw [Update.after, stored, previous]
  by_cases later : prev.time < u.now
  · rw [storedRates_later later, forall_prop_of_true later]
    split
    · rename_i repeated
      rw [same prev previous repeated, rates_self, Option.some_or, eq_comm]
    · simp only [Option.some.injEq, forall_eq', rates, rate_eq_iff]
  · rw [storedRates_early later, Option.none_or]
    refine iff_of_true ?_ fun later' => absurd later' later
    split
    · rfl
    · nofun

def Known (taken : List Snapshot) (s : Snapshot) : Prop := taken[s.serial]? = some s

structure Daemon.Sound (d : Daemon) : Prop where
  cached : ∀ entry, d.storageCache = some entry → Known d.taken entry.response
  holds : ∀ id s, d.handlers id = some (.holds s) → Known d.taken s
  responses : ∀ id s, d.responses id = some s → Known d.taken s

structure Page.Sound (taken : List Snapshot) (p : Page) : Prop where
  known : ∀ name prev, p.prevIo name = some prev → Known taken prev.response
  stats : ∀ name prev, p.prevIo name = some prev → prev.response.io name = some prev.stats
  updates : ∀ u ∈ p.updates, u.Real ↔ u.Aligned

structure Sound (w : World) : Prop where
  daemon : w.daemon.Sound
  page : w.page.Sound w.daemon.taken

variable {d : Daemon} {p : Page} {w w' : World} {taken : List Snapshot} {s s' : Snapshot}

theorem Known.append (known : Known taken s) (more : List Snapshot) : Known (taken ++ more) s := by
  obtain ⟨within, _⟩ := List.getElem?_eq_some_iff.mp known
  rw [Known, List.getElem?_append_left within]
  exact known

theorem Known.eq (known : Known taken s) (known' : Known taken s') (same : s.serial = s'.serial) : s = s' := by
  rw [Known, same] at known
  exact Option.some.inj (known.symm.trans known')

theorem Page.Sound.record (sound : p.Sound taken) (known : Known taken s) (now : Int) {name : String}
    {stats : DiskIOStats} (found : s.io name = some stats) : (p.record name stats s now).Sound taken := by
  have prevIo : (p.record name stats s now).prevIo = Function.update p.prevIo name
    (some { stats, time := now, response := s }) := rfl
  have entry : ∀ other prev, (p.record name stats s now).prevIo other = some prev →
      Known taken prev.response ∧ prev.response.io other = some prev.stats := by
    intro other prev there
    rw [prevIo] at there
    by_cases same : other = name
    · rw [same, Function.update_self] at there
      cases there
      exact ⟨known, same ▸ found⟩
    · rw [Function.update_of_ne same] at there
      exact ⟨sound.known other prev there, sound.stats other prev there⟩
  refine ⟨fun other prev there => (entry other prev there).1, fun other prev there => (entry other prev there).2,
    fun u member => ?_⟩
  rcases List.mem_cons.mp member with rfl | older
  · refine real_iff rfl fun prev previous same => ?_
    have response := (sound.known name prev previous).eq known same
    have stats' := sound.stats name prev previous
    rw [response, found] at stats'
    exact Option.some.inj stats'
  · exact sound.updates u older

theorem Page.Sound.disk (sound : p.Sound taken) (known : Known taken s) (now : Int) (name : String) :
    (p.disk s now name).Sound taken := by
  unfold Page.disk
  split
  · exact sound
  · exact sound.record known now ‹_›

theorem Page.Sound.effect (sound : p.Sound taken) (known : Known taken s) (now : Int) :
    (p.effect s now).Sound taken := by
  rw [Page.effect]
  generalize s.pools.flatten = names
  induction names generalizing p with
  | nil => exact sound
  | cons name names ih => exact ih (sound.disk known now name)

/-! ### Steps -/

theorem Page.Sound.append (sound : p.Sound taken) (more : List Snapshot) : p.Sound (taken ++ more) where
  known name prev there := (sound.known name prev there).append more
  stats := sound.stats
  updates := sound.updates

theorem Daemon.Sound.fresh (sound : d.Sound) {now : Int} (hit : d.fresh now = some s) : Known d.taken s := by
  obtain ⟨entry, there, rfl⟩ := Option.map_eq_some_iff.mp hit
  exact sound.cached entry (Option.filter_eq_some_iff.mp there).1

theorem update_some {α : Type} {f : Nat → Option α} {id id' : Nat} {a : Option α} {b : α}
    (there : Function.update f id a id' = some b) : a = some b ∨ f id' = some b := by
  by_cases same : id' = id
  · rw [same, Function.update_self] at there
    exact .inl there
  · rw [Function.update_of_ne same] at there
    exact .inr there

theorem Daemon.Sound.request (sound : d.Sound) (id : Nat) (now : Int) : (d.request id now).Sound := by
  unfold Daemon.request
  split
  · rename_i response hit
    refine ⟨sound.cached, sound.holds, fun id' s there => ?_⟩
    rcases update_some there with new | there
    · cases new
      exact sound.fresh hit
    · exact sound.responses id' s there
  · refine ⟨sound.cached, fun id' s there => ?_, sound.responses⟩
    rcases update_some there with no | there
    · cases no
    · exact sound.holds id' s there

theorem Daemon.Sound.take (sound : d.Sound) (id : Nat) (now : Int) (pools : List (List String))
    (diskstats : Except String (List Str)) : (d.take id now pools diskstats).Sound := by
  refine ⟨fun entry there => (sound.cached entry there).append _, fun id' s there => ?_,
    fun id' s there => (sound.responses id' s there).append _⟩
  rcases update_some there with new | there
  · cases new
    exact List.getElem?_concat_length
  · exact (sound.holds id' s there).append _

theorem Daemon.Sound.store (sound : d.Sound) {id : Nat} (held : d.handlers id = some (.holds s)) (now : Int) :
    (d.store id s now).Sound := by
  refine ⟨fun entry there => ?_, fun id' s' there => ?_, fun id' s' there => ?_⟩
  · cases there
    exact sound.holds id s held
  · rcases update_some there with no | there
    · cases no
    · exact sound.holds id' s' there
  · rcases update_some there with new | there
    · cases new
      exact sound.holds id s held
    · exact sound.responses id' s' there

theorem step_sound {e : Event} (sound : Sound w) (stepped : w.step e = some w') : Sound w' := by
  cases e with
  | request id now =>
    simp only [World.step] at stepped
    split at stepped <;> cases stepped
    refine ⟨sound.daemon.request id now, ?_⟩
    have same : (w.daemon.request id now).taken = w.daemon.taken := by
      unfold Daemon.request
      split <;> rfl
    rw [same]
    exact sound.page
  | takes id now pools diskstats =>
    simp only [World.step] at stepped
    split at stepped <;> cases stepped
    exact ⟨sound.daemon.take id now pools diskstats, sound.page.append _⟩
  | stores id now =>
    simp only [World.step] at stepped
    split at stepped <;> cases stepped
    exact ⟨sound.daemon.store ‹_› now, sound.page⟩
  | fails id =>
    obtain ⟨_, _, rfl⟩ := Option.map_eq_some_iff.mp stepped
    refine ⟨⟨sound.daemon.cached, fun id' s there => ?_, sound.daemon.responses⟩, sound.page⟩
    rcases update_some there with no | there
    · cases no
    · exact sound.daemon.holds id' s there
  | receives id now =>
    obtain ⟨response, sent, rfl⟩ := Option.map_eq_some_iff.mp stepped
    have known := sound.daemon.responses id response sent
    refine ⟨⟨sound.daemon.cached, sound.daemon.holds, fun id' s there => ?_⟩, sound.page.effect known now⟩
    rcases update_some there with no | there
    · cases no
    · exact sound.daemon.responses id' s there

theorem sound_new : Sound {} := by
  refine ⟨⟨fun _ there => ?_, fun _ _ there => ?_, fun _ _ there => ?_⟩,
    fun _ _ there => ?_, fun _ _ there => ?_, fun _ member => absurd member List.not_mem_nil⟩
  all_goals cases there

/-- In every run each rate that the page stores is real exactly when its effects are aligned with the snapshots. -/
theorem rates_real_iff (events : List Event) :
    Trace.Always World.step (fun w => ∀ u ∈ w.page.updates, u.Real ↔ u.Aligned) {} events :=
  Trace.always_of_inv (fun _ _ _ => step_sound) (fun _ (sound : Sound _) => sound.page.updates) sound_new events

namespace Demo

/-- A line of /proc/diskstats with this many sectors read. -/
def line (sectors : String) : Str := ("   8       0 sda 100 0 " ++ sectors ++ " 0 50 0 800 0 0 0 0").toList

/-- Polls every three seconds; the cached snapshot runs out before the fifth. -/
def polls : List Event :=
  [.request 0 0, .takes 0 0 [["sda"]] (.ok [line "1000"]), .stores 0 0, .receives 0 0,
   .request 1 3000, .receives 1 3000, .request 2 6000, .receives 2 6000, .request 3 9000, .receives 3 9000,
   .request 4 12000, .takes 4 12000 [["sda"]] (.ok [line "25000"]), .stores 4 12000, .receives 4 12000]

/-- Of other snapshots a rate is stored that is not the real one. -/
def inflated (u : Update) : Bool :=
  match u.previous, u.stored with
  | some prev, some stored =>
    decide (prev.response.serial ≠ u.response.serial) && decide (stored.readBps ≠
      difference (·.readSectors) prev.stats u.stats * 512 / seconds (u.response.takenAt - prev.response.takenAt))
  | _, _ => false

theorem not_real_of_inflated {u : Update} (shown : inflated u = true) : ¬ u.Real := by
  unfold inflated at shown
  split at shown
  · rename_i prev stored previous there
    obtain ⟨apart, other⟩ := Bool.and_eq_true_iff.mp shown
    intro real
    have rates := real prev previous
    rw [if_neg (of_decide_eq_true apart)] at rates
    exact of_decide_eq_true other (rates stored there).1
  · cases shown

end Demo

theorem cached_polls_inflate : ¬ Trace.Always World.step (fun w => ∀ u ∈ w.page.updates, u.Real) {} Demo.polls := by
  intro always
  have shown : (Trace.run World.step {} Demo.polls).any (fun w => w.page.updates.any Demo.inflated) =
    true := by decide +kernel
  obtain ⟨w, ran, shown⟩ := (Option.any_eq_true ..).mp shown
  obtain ⟨u, member, inflated⟩ := List.any_eq_true.mp shown
  have real := Trace.always_iff.mp always Demo.polls w List.prefix_rfl ran
  exact Demo.not_real_of_inflated inflated (real u member)

end HomelabDaemon.DiskRates
