import HomelabDaemon.Config
import Mathlib.Algebra.Group.Int.Defs
import Mathlib.Algebra.GroupWithZero.Nat

/-!
# Network rates

The byte counters that the statistics collector sums over the physical interfaces, and the differences of the
sums from poll to poll. A rate is kept as its numerator, which the code divides by the seconds in between.
-/

namespace HomelabDaemon.NetRates

structure IOCounters where
  name : String
  bytesSent : UInt64
  bytesRecv : UInt64

def isPhysicalInterface (iface : String) : Bool :=
  if iface = "lo" then false
  else if hasPrefix iface "veth" then false
  else if hasPrefix iface "docker" then false
  else if hasPrefix iface "br-" then false
  else if hasPrefix iface "virbr" then false
  else if hasPrefix iface "tun" then false
  else if hasPrefix iface "tap" then false
  else if hasPrefix iface "tailscale" then false
  else if hasPrefix iface "podman" then false
  else if hasPrefix iface "cni-" then false
  else hasPrefix iface "eth" || hasPrefix iface "en" || hasPrefix iface "wl" || hasPrefix iface "ww"

/-- What one poll sees: the time in nanoseconds and the counters, none when they cannot be read. -/
structure Sample where
  now : Int
  counters : List IOCounters

structure Collector where
  lastNetSent : UInt64
  lastNetRecv : UInt64
  lastPollTime : Int

structure Numerators where
  sent : UInt64
  recv : UInt64
  deriving DecidableEq

def addCounters (n : List IOCounters) (sums : UInt64 × UInt64) : UInt64 × UInt64 :=
  n.foldl (fun sums iface =>
    if isPhysicalInterface iface.name then (sums.1 + iface.bytesSent, sums.2 + iface.bytesRecv) else sums) sums

namespace Collector

def start (s : Sample) : Collector :=
  let sums := addCounters s.counters (0, 0)
  { lastNetSent := sums.1, lastNetRecv := sums.2, lastPollTime := s.now }

def poll (c : Collector) (s : Sample) : Collector × Option Numerators :=
  let current := addCounters s.counters (0, 0)
  let rates := if 0 < s.now - c.lastPollTime then
    some { sent := current.1 - c.lastNetSent, recv := current.2 - c.lastNetRecv } else none
  ({ lastNetSent := current.1, lastNetRecv := current.2, lastPollTime := s.now }, rates)

end Collector

structure Poll where
  previous : Sample
  current : Sample
  rates : Option Numerators

def polls (c : Collector) (previous : Sample) : List Sample → List Poll
  | [] => []
  | s :: rest => { previous, current := s, rates := (c.poll s).2 } :: polls (c.poll s).1 s rest

/-- The polls of Start over a history, whose first sample seeds the counters. -/
def run (first : Sample) (history : List Sample) : List Poll := polls (Collector.start first) first history

/-- The physical interfaces' bytes, as a number. -/
def totalBytes (bytes : IOCounters → UInt64) (n : List IOCounters) : Nat :=
  ((n.filter fun iface => isPhysicalInterface iface.name).map fun iface => (bytes iface).toNat).sum

/-- The difference of two sums as 64 bits show it. -/
def difference (current last : Nat) : Nat := (((current : Int) - last) % 2 ^ 64).toNat

/-- The bytes are at most the current sum, and not the wrapped difference of a decreased sum. -/
def Honest (numerator : UInt64) (current last : Nat) : Prop :=
  numerator.toNat ≤ current ∧ (current < last → numerator.toNat ≠ difference current last)

namespace Poll

def NeverWraps (p : Poll) : Prop :=
  ∀ rates, p.rates = some rates →
    Honest rates.sent (totalBytes IOCounters.bytesSent p.current.counters)
      (totalBytes IOCounters.bytesSent p.previous.counters) ∧
    Honest rates.recv (totalBytes IOCounters.bytesRecv p.current.counters)
      (totalBytes IOCounters.bytesRecv p.previous.counters)

/-- No sum is below the one of the sample before. -/
def Grows (p : Poll) : Prop :=
  p.previous.now < p.current.now →
    totalBytes IOCounters.bytesSent p.previous.counters ≤ totalBytes IOCounters.bytesSent p.current.counters ∧
    totalBytes IOCounters.bytesRecv p.previous.counters ≤ totalBytes IOCounters.bytesRecv p.current.counters

end Poll

theorem totalBytes_cons (bytes : IOCounters → UInt64) (iface : IOCounters) (n : List IOCounters) :
    totalBytes bytes (iface :: n) =
      (if isPhysicalInterface iface.name then (bytes iface).toNat else 0) + totalBytes bytes n := by
  unfold totalBytes
  rw [List.filter_cons]
  split
  · rw [List.map_cons, List.sum_cons]
  · rw [Nat.zero_add]

theorem addCounters_toNat (n : List IOCounters) (sums : UInt64 × UInt64) :
    (addCounters n sums).1.toNat = (sums.1.toNat + totalBytes IOCounters.bytesSent n) % 2 ^ 64 ∧
    (addCounters n sums).2.toNat = (sums.2.toNat + totalBytes IOCounters.bytesRecv n) % 2 ^ 64 := by
  induction n generalizing sums with
  | nil => exact ⟨(Nat.mod_eq_of_lt sums.1.toNat_lt).symm, (Nat.mod_eq_of_lt sums.2.toNat_lt).symm⟩
  | cons iface n ih =>
    rw [addCounters, List.foldl_cons]
    obtain ⟨sent, recv⟩ := ih (if isPhysicalInterface iface.name then
      (sums.1 + iface.bytesSent, sums.2 + iface.bytesRecv) else sums)
    rw [addCounters] at sent recv
    rw [sent, recv, totalBytes_cons, totalBytes_cons]
    split
    · rw [UInt64.toNat_add, UInt64.toNat_add, Nat.mod_add_mod, Nat.mod_add_mod, Nat.add_assoc, Nat.add_assoc]
      exact ⟨rfl, rfl⟩
    · rw [Nat.zero_add, Nat.zero_add]
      exact ⟨rfl, rfl⟩

theorem sub_toNat {a b : UInt64} {current last : Nat} (sum : a.toNat = current % 2 ^ 64)
    (sum' : b.toNat = last % 2 ^ 64) : (a - b).toNat = difference current last := by
  rw [UInt64.toNat_sub, sum, sum', difference]
  omega

/-- A difference is honest when the sum did not decrease, and at no other time. -/
theorem honest_iff {numerator : UInt64} {current last : Nat} (shown : numerator.toNat = difference current last) :
    Honest numerator current last ↔ last ≤ current := by
  refine ⟨?_, ?_⟩
  · rintro ⟨_, wrapped⟩
    by_contra decreased
    exact wrapped (Nat.lt_of_not_le decreased) shown
  · intro grown
    refine ⟨?_, fun decreased => absurd grown (Nat.not_le_of_lt decreased)⟩
    rw [shown, difference]
    omega

/-! ### Runs -/

structure Collector.Keeps (c : Collector) (s : Sample) : Prop where
  sent : c.lastNetSent.toNat = totalBytes IOCounters.bytesSent s.counters % 2 ^ 64
  recv : c.lastNetRecv.toNat = totalBytes IOCounters.bytesRecv s.counters % 2 ^ 64
  time : c.lastPollTime = s.now

theorem sums_toNat (n : List IOCounters) :
    (addCounters n (0, 0)).1.toNat = totalBytes IOCounters.bytesSent n % 2 ^ 64 ∧
    (addCounters n (0, 0)).2.toNat = totalBytes IOCounters.bytesRecv n % 2 ^ 64 := by
  obtain ⟨sent, recv⟩ := addCounters_toNat n (0, 0)
  rw [show (0 : UInt64).toNat = 0 from rfl, Nat.zero_add] at sent recv
  exact ⟨sent, recv⟩

theorem start_keeps (s : Sample) : (Collector.start s).Keeps s := by
  obtain ⟨sent, recv⟩ := sums_toNat s.counters
  exact ⟨sent, recv, rfl⟩

theorem poll_keeps (c : Collector) (s : Sample) : (c.poll s).1.Keeps s := by
  obtain ⟨sent, recv⟩ := sums_toNat s.counters
  exact ⟨sent, recv, rfl⟩

theorem poll_neverWraps {c : Collector} {previous : Sample} (keeps : c.Keeps previous) (s : Sample) :
    Poll.NeverWraps { previous, current := s, rates := (c.poll s).2 } ↔
      Poll.Grows { previous, current := s, rates := (c.poll s).2 } := by
  obtain ⟨sent, recv⟩ := sums_toNat s.counters
  have sentShown := sub_toNat sent keeps.sent
  have recvShown := sub_toNat recv keeps.recv
  simp only [Poll.NeverWraps, Poll.Grows, Collector.poll, keeps.time]
  by_cases later : previous.now < s.now
  · rw [if_pos (by omega)]
    simp only [Option.some.injEq, forall_eq', honest_iff sentShown, honest_iff recvShown, later, forall_true_left]
  · rw [if_neg (by omega)]
    simp only [reduceCtorEq, false_implies, implies_true, later]

theorem polls_neverWraps {c : Collector} {previous : Sample} (keeps : c.Keeps previous) (history : List Sample) :
    ∀ p ∈ polls c previous history, p.NeverWraps ↔ p.Grows := by
  induction history generalizing c previous with
  | nil => exact fun _ member => nomatch member
  | cons s rest ih =>
    intro p member
    rcases List.mem_cons.mp member with rfl | later
    · exact poll_neverWraps keeps s
    · exact ih (poll_keeps c s) p later

/-- Every poll of every run shows wrapped rates exactly when a sum has decreased. -/
theorem rates_never_wrap_iff (first : Sample) (history : List Sample) :
    ∀ p ∈ run first history, p.NeverWraps ↔ p.Grows :=
  polls_neverWraps (start_keeps first) history

namespace Demo

/-- An adapter beside the network card, which is unplugged after the first sample. -/
def plugged : Sample :=
  { now := 0, counters := [{ name := "enp3s0", bytesSent := 900, bytesRecv := 900 },
      { name := "enx00", bytesSent := 500, bytesRecv := 500 }, { name := "lo", bytesSent := 70, bytesRecv := 70 }] }

def unplugged : Sample :=
  { now := 2000000000, counters := [{ name := "enp3s0", bytesSent := 1000, bytesRecv := 1000 }] }

def replugged : Sample := { plugged with now := 4000000000 }

def replug : Poll := { previous := unplugged, current := replugged, rates := some { sent := 400, recv := 400 } }

end Demo

theorem unplugged_rates_wrap :
    ¬ ∀ first history, ∀ p ∈ run first history, p.NeverWraps := by
  intro never
  obtain ⟨⟨atMost, _⟩, _⟩ := never Demo.plugged [Demo.unplugged] _ (List.Mem.head _) _ rfl
  revert atMost
  decide

theorem replugged_rates_never_wrap : Demo.replug.NeverWraps ↔ Demo.replug.Grows :=
  rates_never_wrap_iff Demo.plugged [Demo.unplugged, Demo.replugged] Demo.replug (.tail _ (.head _))

end HomelabDaemon.NetRates
