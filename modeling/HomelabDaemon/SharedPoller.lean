import HomelabDaemon.Concurrency.Trace
import Mathlib.Data.List.Nodup
import Mathlib.Tactic.Common

/-!
# The shared poller

One fetch loop of the dashboard for all its subscribers, which is carried on by the fetch in flight or by a timer.
The browser's side, timers and fetches, is kept beside the fields of the poller.
-/

namespace HomelabDaemon.SharedPoller
open Concurrency

structure ServiceInfo where
  name : String
  unitName : String
  failureCount : Int
  backoffSeconds : Int

/-- What the poller looks at, and the rest. -/
structure OverviewData (R : Type) where
  services : Option (List ServiceInfo)
  rest : R

/-- The detail of a `homelab:service-failure` event. -/
structure ServiceFailure where
  name : String
  failureCount : Int
  backoffSeconds : Int

/-- A failure of each service that has failed since the data before. -/
def serviceFailures {R : Type} (prev : Option (OverviewData R)) (fresh : OverviewData R) : List ServiceFailure :=
  match prev.bind (·.services), fresh.services with
  | some old, some services => services.filterMap fun svc =>
    match old.find? (·.unitName == svc.unitName) with
    | some before => if before.failureCount < svc.failureCount then some ⟨svc.name, svc.failureCount,
        svc.backoffSeconds⟩ else none
    | none => none
  | _, _ => []

/-- The saved interval, where it is a finite number, and whether the tab is in the background. -/
structure Tab where
  saved : Option Int
  hidden : Bool

def getPollInterval (saved : Option Int) : Int :=
  match saved with
  | some n => max 2000 (min 60000 n)
  | none => 10000

def resolvedInterval (tab : Tab) : Int :=
  if tab.hidden then max (getPollInterval tab.saved) 30000 else getPollInterval tab.saved

inductive Output (L R Err : Type) where
  | onData (listener : L) (data : OverviewData R)
  | onError (listener : L) (err : Err) (cached : Option (OverviewData R))
  | serviceFailure (detail : ServiceFailure)

structure Timer where
  id : Nat
  delay : Int

structure Poller (L R Err : Type) where
  subscribers : List L := []
  cached : Option (OverviewData R) := none
  lastError : Option Err := none
  timeoutId : Option Nat := none
  fetching : Bool := false
  /-- The timers that are pending. -/
  timers : List Timer := []
  nextTimer : Nat := 0
  /-- The fetches in flight, each with the interval that it resolved. -/
  inFlight : List Int := []
  /-- What the last event led to. -/
  outputs : List (Output L R Err) := []

inductive Event (L R Err : Type) where
  | subscribe (listener : L) (tab : Tab)
  | unsubscribe (listener : L)
  | fires (timer : Nat) (tab : Tab)
  | succeeds (fetch : Nat) (fresh : OverviewData R)
  | fails (fetch : Nat) (err : Err)

section Step
variable {L R Err : Type}

namespace Poller

def emit (p : Poller L R Err) (outputs : List (Output L R Err)) : Poller L R Err :=
  { p with outputs := p.outputs ++ outputs }

def setTimeout (p : Poller L R Err) (delay : Int) : Poller L R Err :=
  { p with timers := p.timers ++ [⟨p.nextTimer, delay⟩], timeoutId := some p.nextTimer, nextTimer := p.nextTimer + 1 }

def clearTimeout (p : Poller L R Err) (id : Nat) : Poller L R Err :=
  { p with timers := p.timers.filter (·.id ≠ id) }

def stop (p : Poller L R Err) : Poller L R Err :=
  match p.timeoutId with
  | some id => { p.clearTimeout id with timeoutId := none }
  | none => p

def deliver (p : Poller L R Err) (data : OverviewData R) : Poller L R Err :=
  p.emit (p.subscribers.map fun listener => .onData listener data)

def deliverCached (p : Poller L R Err) : Poller L R Err :=
  match p.cached with
  | none => p
  | some cached => p.deliver cached

def tick (p : Poller L R Err) (tab : Tab) : Poller L R Err :=
  if p.subscribers.length = 0 then p
  else if p.deliverCached.fetching then p.deliverCached
  else { p.deliverCached with fetching := true, inFlight := p.inFlight ++ [resolvedInterval tab] }

/-- The next tick, if anyone is left. -/
def again (p : Poller L R Err) (delay : Int) : Poller L R Err :=
  if 0 < p.subscribers.length then p.setTimeout delay else p

def succeed (p : Poller L R Err) (fresh : OverviewData R) (interval : Int) : Poller L R Err :=
  let told := p.emit ((serviceFailures p.cached fresh).map .serviceFailure)
  let stored := { told with cached := some fresh, lastError := none, fetching := false }
  (stored.deliver fresh).again interval

def fail (p : Poller L R Err) (err : Err) (interval : Int) : Poller L R Err :=
  let stored := { p with lastError := some err, fetching := false }
  let told := stored.emit (stored.subscribers.map fun listener => .onError listener err stored.cached)
  told.again (min interval 2000)

section Subscribers
variable [DecidableEq L]

/-- A set keeps its elements in the order of their insertion. -/
def add (p : Poller L R Err) (listener : L) : Poller L R Err :=
  { p with subscribers := if listener ∈ p.subscribers then p.subscribers else p.subscribers ++ [listener] }

def subscribe (p : Poller L R Err) (listener : L) (tab : Tab) : Poller L R Err :=
  let added := p.add listener
  let told := match added.cached with
    | none => added
    | some cached => added.emit [.onData listener cached]
  if told.subscribers.length = 1 then told.tick tab else told

def unsubscribe (p : Poller L R Err) (listener : L) : Poller L R Err :=
  let left := { p with subscribers := p.subscribers.erase listener }
  if left.subscribers.length = 0 then left.stop else left

/-- Each subscription comes with a listener of its own. -/
def step (p : Poller L R Err) (e : Event L R Err) : Option (Poller L R Err) :=
  let p := { p with outputs := [] }
  match e with
  | .subscribe listener tab => if listener ∈ p.subscribers then none else some (p.subscribe listener tab)
  | .unsubscribe listener => some (p.unsubscribe listener)
  | .fires timer tab =>
    if p.timers.any (·.id = timer) then some ((p.clearTimeout timer).tick tab) else none
  | .succeeds fetch fresh =>
    p.inFlight[fetch]?.map fun interval => { p with inFlight := p.inFlight.eraseIdx fetch }.succeed fresh interval
  | .fails fetch err =>
    p.inFlight[fetch]?.map fun interval => { p with inFlight := p.inFlight.eraseIdx fetch }.fail err interval

end Subscribers

end Poller

/-! ### One chain -/

/-- What carries the chain on. -/
inductive Chain (p : Poller L R Err) : Prop where
  | idle (nobody : p.subscribers = []) (free : p.fetching = false) (none : p.inFlight = []) (silent : p.timers = [])
  | fetching (busy : p.fetching = true) (one : p.inFlight.length = 1) (silent : p.timers = [])
  | waiting (someone : p.subscribers ≠ []) (free : p.fetching = false) (none : p.inFlight = []) (timer : Timer)
      (one : p.timers = [timer]) (handle : p.timeoutId = some timer.id)

structure Sound (p : Poller L R Err) : Prop where
  chain : Chain p
  nodup : p.subscribers.Nodup

/-- Between two timers. -/
structure Silent (p : Poller L R Err) : Prop where
  flagged : p.inFlight.length = p.fetching.toNat
  silent : p.timers = []

variable {p p' : Poller L R Err} {listener : L} {tab : Tab}

namespace Poller

def cachedOutputs (p : Poller L R Err) : List (Output L R Err) :=
  match p.cached with
  | none => []
  | some cached => p.subscribers.map fun listener => .onData listener cached

theorem deliverCached_eq (p : Poller L R Err) : p.deliverCached = p.emit p.cachedOutputs := by
  unfold deliverCached cachedOutputs
  split
  · rw [emit, List.append_nil]
  · rfl

theorem tick_eq (someone : p.subscribers ≠ []) :
    p.tick tab = if p.fetching then p.emit p.cachedOutputs
      else { p.emit p.cachedOutputs with fetching := true, inFlight := p.inFlight ++ [resolvedInterval tab] } := by
  rw [tick, if_neg (fun empty => someone (List.length_eq_zero_iff.mp empty)), deliverCached_eq]
  rfl

theorem tick_subscribers (someone : p.subscribers ≠ []) : (p.tick tab).subscribers = p.subscribers := by
  rw [tick_eq someone]
  split <;> rfl

theorem tick_chain (someone : p.subscribers ≠ []) (silent : Silent p) : Chain (p.tick tab) := by
  obtain ⟨flagged, silent⟩ := silent
  rw [tick_eq someone]
  split
  · rename_i busy
    rw [busy] at flagged
    exact .fetching busy flagged silent
  · rename_i free
    rw [Bool.not_eq_true] at free
    rw [free] at flagged
    refine .fetching rfl ?_ silent
    rw [List.length_append, flagged]
    rfl

theorem again_chain (delay : Int) (free : p.fetching = false) (none : p.inFlight = []) (silent : p.timers = []) :
    Chain (p.again delay) := by
  unfold again
  split
  · rename_i someone
    refine .waiting (List.ne_nil_of_length_pos someone) free none ⟨p.nextTimer, delay⟩ ?_ rfl
    rw [setTimeout, silent, List.nil_append]
  · rename_i nobody
    exact .idle (List.length_eq_zero_iff.mp (Nat.eq_zero_of_not_pos nobody)) free none silent

theorem again_subscribers (delay : Int) : (p.again delay).subscribers = p.subscribers := by
  unfold again
  split <;> rfl

end Poller

theorem Chain.silent_of_idle (chain : Chain p) (nobody : p.subscribers = []) : Silent p := by
  cases chain with
  | idle _ free none silent => exact ⟨by rw [free, none]; rfl, silent⟩
  | fetching busy one silent => exact ⟨by rw [busy, one]; rfl, silent⟩
  | waiting someone => exact absurd nobody someone

/-- The poller after the new listener has been added and told what is cached. -/
def greeted (p : Poller L R Err) (listener : L) : Poller L R Err :=
  { p with
    subscribers := p.subscribers ++ [listener]
    outputs := p.outputs ++ (p.cached.map fun cached => Output.onData listener cached).toList }

theorem stop_eq (p : Poller L R Err) : p.stop = { p with timers := p.stop.timers, timeoutId := p.stop.timeoutId } := by
  unfold Poller.stop
  split <;> rfl

/-- The pending timer, if any, is the one of the handle. -/
def Handled (p : Poller L R Err) : Prop := p.timers = [] ∨ ∃ timer, p.timers = [timer] ∧ p.timeoutId = some timer.id

theorem Chain.handled (chain : Chain p) : Handled p := by
  cases chain with
  | idle _ _ _ silent | fetching _ _ silent => exact .inl silent
  | waiting _ _ _ timer one handle => exact .inr ⟨timer, one, handle⟩

theorem stop_timers (handled : Handled p) : p.stop.timers = [] := by
  unfold Poller.stop
  rcases handled with silent | ⟨timer, one, handle⟩
  · split
    · rw [Poller.clearTimeout, silent, List.filter_nil]
    · exact silent
  · simp [handle, Poller.clearTimeout, one]

/-- A fetch that ends is the one in flight. -/
theorem Chain.ended (chain : Chain p) {fetch : Nat} {interval : Int} (flying : p.inFlight[fetch]? = some interval) :
    p.inFlight.eraseIdx fetch = [] ∧ p.timers = [] := by
  cases chain with
  | idle _ _ none _ | waiting _ _ none =>
    rw [none] at flying
    cases flying
  | fetching _ one silent =>
    obtain ⟨interval', only⟩ := List.length_eq_one_iff.mp one
    rw [only] at flying ⊢
    obtain ⟨within, _⟩ := List.getElem?_eq_some_iff.mp flying
    obtain rfl : fetch = 0 := Nat.lt_one_iff.mp within
    exact ⟨rfl, silent⟩

/-- A timer that fires is the one that is pending. -/
theorem Sound.fires (sound : Sound p) {timer : Nat} (pending : p.timers.any (·.id = timer)) :
    Sound ((p.clearTimeout timer).tick tab) := by
  obtain ⟨t, member, named⟩ := List.any_eq_true.mp pending
  cases sound.chain with
  | idle _ _ _ silent | fetching _ _ silent =>
    rw [silent] at member
    cases member
  | waiting someone free none timer' one _ =>
    rw [one, List.mem_singleton] at member
    have silent : (p.clearTimeout timer).timers = [] := by
      rw [Poller.clearTimeout, one, ← member]
      simpa using named
    have flagged : (p.clearTimeout timer).inFlight.length = (p.clearTimeout timer).fetching.toNat := by
      rw [Poller.clearTimeout, none, free]
      rfl
    exact ⟨Poller.tick_chain someone ⟨flagged, silent⟩, by
      rw [Poller.tick_subscribers (p := p.clearTimeout timer) someone]
      exact sound.nodup⟩

theorem Sound.succeed (sound : Sound p) {fetch : Nat} {interval : Int} (flying : p.inFlight[fetch]? = some interval)
    (fresh : OverviewData R) : Sound ({ p with inFlight := p.inFlight.eraseIdx fetch }.succeed fresh interval) := by
  obtain ⟨none, silent⟩ := sound.chain.ended flying
  refine ⟨Poller.again_chain interval rfl none silent, ?_⟩
  rw [Poller.succeed, Poller.again_subscribers]
  exact sound.nodup

theorem Sound.fail (sound : Sound p) {fetch : Nat} {interval : Int} (flying : p.inFlight[fetch]? = some interval)
    (err : Err) : Sound ({ p with inFlight := p.inFlight.eraseIdx fetch }.fail err interval) := by
  obtain ⟨none, silent⟩ := sound.chain.ended flying
  refine ⟨Poller.again_chain _ rfl none silent, ?_⟩
  rw [Poller.fail, Poller.again_subscribers]
  exact sound.nodup

variable [DecidableEq L]

theorem subscribe_eq (fresh : listener ∉ p.subscribers) :
    p.subscribe listener tab = if p.subscribers = [] then (greeted p listener).tick tab else greeted p listener := by
  have added : p.add listener = { p with subscribers := p.subscribers ++ [listener] } := by
    rw [Poller.add, if_neg fresh]
  have told : (match p.cached with
      | none => p.add listener
      | some cached => (p.add listener).emit [.onData listener cached]) = greeted p listener := by
    rw [added, greeted]
    cases p.cached with
    | none => rw [Option.map_none, Option.toList_none, List.append_nil]
    | some cached => rfl
  unfold Poller.subscribe
  dsimp only
  rw [show (p.add listener).cached = p.cached from rfl, told]
  refine if_congr ?_ rfl rfl
  rw [greeted, List.length_append, List.length_singleton, Nat.add_eq_right, List.length_eq_zero_iff]

theorem Sound.subscribe (sound : Sound p) (fresh : listener ∉ p.subscribers) : Sound (p.subscribe listener tab) := by
  have someone : (greeted p listener).subscribers ≠ [] := by simp [greeted]
  have nodup : (greeted p listener).subscribers.Nodup := by
    simpa [greeted, List.nodup_append] using ⟨sound.nodup, fun _ member same => fresh (same ▸ member)⟩
  rw [subscribe_eq fresh]
  split
  · rename_i nobody
    obtain ⟨flagged, silent⟩ := sound.chain.silent_of_idle nobody
    exact ⟨Poller.tick_chain someone ⟨flagged, silent⟩, by rwa [Poller.tick_subscribers someone]⟩
  · rename_i others
    refine ⟨?_, nodup⟩
    cases sound.chain with
    | idle nobody => exact absurd nobody others
    | fetching busy one silent => exact .fetching busy one silent
    | waiting _ free none timer one handle => exact .waiting someone free none timer one handle

theorem Sound.unsubscribe (sound : Sound p) : Sound (p.unsubscribe listener) := by
  have nodup : (p.subscribers.erase listener).Nodup := sound.nodup.erase listener
  unfold Poller.unsubscribe
  dsimp only
  split
  · rename_i nobody
    have nobody := List.length_eq_zero_iff.mp nobody
    have silent := stop_timers (p := { p with subscribers := p.subscribers.erase listener }) sound.chain.handled
    rw [stop_eq, silent]
    refine ⟨?_, nodup⟩
    cases sound.chain with
    | fetching busy one _ => exact .fetching busy one rfl
    | idle _ free none _ | waiting _ free none => exact .idle nobody free none rfl
  · rename_i others
    refine ⟨?_, nodup⟩
    cases sound.chain with
    | idle nobody => exact absurd (by rw [nobody]; rfl) others
    | fetching busy one silent => exact .fetching busy one silent
    | waiting _ free none timer one handle =>
      exact .waiting (fun nobody => others (List.length_eq_zero_iff.mpr nobody)) free none timer one handle

theorem step_sound {e : Event L R Err} (sound : Sound p) (stepped : p.step e = some p') : Sound p' := by
  have sound : Sound { p with outputs := [] } := ⟨by
    cases sound.chain with
    | idle nobody free none silent => exact .idle nobody free none silent
    | fetching busy one silent => exact .fetching busy one silent
    | waiting someone free none timer one handle => exact .waiting someone free none timer one handle, sound.nodup⟩
  cases e with
  | subscribe listener tab =>
    simp only [Poller.step] at stepped
    split at stepped
    · cases stepped
    · rename_i fresh
      cases stepped
      exact sound.subscribe fresh
  | unsubscribe listener =>
    cases stepped
    exact sound.unsubscribe
  | fires timer tab =>
    simp only [Poller.step] at stepped
    split at stepped
    · rename_i pending
      cases stepped
      exact sound.fires pending
    · cases stepped
  | succeeds fetch fresh =>
    obtain ⟨interval, flying, rfl⟩ := Option.map_eq_some_iff.mp stepped
    exact sound.succeed flying fresh
  | fails fetch err =>
    obtain ⟨interval, flying, rfl⟩ := Option.map_eq_some_iff.mp stepped
    exact sound.fail flying err

/-! ### Runs -/

/-- Who listens after an event. -/
def listening (listeners : List L) : Event L R Err → List L
  | .subscribe listener _ => listeners ++ [listener]
  | .unsubscribe listener => listeners.erase listener
  | _ => listeners

/-- Who has subscribed in the events, and not unsubscribed since. -/
def present (events : List (Event L R Err)) : List L := events.foldl listening []

def newest (data : Option (OverviewData R)) : Event L R Err → Option (OverviewData R)
  | .succeeds _ fresh => some fresh
  | _ => data

/-- The data of the last fetch that has succeeded. -/
def lastFetched (events : List (Event L R Err)) : Option (OverviewData R) := events.foldl newest none

omit [DecidableEq L] in
theorem tick_keeps (p : Poller L R Err) (tab : Tab) :
    (p.tick tab).subscribers = p.subscribers ∧ (p.tick tab).cached = p.cached := by
  by_cases nobody : p.subscribers = []
  · rw [Poller.tick, if_pos (List.length_eq_zero_iff.mpr nobody)]
    exact ⟨rfl, rfl⟩
  · rw [Poller.tick_eq nobody]
    split <;> exact ⟨rfl, rfl⟩

omit [DecidableEq L] in
theorem again_cached (delay : Int) : (p.again delay).cached = p.cached := by
  unfold Poller.again
  split <;> rfl

theorem subscribe_keeps (fresh : listener ∉ p.subscribers) :
    (p.subscribe listener tab).subscribers = p.subscribers ++ [listener] ∧
    (p.subscribe listener tab).cached = p.cached := by
  rw [subscribe_eq fresh]
  split
  · exact tick_keeps (greeted p listener) tab
  · exact ⟨rfl, rfl⟩

theorem unsubscribe_keeps :
    (p.unsubscribe listener).subscribers = p.subscribers.erase listener ∧
    (p.unsubscribe listener).cached = p.cached := by
  unfold Poller.unsubscribe
  dsimp only
  split
  · rw [stop_eq]
    exact ⟨rfl, rfl⟩
  · exact ⟨rfl, rfl⟩

theorem step_keeps {e : Event L R Err} (stepped : p.step e = some p') :
    p'.subscribers = listening p.subscribers e ∧ p'.cached = newest p.cached e := by
  cases e with
  | subscribe listener tab =>
    simp only [Poller.step] at stepped
    split at stepped
    · cases stepped
    · rename_i fresh
      cases stepped
      exact subscribe_keeps (p := { p with outputs := [] }) fresh
  | unsubscribe listener =>
    cases stepped
    exact unsubscribe_keeps (p := { p with outputs := [] })
  | fires timer tab =>
    simp only [Poller.step] at stepped
    split at stepped <;> cases stepped
    exact tick_keeps _ tab
  | succeeds fetch fresh =>
    obtain ⟨interval, _, rfl⟩ := Option.map_eq_some_iff.mp stepped
    exact ⟨Poller.again_subscribers interval, again_cached interval⟩
  | fails fetch err =>
    obtain ⟨interval, _, rfl⟩ := Option.map_eq_some_iff.mp stepped
    exact ⟨Poller.again_subscribers _, again_cached _⟩

/-- The events so far, as the poller knows them. -/
structure Kept (events : List (Event L R Err)) (p : Poller L R Err) : Prop where
  sound : Sound p
  subscribers : p.subscribers = present events
  cached : p.cached = lastFetched events

theorem Kept.step {events : List (Event L R Err)} {e : Event L R Err} (kept : Kept events p)
    (stepped : p.step e = some p') :
    Kept (events ++ [e]) p' := by
  obtain ⟨subscribers, cached⟩ := step_keeps stepped
  refine ⟨step_sound kept.sound stepped, ?_, ?_⟩
  · rw [subscribers, kept.subscribers, present, present, List.foldl_concat]
  · rw [cached, kept.cached, lastFetched, lastFetched, List.foldl_concat]

theorem kept_run {events : List (Event L R Err)} (ran : Trace.run Poller.step {} events = some p) : Kept events p :=
  Trace.run_history (P := Kept) ⟨⟨.idle rfl rfl rfl rfl, List.nodup_nil⟩, rfl, rfl⟩
    (fun _ _ _ _ _ kept stepped => kept.step stepped) ran

/-- At most one fetch or timer carries the loop on, and exactly one while anyone listens. -/
def OneChain (listeners : List L) (p : Poller L R Err) : Prop :=
  p.inFlight.length + p.timers.length ≤ 1 ∧ (listeners ≠ [] → p.inFlight.length + p.timers.length = 1)

omit [DecidableEq L] in
theorem Chain.one (chain : Chain p) : OneChain p.subscribers p := by
  cases chain with
  | idle nobody _ none silent => exact ⟨by rw [none, silent]; decide, fun someone => absurd nobody someone⟩
  | fetching _ one silent => exact ⟨by rw [one, silent]; decide, fun _ => by rw [one, silent]; rfl⟩
  | waiting _ _ none timer one _ => exact ⟨by rw [none, one]; exact Nat.le_refl 1, fun _ => by rw [none, one]; rfl⟩

/-- The data that the outputs hand to the listener. -/
def received (listener : L) (outputs : List (Output L R Err)) : List (OverviewData R) :=
  outputs.filterMap fun
    | .onData l data => if l = listener then some data else none
    | _ => none

theorem received_append (listener : L) (outputs outputs' : List (Output L R Err)) :
    received listener (outputs ++ outputs') = received listener outputs ++ received listener outputs' :=
  List.filterMap_append

theorem received_failures (listener : L) (failures : List ServiceFailure) :
    received listener (failures.map .serviceFailure : List (Output L R Err)) = [] := by
  simp [received]

theorem received_deliver (listener : L) (data : OverviewData R) {subscribers : List L} (nodup : subscribers.Nodup) :
    received listener (subscribers.map fun l => (.onData l data : Output L R Err)) =
      if listener ∈ subscribers then [data] else [] := by
  induction subscribers with
  | nil => rfl
  | cons l subscribers ih =>
    obtain ⟨apart, nodup⟩ := List.nodup_cons.mp nodup
    have rest := ih nodup
    rw [received] at rest ⊢
    rw [List.map_cons, List.filterMap_cons, rest]
    by_cases same : l = listener
    · subst same
      simp [apart]
    · simp [same, Ne.symm same]

omit [DecidableEq L] in
theorem again_outputs (delay : Int) : (p.again delay).outputs = p.outputs := by
  unfold Poller.again
  split <;> rfl

theorem succeed_received (nodup : p.subscribers.Nodup) (silent : p.outputs = []) (fresh : OverviewData R)
    (interval : Int)
    (listener : L) : received listener (p.succeed fresh interval).outputs = if listener ∈ p.subscribers then [fresh]
    else [] := by
  have outputs : (p.succeed fresh interval).outputs =
      p.outputs ++ (serviceFailures p.cached fresh).map .serviceFailure ++ p.subscribers.map fun l => .onData l fresh :=
    again_outputs interval
  rw [outputs, silent, received_append, received_deliver listener fresh nodup, List.nil_append, received_failures,
    List.nil_append]

omit [DecidableEq L] in
theorem tick_outputs (p : Poller L R Err) (tab : Tab) : ∃ more, (p.tick tab).outputs = p.outputs ++ more := by
  by_cases nobody : p.subscribers = []
  · exact ⟨[], by rw [Poller.tick, if_pos (List.length_eq_zero_iff.mpr nobody), List.append_nil]⟩
  · refine ⟨p.cachedOutputs, ?_⟩
    rw [Poller.tick_eq nobody]
    split <;> rfl

theorem subscribe_received (fresh : listener ∉ p.subscribers) (silent : p.outputs = []) {cached : OverviewData R}
    (stored : p.cached = some cached) : (received listener (p.subscribe listener tab).outputs).head? = some cached := by
  have greeting : (greeted p listener).outputs = [.onData listener cached] := by
    rw [greeted, silent, stored]
    rfl
  have first : received listener [(.onData listener cached : Output L R Err)] = [cached] := by simp [received]
  rw [subscribe_eq fresh]
  split
  · obtain ⟨more, told⟩ := tick_outputs (greeted p listener) tab
    rw [told, greeting, received_append, first]
    rfl
  · rw [greeting, first]
    rfl

/-- What is fetched gets to each listener once. -/
def Delivers (listeners : List L) (p : Poller L R Err) : Prop :=
  ∀ fetch < p.inFlight.length, ∀ fresh, ∃ p', p.step (.succeeds fetch fresh) = some p' ∧
    ∀ listener, received listener p'.outputs = if listener ∈ listeners then [fresh] else []

/-- A new listener can always subscribe, and gets at once what there is. -/
def Greets (listeners : List L) (data : Option (OverviewData R)) (p : Poller L R Err) : Prop :=
  ∀ listener ∉ listeners, ∀ tab, ∃ p', p.step (.subscribe listener tab) = some p' ∧
    ∀ cached, data = some cached → (received listener p'.outputs).head? = some cached

theorem Sound.delivers (sound : Sound p) : Delivers p.subscribers p := by
  intro fetch flying fresh
  refine ⟨_, by rw [Poller.step, List.getElem?_eq_getElem flying, Option.map_some], fun listener => ?_⟩
  exact succeed_received (p := { p with inFlight := p.inFlight.eraseIdx fetch, outputs := [] }) sound.nodup rfl fresh _
    listener

theorem greets (p : Poller L R Err) : Greets p.subscribers p.cached p := by
  intro listener fresh tab
  refine ⟨({ p with outputs := [] } : Poller L R Err).subscribe listener tab, if_neg fresh, fun cached stored => ?_⟩
  exact subscribe_received (p := { p with outputs := [] }) fresh rfl stored

/-- In every order of events one chain polls, and nobody misses or doubles what it fetches. -/
theorem one_polling_chain {events : List (Event L R Err)} (ran : Trace.run Poller.step {} events = some p) :
    OneChain (present events) p ∧ Delivers (present events) p ∧ Greets (present events) (lastFetched events) p := by
  obtain ⟨sound, subscribers, cached⟩ := kept_run ran
  rw [← subscribers, ← cached]
  exact ⟨sound.chain.one, sound.delivers, greets p⟩

end Step

/-- The first of two listeners leaves, the second gets what is fetched then, and a third what is cached. -/
theorem one_polling_chain_served :
    let fresh : OverviewData Nat := { services := none, rest := 7 }
    ∃ p p' : Poller Nat Nat Unit,
      Trace.run Poller.step {} [.subscribe 0 ⟨none, false⟩, .subscribe 1 ⟨none, true⟩, .unsubscribe 0] = some p ∧
      p.step (.succeeds 0 fresh) = some p' ∧ received 1 p'.outputs = [fresh] ∧ received 0 p'.outputs = [] ∧
      ∃ p'', p'.step (.subscribe 2 ⟨none, false⟩) = some p'' ∧ (received 2 p''.outputs).head? = some fresh := by
  intro fresh
  let events : List (Event Nat Nat Unit) := [.subscribe 0 ⟨none, false⟩, .subscribe 1 ⟨none, true⟩, .unsubscribe 0]
  obtain ⟨p, ran⟩ : ∃ p : Poller Nat Nat Unit, Trace.run Poller.step {} events = some p := ⟨_, rfl⟩
  obtain ⟨_, delivers, _⟩ := one_polling_chain ran
  have flying : 0 < p.inFlight.length := by
    cases ran
    decide
  obtain ⟨p', stepped, served⟩ := delivers 0 flying fresh
  have ran' : Trace.run Poller.step {} (events ++ [.succeeds 0 fresh]) = some p' := by
    rw [Trace.run_append, ran, Option.bind_some, Trace.run_cons, stepped]
    rfl
  obtain ⟨p'', greeted, told⟩ := (one_polling_chain ran').2.2 2 (by decide) ⟨none, false⟩
  exact ⟨p, p', ran, stepped, served 1, served 0, p'', greeted, told fresh rfl⟩

end HomelabDaemon.SharedPoller
