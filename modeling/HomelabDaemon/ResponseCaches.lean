import HomelabDaemon.Concurrency.Ttl
import HomelabDaemon.DiskRates
import HomelabDaemon.Json.Compact
import HomelabDaemon.Json.Fields

/-!
# Cached responses

How old the responses are that the daemon answers from its two caches, of the storage and of the sessions of pi. Between
the look at the cache and the store other requests are served.
-/

namespace HomelabDaemon.DiskRates
open Concurrency

def storageCell : Ttl.Cell Snapshot (Option CacheEntry) where
  ttl := storageCacheTTL
  empty := none
  fresh cached now := (cached.filter fun entry => decide (now < entry.deadline)).map (·.response)
  fill response stored := some { response, deadline := stored + storageCacheTTL }
  fresh_fill response stored now := by
    rw [Option.filter_some]
    split <;> simp_all

theorem Daemon.fresh_eq (d : Daemon) (now : Int) : d.fresh now = storageCell.fresh d.storageCache now := rfl

/-- The daemon's clock, where the event reads it. -/
def Event.clock : Event → Option Int
  | .request _ now | .takes _ now _ _ | .stores _ now => some now
  | .fails _ | .receives _ _ => none

def Clocked (events : List Event) : Prop := (events.filterMap Event.clock).Pairwise (· ≤ ·)

/-- No handler waits longer than this from its snapshot to the store. -/
def Prompt (wait : Int) (events : List Event) : Prop :=
  ∀ before id now w s, before ++ [.stores id now] <+: events → Trace.run World.step {} before = some w →
    w.daemon.handlers id = some (.holds s) → now ≤ s.takenAt + wait

/-- The stores of the events so far, the newest first. -/
structure Kept (before : List Event) (w : World) (stores : List (Ttl.Store Snapshot)) : Prop where
  sound : Sound w
  cache : w.daemon.storageCache = storageCell.after stores
  listed : ∀ t, (∃ id, Event.stores id t ∈ before) ↔ ∃ store ∈ stores, store.stored = t
  known : ∀ store ∈ stores, store.value ∈ w.daemon.taken ∧ store.taken = store.value.takenAt
  ordered : Clocked before → Ttl.Ordered stores
  prompt : ∀ wait, Prompt wait before → ∀ store ∈ stores, store.stored ≤ store.taken + wait

variable {w w' : World} {e : Event} {before events : List Event} {stores : List (Ttl.Store Snapshot)} {s : Snapshot}

theorem Clocked.earlier (clocked : Clocked (before ++ events)) : Clocked before := by
  rw [Clocked, List.filterMap_append] at clocked
  exact (List.pairwise_append.mp clocked).1

theorem Clocked.last {id : Nat} {t u : Int} (clocked : Clocked (before ++ [.stores id u])) {id' : Nat}
    (earlier : Event.stores id' t ∈ before) : t ≤ u := by
  rw [Clocked, List.filterMap_append] at clocked
  refine (List.pairwise_append.mp clocked).2.2 t ?_ u (by simp [Event.clock])
  exact List.mem_filterMap.mpr ⟨_, earlier, rfl⟩

theorem Prompt.earlier {wait : Int} (prompt : Prompt wait (before ++ events)) : Prompt wait before :=
  fun before' id now w s start => prompt before' id now w s (start.trans (List.prefix_append _ _))

/-- A step that stores nothing. -/
theorem Kept.other (kept : Kept before w stores) (sound : Sound w')
    (same : w'.daemon.storageCache = w.daemon.storageCache)
    (more : ∀ s ∈ w.daemon.taken, s ∈ w'.daemon.taken) (other : ∀ id t, e ≠ .stores id t) :
    Kept (before ++ [e]) w' stores where
  sound := sound
  cache := same.trans kept.cache
  listed t := by
    rw [← kept.listed t]
    refine exists_congr fun id => ?_
    rw [List.mem_append, List.mem_singleton]
    exact or_iff_left fun equal => other id t equal.symm
  known store member := ⟨more _ (kept.known store member).1, (kept.known store member).2⟩
  ordered clocked := kept.ordered clocked.earlier
  prompt wait prompt := kept.prompt wait prompt.earlier

theorem Kept.store (kept : Kept before w stores) (ran : Trace.run World.step {} before = some w) {id : Nat} {now : Int}
    (held : w.daemon.handlers id = some (.holds s)) :
    Kept (before ++ [.stores id now]) { w with daemon := w.daemon.store id s now }
    ({ value := s, taken := s.takenAt, stored := now } :: stores) where
  sound := ⟨kept.sound.daemon.store held now, kept.sound.page⟩
  cache := rfl
  listed t := by
    simp only [List.mem_append, List.mem_singleton, Event.stores.injEq, exists_or, kept.listed t,
      List.exists_mem_cons_iff]
    rw [or_comm]
    refine or_congr_left ⟨?_, fun same => ⟨id, rfl, same.symm⟩⟩
    rintro ⟨_, _, same⟩
    exact same.symm
  known store member := by
    rcases List.mem_cons.mp member with rfl | older
    · exact ⟨List.mem_of_getElem? (kept.sound.daemon.holds id s held), rfl⟩
    · exact kept.known store older
  ordered clocked := by
    refine (kept.ordered clocked.earlier).cons fun older member => ?_
    obtain ⟨id', earlier⟩ := (kept.listed older.stored).mpr ⟨older, member, rfl⟩
    exact clocked.last earlier
  prompt wait prompt store member := by
    rcases List.mem_cons.mp member with rfl | older
    · exact prompt before id now w s List.prefix_rfl ran held
    · exact kept.prompt wait prompt.earlier store older

theorem kept_step (kept : Kept before w stores) (ran : Trace.run World.step {} before = some w)
    (stepped : w.step e = some w') :
    ∃ stores', Kept (before ++ [e]) w' stores' := by
  have sound := step_sound kept.sound stepped
  cases e with
  | request id now =>
    simp only [World.step] at stepped
    split at stepped <;> cases stepped
    refine ⟨stores, kept.other sound ?_ (fun s member => ?_) (by simp)⟩
    · dsimp only [Daemon.request]
      split <;> rfl
    · dsimp only [Daemon.request]
      split <;> exact member
  | takes id now pools diskstats =>
    simp only [World.step] at stepped
    split at stepped <;> cases stepped
    exact ⟨stores, kept.other sound rfl (fun s member => List.mem_append_left _ member) (by simp)⟩
  | stores id now =>
    simp only [World.step] at stepped
    split at stepped <;> cases stepped
    exact ⟨_, kept.store ran ‹_›⟩
  | fails id =>
    obtain ⟨_, _, rfl⟩ := Option.map_eq_some_iff.mp stepped
    exact ⟨stores, kept.other sound rfl (fun s member => member) (by simp)⟩
  | receives id now =>
    obtain ⟨response, _, rfl⟩ := Option.map_eq_some_iff.mp stepped
    exact ⟨stores, kept.other sound rfl (fun s member => member) (by simp)⟩

theorem kept_run (ran : Trace.run World.step {} events = some w) : ∃ stores, Kept events w stores := by
  refine Trace.run_history (P := fun before w => ∃ stores, Kept before w stores) ⟨[], ?_⟩ ?_ ran
  · exact ⟨sound_new, rfl, by simp, by simp, fun _ => List.Pairwise.nil, by simp⟩
  · rintro before t e t' ranBefore ⟨stores, kept⟩ stepped
    exact kept_step kept ranBefore stepped

/-- No response was stored in the last ten seconds. -/
def Expired (events : List Event) (now : Int) : Prop := ∀ id t, .stores id t ∈ events → t + storageCacheTTL ≤ now

theorem Kept.fresh_eq_none_iff (kept : Kept events w stores) (clocked : Clocked events) {now : Int} :
    w.daemon.fresh now = none ↔ Expired events now := by
  rw [Daemon.fresh_eq, kept.cache, Ttl.fresh_eq_none_iff rfl (kept.ordered clocked)]
  constructor
  · intro old id t member
    obtain ⟨store, there, rfl⟩ := (kept.listed t).mp ⟨id, member⟩
    exact old store there
  · intro old store there
    obtain ⟨id, member⟩ := (kept.listed store.stored).mpr ⟨store, there, rfl⟩
    exact old id store.stored member

theorem Kept.fresh_taken (kept : Kept events w stores) {now : Int} (found : w.daemon.fresh now = some s) :
    s ∈ w.daemon.taken ∧ ∀ wait, Prompt wait events → now < s.takenAt + wait + storageCacheTTL := by
  rw [Daemon.fresh_eq, kept.cache] at found
  refine ⟨?_, fun wait prompt => ?_⟩
  · obtain ⟨store, older, rfl, rfl, _⟩ := (Ttl.fresh_eq_some_iff rfl).mp found
    exact (kept.known store List.mem_cons_self).1
  · obtain ⟨store, there, rfl, young⟩ := Ttl.taken_of_fresh rfl (kept.prompt wait prompt) found
    exact (kept.known store there).2 ▸ young

theorem request_step {id : Nat} {now : Int} (requested : w.step (.request id now) = some w') :
    w.daemon.handlers id = none ∧ w.daemon.responses id = none ∧ w' = { w with daemon := w.daemon.request id now } := by
  simp only [World.step] at requested
  split at requested <;> cases requested
  rename_i new
  exact ⟨Option.isNone_iff_eq_none.mp new.1, Option.isNone_iff_eq_none.mp new.2, rfl⟩

/-- In every run a request reads the disks exactly when nothing has been stored for ten seconds; else it is answered
at once, by a snapshot younger than these and the longest wait before a store. -/
theorem storage_cache {id : Nat} {now : Int} (ran : Trace.run World.step {} events = some w)
    (clocked : Clocked (events ++ [.request id now])) (requested : w.step (.request id now) = some w') :
    (Expired events now → w'.daemon.handlers id = some .discovering ∧ w'.daemon.responses id = none) ∧
    (¬ Expired events now → w'.daemon.handlers id = none ∧ ∃ s ∈ w.daemon.taken, w'.daemon.responses id = some s ∧
      ∀ wait, Prompt wait events → now < s.takenAt + wait + storageCacheTTL) := by
  obtain ⟨stores, kept⟩ := kept_run ran
  obtain ⟨idle, unanswered, rfl⟩ := request_step requested
  have expires : w.daemon.fresh now = none ↔ Expired events now := kept.fresh_eq_none_iff clocked.earlier
  constructor
  · intro expired
    simp only [Daemon.request, expires.mpr expired, Function.update_self]
    exact ⟨trivial, unanswered⟩
  · intro stored
    cases found : w.daemon.fresh now with
    | none => exact absurd (expires.mp found) stored
    | some s =>
      obtain ⟨member, young⟩ := kept.fresh_taken found
      simp only [Daemon.request, found, Function.update_self]
      exact ⟨idle, s, member, rfl, young⟩

/-- Seven seconds after a store the cache answers. -/
theorem storage_cache_hit : ∃ w w', Trace.run World.step {} [.request 0 0, .takes 0 100 [] (.ok []), .stores 0 2000] =
    some w ∧
    w.step (.request 1 9000) = some w' ∧ ∃ s, w'.daemon.responses 1 = some s ∧
    9000 < s.takenAt + 1900 + storageCacheTTL := by
  obtain ⟨w, ran⟩ : ∃ w, Trace.run World.step {} [.request 0 0, .takes 0 100 [] (.ok []), .stores 0 2000] = some w :=
    ⟨_, rfl⟩
  have requested : w.step (.request 1 9000) = some { w with daemon := w.daemon.request 1 9000 } := by
    cases ran
    rfl
  have clocked : Clocked ([.request 0 0, .takes 0 100 [] (.ok []), .stores 0 2000] ++ [.request 1 9000]) := by
    unfold Clocked
    decide
  have stored : ¬ Expired [.request 0 0, .takes 0 100 [] (.ok []), .stores 0 2000] 9000 := by
    intro expired
    exact absurd (expired 0 2000 (by simp)) (by decide)
  have prompt : Prompt 1900 [.request 0 0, .takes 0 100 [] (.ok []), .stores 0 2000] := by
    rintro before id now w s ⟨rest, split⟩ ran held
    rcases before with _ | ⟨_, _ | ⟨_, _ | ⟨_, before⟩⟩⟩ <;> simp at split
    obtain ⟨rfl, rfl, ⟨rfl, rfl⟩, rfl⟩ := split
    cases ran
    cases held
    decide
  obtain ⟨_, s, _, answered, young⟩ := (storage_cache ran clocked requested).2 stored
  exact ⟨w, _, ran, requested, s, answered, young 1900 prompt⟩

end HomelabDaemon.DiskRates

namespace HomelabDaemon.PiStreaming
open Concurrency Json

/-! ### The sessions of pi -/

structure Cache where
  json : List Char := []
  deadline : Int := 0

def cacheTTL : Int := 20 * 1000

/-- The response to a count of active sessions. -/
def raw (activeSessions : Int64) : List Char := compact <| .object [
  ("activeSessions", encodeInt activeSessions),
  ("streaming", .bool (0 < activeSessions))]

/-- A handler that has got sessiond's reply keeps the time. -/
inductive Handler where
  | copied (cached : Cache)
  | asking
  | holds (activeSessions : Int64) (replied : Int)

inductive Response where
  | health (json : List Char)
  | error (message : List Char)

/-- Times count from the zero time, which is the deadline of the empty cache. -/
structure Server where
  cache : Cache := {}
  handlers : Nat → Option Handler := fun _ => none
  /-- The replies of sessiond, the newest first. -/
  replies : List (Int64 × Int) := []
  /-- The responses, the newest first. -/
  sent : List (Response × Int) := []

inductive Event where
  | copies (id : Nat)
  | checks (id : Nat) (now : Int)
  | asks (id : Nat) (now : Int) (reply : Except (List Char) Int64)
  | stores (id : Nat) (now : Int)

def Server.step (s : Server) : Event → Option Server
  | .copies id =>
    if (s.handlers id).isNone then some { s with handlers := Function.update s.handlers id (some (.copied s.cache)) }
    else none
  | .checks id now => match s.handlers id with
    | some (.copied cached) =>
      if now < cached.deadline then
        some { s with handlers := Function.update s.handlers id none, sent := (.health cached.json, now) :: s.sent }
      else some { s with handlers := Function.update s.handlers id (some .asking) }
    | _ => none
  | .asks id now reply => match s.handlers id with
    | some .asking => match reply with
      | .error message =>
        some { s with handlers := Function.update s.handlers id none, sent := (.error message, now) :: s.sent }
      | .ok activeSessions =>
        some { s with
          handlers := Function.update s.handlers id (some (.holds activeSessions now))
          replies := (activeSessions, now) :: s.replies }
    | _ => none
  | .stores id now => match s.handlers id with
    | some (.holds activeSessions _) =>
      some { s with
        cache := { json := raw activeSessions, deadline := now + cacheTTL }
        handlers := Function.update s.handlers id none
        sent := (.health (raw activeSessions), now) :: s.sent }
    | _ => none

def cell : Ttl.Cell (List Char) Cache where
  ttl := cacheTTL
  empty := {}
  fresh cached now := if now < cached.deadline then some cached.json else none
  fill json stored := { json, deadline := stored + cacheTTL }
  fresh_fill _ _ _ := rfl

/-- The steps that check the cache do so after the zero time, and none stores a reply later than this. -/
def Meets (wait : Int) (s : Server) : Event → Prop
  | .checks _ now => 0 ≤ now
  | .stores id now => ∀ activeSessions replied, s.handlers id = some (.holds activeSessions replied) →
    now ≤ replied + wait
  | _ => True

/-- What stores of replies that sessiond has given can have left. -/
def Left (wait : Int) (replies : List (Int64 × Int)) (cached : Cache) : Prop :=
  ∃ stores, cached = cell.after stores ∧ ∀ store ∈ stores, store.stored ≤ store.taken + wait ∧
    ∃ activeSessions, (activeSessions, store.taken) ∈ replies ∧ store.value = raw activeSessions

/-- A response of a reply that is not too old. -/
def Young (wait : Int) (replies : List (Int64 × Int)) (json : List Char) (now : Int) : Prop :=
  ∃ activeSessions replied, (activeSessions, replied) ∈ replies ∧ json = raw activeSessions ∧
    now < replied + wait + cacheTTL

structure Sound (wait : Int) (s : Server) : Prop where
  cache : Left wait s.replies s.cache
  copied : ∀ id cached, s.handlers id = some (.copied cached) → Left wait s.replies cached
  holds : ∀ id activeSessions replied, s.handlers id = some (.holds activeSessions replied) →
    (activeSessions, replied) ∈ s.replies
  sent : ∀ json now, (.health json, now) ∈ s.sent → Young wait s.replies json now

variable {wait now : Int} {s s' : Server} {e : Event} {events : List Event} {replies : List (Int64 × Int)}
  {reply : Int64 × Int}
  {cached : Cache} {json : List Char}

theorem Left.cons (left : Left wait replies cached) : Left wait (reply :: replies) cached := by
  obtain ⟨stores, same, given⟩ := left
  refine ⟨stores, same, fun store member => ⟨(given store member).1, ?_⟩⟩
  obtain ⟨activeSessions, replied, value⟩ := (given store member).2
  exact ⟨activeSessions, List.mem_cons_of_mem _ replied, value⟩

theorem Young.cons (young : Young wait replies json now) : Young wait (reply :: replies) json now := by
  obtain ⟨activeSessions, replied, given, same, soon⟩ := young
  exact ⟨activeSessions, replied, List.mem_cons_of_mem _ given, same, soon⟩

theorem Left.young (left : Left wait replies cached) (started : 0 ≤ now) (good : now < cached.deadline) :
    Young wait replies cached.json now := by
  obtain ⟨stores, rfl, given⟩ := left
  have void : cell.fresh cell.empty now = none := if_neg (by simpa [cell] using started)
  have found : cell.fresh (cell.after stores) now = some (cell.after stores).json := if_pos good
  obtain ⟨store, member, same, young⟩ := Ttl.taken_of_fresh void (fun store member => (given store member).1) found
  obtain ⟨activeSessions, replied, value⟩ := (given store member).2
  exact ⟨activeSessions, store.taken, replied, same.symm.trans value, young⟩

theorem handler_update {handlers : Nat → Option Handler} {id id' : Nat} {h : Option Handler} {h' : Handler}
    (there : Function.update handlers id h id' = some h') : h = some h' ∨ handlers id' = some h' :=
    DiskRates.update_some there

/-- The handler ends with a response. -/
theorem Sound.send (sound : Sound wait s) (id : Nat) {response : Response}
    (young : ∀ json, response = .health json → Young wait s.replies json now) :
    Sound wait { s with handlers := Function.update s.handlers id none, sent := (response, now) :: s.sent } where
  cache := sound.cache
  copied id' cached there := by
    rcases handler_update there with no | there
    · cases no
    · exact sound.copied id' cached there
  holds id' activeSessions replied there := by
    rcases handler_update there with no | there
    · cases no
    · exact sound.holds id' activeSessions replied there
  sent json now' member := by
    rcases List.mem_cons.mp member with same | older
    · cases same
      exact young json rfl
    · exact sound.sent json now' older

theorem sound_step (sound : Sound wait s) (meets : Meets wait s e) (stepped : s.step e = some s') : Sound wait s' := by
  cases e with
  | copies id =>
    simp only [Server.step] at stepped
    split at stepped <;> cases stepped
    refine ⟨sound.cache, fun id' cached there => ?_, fun id' _ _ there => ?_, sound.sent⟩
    · rcases handler_update there with new | there
      · cases new
        exact sound.cache
      · exact sound.copied id' cached there
    · rcases handler_update there with no | there
      · cases no
      · exact sound.holds id' _ _ there
  | checks id now =>
    simp only [Server.step] at stepped
    split at stepped
    · rename_i cached held
      split at stepped <;> cases stepped
      · refine sound.send id fun json same => ?_
        cases same
        exact (sound.copied id cached held).young meets ‹_›
      · refine ⟨sound.cache, fun id' cached there => ?_, fun id' _ _ there => ?_, sound.sent⟩
        all_goals
          rcases handler_update there with no | there
          · cases no
        · exact sound.copied id' cached there
        · exact sound.holds id' _ _ there
    · cases stepped
  | asks id now reply =>
    simp only [Server.step] at stepped
    split at stepped
    · cases reply with
      | error message =>
        cases stepped
        exact sound.send id fun json same => by cases same
      | ok activeSessions =>
        cases stepped
        refine ⟨sound.cache.cons, fun id' cached there => ?_, fun id' _ _ there => ?_, fun json now member => ?_⟩
        · rcases handler_update there with no | there
          · cases no
          · exact (sound.copied id' cached there).cons
        · rcases handler_update there with new | there
          · cases new
            exact List.mem_cons_self
          · exact List.mem_cons_of_mem _ (sound.holds id' _ _ there)
        · exact (sound.sent json now member).cons
    · cases stepped
  | stores id now =>
    simp only [Server.step] at stepped
    split at stepped
    · rename_i activeSessions replied held
      cases stepped
      have given := sound.holds id activeSessions replied held
      have prompt := meets activeSessions replied held
      have ended : Sound wait ({ s with
          handlers := Function.update s.handlers id none, sent := (.health (raw activeSessions), now) ::
            s.sent } : Server) :=
          sound.send id fun json same => by
        cases same
        exact ⟨activeSessions, replied, given, rfl, by unfold cacheTTL; omega⟩
      refine ⟨⟨[{ value := raw activeSessions, taken := replied, stored := now }], rfl, fun store member => ?_⟩,
        ended.copied, ended.holds, ended.sent⟩
      obtain rfl := List.mem_singleton.mp member
      exact ⟨prompt, activeSessions, given, rfl⟩
    · cases stepped

theorem sound_new : Sound wait {} := by
  refine ⟨⟨[], rfl, fun _ member => absurd member List.not_mem_nil⟩, fun _ _ there => ?_, fun _ _ _ there => ?_,
    fun _ _ member => absurd member List.not_mem_nil⟩
  all_goals cases there

/-- In every run each response is of a reply that sessiond has given less than twenty seconds and the longest wait
before a store ago, also when the cache changes between a handler's copy and its check. -/
theorem sent_young (ran : Trace.run Server.step {} events = some s)
    (meets : Trace.Each Server.step (Meets wait) {} events)
    (sent : (.health json, now) ∈ s.sent) : Young wait s.replies json now :=
  (Trace.run_of_each (fun _ _ _ => sound_step) sound_new meets ran).sent json now sent

/-- The second handler copies the cache that the first has filled. -/
theorem sent_young_cached : Young 10 [(2, 6)] (raw 2) 9000 := by
  have ran : Trace.run Server.step {} [.copies 0, .checks 0 5, .asks 0 6 (.ok 2), .stores 0 10, .copies 1,
    .checks 1 9000] = some _ := rfl
  refine sent_young ran ?_ List.mem_cons_self
  simp [Trace.Each, Meets, Server.step, cacheTTL]

end HomelabDaemon.PiStreaming
