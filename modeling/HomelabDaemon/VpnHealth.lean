import HomelabDaemon.Vpn

/-!
# The health check

What the health ticker makes of the handshakes that happened, over what `wg` prints of them.
-/

namespace HomelabDaemon.Vpn
open Strings

/-- A peer of the interface, with the second of its latest handshake. -/
structure Peer where
  publicKey : Str
  isWord : IsWord publicKey
  latest : Option Nat
  bounded : ∀ seen ∈ latest, 0 < seen ∧ seen < 2 ^ 63

/-- A line of `wg show latest-handshakes`, where 0 stands for no handshake. -/
def Peer.line (peer : Peer) : Str :=
  peer.publicKey ++ '\t' :: (Nat.toDigits 10 (peer.latest.getD 0) ++ ['\n'])

inductive Query (cfg : Config) (host : Host) : Option (List Peer) → Prop
  | missing {error : String} (missing : host.lookPath "wg" = .error error) : Query cfg host none
  | failed {wgPath error : String} (found : host.lookPath "wg" = .ok wgPath)
      (failed : host.run (wgShow cfg wgPath) = .error error) : Query cfg host none
  | answered {wgPath : String} {peers : List Peer} (found : host.lookPath "wg" = .ok wgPath)
      (answered : host.run (wgShow cfg wgPath) = .ok (peers.flatMap Peer.line)) : Query cfg host (some peers)

/-- A health tick after some handshakes, and the peers that the query lists when it does not fail. -/
structure HealthTick (cfg : Config) where
  host : Host
  history : List Int
  listed : Option (List Peer)
  query : Query cfg host listed
  happened : ∀ peers ∈ listed, ∀ peer ∈ peers, ∀ seen ∈ peer.latest, ∃ t ∈ history, (seen : Int) = t / second

variable {cfg : Config} {m : Module}

theorem fields_line (peer : Peer) (s : Str) :
    fields (peer.line ++ s) = peer.publicKey :: Nat.toDigits 10 (peer.latest.getD 0) :: fields s := by
  have digits : IsWord (Nat.toDigits 10 (peer.latest.getD 0)) :=
    ⟨Nat.toDigits_ne_nil, fun c member => digit_solid (toDigits_digits _ c member)⟩
  have split : peer.line ++ s = peer.publicKey ++ ['\t'] ++ (Nat.toDigits 10 (peer.latest.getD 0) ++ ['\n'] ++ s) := by
    simp [Peer.line]
  rw [split, fields_word_blank peer.isWord (by decide) (by decide), fields_word_blank digits (by decide) (by decide)]

theorem fields_lines (peers : List Peer) (s : Str) :
    fields (peers.flatMap Peer.line ++ s) =
      peers.flatMap (fun peer => [peer.publicKey, Nat.toDigits 10 (peer.latest.getD 0)]) ++ fields s := by
  induction peers with
  | nil => rfl
  | cons peer peers ih =>
    rw [List.flatMap_cons, List.append_assoc, fields_line, ih]
    rfl

namespace HealthTick
variable (tick : HealthTick cfg)

/-- The handshake of the peer that is listed last. -/
def lastSeen : Option Nat := tick.listed.bind fun peers => peers.getLast?.bind Peer.latest

theorem latest_fits (peer : Peer) : peer.latest.getD 0 < 2 ^ 63 := by
  cases latest : peer.latest with
  | none => decide
  | some seen => exact (peer.bounded seen latest).2

theorem checkHandshake_listed {peers : List Peer} (listed : tick.listed = some peers) :
    checkHandshake cfg tick.host = .ok (tick.lastSeen.getD 0 : Nat) := by
  have query := tick.query
  rw [listed] at query
  cases query with
  | answered found answered =>
    have words := fields_lines peers []
    rw [List.append_nil, show fields [] = [] from rfl, List.append_nil] at words
    rw [checkHandshake, found]
    dsimp only
    rw [answered]
    dsimp only
    rw [words, lastSeen, listed]
    rcases List.eq_nil_or_concat peers with rfl | ⟨earlier, peer, rfl⟩
    · rfl
    · rw [List.concat_eq_append, List.flatMap_append, List.flatMap_singleton, if_neg (by simp),
        List.getLast?_append_of_ne_nil _ (List.cons_ne_nil _ _)]
      simp only [List.getLast?_cons_cons, List.getLast?_singleton, Option.getD_some,
        parseInt_toDigits (latest_fits peer),
        List.getLast?_append_of_ne_nil, Option.bind_some, ne_eq, List.cons_ne_self, not_false_eq_true]

theorem checkHandshake_failed (failed : tick.listed = none) : ∃ error, checkHandshake cfg tick.host = .error error := by
  have query := tick.query
  rw [failed] at query
  cases query with
  | missing missing => exact ⟨_, by rw [checkHandshake, missing]⟩
  | failed found failed =>
    rw [checkHandshake, found]
    dsimp only
    rw [failed]
    exact ⟨_, rfl⟩

theorem lastSeen_mem {seen : Nat} (last : seen ∈ tick.lastSeen) :
    ∃ peers ∈ tick.listed, ∃ peer ∈ peers, seen ∈ peer.latest := by
  obtain ⟨peers, listed, inPeers⟩ := Option.bind_eq_some_iff.mp last
  obtain ⟨peer, isLast, latest⟩ := Option.bind_eq_some_iff.mp inPeers
  exact ⟨peers, listed, peer, List.mem_of_getLast? isLast, latest⟩

theorem stale_iff : stale cfg tick.host = true ↔
    tick.listed = none ∨ ∃ seen ∈ tick.lastSeen, 3 * minute < tick.host.now - seen * second := by
  cases listed : tick.listed with
  | none =>
    obtain ⟨error, failed⟩ := tick.checkHandshake_failed listed
    rw [stale, failed]
    exact iff_of_true rfl (.inl rfl)
  | some peers =>
    rw [stale, tick.checkHandshake_listed listed]
    cases last : tick.lastSeen with
    | none => simp
    | some seen =>
      obtain ⟨_, _, peer, _, latest⟩ := tick.lastSeen_mem last
      have positive := (peer.bounded seen latest).1
      simp [positive]

end HealthTick

/-! ### Dead and fresh tunnels -/

namespace HealthTick
variable (tick : HealthTick cfg)

/-- No handshake in the last three minutes, and no setup. -/
structure Dead (m : Module) : Prop where
  silent : ∀ t ∈ tick.history, 3 * minute < tick.host.now - t
  settled : ∀ t ∈ m.setups.head?, 3 * minute < tick.host.now - t

/-- The query reports a handshake of less than three minutes ago. -/
def Fresh : Prop :=
  ∃ peers ∈ tick.listed, ∃ peer ∈ peers, ∃ seen ∈ peer.latest, tick.host.now - seen * second < 3 * minute

def event : Event := .healthTicker tick.host

/-- A dead tunnel is set up again and counted once, and a fresh one is left alone. -/
structure Watched (m : Module) : Prop where
  dead : tick.Dead m →
    (m.step cfg tick.event).setups = tick.host.now :: m.setups ∧ (m.step cfg tick.event).failures = m.failures + 1
  fresh : tick.Fresh →
    (m.step cfg tick.event).setups = m.setups ∧ (m.step cfg tick.event).failures = m.failures

/-- The last listed peer speaks for the tunnel. -/
structure LastPeerTells (m : Module) : Prop where
  dead : tick.Dead m → tick.listed = none ∨ tick.lastSeen ≠ none
  fresh : tick.Fresh → ∀ seen ∈ tick.lastSeen, tick.host.now - seen * second ≤ 3 * minute

theorem checked (enabled : cfg.enabled = true) : m.step cfg tick.event = checkHealth cfg tick.host m := by
  rw [event, Module.step, if_pos enabled]

theorem stale_silent (silent : ∀ t ∈ tick.history, 3 * minute < tick.host.now - t) :
    stale cfg tick.host = true ↔ tick.listed = none ∨ tick.lastSeen ≠ none := by
  rw [tick.stale_iff]
  refine or_congr_right ⟨?_, ?_⟩
  · rintro ⟨seen, last, _⟩ none
    rw [none] at last
    cases last
  · intro some
    obtain ⟨seen, last⟩ := Option.ne_none_iff_exists'.mp some
    obtain ⟨peers, listed, peer, member, latest⟩ := tick.lastSeen_mem last
    obtain ⟨t, happened, shown⟩ := tick.happened peers listed peer member seen latest
    refine ⟨seen, last, ?_⟩
    have old := silent t happened
    have floor : (seen : Int) * second ≤ t := by
      rw [shown]
      exact Int.ediv_mul_le t (by decide)
    omega

theorem watched_iff (enabled : cfg.enabled = true) : tick.Watched m ↔ tick.LastPeerTells m := by
  have grown : m.setups ≠ tick.host.now :: m.setups := (List.cons_ne_self _ _).symm
  by_cases isStale : stale cfg tick.host = true
  · have step : m.step cfg tick.event = setup tick.host { m with failures := m.failures + 1 } := by
      rw [tick.checked enabled, checkHealth, if_pos isStale]
    refine ⟨fun watched => ⟨fun dead => (tick.stale_silent dead.silent).mp isStale, fun fresh => ?_⟩,
      fun tells => ⟨fun _ => by rw [step]; exact ⟨rfl, rfl⟩, fun fresh => ?_⟩⟩
    · have kept := (watched.fresh fresh).1
      rw [step] at kept
      exact absurd kept.symm grown
    · rcases tick.stale_iff.mp isStale with failed | ⟨seen, last, old⟩
      · obtain ⟨peers, listed, _⟩ := fresh
        rw [failed] at listed
        cases listed
      · have young := tells.fresh fresh seen last
        omega
  · have step : m.step cfg tick.event = m := by
      rw [tick.checked enabled, checkHealth, if_neg isStale]
    refine ⟨fun watched => ⟨fun dead => ?_, fun _ seen last => ?_⟩,
      fun tells => ⟨fun dead => absurd ((tick.stale_silent dead.silent).mpr (tells.dead dead)) isStale,
        fun _ => by rw [step]; exact ⟨rfl, rfl⟩⟩⟩
    · have again := (watched.dead dead).1
      rw [step] at again
      exact absurd again grown
    · by_contra old
      exact isStale (tick.stale_iff.mpr (.inr ⟨seen, last, by omega⟩))

/-- The tunnel's own peer alone never makes a fresh tunnel look dead. -/
theorem fresh_of_one_peer (one : ∀ peers ∈ tick.listed, peers.length ≤ 1) (fresh : tick.Fresh) :
    ∀ seen ∈ tick.lastSeen, tick.host.now - seen * second ≤ 3 * minute := by
  obtain ⟨peers, listed, peer, member, seen, latest, young⟩ := fresh
  intro seen' last
  obtain ⟨peers', listed', peer', member', latest'⟩ := tick.lastSeen_mem last
  obtain rfl := Option.some.inj (listed.symm.trans listed')
  obtain ⟨only, rfl⟩ : ∃ only, peers = [only] := by
    refine List.length_eq_one_iff.mp (Nat.le_antisymm (one peers listed) ?_)
    exact List.length_pos_of_mem member
  obtain rfl := List.mem_singleton.mp member
  obtain rfl := List.mem_singleton.mp member'
  obtain rfl := Option.some.inj (latest.symm.trans latest')
  omega

end HealthTick

/-- In every run, the check watches the tunnel at every health tick exactly when the last listed peer tells it. -/
theorem health_watched_iff (cfg : Config) (content : Option Str) (events : List Event) :
    (∀ before (tick : HealthTick cfg), cfg.enabled = true → before ++ [tick.event] <+: events →
        tick.Watched (run cfg content before)) ↔
      ∀ before (tick : HealthTick cfg), cfg.enabled = true → before ++ [tick.event] <+: events →
        tick.LastPeerTells (run cfg content before) :=
  forall_congr' fun _ => forall_congr' fun tick => forall_congr' fun enabled => imp_congr_right fun _ =>
    tick.watched_iff enabled

namespace Demo

def tunnel : Config :=
  { netnsName := "vpn", interface := "wg0", dns := "10.2.0.1", provider := "protonvpn", type := "wireguard",
    serverCountry := "CH", portFile := "" }

/-- A host on which `wg` knows the peer, and no other command succeeds. -/
def silentHost (now : Int) : Host where
  now
  run argv := if "wg0" ∈ argv then .ok "PUB=\t0\n".toList else .error "exit status 1"
  lookPath _ := .ok "/run/current-system/sw/bin/wg"
  publishes _ := .ok ()
  format _ := []

def silentPeer : Peer where
  publicKey := "PUB=".toList
  isWord := by decide
  latest := none
  bounded _ none := by cases none

def silentTick : HealthTick tunnel where
  host := silentHost (600 * second)
  history := []
  listed := some [silentPeer]
  query := .answered rfl (by decide)
  happened := by
    rintro _ ⟨⟩ _ member _ seen
    obtain rfl := List.mem_singleton.mp member
    cases seen

end Demo

theorem tunnel_without_handshake_is_left : ¬ ∀ cfg content events before (tick : HealthTick cfg), cfg.enabled = true →
    before ++ [tick.event] <+: events → tick.Watched (run cfg content before) := by
  intro watched
  let started : Event := .started (Demo.silentHost 0)
  have tick := watched Demo.tunnel none [started, Demo.silentTick.event] [started] Demo.silentTick rfl
    (List.prefix_refl _)
  have tells := (Demo.silentTick.watched_iff rfl).mp tick
  rcases tells.dead ⟨(fun _ none => nomatch none), by rintro _ ⟨⟩; decide⟩ with failed | seen
  · cases failed
  · exact seen rfl

end HomelabDaemon.Vpn
