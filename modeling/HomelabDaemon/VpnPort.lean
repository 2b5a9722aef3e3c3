import HomelabDaemon.Concurrency.Trace
import HomelabDaemon.Vpn

/-!
# The forwarded port

When the port file is replaced along a run, and what a reported port says about the mappings and the file.
-/

namespace HomelabDaemon.Vpn
open Concurrency Strings

variable {cfg : Config} {host : Host} {file : PortFile} {m : Module} {e : Event} {p : Int}

def Host.Publishes (host : Host) : Prop := ∀ call, host.publishes call = .ok ()

/-- Both requests are answered, and some answer has the port, the second before the first. -/
def Maps (cfg : Config) (host : Host) (p : Int) : Prop :=
  mapPorts cfg host 0 ["udp", "tcp"] = .ok p ∧ p ≠ 0

def Event.ticks (cfg : Config) : Event → Option Host
  | .started host | .reconnect host | .portTicker host => if cfg.enabled then some host else none
  | .healthTicker _ => none

theorem Maps.unique {q : Int} (maps : Maps cfg host p) (maps' : Maps cfg host q) : p = q :=
  Except.ok.inj (maps.1.symm.trans maps'.1)

theorem publishCalls_ok (host : Host) (calls : List PublishCall) :
    publishCalls host calls = .ok () ↔ ∀ call ∈ calls, host.publishes call = .ok () := by
  induction calls with
  | nil => simp [publishCalls]
  | cons call rest ih =>
    rw [publishCalls, List.forall_mem_cons, ← ih]
    split
    · rename_i error failed
      simp [failed]
    · rename_i done
      simp [done]

theorem publishPort_published (publishes : host.Publishes) :
    (publishPort host p file).1 = { content := some (itoa p), replaced := file.replaced + 1 } := by
  have done := (publishCalls_ok host [.mkdirAll, .createTemp, .writeString, .close, .rename]).mpr
    fun call _ => publishes call
  rw [publishPort, done]

theorem publishPort_failed (fails : ¬ host.Publishes) : (publishPort host p file).1 = file := by
  rw [publishPort]
  split
  · rfl
  · rename_i done
    refine absurd (fun call => ?_) fails
    exact (publishCalls_ok host _).mp done call (by cases call <;> decide)

theorem publishPort_replaced : (publishPort host p file).1.replaced ≠ file.replaced ↔ host.Publishes := by
  by_cases publishes : host.Publishes
  · rw [publishPort_published publishes]
    exact iff_of_true (Nat.succ_ne_self _) publishes
  · rw [publishPort_failed publishes]
    exact iff_of_false (fun changed => changed rfl) publishes

theorem publishPort_content :
    (publishPort host p file).1.content = some (itoa p) ↔ host.Publishes ∨ file.content = some (itoa p) := by
  by_cases publishes : host.Publishes
  · rw [publishPort_published publishes]
    exact iff_of_true rfl (.inl publishes)
  · rw [publishPort_failed publishes]
    exact ⟨.inr, fun held => held.resolve_left publishes⟩

theorem refreshPort_mapped (maps : Maps cfg host p) :
    refreshPort cfg host file = (if cfg.portFile ≠ "" then (publishPort host p file).1 else file, .ok p) := by
  rw [refreshPort, maps.1]
  exact if_neg maps.2

theorem refreshPort_unmapped (unmapped : ¬ ∃ p, Maps cfg host p) :
    (refreshPort cfg host file).1 = file ∧ ∃ error, (refreshPort cfg host file).2 = .error error := by
  rw [refreshPort]
  split
  · exact ⟨rfl, _, rfl⟩
  · rename_i p mapped
    split
    · exact ⟨rfl, _, rfl⟩
    · rename_i nonzero
      exact absurd ⟨p, mapped, nonzero⟩ unmapped

theorem withPublicIP_port (s : Status) (answer : Except String Str) :
    (withPublicIP s answer).connected = s.connected ∧ (withPublicIP s answer).forwardedPort = s.forwardedPort := by
  cases answer <;> exact ⟨rfl, rfl⟩

theorem withHandshake_port (s : Status) (answer : Except String Int) :
    (withHandshake host s answer).connected = s.connected ∧
    (withHandshake host s answer).forwardedPort = s.forwardedPort := by
  cases answer with
  | error => exact ⟨rfl, rfl⟩
  | ok ts =>
    rw [withHandshake]
    split <;> exact ⟨rfl, rfl⟩

theorem report_port (t : Tick) : (report cfg t m).status.connected = (withPort {} t.port).connected ∧
    (report cfg t m).status.forwardedPort = (withPort {} t.port).forwardedPort := by
  obtain ⟨connected, forwarded⟩ := @withHandshake_port t.host
    (withPublicIP (withPort { seededStatus cfg with enabled := true } t.port) (t.host.run (curl cfg)))
    (checkHandshake cfg t.host)
  obtain ⟨connected', forwarded'⟩ := withPublicIP_port
    (withPort { seededStatus cfg with enabled := true } t.port) (t.host.run (curl cfg))
  refine ⟨connected.trans (connected'.trans ?_), forwarded.trans (forwarded'.trans ?_)⟩
  · cases t.port <;> rfl
  · cases t.port <;> rfl

theorem step_ticks (ticks : e.ticks cfg = some host) : (m.step cfg e).file = (refreshPort cfg host m.file).1 := by
  cases e with
  | healthTicker host' => cases ticks
  | started host' | reconnect host' | portTicker host' =>
    simp only [Event.ticks] at ticks
    split at ticks
    · rename_i enabled
      obtain rfl := Option.some.inj ticks
      rw [Module.step, if_pos enabled]
      rfl
    · cases ticks

theorem step_rest (ticks : e.ticks cfg = none) :
    (m.step cfg e).file = m.file ∧ (m.step cfg e).status = m.status ∧ (m.step cfg e).produced = m.produced := by
  unfold Module.step
  split
  · rename_i enabled
    cases e with
    | healthTicker host =>
      dsimp only
      rw [checkHealth]
      split <;> exact ⟨rfl, rfl, rfl⟩
    | started host | reconnect host | portTicker host =>
      simp only [Event.ticks, if_pos enabled] at ticks
      cases ticks
  · exact ⟨rfl, rfl, rfl⟩

/-! ### The file changes with the port -/

/-- The step replaces the file when it maps another port than the file has, and at no other time. -/
def ReplacedOnChange (cfg : Config) (m : Module) (e : Event) : Prop :=
  cfg.portFile ≠ "" →
    ((m.step cfg e).file.replaced ≠ m.file.replaced ↔
      ∃ host p, e.ticks cfg = some host ∧ Maps cfg host p ∧ m.file.content ≠ some (itoa p))

/-- A port that the step maps is another one and published, or the same and not published. -/
def PublishesChanges (cfg : Config) (m : Module) (e : Event) : Prop :=
  cfg.portFile ≠ "" → ∀ host p, e.ticks cfg = some host → Maps cfg host p →
    (host.Publishes ↔ m.file.content ≠ some (itoa p))

theorem changes_iff (maps : Maps cfg host p) :
    (∃ host' q, some host = some host' ∧ Maps cfg host' q ∧ file.content ≠ some (itoa q)) ↔
    file.content ≠ some (itoa p) := by
  refine ⟨?_, fun other => ⟨host, p, rfl, maps, other⟩⟩
  rintro ⟨_, q, ⟨⟩, maps', other⟩
  rwa [maps.unique maps']

theorem replacedOnChange_iff : ReplacedOnChange cfg m e ↔ PublishesChanges cfg m e := by
  refine forall_congr' fun configured => ?_
  cases ticks : e.ticks cfg with
  | none =>
    rw [(step_rest ticks).1]
    simp
  | some host =>
    rw [step_ticks ticks]
    by_cases mapped : ∃ p, Maps cfg host p
    · obtain ⟨p, maps⟩ := mapped
      rw [refreshPort_mapped maps, if_pos configured, publishPort_replaced, changes_iff maps]
      refine ⟨?_, fun published => published host p rfl maps⟩
      rintro changes _ q ⟨⟩ maps'
      rwa [← maps.unique maps']
    · rw [(refreshPort_unmapped mapped).1]
      refine iff_of_true ?_ ?_
      · refine iff_of_false (fun changed => changed rfl) ?_
        rintro ⟨_, q, ⟨⟩, maps, _⟩
        exact mapped ⟨q, maps⟩
      · rintro _ q ⟨⟩ maps
        exact absurd ⟨q, maps⟩ mapped

/-- In a run, the port file is replaced exactly by the steps that map another port than the last. -/
theorem portFile_replaced_iff (cfg : Config) (content : Option Str) (events : List Event) :
    (∀ before e, before ++ [e] <+: events → ReplacedOnChange cfg (run cfg content before) e) ↔
      ∀ before e, before ++ [e] <+: events → PublishesChanges cfg (run cfg content before) e :=
  forall_congr' fun _ => forall_congr' fun _ => imp_congr_right fun _ => replacedOnChange_iff

namespace Demo

def config : Config :=
  { netnsName := "vpn", interface := "wg0", dns := "10.2.0.1", provider := "protonvpn", type := "wireguard",
    serverCountry := "CH", portFile := "/run/vpn/forwarded-port" }

def mapped : Str := "Mapped public port 48261 protocol UDP to local port 0 lifetime 60".toList

/-- A host whose requests have these answers, and where only they and the publication succeed. -/
def answering (udp tcp : Str) : Host where
  now := 0
  run argv := if "udp" ∈ argv then .ok udp else if "tcp" ∈ argv then .ok tcp else .error "exit status 1"
  lookPath _ := .error "executable file not found in $PATH"
  publishes _ := .ok ()
  format _ := []

end Demo

theorem same_port_replaces_file : ¬ ∀ cfg content events before e, before ++ [e] <+: events →
    ReplacedOnChange cfg (run cfg content before) e := by
  intro onChange
  let host := Demo.answering Demo.mapped Demo.mapped
  have again := replacedOnChange_iff.mp
    (onChange Demo.config none [.started host, .portTicker host] [.started host] (.portTicker host)
      (List.prefix_refl _))
  have maps : Maps Demo.config host 48261 := ⟨by decide, by decide⟩
  have publishes : host.Publishes := fun _ => rfl
  refine (again (by decide) host 48261 rfl maps).mp publishes ?_
  show (Module.step Demo.config (new Demo.config none) (.started host)).file.content = _
  rw [step_ticks (show (Event.started host).ticks Demo.config = some host from rfl), refreshPort_mapped maps,
    if_pos (by decide), publishPort_published publishes]

def Answers (cfg : Config) (host : Host) (proto : String) (p : Int) : Prop :=
  ∃ stdout, host.run (natpmpc cfg proto) = .ok stdout ∧ parseMappedPort stdout = .ok p

/-- The tick of a connected status got its port from both requests, and the file has the port. -/
def Reported (cfg : Config) (m : Module) : Prop :=
  m.status.connected = true → ∃ t, m.produced = some t ∧
    Answers cfg t.host "udp" m.status.forwardedPort ∧ Answers cfg t.host "tcp" m.status.forwardedPort ∧
    (cfg.portFile ≠ "" → m.file.content = some (itoa m.status.forwardedPort))

/-- The port of two answers, of which the second counts first. -/
def lastPort (udp tcp : Str) : Int :=
  match parseMappedPort tcp with
  | .ok p => p
  | .error _ => match parseMappedPort udp with
    | .ok p => p
    | .error _ => 0

/-- Two answers with a port agree on it, and it is published or in the file before. -/
def Agree (cfg : Config) (host : Host) (file : PortFile) : Prop :=
  ∀ udp tcp, host.run (natpmpc cfg "udp") = .ok udp → host.run (natpmpc cfg "tcp") = .ok tcp → lastPort udp tcp ≠ 0 →
    parseMappedPort udp = parseMappedPort tcp ∧
    (cfg.portFile ≠ "" → host.Publishes ∨ file.content = some (itoa (lastPort udp tcp)))

theorem mapPorts_ok : mapPorts cfg host 0 ["udp", "tcp"] = .ok p ↔ ∃ udp tcp, host.run (natpmpc cfg "udp") = .ok udp ∧
    host.run (natpmpc cfg "tcp") = .ok tcp ∧ lastPort udp tcp = p := by
  cases udpRun : host.run (natpmpc cfg "udp") with
  | error error => simp [mapPorts, udpRun]
  | ok udp =>
    cases tcpRun : host.run (natpmpc cfg "tcp") with
    | error error => cases parsed : parseMappedPort udp <;> simp [mapPorts, udpRun, tcpRun, parsed]
    | ok tcp =>
      have last : mapPorts cfg host 0 ["udp", "tcp"] = .ok (lastPort udp tcp) := by
        simp only [mapPorts, udpRun, tcpRun, lastPort]
        cases parseMappedPort udp <;> cases parseMappedPort tcp <;> rfl
      simp [last]

theorem answers_of_run {proto : String} {stdout : Str} (run : host.run (natpmpc cfg proto) = .ok stdout) :
    Answers cfg host proto p ↔ parseMappedPort stdout = .ok p := by
  refine ⟨?_, fun parsed => ⟨stdout, run, parsed⟩⟩
  rintro ⟨other, run', parsed⟩
  rwa [Except.ok.inj (run.symm.trans run')]

theorem same_answers_iff {udp tcp : Str} (named : lastPort udp tcp ≠ 0) :
    parseMappedPort udp = parseMappedPort tcp ↔
      parseMappedPort udp = .ok (lastPort udp tcp) ∧ parseMappedPort tcp = .ok (lastPort udp tcp) := by
  refine ⟨fun same => ?_, fun ⟨first, second⟩ => first.trans second.symm⟩
  rw [same, and_self]
  unfold lastPort at named ⊢
  cases read : parseMappedPort tcp with
  | ok p => rfl
  | error error =>
    rw [same, read] at named
    exact absurd rfl named

theorem agree_mapped (maps : Maps cfg host p) : Agree cfg host file ↔
    Answers cfg host "udp" p ∧ Answers cfg host "tcp" p ∧
    (cfg.portFile ≠ "" → host.Publishes ∨ file.content = some (itoa p)) := by
  obtain ⟨udp, tcp, udpRun, tcpRun, rfl⟩ := mapPorts_ok.mp maps.1
  rw [answers_of_run udpRun, answers_of_run tcpRun, ← and_assoc, ← same_answers_iff maps.2]
  refine ⟨fun agree => agree udp tcp udpRun tcpRun maps.2, ?_⟩
  intro agree udp' tcp' udpRun' tcpRun' _
  obtain rfl := Except.ok.inj (udpRun.symm.trans udpRun')
  obtain rfl := Except.ok.inj (tcpRun.symm.trans tcpRun')
  exact agree

theorem agree_unmapped (unmapped : ¬ ∃ p, Maps cfg host p) : Agree cfg host file :=
  fun udp tcp udpRun tcpRun named => absurd ⟨_, mapPorts_ok.mpr ⟨udp, tcp, udpRun, tcpRun, rfl⟩, named⟩ unmapped

/-- A mapped port that is published while a connected status is cached is the one that the file has. -/
def Undisturbed (cfg : Config) (host : Host) (m : Module) : Prop :=
  cfg.portFile ≠ "" → m.status.connected = true → host.Publishes → ∀ p, Maps cfg host p → m.file.content = some (itoa p)

/-- What is asked of a tick that begins, and of the answers of a tick that sets the status. -/
def Agrees (cfg : Config) (l : Loop) : Move → Prop
  | .event e => ∀ host, e.ticks cfg = some host → Undisturbed cfg host l.module
  | .report => ∀ t ∈ l.ticking, Agree cfg t.host t.before

theorem reported_report {t : Tick} (refreshed : refreshPort cfg t.host t.before = (m.file, t.port)) :
    Reported cfg (report cfg t m) ↔ Agree cfg t.host t.before := by
  obtain ⟨connected, forwarded⟩ := @report_port cfg m t
  by_cases mapped : ∃ p, Maps cfg t.host p
  · obtain ⟨p, maps⟩ := mapped
    rw [refreshPort_mapped maps] at refreshed
    obtain ⟨file, port⟩ := Prod.mk.inj refreshed
    rw [← port] at connected forwarded
    rw [Reported, connected, forwarded, agree_mapped maps]
    have published : (cfg.portFile ≠ "" → m.file.content = some (itoa p)) ↔
        (cfg.portFile ≠ "" → t.host.Publishes ∨ t.before.content = some (itoa p)) :=
      imp_congr_right fun configured => by rw [← file, if_pos configured, publishPort_content]
    rw [← published]
    exact ⟨fun reported => by obtain ⟨_, ⟨⟩, agreed⟩ := reported rfl; exact agreed, fun agreed _ => ⟨t, rfl, agreed⟩⟩
  · obtain ⟨_, error, failed⟩ : (refreshPort cfg t.host t.before).1 = t.before ∧
        ∃ error, (refreshPort cfg t.host t.before).2 = .error error := refreshPort_unmapped mapped
    refine iff_of_true (fun isConnected => ?_) (agree_unmapped mapped)
    rw [refreshed] at failed
    rw [connected, show t.port = .error error from failed] at isConnected
    cases isConnected

theorem reported_refresh (reported : Reported cfg m) : Reported cfg (refresh cfg host m).1 ↔
    Undisturbed cfg host m := by
  by_cases connected : m.status.connected = true
  · obtain ⟨t, produced, udp, tcp, inFile⟩ := reported connected
    -- the status is still the one before, so only the file counts
    have refreshed : Reported cfg (refresh cfg host m).1 ↔
        (cfg.portFile ≠ "" → (refreshPort cfg host m.file).1.content = some (itoa m.status.forwardedPort)) := by
      refine ⟨fun after configured => ?_, fun after _ => ⟨t, produced, udp, tcp, after⟩⟩
      obtain ⟨_, _, _, _, after⟩ := after connected
      exact after configured
    rw [refreshed]
    refine forall_congr' fun configured => ?_
    by_cases mapped : ∃ p, Maps cfg host p
    · obtain ⟨p, maps⟩ := mapped
      rw [refreshPort_mapped maps, if_pos configured]
      by_cases publishes : host.Publishes
      · rw [publishPort_published publishes]
        refine ⟨fun same _ _ q maps' => ?_, fun quiet => ?_⟩
        · rw [inFile configured, ← maps.unique maps']
          exact same.symm
        · exact (quiet connected publishes p maps).symm.trans (inFile configured)
      · rw [publishPort_failed publishes]
        exact iff_of_true (inFile configured) fun _ published => absurd published publishes
    · rw [(refreshPort_unmapped mapped).1]
      exact iff_of_true (inFile configured) fun _ _ p maps => absurd ⟨p, maps⟩ mapped
  · exact iff_of_true (fun isConnected => absurd isConnected connected) fun _ isConnected =>
      absurd isConnected connected

theorem reported_rest (ticks : e.ticks cfg = none) : Reported cfg (m.step cfg e) ↔ Reported cfg m := by
  obtain ⟨file, status, produced⟩ := step_rest (m := m) ticks
  rw [Reported, Reported, file, status, produced]

/-! ### The parts of a tick -/

theorem Loop.step_cases {l l' : Loop} {move : Move} (stepped : l.step cfg move = some l') :
    (∃ e host setups, l.ticking = none ∧ move = .event e ∧ e.ticks cfg = some host ∧
      l' = .refresh cfg host { l.module with setups }) ∨
    (∃ e, l.ticking = none ∧ move = .event e ∧ e.ticks cfg = none ∧ l' = { module := l.module.step cfg e }) ∨
    ∃ t, l.ticking = some t ∧ move = .report ∧ l' = { module := report cfg t l.module } := by
  obtain ⟨m, ticking⟩ := l
  cases ticking with
  | some t =>
    cases move with
    | event e => cases stepped
    | report =>
      obtain rfl := Option.some.inj stepped
      exact .inr (.inr ⟨t, rfl, rfl, rfl⟩)
  | none =>
    cases move with
    | report => cases stepped
    | event e =>
      by_cases enabled : cfg.enabled = true
      · simp only [Loop.step, if_pos enabled] at stepped
        cases e with
        | started host | reconnect host =>
          obtain rfl := Option.some.inj stepped
          exact .inl ⟨_, host, host.now :: m.setups, rfl, rfl, if_pos enabled, rfl⟩
        | portTicker host =>
          obtain rfl := Option.some.inj stepped
          exact .inl ⟨_, host, m.setups, rfl, rfl, if_pos enabled, rfl⟩
        | healthTicker host =>
          obtain rfl := Option.some.inj stepped
          exact .inr (.inl ⟨.healthTicker host, rfl, rfl, rfl, by simp [Module.step, enabled]⟩)
      · simp only [Loop.step, if_neg enabled] at stepped
        obtain rfl := Option.some.inj stepped
        refine .inr (.inl ⟨e, rfl, rfl, ?_, by simp [Module.step, enabled]⟩)
        cases e <;> simp [Event.ticks, enabled]

/-- The moves of an event when nothing comes between. -/
def Event.moves (cfg : Config) (e : Event) : List Move :=
  if (e.ticks cfg).isSome then [.event e, .report] else [.event e]

theorem event_moves (cfg : Config) (m : Module) (e : Event) :
    Trace.run (Loop.step cfg) { module := m } (e.moves cfg) = some { module := m.step cfg e } := by
  by_cases enabled : cfg.enabled = true
  · cases e <;> simp [Event.moves, Event.ticks, Trace.run, Loop.step, Module.step, Loop.refresh, tick, enabled]
  · cases e <;> simp [Event.moves, Event.ticks, Trace.run, Loop.step, Module.step, enabled]

/-- The runs by whole events are among the runs by moves. -/
theorem run_moves (cfg : Config) (content : Option Str) (events : List Event) :
    Trace.run (Loop.step cfg) { module := new cfg content } (events.flatMap (Event.moves cfg)) =
      some { module := run cfg content events } := by
  rw [run]
  generalize new cfg content = m
  induction events generalizing m with
  | nil => rfl
  | cons e events ih =>
    rw [List.flatMap_cons, Trace.run_append, event_moves]
    exact ih (m.step cfg e)

structure Sound (cfg : Config) (l : Loop) : Prop where
  reported : Reported cfg l.module
  ticking : ∀ t ∈ l.ticking, refreshPort cfg t.host t.before = (l.module.file, t.port)

section Steps
variable {l l' : Loop} {move : Move}

theorem step_sound (sound : Sound cfg l) (stepped : l.step cfg move = some l') (agrees : Agrees cfg l move) :
    Sound cfg l' := by
  obtain ⟨e, host, setups, -, rfl, ticks, rfl⟩ | ⟨e, -, rfl, ticks, rfl⟩ | ⟨t, ticking, rfl, rfl⟩ :=
    Loop.step_cases stepped
  · refine ⟨(reported_refresh (m := { l.module with setups }) sound.reported).mpr (agrees host ticks), ?_⟩
    rintro t ⟨⟩
    rfl
  · exact ⟨(reported_rest ticks).mpr sound.reported, nofun⟩
  · exact ⟨(reported_report (sound.ticking t ticking)).mpr (agrees t ticking), nofun⟩

theorem step_agrees (sound : Sound cfg l) (stepped : l.step cfg move = some l') (reported : Reported cfg l'.module) :
    Agrees cfg l move := by
  obtain ⟨e, host, setups, -, rfl, ticks, rfl⟩ | ⟨e, -, rfl, ticks, rfl⟩ | ⟨t, ticking, rfl, rfl⟩ :=
    Loop.step_cases stepped
  · intro host' ticks'
    obtain rfl : host = host' := Option.some.inj (ticks.symm.trans ticks')
    exact (reported_refresh (m := { l.module with setups }) sound.reported).mp reported
  · intro host ticks'
    rw [ticks] at ticks'
    cases ticks'
  · intro t' ticking'
    obtain rfl : t = t' := Option.some.inj (ticking.symm.trans ticking')
    exact (reported_report (sound.ticking t ticking)).mp reported

theorem new_sound (cfg : Config) (content : Option Str) : Sound cfg { module := new cfg content } :=
  ⟨nofun, nofun⟩

end Steps

/-- In a run, also between the parts of its ticks, every status reports a mapped and published port exactly when the
answers of every tick agree and no other port is published while a connected status is cached. -/
theorem forwardedPort_reported_iff (cfg : Config) (content : Option Str) (moves : List Move) :
    Trace.Always (Loop.step cfg) (fun l => Reported cfg l.module) { module := new cfg content } moves ↔
      Trace.Each (Loop.step cfg) (Agrees cfg) { module := new cfg content } moves :=
  Trace.always_iff_each (fun _ sound => sound.reported) (fun _ _ _ => step_sound) (fun _ _ _ => step_agrees)
    (new_sound cfg content) moves

theorem unmapped_tcp_is_reported : ¬ ∀ cfg content moves,
    Trace.Always (Loop.step cfg) (fun l => Reported cfg l.module) { module := new cfg content } moves := by
  intro reported
  let host := Demo.answering Demo.mapped "no port here".toList
  have always := reported Demo.config none [.event (.started host), .report]
  obtain ⟨_, ticking⟩ := always
  obtain ⟨_, done⟩ := ticking _ rfl
  have reports := done _ rfl
  have agree := (reported_report rfl).mp reports
  have same := (agree Demo.mapped "no port here".toList (by decide) (by decide) (by decide)).1
  revert same
  decide

end HomelabDaemon.Vpn
