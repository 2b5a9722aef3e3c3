import HomelabDaemon.Strings.ParseInt

/-!
# The vpn module

The loop that keeps the tunnel up: port mapping, publication, the cached status and the health check. A host
answers each command of one event, and the temporary file of a publication is not kept apart.
-/

namespace HomelabDaemon.Vpn
open Strings

structure Config where
  enabled : Bool := true
  netnsName : String
  interface : String
  dns : String
  provider : String
  type : String
  serverCountry : String
  portFile : String

structure Status where
  enabled : Bool := false
  connected : Bool := false
  provider : String := ""
  type : String := ""
  serverCountry : String := ""
  publicIP : Str := []
  country : String := ""
  forwardedPort : Int := 0
  lastHandshake : Str := []
  failureCount : Nat := 0
  errMsg : String := ""
  deriving DecidableEq

inductive PublishCall where
  | mkdirAll | createTemp | writeString | close | rename
  deriving DecidableEq

/-- What one event meets; `format` writes a time of whole seconds as RFC 3339 in the host's zone. -/
structure Host where
  now : Int
  run : List String → Except String Str
  lookPath : String → Except String String
  publishes : PublishCall → Except String Unit
  format : Int → Str

inductive MappedPortError where
  | none
  | number (error : NumError)
  deriving DecidableEq

/-- A match of `Mapped public port (\d+) protocol` where the text starts. -/
def mappedPortAt (s : Str) : Option Str :=
  if "Mapped public port ".toList.isPrefixOf s then
    let rest := s.drop "Mapped public port ".length
    let digits := rest.takeWhile Char.isDigit
    if digits ≠ [] ∧ " protocol".toList.isPrefixOf (rest.dropWhile Char.isDigit) then some digits else none
  else none

def findMappedPort : Str → Option Str
  | [] => none
  | c :: s => match mappedPortAt (c :: s) with
    | some digits => some digits
    | none => findMappedPort s

def parseMappedPort (output : Str) : Except MappedPortError Int :=
  match findMappedPort output with
  | none => .error .none
  | some digits => match parseInt digits with
    | (port, none) => .ok port
    | (_, some error) => .error (.number error)

structure PortFile where
  content : Option Str
  /-- How often a rename replaced the file, which is what a watcher sees. -/
  replaced : Nat := 0
  deriving DecidableEq

def itoa (port : Int) : Str := (toString port).toList

inductive PublishError where
  | call (failed : PublishCall) (error : String)

def publishCalls (host : Host) : List PublishCall → Except PublishError Unit
  | [] => .ok ()
  | call :: rest => match host.publishes call with
    | .error error => .error (.call call error)
    | .ok _ => publishCalls host rest

/-- An error of any call leaves the file as it was. -/
def publishPort (host : Host) (port : Int) (file : PortFile) : PortFile × Except PublishError Unit :=
  match publishCalls host [.mkdirAll, .createTemp, .writeString, .close, .rename] with
  | .error error => (file, .error error)
  | .ok _ => ({ content := some (itoa port), replaced := file.replaced + 1 }, .ok ())

section Commands
variable (cfg : Config) (host : Host)

def natpmpc (proto : String) : List String :=
  ["ip", "netns", "exec", cfg.netnsName, "natpmpc", "-a", "1", "0", proto, "60", "-g", cfg.dns]

def mapPorts (port : Int) : List String → Except String Int
  | [] => .ok port
  | proto :: rest => match host.run (natpmpc cfg proto) with
    | .error error => .error error
    | .ok stdout => match parseMappedPort stdout with
      | .ok p => mapPorts p rest
      | .error _ => mapPorts port rest

def errNoPort : String := "natpmpc returned no port"

/-- A failed publication is logged, and the port is returned. -/
def refreshPort (file : PortFile) : PortFile × Except String Int :=
  match mapPorts cfg host 0 ["udp", "tcp"] with
  | .error error => (file, .error error)
  | .ok port =>
    if port = 0 then (file, .error errNoPort)
    else (if cfg.portFile ≠ "" then (publishPort host port file).1 else file, .ok port)

/-! ### Handshakes -/

def wgShow (wgPath : String) : List String :=
  ["ip", "netns", "exec", cfg.netnsName, wgPath, "show", cfg.interface, "latest-handshakes"]

def checkHandshake : Except String Int :=
  match host.lookPath "wg" with
  | .error error => .error ("wg binary not found: " ++ error)
  | .ok wgPath => match host.run (wgShow cfg wgPath) with
    | .error error => .error error
    | .ok stdout =>
      let fs := fields stdout
      if fs.length < 2 then .ok 0 else .ok (parseInt (fs.getLast?.getD [])).1

def curl : List String :=
  ["ip", "netns", "exec", cfg.netnsName, "curl", "-s", "--max-time", "5", "https://ipinfo.io/ip"]

def seededStatus : Status :=
  { enabled := cfg.enabled, provider := cfg.provider, type := cfg.type, serverCountry := cfg.serverCountry }

/-- A tick whose refreshPort has returned, and the port file before that. -/
structure Tick where
  host : Host
  before : PortFile
  port : Except String Int

structure Module where
  status : Status
  file : PortFile
  failures : Nat := 0
  /-- When setup ran, the newest first. -/
  setups : List Int := []
  /-- The tick that set the status. -/
  produced : Option Tick := none

def new (content : Option Str) : Module := { status := seededStatus cfg, file := { content } }

def setup (m : Module) : Module := { m with setups := host.now :: m.setups }

def withPort (s : Status) : Except String Int → Status
  | .error error => { s with errMsg := error }
  | .ok port => { s with forwardedPort := port, connected := true }

def withPublicIP (s : Status) : Except String Str → Status
  | .error _ => s
  | .ok stdout => { s with publicIP := trimSpace stdout }

def withHandshake (s : Status) : Except String Int → Status
  | .error _ => s
  | .ok ts => if 0 < ts then { s with lastHandshake := host.format ts } else s

/-- The first part of a tick. -/
def refresh (m : Module) : Module × Tick :=
  let (file, port) := refreshPort cfg host m.file
  ({ m with file }, { host, before := m.file, port })

/-- The rest of a tick: curl may take five seconds before the status is set. -/
def report (t : Tick) (m : Module) : Module :=
  let s := withPort { seededStatus cfg with enabled := true } t.port
  let s := withPublicIP s (t.host.run (curl cfg))
  let s := withHandshake t.host s (checkHandshake cfg t.host)
  { m with status := { s with failureCount := m.failures }, produced := some t }

def tick (m : Module) : Module :=
  let (m, t) := refresh cfg host m
  report cfg t m

def second : Int := 10 ^ 9

def minute : Int := 60 * second

/-- The check of the health ticker; times are in nanoseconds, a handshake's in seconds. -/
def stale : Bool :=
  match checkHandshake cfg host with
  | .error _ => true
  | .ok ts => 0 < ts ∧ 3 * minute < host.now - ts * second

def checkHealth (m : Module) : Module :=
  if stale cfg host then setup host { m with failures := m.failures + 1 } else m

end Commands

inductive Event where
  /-- Start, up to its loop. -/
  | started (host : Host)
  | reconnect (host : Host)
  | portTicker (host : Host)
  | healthTicker (host : Host)

def Module.step (cfg : Config) (m : Module) (e : Event) : Module :=
  if cfg.enabled then match e with
    | .started host | .reconnect host => tick cfg host (setup host m)
    | .portTicker host => tick cfg host m
    | .healthTicker host => checkHealth cfg host m
  else m

def run (cfg : Config) (content : Option Str) (events : List Event) : Module :=
  events.foldl (Module.step cfg) (new cfg content)

/-! ### Between the parts of a tick -/

/-- The module as the api may find it, also while the loop is in the rest of a tick. -/
structure Loop where
  module : Module
  ticking : Option Tick := none

inductive Move where
  /-- An event up to where its tick, if it has one, has refreshed the port. -/
  | event (e : Event)
  | report

def Loop.refresh (cfg : Config) (host : Host) (m : Module) : Loop :=
  let (m, t) := Vpn.refresh cfg host m
  { module := m, ticking := some t }

def Loop.step (cfg : Config) (l : Loop) (move : Move) : Option Loop :=
  match l.ticking, move with
  | none, .event e =>
    if cfg.enabled then match e with
      | .started host | .reconnect host => some (.refresh cfg host (setup host l.module))
      | .portTicker host => some (.refresh cfg host l.module)
      | .healthTicker host => some { module := checkHealth cfg host l.module }
    else some l
  | some t, .report => some { module := Vpn.report cfg t l.module }
  | none, .report | some _, .event _ => none

end HomelabDaemon.Vpn
