import HomelabDaemon.Cmdrunner.Builder

/-!
# Running a command

`Spawn` builds its command with `build`; `Run` puts its own together. What the host answers
during one call is a `Host`; what the call did is an `Execution`.
-/

namespace HomelabDaemon.Cmdrunner

inductive Waited where
  | ok
  | exitError (status : Int) (error : String)
  | failed (error : String)

structure Host where
  lookup : String → Except String User
  lookPath : String → Except String String
  /-- `exec.LookPath` with PATH swapped for another. -/
  lookPathIn : String → String → Except String String
  environ : List String := []
  home : String := ""
  /-- Whether `os.Stat` says that the path does not exist. -/
  isNotExist : String → Bool
  createTemp : Except String String
  encode : Option String := none
  chmod : Option String := none
  stdinPipe : Option String := none
  stdoutPipe : Option String := none
  stderrPipe : Option String := none
  startError : Option String := none
  wait : Waited := .ok
  stdoutBuf : String := ""
  stderrBuf : String := ""
  elapsed : Nat := 0
  /-- The error of a context, when it is asked before the start and at the end. -/
  ctxErr : Handle → Option String := fun _ => none
  ctxErrAtEnd : Handle → Option String := fun _ => none
  deadlinePassed : Bool := false

structure Credential where
  uid : Nat
  gid : Nat
  groups : List Nat
  deriving DecidableEq

structure Cmd where
  path : String
  args : List String
  dir : String
  credential : Option Credential
  /-- None: the daemon's own. -/
  env : Option (List String)
  stdin : Option Handle
  ctx : Option Handle
  /-- The context is cancelled already. -/
  cancelled : Bool
  deriving DecidableEq

structure SandboxSettings where
  allowedDomains : List String
  deniedDomains : List String := []
  allowUnixSockets : List String := []
  allowAllUnixSockets : Bool := false
  allowLocalBinding : Bool := false
  denyRead : List String
  allowRead : List String
  allowWrite : List String
  denyWrite : List String := []
  ignoreViolations : List (String × List String) := [("git", ["/usr/bin/ssh"]), ("nix", ["/nix/store"])]
  enableWeakerNestedSandbox : Bool := false
  enableWeakerNetworkIsolation : Bool := false
  deriving DecidableEq

structure Result where
  cmd : String := ""
  args : List String := []
  exitCode : Int := 0
  stdout : String := ""
  stderr : String := ""
  output : String := ""
  duration : Nat := 0
  cancelled : Bool := false
  deriving DecidableEq

def Result.text (r : Result) : String :=
  let ended (s : String) := if s.endsWith "\n" then s else s ++ "\n"
  "$ " ++ " ".intercalate r.args ++ "\n" ++ (if r.stdout ≠ "" then ended r.stdout else "") ++
    (if r.stderr ≠ "" then "[stderr]\n" ++ ended r.stderr else "")

/-! ### The log -/

inductive Level where
  | info | warn | error
  deriving DecidableEq

abbrev Bytes := List UInt8

def bytes (s : String) : Bytes := s.toUTF8.data.toList

structure Record where
  level : Level
  message : Bytes
  cmd : String
  args : List String
  escalation : String
  exitCode : Int
  durationMs : Nat
  cancelled : Bool
  callerModule : String
  error : Option String
  deriving DecidableEq

def Builder.full (b : Builder) : String :=
  if b.args ≠ [] then base b.name ++ " " ++ " ".intercalate b.args else base b.name

def maxLen : Nat := 100

def Builder.summary (b : Builder) : Bytes :=
  let full := bytes b.full
  if maxLen < full.length then full.take (maxLen - 1) ++ bytes "…" else full

/-- An argument, without its value when its key is that of a secret. -/
def redact (secretEnvKeys : Finset String) (arg : String) : String :=
  match keyOf arg with
  | some key => if key ∈ secretEnvKeys then key ++ "=<redacted>" else arg
  | none => arg

def Builder.logResult (b : Builder) (res : Result) (err : Option String) : Record :=
  let durMs := res.duration / 1000000
  let record (level : Level) (message : String) : Record :=
    { level := level, message := b.summary ++ bytes message, cmd := res.cmd, args := res.args.map (redact b.secretEnvKeys)
      escalation := b.escalation.text, exitCode := res.exitCode, durationMs := durMs, cancelled := res.cancelled
      callerModule := b.callerModule, error := err }
  match err with
  | none => record .info (" → ok (" ++ toString durMs ++ "ms)")
  | some error =>
    if 0 < res.exitCode then record .warn (" → exit " ++ toString res.exitCode ++ " (" ++ toString durMs ++ "ms)")
    else record .error (" → exec failed: " ++ error)

def nilPointer : Stop := .panicked "runtime error: invalid memory address or nil pointer dereference"

def Builder.impersonates (b : Builder) : Bool := b.escalation = .asUser ∧ b.user ≠ ""

/-- `u, _ := user.Lookup(b.user)`, and a field of `u`. -/
def Host.lookupField {α : Type} (host : Host) (userName : String) (field : User → α) : Except Stop α :=
  match host.lookup userName with
  | .ok u => .ok (field u)
  | .error _ => .error nilPointer

def nixosUserPath (homeDir userName : String) : String :=
  "/run/wrappers/bin:" ++ homeDir ++ "/.local/bin:" ++ homeDir ++ "/.nix-profile/bin:/nix/profile/bin:" ++ homeDir ++
    "/.local/state/nix/profiles/profile/bin:/etc/profiles/per-user/" ++ userName ++
    "/bin:/nix/var/nix/profiles/default/bin:/run/current-system/sw/bin:/usr/bin:/bin"

def fails {α : Type} (what : String) : Except String α → Except Stop α
  | .ok a => .ok a
  | .error error => .error (.failed (what ++ ": " ++ error))

def Builder.resolve (b : Builder) (host : Host) : Except Stop String := do
  let found ← if b.impersonates then do
      let path ← host.lookupField b.user fun u => nixosUserPath u.homeDir u.username
      pure (host.lookPathIn path b.name)
    else pure (host.lookPath b.name)
  fails ("command " ++ b.name.quote ++ " not found in PATH") found

def Builder.buildCredential (b : Builder) (host : Host) : Except String Credential :=
  match host.lookup b.user with
  | .error error => .error ("lookup user " ++ b.user.quote ++ ": " ++ error)
  | .ok u => .ok { uid := u.uid % 2 ^ 32, gid := u.gid % 2 ^ 32, groups := u.groupIds.map (· % 2 ^ 32) }

def Builder.credential (b : Builder) (host : Host) : Except Stop (Option Credential) :=
  if b.impersonates then some <$> fails ("credential for user " ++ b.user.quote) (b.buildCredential host)
  else .ok none

def Builder.environment (b : Builder) (host : Host) : Except Stop (Option (List String)) :=
  if b.impersonates then
    host.lookupField b.user fun u => some
      (["PATH=" ++ nixosUserPath u.homeDir u.username, "HOME=" ++ u.homeDir, "USER=" ++ u.username,
        "LOGNAME=" ++ u.username] ++ b.env)
  else if b.env ≠ [] then .ok (some (host.environ ++ b.env))
  else .ok none

def Builder.command (b : Builder) (host : Host) (path : String) (args : List String) (cred : Option Credential)
    (cancelled : Bool) : Except Stop Cmd := do
  let env ← b.environment host
  return { path := path, args := args, dir := b.cwd, credential := cred, env := env, stdin := b.stdin, ctx := b.ctx
           cancelled := cancelled }

/-! ### The sandbox -/

/-- A path with the user's home for the tilde; that of the daemon without a user. -/
def Builder.expand (b : Builder) (host : Host) (p : String) : String :=
  if p.startsWith "~/" then
    if b.user ≠ "" then
      match host.lookup b.user with
      | .ok u => u.homeDir ++ String.ofList (p.toList.drop 1)
      | .error _ => p
    else host.home ++ String.ofList (p.toList.drop 1)
  else p

def Builder.sandboxSettings (b : Builder) (host : Host) : SandboxSettings where
  allowedDomains := b.sandboxAllowDomains
  denyRead := b.sandboxDenyRead.filter fun p => !host.isNotExist (b.expand host p)
  allowRead := b.sandboxAllowRead
  allowWrite := b.sandboxAllowWrite

def Builder.writeTempSandboxSettings (b : Builder) (host : Host) : Except String (String × SandboxSettings) :=
  match host.createTemp, host.encode, host.chmod with
  | .error error, _, _ => .error error
  | .ok _, some error, _ => .error error
  | .ok _, none, some error => .error error
  | .ok path, none, none => .ok (path, b.sandboxSettings host)

def Builder.wrap (b : Builder) (host : Host) (absCmd : String) :
    Except Stop (String × List String × Option (String × SandboxSettings)) :=
  if b.sandbox then do
    let srtPath ← fails "sandbox-runtime (srt) not found in PATH" (host.lookPath "srt")
    let settings ← fails "sandbox settings" (b.writeTempSandboxSettings host)
    return (srtPath, ["--settings", settings.1, "--", absCmd] ++ b.args, some settings)
  else .ok (absCmd, b.args, none)

structure Execution (α : Type) where
  started : List (Cmd × Option (String × SandboxSettings)) := []
  logged : List Record := []
  result : Except Stop α

/-- The deferred cancel ends a context with a timeout when `build` returns. -/
def Builder.build (b : Builder) (host : Host) : Except Stop (Cmd × Option (String × SandboxSettings)) := do
  let absCmd ← b.resolve host
  let (cmdName, cmdArgs, settings) ← b.wrap host absCmd
  let cred ← b.credential host
  let cmd ← b.command host cmdName cmdArgs cred (0 < b.timeout)
  return (cmd, settings)

/-- `cmd.Start`: a context that has ended comes first. -/
def Host.start (host : Host) (cmd : Cmd) : Option String :=
  if cmd.cancelled then some "context canceled"
  else match cmd.ctx.bind host.ctxErr with
    | some error => some error
    | none => host.startError

def Builder.spawnError (_ : Builder) (host : Host) (cmd : Cmd) : Option String :=
  if cmd.stdin.isSome then some "stdin pipe: exec: Stdin already set"
  else match host.stdinPipe, host.stdoutPipe, host.stderrPipe, host.start cmd with
    | some error, _, _, _ => some ("stdin pipe: " ++ error)
    | none, some error, _, _ => some ("stdout pipe: " ++ error)
    | none, none, some error, _ => some ("stderr pipe: " ++ error)
    | none, none, none, some error => some ("start process: " ++ error)
    | none, none, none, none => none

structure Spawned where
  builder : Builder

def Builder.spawn (b : Builder) (host : Host) : Execution Spawned :=
  match b.build host with
  | .error stop => { result := .error stop }
  | .ok (cmd, settings) =>
    match b.spawnError host cmd with
    | some error => { result := .error (.failed error) }
    | none => { started := [(cmd, settings)], result := .ok ⟨b⟩ }

/-- The exit code that a wait reports, −1 without one. -/
def Waited.exitCode : Waited → Int
  | ok => 0
  | exitError status _ => status
  | failed _ => -1

def Waited.error : Waited → Option String
  | ok => none
  | exitError _ error => some error
  | failed error => some error

def Spawned.wait (s : Spawned) (host : Host) : Execution Result :=
  let b := s.builder
  let res : Result :=
    { cmd := b.name
      args := if b.sandbox then ["srt", "--settings", "<temp>", "--", b.name] ++ b.args else b.name :: b.args
      exitCode := host.wait.exitCode
      duration := host.elapsed
      cancelled := (b.ctx.bind host.ctxErrAtEnd).isSome }
  { logged := [b.logResult res host.wait.error], result := .ok res }

/-! ### `Run` -/

def Builder.logAndError (b : Builder) (host : Host) (cancelled : Bool) (res : Result) (error : String) :
    List Record × Stop :=
  let res := { res with duration := host.elapsed, cancelled := res.cancelled || cancelled }
  ([b.logResult res (some error)], .failed error)

def Builder.callerDone (b : Builder) (host : Host) : Bool := (b.ctx.bind host.ctxErrAtEnd).isSome

/-- Whether the context of the run has ended, by the caller or by the timeout. -/
def Builder.runDone (b : Builder) (host : Host) : Bool :=
  b.callerDone host || (decide (0 < b.timeout) && host.deadlinePassed)

def Builder.runCommand (b : Builder) (host : Host) : Except Stop Cmd := do
  let absCmd ← b.resolve host
  let cred ← b.credential host
  b.command host absCmd b.args cred false

def Builder.runError (b : Builder) (host : Host) (cmd : Cmd) : Option String :=
  let pipes := b.lineHandler.isSome || decide (b.outputMode = .combined)
  match (if pipes then host.stdoutPipe else none), (if pipes then host.stderrPipe else none), host.start cmd with
  | some error, _, _ => some ("stdout pipe: " ++ error)
  | none, some error, _ => some ("stderr pipe: " ++ error)
  | none, none, some error => some ("start process: " ++ error)
  | none, none, none => none

def Builder.run (b : Builder) (host : Host) : Execution Result :=
  match b.runCommand host with
  | .error (.panicked message) => { result := .error (.panicked message) }
  | .error (.failed error) =>
    let (logged, stop) := b.logAndError host (b.callerDone host) { exitCode := -1 } error
    { logged := logged, result := .error stop }
  | .ok cmd =>
    let res : Result := { cmd := cmd.path, args := cmd.path :: b.args, exitCode := -1 }
    match b.runError host cmd with
    | some error =>
      let (logged, stop) := b.logAndError host (b.runDone host) res error
      { logged := logged, result := .error stop }
    | none =>
      let res := { res with
        duration := host.elapsed, stdout := host.stdoutBuf, stderr := host.stderrBuf, cancelled := b.runDone host }
      let res := { res with output := if b.outputMode = OutputMode.verbose then res.text else res.stdout }
      match host.wait.error with
      | some error =>
        let (logged, stop) := b.logAndError host (b.runDone host) { res with exitCode := host.wait.exitCode } error
        { started := [(cmd, none)], logged := logged, result := .error stop }
      | none =>
        let res := { res with exitCode := 0 }
        { started := [(cmd, none)], logged := [b.logResult res none], result := .ok res }

end HomelabDaemon.Cmdrunner
