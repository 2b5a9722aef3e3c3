import Mathlib.Data.Finset.Basic
import Mathlib.Data.List.DropRight
import Mathlib.Algebra.GroupWithZero.Nat

/-!
# The command runner's builder

A command is described by a `Builder`, one method after the other. What is wrong with the
description itself is a panic.
-/

namespace HomelabDaemon.Cmdrunner

/-- How a call ends without a result. -/
inductive Stop where
  | panicked (message : String)
  | failed (error : String)
  deriving DecidableEq

section Except
variable {ε α β : Type} {x : Except ε α} {f : α → Except ε β}

theorem bind_ok {b : β} (h : x >>= f = .ok b) : ∃ a, x = .ok a ∧ f a = .ok b := by
  cases x with
  | error e => cases h
  | ok a => exact ⟨a, rfl, h⟩

theorem bind_error {e : ε} (h : x >>= f = .error e) : x = .error e ∨ ∃ a, x = .ok a ∧ f a = .error e := by
  cases x with
  | error e' =>
    cases h
    exact .inl rfl
  | ok a => exact .inr ⟨a, rfl, h⟩

end Except

inductive Escalation where
  | none | asUser
  deriving DecidableEq

def Escalation.text : Escalation → String
  | none => "none"
  | asUser => "impersonate"

inductive OutputMode where
  | raw | verbose | combined
  deriving DecidableEq

/-- A Go value that is only handed on: a context, a reader or a handler. -/
abbrev Handle := Nat

structure Builder where
  callerModule : String
  name : String
  args : List String
  user : String := ""
  escalation : Escalation := .none
  cwd : String := ""
  env : List String := []
  ctx : Option Handle := none
  /-- In nanoseconds. -/
  timeout : Int := 0
  stdin : Option Handle := none
  lineHandler : Option Handle := none
  outputMode : OutputMode := .raw
  secretEnvKeys : Finset String := ∅
  sandbox : Bool := false
  sandboxAllowRead : List String := []
  sandboxAllowWrite : List String := []
  sandboxDenyRead : List String := []
  sandboxAllowDomains : List String := []

def canonicalModules : List String :=
  ["bug", "api", "secrets", "monitor", "middleware", "storage", "updates", "cmdrunner", "vpn"]

def forbiddenCommandNames : List String := ["sudo", "pkexec", "doas", "su", "sh", "bash"]

/-- What follows the last slash. -/
def base (name : String) : String := String.ofList (name.toList.rtakeWhile (· ≠ '/'))

def new (callerModule name : String) (args : List String) : Except Stop Builder :=
  if callerModule ∉ canonicalModules then
    .error (.panicked ("cmdrunner: invalid caller module " ++ callerModule.quote ++ "; must be canonical module"))
  else if name = "" then .error (.panicked "cmdrunner: command name cannot be empty")
  else if base name ∈ forbiddenCommandNames then
    .error (.panicked ("cmdrunner: refusing " ++ name.quote ++
      " as command name. Use .AsUser(<user>) for escalation. " ++
      "Passing the escalation wrapper inline makes the cmd log line " ++
      "report escalation=\"none\" even when it isn't."))
  else .ok { callerModule := callerModule, name := name, args := args }

/-! ### The methods -/

structure User where
  uid : Nat
  gid : Nat
  username : String
  homeDir : String
  groupIds : List Nat := []

/-- What the methods ask for: the user database and the registry of secrets, when it is set. -/
structure Registries where
  lookup : String → Except String User
  secretResolver : Option (String → String) := none

/-- The part before the first equals sign, unless it is empty. -/
def keyOf (s : String) : Option String :=
  let key := s.toList.takeWhile (· ≠ '=')
  if key.length < s.toList.length ∧ key ≠ [] then some (String.ofList key) else none

def Builder.inject (b : Builder) (kv : String) : Builder :=
  { b with
    secretEnvKeys := match keyOf kv with
      | some key => insert key b.secretEnvKeys
      | none => b.secretEnvKeys
    env := b.env ++ [kv] }

/-- The methods that change a builder. -/
inductive Method where
  | asUser (userName : String)
  | withCwd (dir : String)
  | withEnv (kvs : List String)
  | withSecret (names : List String)
  | requireSecret (names : List String)
  | withContext (ctx : Option Handle)
  | withTimeout (d : Int)
  | withStdin (r : Option Handle)
  | withLineHandler (fn : Option Handle)
  | output (mode : OutputMode)
  | inSandbox
  | allowWrite (paths : List String)
  | allowRead (paths : List String)
  | denyRead (paths : List String)
  | allowNetwork (domains : List String)

/-- A missing secret is skipped. -/
def Builder.withSecret (resolver : String → String) : Builder → List String → Builder
  | b, [] => b
  | b, name :: names =>
    if resolver name = "" then b.withSecret resolver names else (b.inject (resolver name)).withSecret resolver names

def Builder.requireSecret (resolver : String → String) : Builder → List String → Except Stop Builder
  | b, [] => .ok b
  | b, name :: names =>
    if resolver name = "" then
      .error (.panicked ("cmdrunner: required secret " ++ name.quote ++ " requested by module " ++
      b.callerModule.quote ++
        " is not in the registry; declare it in modules/secrets.nix and rebuild"))
    else (b.inject (resolver name)).requireSecret resolver names

def Builder.inSandbox (b : Builder) : Builder :=
  { b with
    sandbox := true
    sandboxAllowRead := []
    sandboxAllowWrite := [".", "/tmp"]
    sandboxDenyRead := ["~/.ssh", "~/.aws", "/run", "/cache", "/etc/ssh", "/var/lib/sops-age"]
    sandboxAllowDomains := ["github.com", "*.github.com", "api.github.com", "raw.githubusercontent.com"] }

def forbiddenUIDs : List Nat := [0]

def Builder.apply (reg : Registries) (b : Builder) : Method → Except Stop Builder
  | .asUser userName =>
    match reg.lookup userName with
    | .error _ => .error (.panicked ("cmdrunner: AsUser(" ++ userName.quote ++ "): user not found"))
    | .ok u =>
      if u.uid ∈ forbiddenUIDs then
        .error (.panicked ("cmdrunner: AsUser(" ++ userName.quote ++ "): forbidden — cannot impersonate root"))
      else .ok { b with user := userName, escalation := .asUser }
  | .withCwd dir => .ok { b with cwd := dir }
  | .withEnv kvs => .ok { b with env := b.env ++ kvs }
  | .withSecret names =>
    match reg.secretResolver with
    | none => .ok b
    | some resolver => .ok (b.withSecret resolver names)
  | .requireSecret names =>
    match reg.secretResolver with
    | none => .error (.panicked ("cmdrunner: secret resolver not set; module " ++ b.callerModule.quote ++
        " called RequireSecret before init"))
    | some resolver => b.requireSecret resolver names
  | .withContext ctx => .ok { b with ctx := ctx }
  | .withTimeout d => .ok { b with timeout := d }
  | .withStdin r => .ok { b with stdin := r }
  | .withLineHandler fn => .ok { b with lineHandler := fn }
  | .output mode => .ok { b with outputMode := mode }
  | .inSandbox => .ok b.inSandbox
  | .allowWrite paths => .ok { b with sandboxAllowWrite := b.sandboxAllowWrite ++ paths }
  | .allowRead paths => .ok { b with sandboxAllowRead := b.sandboxAllowRead ++ paths }
  | .denyRead paths => .ok { b with sandboxDenyRead := b.sandboxDenyRead ++ paths }
  | .allowNetwork domains => .ok { b with sandboxAllowDomains := b.sandboxAllowDomains ++ domains }

/-- A builder after a sequence of methods. -/
def Builder.applyAll (reg : Registries) : Builder → List Method → Except Stop Builder
  | b, [] => .ok b
  | b, m :: ms => b.apply reg m >>= fun b' => b'.applyAll reg ms

end HomelabDaemon.Cmdrunner
