import HomelabDaemon.Cmdrunner.Execute

/-!
# Sandboxed commands

`build` wraps the command of a sandboxed builder in `srt`; `Run`, which does not use `build`, starts
it bare.
-/

namespace HomelabDaemon.Cmdrunner

namespace Sandbox
variable {reg : Registries} {b b' : Builder} {host : Host}

theorem withSecret_sandbox {resolver : String → String} {names : List String} :
    (b.withSecret resolver names).sandbox = b.sandbox := by
  induction names generalizing b with
  | nil => rfl
  | cons name names ih =>
    unfold Builder.withSecret
    split
    · exact ih
    · rw [ih]
      rfl

theorem requireSecret_sandbox {resolver : String → String} {names : List String}
    (h : b.requireSecret resolver names = .ok b') : b'.sandbox = b.sandbox := by
  induction names generalizing b with
  | nil => rw [← Except.ok.inj h]
  | cons name names ih =>
    unfold Builder.requireSecret at h
    split at h
    · cases h
    · rw [ih h]
      rfl

theorem apply_sandbox {m : Method} (h : b.apply reg m = .ok b') :
    b'.sandbox = true ↔ b.sandbox = true ∨ m = .inSandbox := by
  cases m with
  | inSandbox =>
    obtain rfl := Except.ok.inj h
    simp [Builder.inSandbox]
  | asUser userName =>
    simp only [Builder.apply] at h
    split at h
    · cases h
    · split at h
      · cases h
      · obtain rfl := Except.ok.inj h
        simp
  | withSecret names =>
    simp only [Builder.apply] at h
    split at h
    · obtain rfl := Except.ok.inj h
      simp
    · obtain rfl := Except.ok.inj h
      simp [withSecret_sandbox]
  | requireSecret names =>
    simp only [Builder.apply] at h
    split at h
    · cases h
    · simp [requireSecret_sandbox h]
  | _ =>
    obtain rfl := Except.ok.inj h
    simp

theorem applyAll_sandbox {ms : List Method} (h : b.applyAll reg ms = .ok b') :
    b'.sandbox = true ↔ b.sandbox = true ∨ .inSandbox ∈ ms := by
  induction ms generalizing b with
  | nil =>
    obtain rfl := Except.ok.inj h
    simp
  | cons m ms ih =>
    unfold Builder.applyAll at h
    cases applied : b.apply reg m with
    | error stop =>
      rw [applied] at h
      cases h
    | ok next =>
      rw [applied] at h
      rw [ih h, apply_sandbox applied, List.mem_cons, or_assoc, eq_comm (a := m)]

inductive EntryPoint where
  | run | spawn

/-- The process is `srt` with the command behind it, and the settings are the builder's, with the
denied paths that exist. -/
def Wrapped (b : Builder) (host : Host) (start : Cmd × Option (String × SandboxSettings)) : Prop :=
  ∃ srt absCmd file, host.lookPath "srt" = .ok srt ∧ b.resolve host = .ok absCmd ∧ start.1.path = srt ∧
    start.1.args = ["--settings", file, "--", absCmd] ++ b.args ∧
    start.2 = some (file, { allowedDomains := b.sandboxAllowDomains, allowRead := b.sandboxAllowRead
                            allowWrite := b.sandboxAllowWrite
                            denyRead := b.sandboxDenyRead.filter fun p => !host.isNotExist (b.expand host p) })

/-- Whatever starts is wrapped; otherwise there is an error. -/
def Contains {α : Type} (b : Builder) (host : Host) (call : Execution α) : Prop :=
  (∀ start ∈ call.started, Wrapped b host start) ∧ (call.started = [] → ∃ e, call.result = .error (.failed e))

def Contained (b : Builder) (host : Host) : EntryPoint → Prop
  | .run => Contains b host (b.run host)
  | .spawn => Contains b host (b.spawn host)

/-- The user that the command runs as, if it is another one, is known. -/
def KnowsUser (b : Builder) (host : Host) : Prop := b.impersonates = true → ∃ u, host.lookup b.user = .ok u

/-- There is no such command. -/
def Lacks (b : Builder) (host : Host) : Prop :=
  ∃ e, if b.impersonates then
      ∃ u, host.lookup b.user = .ok u ∧ host.lookPathIn (nixosUserPath u.homeDir u.username) b.name = .error e
    else host.lookPath b.name = .error e

/-- The operating system does not open the pipes that a run needs, or does not start the process. -/
def Refuses (b : Builder) (host : Host) : Prop :=
  ((b.lineHandler.isSome = true ∨ b.outputMode = .combined) ∧
    (host.stdoutPipe.isSome = true ∨ host.stderrPipe.isSome = true)) ∨
  (b.ctx.bind host.ctxErr).isSome = true ∨ host.startError.isSome = true

theorem fails_error {α : Type} {what : String} {x : Except String α} {stop : Stop} (h : fails what x = .error stop) :
    ∃ e, x = .error e ∧ stop = .failed (what ++ ": " ++ e) := by
  cases x with
  | error e => exact ⟨e, rfl, (Except.error.inj h).symm⟩
  | ok a => cases h

theorem fails_ok {α : Type} {what : String} {x : Except String α} {a : α} (h : fails what x = .ok a) : x = .ok a := by
  cases x with
  | error e => cases h
  | ok b => exact congrArg Except.ok (Except.ok.inj h)

theorem resolve_eq (knows : KnowsUser b host) : ∃ found : Except String String,
    b.resolve host = fails ("command " ++ b.name.quote ++ " not found in PATH") found ∧
    (Lacks b host ↔ ∃ e, found = .error e) := by
  unfold Builder.resolve Lacks
  by_cases other : b.impersonates = true
  · obtain ⟨u, known⟩ := knows other
    refine ⟨host.lookPathIn (nixosUserPath u.homeDir u.username) b.name, ?_, ?_⟩
    · simp [other, Host.lookupField, known, bind, Except.bind, pure, Except.pure]
    · simp [other, known]
  · refine ⟨host.lookPath b.name, ?_, ?_⟩
    · simp [other, bind, Except.bind, pure, Except.pure]
    · simp [other]

theorem resolve_unknown (unknown : ¬ KnowsUser b host) : b.resolve host = .error nilPointer := by
  unfold KnowsUser at unknown
  obtain ⟨other, unknown⟩ := Classical.not_imp.mp unknown
  unfold Builder.resolve Host.lookupField
  cases known : host.lookup b.user with
  | error e => simp [other, bind, Except.bind]
  | ok u => exact absurd ⟨u, known⟩ unknown

section Known
variable (knows : KnowsUser b host)

include knows

theorem resolve_failure {stop : Stop} (h : b.resolve host = .error stop) : ∃ e, stop = .failed e := by
  obtain ⟨found, resolves, _⟩ := resolve_eq knows
  rw [resolves] at h
  obtain ⟨e, _, rfl⟩ := fails_error h
  exact ⟨_, rfl⟩

theorem credential_known {stop : Stop} : b.credential host ≠ .error stop := by
  intro h
  unfold Builder.credential at h
  split at h
  · rename_i other
    obtain ⟨u, known⟩ := knows other
    simp [Builder.buildCredential, known, fails, Functor.map, Except.map] at h
  · cases h

theorem environment_known {stop : Stop} : b.environment host ≠ .error stop := by
  intro h
  unfold Builder.environment at h
  split at h
  · rename_i other
    obtain ⟨u, known⟩ := knows other
    simp [Host.lookupField, known] at h
  · split at h <;> cases h

theorem command_known {path : String} {args : List String} {cred : Option Credential} {cancelled : Bool} {stop : Stop} :
    b.command host path args cred cancelled ≠ .error stop := by
  intro h
  rcases bind_error h with h | ⟨env, _, h⟩
  · exact environment_known knows h
  · cases h

end Known

theorem command_ok {path : String} {args : List String} {cred : Option Credential} {cancelled : Bool} {cmd : Cmd}
    (h : b.command host path args cred cancelled = .ok cmd) :
    cmd.path = path ∧ cmd.args = args ∧ cmd.ctx = b.ctx ∧ cmd.cancelled = cancelled := by
  obtain ⟨env, _, h⟩ := bind_ok h
  obtain rfl := Except.ok.inj h
  exact ⟨rfl, rfl, rfl, rfl⟩

/-! ### `Spawn` -/

theorem wrap_failure {absCmd : String} {stop : Stop} (h : b.wrap host absCmd = .error stop) :
    ∃ e, stop = .failed e := by
  unfold Builder.wrap at h
  split at h
  · rcases bind_error h with h | ⟨srt, _, h⟩
    · obtain ⟨e, _, rfl⟩ := fails_error h
      exact ⟨_, rfl⟩
    rcases bind_error h with h | ⟨settings, _, h⟩
    · obtain ⟨e, _, rfl⟩ := fails_error h
      exact ⟨_, rfl⟩
    · cases h
  · cases h

theorem writeTempSandboxSettings_ok {file : String} {settings : SandboxSettings}
    (h : b.writeTempSandboxSettings host = .ok (file, settings)) : settings = b.sandboxSettings host := by
  unfold Builder.writeTempSandboxSettings at h
  split at h <;> first | cases h; done | skip
  obtain ⟨_, rfl⟩ := Prod.mk.inj (Except.ok.inj h)
  rfl

theorem build_wrapped (sandboxed : b.sandbox = true) {start : Cmd × Option (String × SandboxSettings)}
    (h : b.build host = .ok start) : Wrapped b host start := by
  obtain ⟨absCmd, resolved, h⟩ := bind_ok h
  obtain ⟨⟨path, args, settings⟩, wrapped, h⟩ := bind_ok h
  obtain ⟨cred, _, h⟩ := bind_ok h
  obtain ⟨cmd, assembled, h⟩ := bind_ok h
  obtain rfl := Except.ok.inj h
  unfold Builder.wrap at wrapped
  rw [if_pos sandboxed] at wrapped
  obtain ⟨srt, found, wrapped⟩ := bind_ok wrapped
  obtain ⟨⟨file, written⟩, wrote, wrapped⟩ := bind_ok wrapped
  obtain ⟨rfl, rest⟩ := Prod.mk.inj (Except.ok.inj wrapped)
  obtain ⟨rfl, rfl⟩ := Prod.mk.inj rest
  obtain ⟨atPath, withArgs, _, _⟩ := command_ok assembled
  obtain rfl := writeTempSandboxSettings_ok (fails_ok wrote)
  exact ⟨srt, absCmd, file, fails_ok found, resolved, atPath, withArgs, rfl⟩

theorem build_failure (knows : KnowsUser b host) {stop : Stop} (h : b.build host = .error stop) :
    ∃ e, stop = .failed e := by
  rcases bind_error h with h | ⟨absCmd, _, h⟩
  · exact resolve_failure knows h
  rcases bind_error h with h | ⟨_, _, h⟩
  · exact wrap_failure h
  rcases bind_error h with h | ⟨_, _, h⟩
  · exact absurd h (credential_known knows)
  rcases bind_error h with h | ⟨_, _, h⟩
  · exact absurd h (command_known knows)
  · cases h

theorem contains_failed {α : Type} {logged : List Record} {e : String} :
    Contains b host ({ logged := logged, result := .error (.failed e) } : Execution α) := by
  refine ⟨fun start member => ?_, fun _ => ⟨e, rfl⟩⟩
  cases member

theorem spawn_contains (sandboxed : b.sandbox = true) (knows : KnowsUser b host) : Contains b host (b.spawn host) := by
  unfold Builder.spawn
  cases built : b.build host with
  | error stop =>
    obtain ⟨e, rfl⟩ := build_failure knows built
    exact contains_failed
  | ok start =>
    obtain ⟨cmd, settings⟩ := start
    cases failed : b.spawnError host cmd with
    | some e =>
      simp only [failed]
      exact contains_failed
    | none =>
      simp only [failed]
      refine ⟨fun start member => ?_, fun nothing => ?_⟩
      · obtain rfl := List.mem_singleton.mp member
        exact build_wrapped sandboxed built
      · cases nothing

theorem runCommand_failure (knows : KnowsUser b host) {stop : Stop} (h : b.runCommand host = .error stop) :
    (∃ e, stop = .failed e) ∧ Lacks b host := by
  rcases bind_error h with h | ⟨path, _, h⟩
  · obtain ⟨found, resolves, lacks⟩ := resolve_eq knows
    rw [resolves] at h
    obtain ⟨e, missing, rfl⟩ := fails_error h
    exact ⟨⟨_, rfl⟩, lacks.mpr ⟨e, missing⟩⟩
  rcases bind_error h with h | ⟨cred, _, h⟩
  · exact absurd h (credential_known knows)
  · exact absurd h (command_known knows)

theorem runCommand_ok (knows : KnowsUser b host) {cmd : Cmd} (h : b.runCommand host = .ok cmd) :
    ¬ Lacks b host ∧ cmd.ctx = b.ctx ∧ cmd.cancelled = false := by
  obtain ⟨path, resolved, h⟩ := bind_ok h
  obtain ⟨cred, _, h⟩ := bind_ok h
  obtain ⟨_, _, context, alive⟩ := command_ok h
  refine ⟨fun missing => ?_, context, alive⟩
  obtain ⟨found, resolves, lacks⟩ := resolve_eq knows
  obtain ⟨e, rfl⟩ := lacks.mp missing
  rw [resolves] at resolved
  cases resolved

theorem start_none {cmd : Cmd} (context : cmd.ctx = b.ctx) (alive : cmd.cancelled = false) :
    host.start cmd = none ↔ ¬ ((b.ctx.bind host.ctxErr).isSome = true ∨ host.startError.isSome = true) := by
  unfold Host.start
  rw [alive, context]
  cases b.ctx.bind host.ctxErr <;> simp

theorem runError_none {cmd : Cmd} (context : cmd.ctx = b.ctx) (alive : cmd.cancelled = false) :
    b.runError host cmd = none ↔ ¬ Refuses b host := by
  have started : host.start cmd = none ↔ _ := start_none context alive
  unfold Builder.runError Refuses
  rw [not_or, ← started]
  by_cases pipes : b.lineHandler.isSome = true ∨ b.outputMode = .combined
  · have piped : (b.lineHandler.isSome || decide (b.outputMode = .combined)) = true := by simpa using pipes
    simp only [piped, pipes, if_true, true_and]
    cases host.stdoutPipe <;> cases host.stderrPipe <;> cases host.start cmd <;> simp
  · have bare : (b.lineHandler.isSome || decide (b.outputMode = .combined)) = false := by simpa using pipes
    simp only [bare, pipes, false_and, not_false_iff, true_and]
    cases host.start cmd <;> simp

theorem run_contains (knows : KnowsUser b host) :
    Contains b host (b.run host) ↔ Lacks b host ∨ Refuses b host := by
  unfold Builder.run
  cases assembled : b.runCommand host with
  | error stop =>
    obtain ⟨⟨e, rfl⟩, lacks⟩ := runCommand_failure knows assembled
    exact iff_of_true contains_failed (.inl lacks)
  | ok cmd =>
    obtain ⟨found, context, alive⟩ := runCommand_ok knows assembled
    have starts : b.runError host cmd = none ↔ ¬ Refuses b host := runError_none context alive
    cases refused : b.runError host cmd with
    | some e =>
      have refuses : Refuses b host := by
        by_contra accepts
        rw [starts.mpr accepts] at refused
        cases refused
      simp only [refused]
      exact iff_of_true contains_failed (.inr refuses)
    | none =>
      simp only [refused]
      refine iff_of_false (fun contains => ?_) (not_or.mpr ⟨found, starts.mp refused⟩)
      -- Whether the wait fails or not, the process was started without settings.
      have bare : Wrapped b host (cmd, none) := by
        apply contains.1
        cases host.wait.error <;> exact List.mem_singleton_self _
      obtain ⟨_, _, _, _, _, _, _, settings⟩ := bare
      cases settings

theorem unknown_contains (unknown : ¬ KnowsUser b host) (entry : EntryPoint) : ¬ Contained b host entry := by
  have stops := resolve_unknown unknown
  intro contained
  cases entry with
  | run =>
    have panics : b.run host = { result := .error nilPointer } := by
      simp [Builder.run, Builder.runCommand, stops, bind, Except.bind, nilPointer]
    simp only [Contained, panics] at contained
    obtain ⟨e, failed⟩ := contained.2 rfl
    cases failed
  | spawn =>
    have panics : b.spawn host = { result := .error nilPointer } := by
      simp [Builder.spawn, Builder.build, stops, bind, Except.bind]
    simp only [Contained, panics] at contained
    obtain ⟨e, failed⟩ := contained.2 rfl
    cases failed

/-- The command is contained exactly when its user is known and either `Spawn` runs it or a run
cannot start it at all. -/
theorem contained_iff {fresh : Builder} {ms : List Method} (configured : fresh.applyAll reg ms = .ok b)
    (inSandbox : .inSandbox ∈ ms) (entry : EntryPoint) :
    Contained b host entry ↔ KnowsUser b host ∧ (entry = .spawn ∨ Lacks b host ∨ Refuses b host) := by
  have sandboxed : b.sandbox = true := (applyAll_sandbox configured).mpr (.inr inSandbox)
  by_cases knows : KnowsUser b host
  · cases entry with
    | run => simp [Contained, run_contains knows, knows]
    | spawn => simp [Contained, spawn_contains sandboxed knows, knows]
  · simp [unknown_contains knows entry, knows]

/-! ### A listing -/

def ls : Builder := { callerModule := "api", name := "ls", args := ["-l"] }

theorem ls_created : new "api" "ls" ["-l"] = .ok ls := rfl

/-- Every command is in /bin, and nobody is known. -/
def plainHost : Host where
  lookup _ := .error "unknown user"
  lookPath name := .ok ("/bin/" ++ name)
  lookPathIn _ name := .ok ("/bin/" ++ name)
  isNotExist p := decide (p ≠ "/run")
  createTemp := .ok "/tmp/cmdrunner-sandbox-1.json"

def nobody : Registries where
  lookup _ := .error "unknown user"

theorem ls_sandboxed : ls.applyAll nobody [.inSandbox] = .ok ls.inSandbox := rfl

theorem contained_iff_ls : (ls.inSandbox.spawn plainHost).started ≠ [] ∧
    (Contained ls.inSandbox plainHost .spawn ↔
      KnowsUser ls.inSandbox plainHost ∧
        (EntryPoint.spawn = .spawn ∨ Lacks ls.inSandbox plainHost ∨ Refuses ls.inSandbox plainHost)) :=
  ⟨by decide, contained_iff ls_sandboxed (List.mem_singleton_self _) .spawn⟩

/-- `Run` starts the listing bare. -/
theorem run_bare : ¬ ∀ (callerModule name : String) (args : List String) (fresh b : Builder) (reg : Registries)
    (ms : List Method) (host : Host) (entry : EntryPoint), new callerModule name args = .ok fresh →
    fresh.applyAll reg ms = .ok b → .inSandbox ∈ ms → Contained b host entry := by
  intro claim
  have contained : Contained ls.inSandbox plainHost .run :=
    claim "api" "ls" ["-l"] ls ls.inSandbox nobody [.inSandbox] plainHost .run ls_created ls_sandboxed
      (List.mem_singleton_self _)
  have startedBare : (ls.inSandbox.run plainHost).started.any (fun start => start.2.isNone) = true := by decide
  obtain ⟨start, member, bare⟩ := List.any_eq_true.mp startedBare
  obtain ⟨_, _, _, _, _, _, _, settings⟩ := contained.1 start member
  rw [settings] at bare
  cases bare

end Sandbox
end HomelabDaemon.Cmdrunner
