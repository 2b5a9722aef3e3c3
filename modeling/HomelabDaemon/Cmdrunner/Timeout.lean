import HomelabDaemon.Cmdrunner.Sandbox

/-!
# Timeouts

`Run` keeps the context of a timeout until it returns. `build` cancels it when `build` returns, and
`Spawn` starts the command after that.
-/

namespace HomelabDaemon.Cmdrunner

namespace Timeout
open Sandbox

variable {reg : Registries} {b : Builder} {d : Int} {host : Host}

def withTimeout (b : Builder) (d : Int) : Builder := { b with timeout := d }

theorem apply_withTimeout : b.apply reg (.withTimeout d) = .ok (withTimeout b d) := rfl

/-- What the operating system is asked to start. -/
structure Process where
  path : String
  args : List String
  dir : String
  credential : Option Credential
  env : Option (List String)
  deriving DecidableEq

def process (cmd : Cmd) : Process where
  path := cmd.path
  args := cmd.args
  dir := cmd.dir
  credential := cmd.credential
  env := cmd.env

def processes {α : Type} (call : Execution α) : List Process := call.started.map fun start => process start.1

/-- The context of a command, after a time that began with the timeout. -/
def done (cmd : Cmd) (timeout elapsed : Int) (callerDone : Bool) : Prop :=
  cmd.cancelled = true ∨ (0 < timeout ∧ timeout ≤ elapsed) ∨ callerDone = true

/-- The timeout only bounds what is spawned. -/
structure OnlyBounds (b : Builder) (d : Int) (host : Host) : Prop where
  spawned : processes ((withTimeout b d).spawn host) = processes ((withTimeout b 0).spawn host)
  ran : processes ((withTimeout b d).spawn host) = processes (b.run host)
  lives : ∀ cmd settings, (withTimeout b d).build host = .ok (cmd, settings) →
    ∀ elapsed callerDone, done cmd d elapsed callerDone → d ≤ elapsed ∨ callerDone = true

/-- Outside a sandbox both copies put the same command together; only the context differs. -/
theorem build_eq (bare : b.sandbox = false) :
    b.build host = (b.runCommand host).map fun cmd => ({ cmd with cancelled := decide (0 < b.timeout) }, none) := by
  have unwrapped : ∀ absCmd, b.wrap host absCmd = .ok (absCmd, b.args, none) := by
    intro absCmd
    simp [Builder.wrap, bare]
  unfold Builder.build Builder.runCommand Builder.command
  cases b.resolve host with
  | error stop => rfl
  | ok absCmd =>
    show (b.wrap host absCmd >>= _) = _
    rw [unwrapped]
    cases b.credential host with
    | error stop => rfl
    | ok cred => cases b.environment host <;> rfl

theorem runCommand_withTimeout : (withTimeout b d).runCommand host = b.runCommand host := rfl

theorem runCommand_eq_ok : (∃ cmd, b.runCommand host = .ok cmd) ↔ KnowsUser b host ∧ ¬ Lacks b host := by
  constructor
  · rintro ⟨cmd, assembled⟩
    have knows : KnowsUser b host := by
      by_contra unknown
      obtain ⟨absCmd, resolved, _⟩ := bind_ok assembled
      rw [resolve_unknown unknown] at resolved
      cases resolved
    exact ⟨knows, (runCommand_ok knows assembled).1⟩
  · rintro ⟨knows, found⟩
    cases assembled : b.runCommand host with
    | ok cmd => exact ⟨cmd, rfl⟩
    | error stop => exact absurd (runCommand_failure knows assembled).2 found

theorem build_withTimeout (bare : b.sandbox = false) {cmd : Cmd} (assembled : b.runCommand host = .ok cmd) :
    (withTimeout b d).build host = .ok ({ cmd with cancelled := decide (0 < d) }, none) := by
  have same : (withTimeout b d).build host = _ := build_eq bare
  rw [same, runCommand_withTimeout, assembled]
  rfl

theorem build_withTimeout_error (bare : b.sandbox = false) {stop : Stop} (failed : b.runCommand host = .error stop) :
    (withTimeout b d).build host = .error stop := by
  have same : (withTimeout b d).build host = _ := build_eq bare
  rw [same, runCommand_withTimeout, failed]
  rfl

theorem processes_unbuilt {stop : Stop} (bare : b.sandbox = false) (failed : b.runCommand host = .error stop) :
    processes ((withTimeout b d).spawn host) = [] ∧ processes (b.run host) = [] := by
  unfold processes Builder.spawn Builder.run
  rw [build_withTimeout_error bare failed, failed]
  cases stop <;> exact ⟨rfl, rfl⟩

theorem cancelled_early (bare : b.sandbox = false) (timed : 0 < d) {cmd : Cmd}
    (assembled : b.runCommand host = .ok cmd) :
    ¬ OnlyBounds b d host := by
  intro bounds
  rcases bounds.lives _ _ (build_withTimeout bare assembled) 0 false (.inl (decide_eq_true timed)) with elapsed | ended
  · omega
  · cases ended

/-- The timeout only bounds the process exactly when there is no process to start, because the user or the
command is unknown. -/
theorem onlyBounds_iff (bare : b.sandbox = false) (timed : 0 < d) :
    OnlyBounds b d host ↔ ¬ KnowsUser b host ∨ Lacks b host := by
  have builds : (∃ cmd, b.runCommand host = .ok cmd) ↔ _ := runCommand_eq_ok
  constructor
  · intro bounds
    by_contra found
    obtain ⟨knows, found⟩ := not_or.mp found
    obtain ⟨cmd, assembled⟩ := builds.mpr ⟨not_not.mp knows, found⟩
    exact cancelled_early bare timed assembled bounds
  · intro missing
    cases assembled : b.runCommand host with
    | ok cmd =>
      obtain ⟨knows, found⟩ := builds.mp ⟨cmd, assembled⟩
      rcases missing with unknown | lacks
      · exact absurd knows unknown
      · exact absurd lacks found
    | error stop =>
      obtain ⟨timedNothing, ranNothing⟩ := processes_unbuilt (d := d) bare assembled
      obtain ⟨untimedNothing, _⟩ := processes_unbuilt (d := 0) bare assembled
      refine ⟨timedNothing.trans untimedNothing.symm, timedNothing.trans ranNothing.symm, ?_⟩
      intro cmd settings built
      rw [build_withTimeout_error bare assembled] at built
      cases built

/-- A listing that is there is spawned without a timeout, and not with one. -/
theorem onlyBounds_iff_ls : processes ((withTimeout ls 0).spawn plainHost) ≠ [] ∧
    (OnlyBounds ls 5000000000 plainHost ↔ ¬ KnowsUser ls plainHost ∨ Lacks ls plainHost) :=
  ⟨by decide, onlyBounds_iff rfl (by decide)⟩

theorem ls_cancelled : ¬ ∀ (b : Builder) (d : Int) (host : Host), b.sandbox = false → 0 < d → OnlyBounds b d host := by
  intro claim
  have bounds := claim ls 5000000000 plainHost rfl (by decide)
  have differs : processes ((withTimeout ls 5000000000).spawn plainHost) ≠ processes (ls.run plainHost) := by decide
  exact differs bounds.ran

end Timeout
end HomelabDaemon.Cmdrunner
