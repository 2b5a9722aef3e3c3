import HomelabDaemon.Concurrency.Coalesce

/-!
# Triggered workers

The loops of the container update checker and of the vpn module, between any calls that ask for a run.
-/

namespace HomelabDaemon
open Concurrency

namespace Updates

inductive Phase where
  | starting | selecting | checking | stopped

structure Module where
  phase : Phase := .starting
  checkTrigger : Channel := {}

def Module.triggerCheck (m : Module) : Module :=
  { m with checkTrigger := m.checkTrigger.send }

inductive Event (Client : Type) where
  | triggerCheck (client : Client)
  | initialCheck
  | ticker
  | receive
  | checksCompleted
  | done

/-- One step of a client or of Start, whose `runChecks` takes any time. -/
def Module.step {Client : Type} (m : Module) : Event Client → Option Module
  | .triggerCheck _ => some m.triggerCheck
  | .initialCheck => match m.phase with
    | .starting => some { m.triggerCheck with phase := .selecting }
    | _ => none
  | .ticker => match m.phase with
    | .selecting => some m.triggerCheck
    | _ => none
  | .receive => match m.phase with
    | .selecting => m.checkTrigger.receive.map fun c => { phase := .checking, checkTrigger := c }
    | _ => none
  | .checksCompleted => match m.phase with
    | .checking => some { m with phase := .selecting }
    | _ => none
  | .done => match m.phase with
    | .selecting => some { m with phase := .stopped }
    | _ => none

def worker (Client : Type) : Worker Module (Event Client) Client where
  start := {}
  step := Module.step
  channel := Module.checkTrigger
  Selects m := m.phase = .selecting
  Runs m := m.phase = .checking
  call := .triggerCheck
  triggers
    | .triggerCheck _ | .initialCheck | .ticker => true
    | .receive | .checksCompleted | .done => false
  begins
    | .receive => true
    | _ => false

variable {Client : Type} {m m' : Module}

theorem worker_moves {e : Event Client} (stepped : m.step e = some m') :
    (worker Client).Moves e m.checkTrigger m'.checkTrigger := by
  cases e with
  | triggerCheck =>
    obtain rfl := Option.some.inj stepped
    exact .sends rfl rfl rfl
  | receive =>
    simp only [Module.step] at stepped
    split at stepped
    · obtain ⟨c, received, rfl⟩ := Option.map_eq_some_iff.mp stepped
      exact .receives rfl rfl received
    · cases stepped
  | initialCheck | ticker =>
    simp only [Module.step] at stepped
    split at stepped
    · obtain rfl := Option.some.inj stepped
      exact .sends rfl rfl rfl
    · cases stepped
  | checksCompleted | done =>
    simp only [Module.step] at stepped
    split at stepped
    · obtain rfl := Option.some.inj stepped
      exact .stays rfl rfl rfl
    · cases stepped

theorem worker_runs {e : Event Client} (stepped : m.step e = some m') :
    (worker Client).begins e = true ↔ m.phase = .selecting ∧ m'.phase = .checking := by
  cases e with
  | receive =>
    simp only [Module.step] at stepped
    split at stepped
    · rename_i selects
      obtain ⟨c, _, rfl⟩ := Option.map_eq_some_iff.mp stepped
      exact iff_of_true rfl ⟨selects, rfl⟩
    · cases stepped
  | triggerCheck client =>
    obtain rfl := Option.some.inj stepped
    refine iff_of_false Bool.false_ne_true fun ⟨selects, runs⟩ => ?_
    cases selects.symm.trans runs
  | initialCheck | ticker | checksCompleted | done =>
    simp only [Module.step] at stepped
    split at stepped
    · rename_i phase
      obtain rfl := Option.some.inj stepped
      refine iff_of_false Bool.false_ne_true fun ⟨selects, runs⟩ => ?_
      simp_all [Module.triggerCheck]
    · cases stepped

theorem worker_disciplined (Client : Type) : (worker Client).Disciplined where
  fresh := rfl
  moves _ _ _ := worker_moves
  calls _ := rfl
  accepts _ _ := rfl
  runs _ _ _ := worker_runs
  ready m selects full := by
    refine ⟨.receive, { phase := .checking, checkTrigger := { token := false } }, rfl, ?_⟩
    have selects : m.phase = .selecting := selects
    have full : m.checkTrigger.token = true := full
    simp only [worker, Module.step, selects, Channel.receive, full, if_true, Option.map_some]

end Updates

/-! ### Reconnect and Start of the vpn module -/

namespace VpnLoop

inductive Phase where
  | starting | selecting | reconnecting | ticking | checkingHealth | stopped

structure Module where
  enabled : Bool
  phase : Phase := .starting
  reconnect : Channel := {}

inductive Event (Client : Type) where
  | reconnect (client : Client)
  /-- Start has returned, or run the first setup and tick. -/
  | started
  | receive
  | portTicker
  | healthTicker
  | caseCompleted
  | done

def Module.step {Client : Type} (m : Module) : Event Client → Option Module
  | .reconnect _ => some { m with reconnect := m.reconnect.send }
  | .started => match m.phase with
    | .starting => some { m with phase := if m.enabled then .selecting else .stopped }
    | _ => none
  | .receive => match m.phase with
    | .selecting => m.reconnect.receive.map fun c => { m with phase := .reconnecting, reconnect := c }
    | _ => none
  | .portTicker => match m.phase with
    | .selecting => some { m with phase := .ticking }
    | _ => none
  | .healthTicker => match m.phase with
    | .selecting => some { m with phase := .checkingHealth }
    | _ => none
  | .caseCompleted => match m.phase with
    | .reconnecting | .ticking | .checkingHealth => some { m with phase := .selecting }
    | _ => none
  | .done => match m.phase with
    | .selecting => some { m with phase := .stopped }
    | _ => none

def worker (Client : Type) (enabled : Bool) : Worker Module (Event Client) Client where
  start := { enabled }
  step := Module.step
  channel := Module.reconnect
  Selects m := m.phase = .selecting
  Runs m := m.phase = .reconnecting
  call := .reconnect
  triggers
    | .reconnect _ => true
    | _ => false
  begins
    | .receive => true
    | _ => false

variable {Client : Type} {enabled : Bool} {m m' : Module}

theorem worker_moves {e : Event Client} (stepped : m.step e = some m') :
    (worker Client enabled).Moves e m.reconnect m'.reconnect := by
  cases e with
  | reconnect =>
    obtain rfl := Option.some.inj stepped
    exact .sends rfl rfl rfl
  | receive =>
    simp only [Module.step] at stepped
    split at stepped
    · obtain ⟨c, received, rfl⟩ := Option.map_eq_some_iff.mp stepped
      exact .receives rfl rfl received
    · cases stepped
  | started | portTicker | healthTicker | caseCompleted | done =>
    simp only [Module.step] at stepped
    split at stepped <;> first
      | (obtain rfl := Option.some.inj stepped; exact .stays rfl rfl rfl)
      | cases stepped

theorem worker_runs {e : Event Client} (stepped : m.step e = some m') :
    (worker Client enabled).begins e = true ↔ m.phase = .selecting ∧ m'.phase = .reconnecting := by
  cases e with
  | receive =>
    simp only [Module.step] at stepped
    split at stepped
    · rename_i selects
      obtain ⟨c, _, rfl⟩ := Option.map_eq_some_iff.mp stepped
      exact iff_of_true rfl ⟨selects, rfl⟩
    · cases stepped
  | reconnect client =>
    obtain rfl := Option.some.inj stepped
    refine iff_of_false Bool.false_ne_true fun ⟨selects, runs⟩ => ?_
    cases selects.symm.trans runs
  | started | portTicker | healthTicker | caseCompleted | done =>
    simp only [Module.step] at stepped
    split at stepped
    all_goals cases stepped
    all_goals
      refine iff_of_false Bool.false_ne_true fun ⟨selects, runs⟩ => ?_
      simp_all

theorem worker_disciplined (Client : Type) (enabled : Bool) : (worker Client enabled).Disciplined where
  fresh := rfl
  moves _ _ _ := worker_moves
  calls _ := rfl
  accepts _ _ := rfl
  runs _ _ _ := worker_runs
  ready m selects full := by
    refine ⟨.receive, { m with phase := .reconnecting, reconnect := { token := false } }, rfl, ?_⟩
    have selects : m.phase = .selecting := selects
    have full : m.reconnect.token = true := full
    simp only [worker, Module.step, selects, Channel.receive, full, if_true, Option.map_some]

end VpnLoop

/-- Triggers of both workers are coalesced and never lost, among any clients. -/
theorem triggers_coalesce (Client : Type) (enabled : Bool) :
    (Updates.worker Client).Coalesces ∧ (VpnLoop.worker Client enabled).Coalesces :=
  ⟨(Updates.worker_disciplined Client).coalesces, (VpnLoop.worker_disciplined Client enabled).coalesces⟩

/-- Three in turn, again and again. -/
def turns {α : Type} (a b c : α) (n : Nat) : α := if n % 3 = 0 then a else if n % 3 = 1 then b else c

theorem turns_first {α : Type} (a b c : α) (n : Nat) : turns a b c (3 * n) = a := if_pos (Nat.mul_mod_right 3 n)

theorem turns_second {α : Type} (a b c : α) (n : Nat) : turns a b c (3 * n + 1) = b := by
  have second : (3 * n + 1) % 3 = 1 := by omega
  rw [turns, second]
  rfl

/-- A run that comes by three states again and again. -/
theorem endless_turns {S E Client : Type} {W : Worker S E Client} (first e₀ e₁ e₂ : E) {s₀ s₁ s₂ : S}
    (start : W.step W.start first = some s₀) (step₀ : W.step s₀ e₀ = some s₁) (step₁ : W.step s₁ e₁ = some s₂)
    (step₂ : W.step s₂ e₂ = some s₀) :
    W.Endless (fun n => Nat.casesOn n W.start (turns s₀ s₁ s₂)) (fun n => Nat.casesOn n first (turns e₀ e₁ e₂)) where
  start := rfl
  step n := by
    cases n with
    | zero => exact start
    | succ n =>
      show W.step (turns s₀ s₁ s₂ n) (turns e₀ e₁ e₂ n) = some (turns s₀ s₁ s₂ (n + 1))
      unfold turns
      have turn : n % 3 = 0 ∨ n % 3 = 1 ∨ n % 3 = 2 := by omega
      rcases turn with turn | turn | turn
      · rwa [turn, Nat.add_mod, turn]
      · rwa [turn, Nat.add_mod, turn]
      · rwa [turn, Nat.add_mod, turn]

/-- A call after a completed run is followed by another run, of either worker. -/
theorem triggers_coalesce_called :
    (∃ events : Nat → Updates.Event Unit, events 3 = .triggerCheck () ∧ ∃ m, 3 < m ∧
    (Updates.worker Unit).begins (events m) = true) ∧
    ∃ events : Nat → VpnLoop.Event Unit, events 4 = .reconnect () ∧ ∃ m, 4 < m ∧
    (VpnLoop.worker Unit true).begins (events m) = true := by
  obtain ⟨updates, vpn⟩ := triggers_coalesce Unit true
  constructor
  · have run : (Updates.worker Unit).Endless _ _ :=
      endless_turns .initialCheck .receive .checksCompleted (.triggerCheck ()) rfl rfl rfl rfl
    refine ⟨_, rfl, updates.begins _ _ run (fun n => ⟨3 * n + 1, by omega, ?_⟩)
      (fun _ n => ⟨3 * n + 1, by omega, ?_⟩) 3 rfl⟩
    · exact congrArg Updates.Module.phase (turns_first _ _ _ n)
    · exact congrArg (Updates.worker Unit).begins (turns_first _ _ _ n)
  · have run : (VpnLoop.worker Unit true).Endless _ _ :=
      endless_turns .started (.reconnect ()) .receive .caseCompleted rfl rfl rfl rfl
    refine ⟨_, rfl, vpn.begins _ _ run (fun n => ⟨3 * n + 1, by omega, ?_⟩)
      (fun _ n => ⟨3 * n + 2, by omega, ?_⟩) 4 rfl⟩
    · exact congrArg VpnLoop.Module.phase (turns_first _ _ _ n)
    · exact congrArg (VpnLoop.worker Unit true).begins (turns_second _ _ _ n)

end HomelabDaemon
