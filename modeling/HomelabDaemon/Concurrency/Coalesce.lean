import HomelabDaemon.Concurrency.Trace
import Mathlib.Data.Nat.Init

/-!
# Coalesced triggers

A channel with one place. A sender that finds the place taken drops its token, and one worker, which comes
back to its select, takes the token and starts a run.
-/

namespace Concurrency

structure Channel where
  token : Bool := false
  deriving DecidableEq

namespace Channel
variable {c c' : Channel}

/-- A send, which waits while the place is taken. -/
def place (c : Channel) : Option Channel :=
  if c.token then none else some { token := true }

/-- A select of a send and an empty default case. -/
def send (c : Channel) : Channel := c.place.getD c

def receive (c : Channel) : Option Channel :=
  if c.token then some { token := false } else none

@[simp] theorem send_token (c : Channel) : c.send.token = true := by
  unfold send place
  split
  · assumption
  · rfl

theorem receive_token (received : c.receive = some c') : c.token = true ∧ c'.token = false := by
  unfold receive at received
  split at received
  · cases received
    exact ⟨‹_›, rfl⟩
  · cases received

end Channel

/-- A worker with a channel, among any number of callers. -/
structure Worker (S E Client : Type) where
  start : S
  step : S → E → Option S
  channel : S → Channel
  /-- The worker waits at its select. -/
  Selects : S → Prop
  /-- The worker runs what it is triggered for. -/
  Runs : S → Prop
  call : Client → E
  /-- The events that ask for a run, the calls among them. -/
  triggers : E → Bool
  begins : E → Bool

namespace Worker
variable {S E Client : Type} (W : Worker S E Client)

inductive Moves (e : E) (c c' : Channel) : Prop where
  | stays (asks : W.triggers e = false) (begins : W.begins e = false) (same : c' = c)
  | sends (asks : W.triggers e = true) (begins : W.begins e = false) (sent : c' = c.send)
  | receives (asks : W.triggers e = false) (begins : W.begins e = true) (received : c.receive = some c')

structure Disciplined : Prop where
  fresh : W.channel W.start = {}
  moves : ∀ s e s', W.step s e = some s' → W.Moves e (W.channel s) (W.channel s')
  calls : ∀ client, W.triggers (W.call client) = true
  accepts : ∀ s client, (W.step s (W.call client)).isSome = true
  runs : ∀ s e s', W.step s e = some s' → (W.begins e = true ↔ W.Selects s ∧ W.Runs s')
  ready : ∀ s, W.Selects s → (W.channel s).token = true → ∃ e s', W.begins e = true ∧ W.step s e = some s'

/-- A trigger came after the newest start of a run. -/
def Owed (events : List E) : Prop :=
  ∃ before e after, events = before ++ e :: after ∧ W.triggers e = true ∧ ∀ e' ∈ after, W.begins e' = false

structure Endless (states : Nat → S) (events : Nat → E) : Prop where
  start : states 0 = W.start
  step : ∀ n, W.step (states n) (events n) = some (states (n + 1))

def KeepsLooping (states : Nat → S) : Prop := ∀ n, ∃ m, n ≤ m ∧ W.Selects (states m)

/-- A select does not always pass over a case that is ready again and again. -/
def SelectsFairly (states : Nat → S) (events : Nat → E) : Prop :=
  (∀ n, ∃ m, n ≤ m ∧ W.Selects (states m) ∧ (W.channel (states m)).token = true) →
    ∀ n, ∃ m, n ≤ m ∧ W.begins (events m) = true

structure Coalesces : Prop where
  calls : ∀ client, W.triggers (W.call client) = true
  never_blocks : ∀ s client, (W.step s (W.call client)).isSome = true
  runs : ∀ s e s', W.step s e = some s' → (W.begins e = true ↔ W.Selects s ∧ W.Runs s')
  ready : ∀ s, W.Selects s → (W.channel s).token = true → ∃ e s', W.begins e = true ∧ W.step s e = some s'
  held : ∀ events s, Trace.run W.step W.start events = some s → W.Owed events → (W.channel s).token = true
  bounded : ∀ events s, Trace.run W.step W.start events = some s → events.countP W.begins ≤ events.countP W.triggers
  begins : ∀ states events, W.Endless states events → W.KeepsLooping states → W.SelectsFairly states events →
    ∀ k, W.triggers (events k) = true → ∃ m, k < m ∧ W.begins (events m) = true

variable {W} {s : S} {e : E} {events : List E} {c c' : Channel}

theorem owed_append : W.Owed (events ++ [e]) ↔ W.triggers e = true ∨ (W.begins e = false ∧ W.Owed events) := by
  constructor
  · rintro ⟨before, e', after, split, asks, none⟩
    rcases List.eq_nil_or_concat after with rfl | ⟨after, last, rfl⟩
    · have same := (List.append_inj' split rfl).2
      simp only [List.cons.injEq, and_true] at same
      exact .inl (same ▸ asks)
    · have split : events ++ [e] = (before ++ e' :: after) ++ [last] := by simpa using split
      have parts := List.append_inj' split rfl
      have same : e = last := by simpa using parts.2
      subst same
      exact .inr ⟨none e (by simp), before, e', after, parts.1, asks, fun e'' member => none e'' (by simp [member])⟩
  · rintro (asks | ⟨quiet, before, e', after, rfl, asks, none⟩)
    · exact ⟨events, e, [], rfl, asks, by simp⟩
    · refine ⟨before, e', after ++ [e], by simp, asks, fun e'' member => ?_⟩
      rcases List.mem_append.mp member with earlier | last
      · exact none e'' earlier
      · rw [List.mem_singleton.mp last]
        exact quiet

/-- The token stands for what is owed. -/
structure Sound (W : Worker S E Client) (events : List E) (c : Channel) : Prop where
  owed : W.Owed events ↔ c.token = true
  bounded : events.countP W.begins + c.token.toNat ≤ events.countP W.triggers

theorem Moves.sound (moves : W.Moves e c c') (sound : Sound W events c) : Sound W (events ++ [e]) c' := by
  obtain ⟨owed, bounded⟩ := sound
  cases moves with
  | stays asks begins same =>
    subst same
    refine ⟨by simp [owed_append, asks, begins, owed], ?_⟩
    simpa [asks, begins] using bounded
  | sends asks begins sent =>
    subst sent
    refine ⟨by simp [owed_append, asks], ?_⟩
    simp only [List.countP_append, List.countP_singleton, asks, begins, Channel.send_token, Bool.toNat_true, if_true,
      Bool.false_eq_true, if_false]
    omega
  | receives asks begins received =>
    obtain ⟨full, empty⟩ := Channel.receive_token received
    refine ⟨by simp [owed_append, asks, begins, empty], ?_⟩
    simp only [full, Bool.toNat_true] at bounded
    simpa [asks, begins, empty] using bounded

/-- Only a begin takes the token away. -/
theorem Moves.token (moves : W.Moves e c c') (quiet : W.begins e = false) (full : c.token = true) :
    c'.token = true := by
  cases moves with
  | stays _ _ same => rwa [same]
  | sends _ _ sent => rw [sent, Channel.send_token]
  | receives _ begins => cases quiet.symm.trans begins

theorem Disciplined.sound (disciplined : W.Disciplined) (ran : Trace.run W.step W.start events = some s) :
    Sound W events (W.channel s) := by
  refine Trace.run_history (P := fun events s => Sound W events (W.channel s)) ?_ ?_ ran
  · rw [disciplined.fresh]
    exact ⟨iff_of_false (fun ⟨_, _, _, split, _⟩ => absurd split (by simp)) (by decide), Nat.le_refl 0⟩
  · intro before t e t' _ sound stepped
    exact (disciplined.moves t e t' stepped).sound sound

theorem token_stays (disciplined : W.Disciplined) {states : Nat → S} {events : Nat → E} (run : W.Endless states events)
    {k : Nat} (full : (W.channel (states k)).token = true)
    (none : ∀ m, k ≤ m → W.begins (events m) = false) (m : Nat) (later : k ≤ m) :
    (W.channel (states m)).token = true := by
  induction m, later using Nat.le_induction with
  | base => exact full
  | succ m later ih => exact (disciplined.moves _ _ _ (run.step m)).token (none m later) ih

theorem Disciplined.triggered (disciplined : W.Disciplined) {s' : S} (stepped : W.step s e = some s')
    (asks : W.triggers e = true) : (W.channel s').token = true := by
  cases disciplined.moves s e s' stepped with
  | sends _ _ sent => rw [sent, Channel.send_token]
  | stays quiet | receives quiet => cases quiet.symm.trans asks

theorem Disciplined.coalesces (disciplined : W.Disciplined) : W.Coalesces where
  calls := disciplined.calls
  never_blocks := disciplined.accepts
  runs := disciplined.runs
  ready := disciplined.ready
  held _ _ ran owed := (disciplined.sound ran).owed.mp owed
  bounded _ _ ran := by
    have bounded := (disciplined.sound ran).bounded
    omega
  begins states events run loops fair k asks := by
    by_contra none
    have quiet : ∀ m, k + 1 ≤ m → W.begins (events m) = false := by
      intro m later
      rw [← Bool.not_eq_true]
      exact fun begins => none ⟨m, later, begins⟩
    have full := disciplined.triggered (run.step k) asks
    have stays := token_stays disciplined run full quiet
    obtain ⟨m, later, begins⟩ := fair (fun n => by
      obtain ⟨m, later, selects⟩ := loops (max n (k + 1))
      exact ⟨m, Nat.le_trans (Nat.le_max_left _ _) later, selects, stays m (Nat.le_trans (Nat.le_max_right _ _) later)⟩)
        (k + 1)
    exact absurd begins (by rw [quiet m later]; decide)

end Worker
end Concurrency
