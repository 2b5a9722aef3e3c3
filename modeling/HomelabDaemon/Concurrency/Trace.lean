import Mathlib.Data.List.Induction

/-!
# Runs of a step function

A system takes a step at an event or cannot; a list of events, the oldest first, is a run as far as each of its
steps can be taken.
-/

namespace Concurrency

variable {S E : Type}

namespace Trace
variable (step : S → E → Option S)

def run (s : S) (events : List E) : Option S := events.foldlM step s

/-- Every state that the run comes by. -/
def Always (P : S → Prop) : S → List E → Prop
  | s, [] => P s
  | s, e :: events => P s ∧ ∀ s', step s e = some s' → Always P s' events

/-- Every step that the run takes. -/
def Each (C : S → E → Prop) : S → List E → Prop
  | _, [] => True
  | s, e :: events => ∀ s', step s e = some s' → C s e ∧ Each C s' events

variable {step} {s s' : S} {e : E} {events before : List E} {Inv P : S → Prop} {C : S → E → Prop}

theorem run_cons (s : S) (e : E) (events : List E) :
    run step s (e :: events) = (step s e).bind fun s' => run step s' events := rfl

theorem run_append (s : S) (before events : List E) :
    run step s (before ++ events) = (run step s before).bind fun s' => run step s' events := List.foldlM_append

theorem always_iff : Always step P s events ↔ ∀ before s', before <+: events → run step s before = some s' → P s' := by
  induction events generalizing s with
  | nil =>
    refine ⟨fun holds before s' start ran => ?_, fun all => all [] s List.prefix_rfl rfl⟩
    obtain rfl := List.prefix_nil.mp start
    cases ran
    exact holds
  | cons e events ih =>
    refine ⟨?_, fun all => ⟨all [] s List.nil_prefix rfl, fun s' stepped => ih.mpr fun before t start ran => ?_⟩⟩
    · rintro ⟨holds, later⟩ before t start ran
      cases before with
      | nil =>
        cases ran
        exact holds
      | cons e' before =>
        obtain ⟨rfl, within⟩ := List.cons_prefix_cons.mp start
        rw [run_cons] at ran
        obtain ⟨s', stepped, ran⟩ := Option.bind_eq_some_iff.mp ran
        exact ih.mp (later s' stepped) before t within ran
    · refine all (e :: before) t (List.cons_prefix_cons.mpr ⟨rfl, start⟩) ?_
      rw [run_cons, stepped]
      exact ran

theorem always_of_inv (keeps : ∀ s e s', Inv s → step s e = some s' → Inv s') (holds : ∀ s, Inv s → P s) (start : Inv s)
    (events : List E) : Always step P s events := by
  induction events generalizing s with
  | nil => exact holds s start
  | cons e events ih => exact ⟨holds s start, fun s' stepped => ih (keeps s e s' start stepped)⟩

/-- The steps that the invariant survives, and no other, lead to a state with the property. -/
theorem always_iff_each (holds : ∀ s, Inv s → P s)
    (keeps : ∀ s e s', Inv s → step s e = some s' → C s e → Inv s')
    (breaks : ∀ s e s', Inv s → step s e = some s' → P s' → C s e) (start : Inv s) (events : List E) :
    Always step P s events ↔ Each step C s events := by
  induction events generalizing s with
  | nil => exact iff_of_true (holds s start) trivial
  | cons e events ih =>
    refine ⟨?_, fun each => ⟨holds s start, fun s' stepped => ?_⟩⟩
    · rintro ⟨_, later⟩ s' stepped
      have now : P s' := by
        have rest := later s' stepped
        cases events with
        | nil => exact rest
        | cons _ _ => exact rest.1
      have allowed := breaks s e s' start stepped now
      exact ⟨allowed, (ih (keeps s e s' start stepped allowed)).mp (later s' stepped)⟩
    · obtain ⟨allowed, each⟩ := each s' stepped
      exact (ih (keeps s e s' start stepped allowed)).mpr each

theorem run_of_each (keeps : ∀ s e s', Inv s → C s e → step s e = some s' → Inv s') (start : Inv s)
    (each : Each step C s events) (ran : run step s events = some s') : Inv s' := by
  induction events generalizing s with
  | nil =>
    cases ran
    exact start
  | cons e events ih =>
    rw [run_cons] at ran
    obtain ⟨t, stepped, ran⟩ := Option.bind_eq_some_iff.mp ran
    obtain ⟨meets, each⟩ := each t stepped
    exact ih (keeps s e t start meets stepped) each ran

/-- What holds of the events so far and the state that they lead to. -/
theorem run_history {P : List E → S → Prop} (start : P [] s)
    (keeps : ∀ before t e t', run step s before = some t → P before t → step t e = some t' → P (before ++ [e]) t')
    (ran : run step s events = some s') : P events s' := by
  induction events using List.reverseRecOn generalizing s' with
  | nil =>
    cases ran
    exact start
  | append_singleton events e ih =>
    rw [run_append] at ran
    obtain ⟨t, ranBefore, stepped⟩ := Option.bind_eq_some_iff.mp ran
    rw [run_cons] at stepped
    obtain ⟨t', stepped, same⟩ := Option.bind_eq_some_iff.mp stepped
    cases same
    exact keeps events t e _ ranBefore (ih ranBefore) stepped

end Trace
end Concurrency
