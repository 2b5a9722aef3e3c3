import Mathlib.Data.List.Induction

/-!
# Crash detection

At startup `main` looks for the marker file of the lifetime before, and writes its own. Nothing
touches the file afterwards, whether the lifetime ends by a shutdown or by a crash.
-/

namespace HomelabDaemon

namespace CrashMarker

/-- What the file system and the notifier do during one startup. -/
structure Outcomes where
  -- os.Stat fails, and not because there is no file.
  statFails : Bool := false
  removeFails : Bool := false
  writeFails : Bool := false
  -- The failed write has created the file.
  created : Bool := false
  -- There is a state file: the daemon has run before.
  stateExists : Bool := true
  notifyEnabled : Bool := true
  deriving DecidableEq

inductive Branch where
  | cleanShutdown | possibleCrash | neither
  deriving DecidableEq

structure Startup where
  branch : Branch
  notified : Bool := false
  marker : Bool

def stat (marker : Bool) (o : Outcomes) : Startup :=
  if o.statFails then { branch := .neither, marker := marker }
  else if marker then { branch := .cleanShutdown, marker := o.removeFails }
  else { branch := .possibleCrash, notified := o.stateExists && o.notifyEnabled, marker := false }

def startup (marker : Bool) (o : Outcomes) : Startup :=
  let s := stat marker o
  { s with marker := !o.writeFails || o.created || s.marker }

inductive Ending where
  | cleanShutdown | crash
  deriving DecidableEq

structure Lifetime where
  outcomes : Outcomes := {}
  ending : Ending

-- No ending touches the marker.
def markerAfter (marker : Bool) (lifetimes : List Lifetime) : Bool :=
  lifetimes.foldl (fun marker l => (startup marker l.outcomes).marker) marker

def branchAfter (marker : Bool) (before : List Lifetime) (l : Lifetime) : Branch :=
  (startup (markerAfter marker before) l.outcomes).branch

/-- From the second lifetime on, a startup suspects a crash exactly behind a crash. -/
def Exact (marker : Bool) (lifetimes : List Lifetime) : Prop :=
  ∀ before l l' after, lifetimes = before ++ l :: l' :: after →
    (branchAfter marker (before ++ [l]) l' = .possibleCrash ↔ l.ending = .crash)

/-- The write makes the file. -/
def Outcomes.Writes (o : Outcomes) : Prop := o.writeFails = false ∨ o.created = true

/-- A file that is there is not removed. -/
def Outcomes.Keeps (o : Outcomes) : Prop := o.statFails = true ∨ o.removeFails = true

/-- Some write made the file, or it was there before, and every startup since has kept it. -/
def MarkerLeft (marker : Bool) (lifetimes : List Lifetime) : Prop :=
  (marker = true ∧ ∀ l ∈ lifetimes, l.outcomes.Keeps) ∨
    ∃ earlier l later, lifetimes = earlier ++ l :: later ∧ l.outcomes.Writes ∧ ∀ l' ∈ later, l'.outcomes.Keeps

/-- Behind a shutdown a marker is left or cannot be looked for, behind a crash none is and the look
says so. -/
def Fits (marker : Bool) (lifetimes : List Lifetime) : Prop :=
  ∀ before l l' after, lifetimes = before ++ l :: l' :: after →
    match l.ending with
    | .cleanShutdown => MarkerLeft marker (before ++ [l]) ∨ l'.outcomes.statFails = true
    | .crash => ¬ MarkerLeft marker (before ++ [l]) ∧ l'.outcomes.statFails = false

section Branch
variable {marker : Bool} {o : Outcomes} {lifetimes before : List Lifetime} {l : Lifetime}

theorem possibleCrash_iff : (startup marker o).branch = .possibleCrash ↔ marker = false ∧ o.statFails = false := by
  unfold startup stat
  cases o.statFails <;> cases marker <;> simp

theorem startup_marker : (startup marker o).marker = true ↔ o.Writes ∨ (marker = true ∧ o.Keeps) := by
  unfold startup stat Outcomes.Writes Outcomes.Keeps
  cases o.writeFails <;> cases o.created <;> cases o.statFails <;> cases marker <;> simp

theorem markerAfter_append :
    markerAfter marker (before ++ [l]) = (startup (markerAfter marker before) l.outcomes).marker := by
  simp [markerAfter]

theorem markerLeft_of_writes (writes : l.outcomes.Writes) : MarkerLeft marker (before ++ [l]) :=
  .inr ⟨before, l, [], rfl, writes, by simp⟩

theorem MarkerLeft.append (left : MarkerLeft marker before) (keeps : l.outcomes.Keeps) :
    MarkerLeft marker (before ++ [l]) := by
  rcases left with ⟨there, kept⟩ | ⟨earlier, k, later, split, writes, kept⟩
  · exact .inl ⟨there, by simpa [or_imp, forall_and] using ⟨kept, keeps⟩⟩
  · subst split
    exact .inr ⟨earlier, k, later ++ [l], by simp, writes, by simpa [or_imp, forall_and] using ⟨kept, keeps⟩⟩

theorem MarkerLeft.last (left : MarkerLeft marker (before ++ [l])) :
    l.outcomes.Writes ∨ (MarkerLeft marker before ∧ l.outcomes.Keeps) := by
  rcases left with ⟨there, kept⟩ | ⟨earlier, k, later, split, writes, kept⟩
  · exact .inr ⟨.inl ⟨there, fun k member => kept k (by simp [member])⟩, kept l (by simp)⟩
  · rcases List.eq_nil_or_concat later with rfl | ⟨rest, k', rfl⟩
    · -- The write is the last startup's own.
      have same := (List.append_inj' split rfl).2
      simp only [List.cons.injEq, and_true] at same
      exact .inl (same ▸ writes)
    · have split : before ++ [l] = (earlier ++ k :: rest) ++ [k'] := by simpa using split
      have parts := List.append_inj' split rfl
      have same : l = k' := by simpa using parts.2
      subst same
      exact .inr ⟨.inr ⟨earlier, k, rest, parts.1, writes, fun k' member => kept k' (by simp [member])⟩,
        kept l (by simp)⟩

theorem markerAfter_iff : markerAfter marker before = true ↔ MarkerLeft marker before := by
  induction before using List.reverseRecOn with
  | nil => simp [markerAfter, MarkerLeft]
  | append_singleton before l ih =>
    rw [markerAfter_append, startup_marker, ih]
    constructor
    · rintro (writes | ⟨left, keeps⟩)
      · exact markerLeft_of_writes writes
      · exact left.append keeps
    · exact MarkerLeft.last

theorem suspects_iff (marker : Bool) (before : List Lifetime) (l l' : Lifetime) :
    (branchAfter marker (before ++ [l]) l' = .possibleCrash ↔ l.ending = .crash) ↔
      match l.ending with
      | .cleanShutdown => MarkerLeft marker (before ++ [l]) ∨ l'.outcomes.statFails = true
      | .crash => ¬ MarkerLeft marker (before ++ [l]) ∧ l'.outcomes.statFails = false := by
  unfold branchAfter
  rw [possibleCrash_iff, ← markerAfter_iff]
  cases l.ending with
  | cleanShutdown =>
    cases markerAfter marker (before ++ [l]) <;> simp
  | crash => simp

theorem exact_iff (marker : Bool) (lifetimes : List Lifetime) : Exact marker lifetimes ↔ Fits marker lifetimes := by
  constructor
  · intro exact_ before l l' after at_
    exact (suspects_iff marker before l l').mp (exact_ before l l' after at_)
  · intro fits before l l' after at_
    exact (suspects_iff marker before l l').mpr (fits before l l' after at_)

/-- When every marker can be written and looked for, crashes are detected exactly when there are
none: only the last lifetime may end by one. -/
theorem fits_iff_of_written (works : ∀ l ∈ lifetimes, l.outcomes.writeFails = false ∧ l.outcomes.statFails = false) :
    Fits marker lifetimes ↔ ∀ before l l' after, lifetimes = before ++ l :: l' :: after →
    l.ending = .cleanShutdown := by
  have left : ∀ {before l l' after}, lifetimes = before ++ l :: l' :: after → MarkerLeft marker (before ++ [l]) := by
    intro before l l' after at_
    have member : l ∈ lifetimes := by simp [at_]
    exact markerLeft_of_writes (.inl (works l member).1)
  constructor
  · intro fits before l l' after at_
    have fit := fits before l l' after at_
    cases ends : l.ending with
    | cleanShutdown => rfl
    | crash =>
      rw [ends] at fit
      exact absurd (left at_) fit.1
  · intro shutDown before l l' after at_
    rw [shutDown before l l' after at_]
    exact .inl (left at_)

end Branch

/-- The second lifetime does not suspect the crash of the first. -/
theorem crash_unnoticed : ¬ ∀ (marker : Bool) (lifetimes : List Lifetime), Exact marker lifetimes := by
  intro claim
  have right := claim false [{ ending := .crash }, { ending := .cleanShutdown }] [] _ _ [] rfl
  exact absurd (right.mpr rfl) (by decide)

end CrashMarker
end HomelabDaemon
