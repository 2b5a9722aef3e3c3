import HomelabDaemon.Operations
import Mathlib.Data.List.Induction

/-!
# The breaker's books

The map of the breaker, whose entries are made by whoever asks first. What it holds about a unit
is computed from the failures of that unit since its last reset, and from nothing else.
-/

namespace HomelabDaemon

/-- The entries of the map. -/
structure CircuitBreaker where
  units : String → Option UnitBreaker := fun _ => none

namespace CircuitBreaker

/-- The entry of a unit, made if there is none. -/
def get (cb : CircuitBreaker) (unit : String) : UnitBreaker × CircuitBreaker :=
  match cb.units unit with
  | some b => (b, cb)
  | none => ({}, { units := Function.update cb.units unit (some {}) })

def isOpen (cb : CircuitBreaker) (unit : String) (now : Time) : Bool × CircuitBreaker :=
  let (b, cb) := cb.get unit
  (decide (now < b.backoffUntil), cb)

def state (cb : CircuitBreaker) (unit : String) : UnitBreaker × CircuitBreaker := cb.get unit

/-- An element of the schedule; without one the daemon would panic. -/
def backoffAt (idx : Int) : Option Nat := if idx < 0 then none else backoffSchedule[idx.toNat]?

def recordFailure (cb : CircuitBreaker) (unit : String) (now : Time) : Option (Nat × CircuitBreaker) :=
  let (b, cb) := cb.get unit
  let consecutive := b.consecutive + 1
  let idx : Int := consecutive - 1
  let idx := if idx ≥ backoffSchedule.length then (backoffSchedule.length : Int) - 1 else idx
  match backoffAt idx with
  | none => none
  | some d =>
    let b := { b with consecutive := consecutive }
    let b := if d > 0 then { b with backoffUntil := now + d } else b
    some (d, { units := Function.update cb.units unit (some b) })

def reset (cb : CircuitBreaker) (unit : String) : CircuitBreaker where
  units := Function.update cb.units unit none

/-- The entry as it reads. -/
def entry (cb : CircuitBreaker) (unit : String) : UnitBreaker := (cb.units unit).getD {}

section Calls
variable (cb : CircuitBreaker) (unit other : String) (now : Time)

theorem get_fst : (cb.get unit).1 = cb.entry unit := by
  unfold get entry
  cases cb.units unit <;> rfl

theorem get_entry : (cb.get unit).2.entry other = cb.entry other := by
  unfold get
  cases found : cb.units unit with
  | some b => rfl
  | none =>
    by_cases same : other = unit
    · subst same
      simp [entry, found]
    · simp [entry, Function.update_of_ne same]

theorem isOpen_fst : (cb.isOpen unit now).1 = decide (now < (cb.entry unit).backoffUntil) := by
  rw [← get_fst]
  rfl

theorem reset_entry : (cb.reset unit).entry other = if other = unit then {} else cb.entry other := by
  unfold reset entry
  by_cases same : other = unit
  · subst same
    simp
  · simp [same]

theorem backoffAt_capped (n : Nat) :
    backoffAt (if (n : Int) ≥ backoffSchedule.length then (backoffSchedule.length : Int) - 1 else n) =
      some (backoffSchedule.getD (min n 4) 0) := by
  have length : backoffSchedule.length = 5 := rfl
  rw [length]
  by_cases last : n ≥ 5
  · rw [if_pos (by omega), Nat.min_eq_right (by omega)]
    rfl
  · rw [if_neg (by omega), Nat.min_eq_left (by omega), backoffAt, if_neg (by omega), Int.toNat_natCast,
      List.getD_eq_getElem?_getD, List.getElem?_eq_getElem (by omega)]
    rfl

theorem recordFailure_eq : ∃ cb', cb.recordFailure unit now = some (((cb.entry unit).recordFailure now).2, cb') ∧
    ∀ other, cb'.entry other = if other = unit then ((cb.entry unit).recordFailure now).1 else cb.entry other := by
  have index : (((cb.entry unit).consecutive + 1 : Nat) : Int) - 1 = (cb.entry unit).consecutive := by omega
  have entry : ((cb.entry unit).recordFailure now).1 = ⟨(cb.entry unit).consecutive + 1,
      if ((cb.entry unit).recordFailure now).2 > 0 then now + ((cb.entry unit).recordFailure now).2
      else (cb.entry unit).backoffUntil⟩ := rfl
  rw [entry, UnitBreaker.recordFailure_backoff]
  unfold recordFailure
  simp only [get_fst]
  rw [index, backoffAt_capped]
  generalize backoffSchedule.getD (min (cb.entry unit).consecutive 4) 0 = d
  refine ⟨_, rfl, fun other => ?_⟩
  by_cases same : other = unit
  · subst same
    by_cases waits : d > 0 <;> simp [CircuitBreaker.entry, waits]
  · rw [if_neg same, ← get_entry cb unit other]
    simp [CircuitBreaker.entry, Function.update_of_ne same]

end Calls

/-! ### Histories -/

inductive Call where
  | recordFailure (unit : String)
  | reset (unit : String)
  | isOpen (unit : String)
  | state (unit : String)
  deriving DecidableEq

/-- The map after a call; none after a panic. -/
def step (cb : CircuitBreaker) (call : Call × Time) : Option CircuitBreaker :=
  match call.1 with
  | .recordFailure unit => (cb.recordFailure unit call.2).map Prod.snd
  | .reset unit => some (cb.reset unit)
  | .isOpen unit => some (cb.isOpen unit call.2).2
  | .state unit => some (cb.state unit).2

def run (calls : List (Call × Time)) : Option CircuitBreaker := calls.foldlM step {}

/-- The operation of the daemon's threads. -/
def Call.op : Call → Op
  | .recordFailure unit => .recordFailure unit
  | .reset unit => .breakerReset unit
  | .isOpen unit => .breakerIsOpen unit
  | .state unit => .breakerState unit

/-- What the threads see of the breaker is what its entries read. -/
theorem step_world {w : World} {cb : CircuitBreaker} (reads : w.breaker = cb.entry) (call : Call) (ans : call.op.Ans) :
    ∃ cb', cb.step (call, w.now) = some cb' ∧ (w.effect call.op ans).breaker = cb'.entry := by
  rw [World.effect_breaker, reads]
  cases call with
  | recordFailure unit =>
    obtain ⟨cb', recorded, entries⟩ := cb.recordFailure_eq unit w.now
    refine ⟨cb', by simp [step, recorded], funext fun other => ?_⟩
    rw [entries, ← Function.update_apply]
    rfl
  | reset unit =>
    refine ⟨_, rfl, funext fun other => ?_⟩
    rw [reset_entry, ← Function.update_apply]
    rfl
  | isOpen unit => exact ⟨_, rfl, funext fun other => (cb.get_entry unit other).symm⟩
  | state unit => exact ⟨_, rfl, funext fun other => (cb.get_entry unit other).symm⟩

/-- Records or forgets failures of the unit. -/
def Call.concerns (unit : String) : Call → Bool
  | .recordFailure u | .reset u => u == unit
  | _ => false

/-- The times of the failures of the unit since its last reset. -/
def failures (unit : String) (calls : List (Call × Time)) : List Time :=
  calls.foldl (fun times call => match call.1 with
    | .recordFailure u => if u = unit then times ++ [call.2] else times
    | .reset u => if u = unit then [] else times
    | _ => times) []

/-- Entry `min n 5 - 1` of the schedule. -/
def backoffAfter (n : Nat) : Nat := backoffSchedule.getD (min n 5 - 1) 0

/-- What the books must say after these failures. -/
def account (times : List Time) : UnitBreaker where
  consecutive := times.length
  backoffUntil := if 2 ≤ times.length then times.getLastD 0 + backoffAfter times.length else 0

/-- The call is no reset of the unit. -/
def Spares (unit : String) (call : Call × Time) : Prop := call.1 ≠ .reset unit

/-- The books are right after a history, and answer the next call rightly. -/
structure Accounted (calls : List (Call × Time)) (cb : CircuitBreaker) : Prop where
  consecutive : ∀ unit, (cb.entry unit).consecutive = (failures unit calls).length
  backoffUntil : ∀ unit, (cb.entry unit).backoffUntil =
    if 2 ≤ (failures unit calls).length then
      (failures unit calls).getLastD 0 + backoffAfter (failures unit calls).length
    else 0
  /-- The next failure applies its entry, without a panic. -/
  applied : ∀ unit now, ∃ cb', cb.recordFailure unit now = some (backoffAfter ((failures unit calls).length + 1), cb')
  isOpen : ∀ unit now, (cb.isOpen unit now).1 = decide (now < (cb.entry unit).backoffUntil)
  state : ∀ unit, (cb.state unit).1 = cb.entry unit
  /-- Only the calls that concern the unit count. -/
  own : ∀ unit, failures unit calls = failures unit (calls.filter (·.1.concerns unit))
  /-- A later failure with no reset between applies no less. -/
  escalates : ∀ unit now later, (∀ call ∈ later, Spares unit call) →
    backoffAfter ((failures unit calls).length + 1) ≤
      backoffAfter ((failures unit (calls ++ (.recordFailure unit, now) :: later)).length + 1)

variable {calls : List (Call × Time)} {unit : String}

theorem failures_snoc (unit : String) (calls : List (Call × Time)) (call : Call × Time) :
    failures unit (calls ++ [call]) = match call.1 with
      | .recordFailure u => if u = unit then failures unit calls ++ [call.2] else failures unit calls
      | .reset u => if u = unit then [] else failures unit calls
      | _ => failures unit calls := by
  unfold failures
  rw [List.foldl_append]
  rfl

theorem failures_own (unit : String) (calls : List (Call × Time)) :
    failures unit calls = failures unit (calls.filter (·.1.concerns unit)) := by
  induction calls using List.reverseRecOn with
  | nil => rfl
  | append_singleton calls call ih =>
    obtain ⟨call, now⟩ := call
    rw [List.filter_append, failures_snoc]
    have single : [(call, now)].filter (fun c : Call × Time => c.1.concerns unit) =
        if call.concerns unit then [(call, now)] else [] := by
      simp only [List.filter_cons, List.filter_nil]
    rw [single]
    by_cases concerned : call.concerns unit = true
    · rw [if_pos concerned, failures_snoc, ih]
    · rw [if_neg concerned, List.append_nil, ← ih]
      cases call with
      | recordFailure u | reset u =>
        have different : ¬ u = unit := fun same => concerned (beq_iff_eq.mpr same)
        simp [different]
      | isOpen u | state u => rfl

theorem failures_grow {later : List (Call × Time)} (spared : ∀ call ∈ later, Spares unit call) :
    (failures unit calls).length ≤ (failures unit (calls ++ later)).length := by
  induction later using List.reverseRecOn with
  | nil => simp
  | append_singleton later call ih =>
    have grown := ih fun c member => spared c (List.mem_append_left _ member)
    have kept : Spares unit call := spared call (by simp)
    rw [← List.append_assoc, failures_snoc]
    cases called : call.1 with
    | recordFailure u =>
      dsimp only
      split
      · rw [List.length_append]
        omega
      · exact grown
    | reset u =>
      have different : ¬ u = unit := by
        rintro rfl
        exact kept called
      simpa [different] using grown
    | isOpen u | state u => exact grown

theorem backoffAfter_mono {m n : Nat} (le : m ≤ n) : backoffAfter m ≤ backoffAfter n := by
  have sorted : ∀ i j : Fin 5, i ≤ j → backoffSchedule.getD i 0 ≤ backoffSchedule.getD j 0 := by decide
  exact sorted ⟨min m 5 - 1, by omega⟩ ⟨min n 5 - 1, by omega⟩ (by
    change min m 5 - 1 ≤ min n 5 - 1
    omega)

theorem account_recordFailure (times : List Time) (now : Time) :
    (account times).recordFailure now = (account (times ++ [now]), backoffAfter (times.length + 1)) := by
  have backoff : ((account times).recordFailure now).2 = backoffAfter (times.length + 1) := by
    rw [UnitBreaker.recordFailure_backoff]
    unfold backoffAfter
    congr 1
    change min times.length 4 = _
    omega
  refine Prod.ext ?_ backoff
  have first : ((account times).recordFailure now).1 = ⟨times.length + 1,
      if ((account times).recordFailure now).2 > 0 then now + ((account times).recordFailure now).2
      else (account times).backoffUntil⟩ := rfl
  rw [first, backoff]
  unfold account
  simp only [List.length_append, List.length_singleton, List.getLastD_concat, UnitBreaker.mk.injEq, true_and]
  by_cases many : 2 ≤ times.length + 1
  · have positive : 0 < backoffAfter (times.length + 1) :=
      Nat.lt_of_lt_of_le (by decide : 0 < backoffAfter 2) (backoffAfter_mono many)
    rw [if_pos many, if_pos positive]
  · obtain none : times.length = 0 := by omega
    rw [if_neg many, none]
    rfl

/-- The step lemma: a call keeps the books. -/
theorem step_entry {cb : CircuitBreaker} (books : ∀ unit, cb.entry unit = account (failures unit calls))
    (call : Call × Time) :
    ∃ cb', cb.step call = some cb' ∧ ∀ unit, cb'.entry unit = account (failures unit (calls ++ [call])) := by
  obtain ⟨call, now⟩ := call
  simp only [failures_snoc]
  cases call with
  | recordFailure u =>
    obtain ⟨cb', recorded, entries⟩ := cb.recordFailure_eq u now
    refine ⟨cb', by simp [step, recorded], fun unit => ?_⟩
    rw [entries, books u, account_recordFailure]
    by_cases same : unit = u
    · subst same
      simp
    · simp [same, Ne.symm same, books unit]
  | reset u =>
    refine ⟨_, rfl, fun unit => ?_⟩
    rw [reset_entry]
    by_cases same : unit = u
    · subst same
      simp [account]
    · simp [same, Ne.symm same, books unit]
  | isOpen u => exact ⟨_, rfl, fun unit => (cb.get_entry u unit).trans (books unit)⟩
  | state u => exact ⟨_, rfl, fun unit => (cb.get_entry u unit).trans (books unit)⟩

theorem run_entry (calls : List (Call × Time)) :
    ∃ cb, run calls = some cb ∧ ∀ unit, cb.entry unit = account (failures unit calls) := by
  induction calls using List.reverseRecOn with
  | nil => exact ⟨{}, rfl, fun _ => rfl⟩
  | append_singleton calls call ih =>
    obtain ⟨cb, ran, books⟩ := ih
    obtain ⟨cb', stepped, books'⟩ := step_entry books call
    refine ⟨cb', ?_, books'⟩
    unfold run at ran ⊢
    rw [List.foldlM_append, ran]
    simpa using stepped

/-- After every history the books are right. -/
theorem run_accounted (calls : List (Call × Time)) : ∃ cb, run calls = some cb ∧ Accounted calls cb := by
  obtain ⟨cb, ran, books⟩ := run_entry calls
  refine ⟨cb, ran, ?_⟩
  constructor
  case consecutive => exact fun unit => by rw [books]; rfl
  case backoffUntil => exact fun unit => by rw [books]; rfl
  case applied =>
    intro unit now
    obtain ⟨cb', recorded, _⟩ := cb.recordFailure_eq unit now
    rw [books, account_recordFailure] at recorded
    exact ⟨cb', recorded⟩
  case isOpen => exact fun unit now => cb.isOpen_fst unit now
  case state => exact fun unit => cb.get_fst unit
  case own => exact fun unit => failures_own unit calls
  case escalates =>
    intro unit now later spared
    refine backoffAfter_mono (Nat.succ_le_succ (failures_grow fun call member => ?_))
    rcases List.mem_cons.mp member with rfl | member
    · exact nofun
    · exact spared call member

end CircuitBreaker
end HomelabDaemon
