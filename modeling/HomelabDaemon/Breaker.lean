import Mathlib.Tactic.Common

/-!
# The circuit breaker

Restart failures of one unit and the backoff they enforce. Times are nanoseconds; the zero time
is `0`. A unit without an entry reads as the zero entry.
-/

namespace HomelabDaemon

abbrev Time := Nat

def second : Nat := 1000000000

/-- Extra wait after the n-th consecutive failure, capped at the last entry. -/
def backoffSchedule : List Nat := [0, 30 * second, 120 * second, 600 * second, 3600 * second]

structure UnitBreaker where
  consecutive : Nat := 0
  backoffUntil : Time := 0
  deriving DecidableEq

namespace UnitBreaker

def isOpen (b : UnitBreaker) (now : Time) : Bool := decide (now < b.backoffUntil)

/-- `RecordFailure`: the new entry and the backoff that was applied. -/
def recordFailure (b : UnitBreaker) (now : Time) : UnitBreaker × Nat :=
  let consecutive := b.consecutive + 1
  let idx := consecutive - 1
  let idx := if idx ≥ backoffSchedule.length then backoffSchedule.length - 1 else idx
  let d := backoffSchedule.getD idx 0
  (⟨consecutive, if d > 0 then now + d else b.backoffUntil⟩, d)

@[simp] theorem recordFailure_consecutive (b : UnitBreaker) (now : Time) :
    (b.recordFailure now).1.consecutive = b.consecutive + 1 := rfl

/-- The k-th failure in a row applies entry `min (k - 1) 4`. -/
theorem recordFailure_backoff (b : UnitBreaker) (now : Time) :
    (b.recordFailure now).2 = backoffSchedule.getD (min b.consecutive 4) 0 := by
  have length : backoffSchedule.length = 5 := rfl
  simp only [recordFailure, length, Nat.add_sub_cancel]
  split
  · rw [Nat.min_eq_right (by omega)]
  · rw [Nat.min_eq_left (by omega)]

end UnitBreaker
end HomelabDaemon
