import HomelabDaemon.Rfc3339
import Mathlib.Tactic.IntervalCases

/-!
# The calendar, day by day

A date follows from the one before it, from the epoch on. Months begin after the last day of the
month before, years with the first day of their first month.
-/

namespace Calendar
open Rfc3339 (isLeap daysIn)

structure Date where
  year : Int
  month : Nat
  day : Nat
  deriving DecidableEq

namespace Date

def tomorrow (d : Date) : Date :=
  if d.day < daysIn d.month d.year then { d with day := d.day + 1 }
  else if d.month < 12 then { d with month := d.month + 1, day := 1 }
  else { year := d.year + 1, month := 1, day := 1 }

structure Valid (d : Date) : Prop where
  month : 1 ≤ d.month ∧ d.month ≤ 12
  day : 1 ≤ d.day ∧ d.day ≤ daysIn d.month d.year

end Date

def epoch : Date := { year := 1970, month := 1, day := 1 }

/-- The date `n` days after the epoch. -/
def date : Nat → Date
  | 0 => epoch
  | n + 1 => (date n).tomorrow

theorem daysIn_bounds (month : Nat) (year : Int) : 28 ≤ daysIn month year ∧ daysIn month year ≤ 31 := by
  unfold daysIn
  split
  · split <;> omega
  · split <;> omega

theorem date_valid (n : Nat) : (date n).Valid := by
  induction n with
  | zero => exact ⟨by decide, by decide⟩
  | succ n ih =>
    obtain ⟨month, day⟩ := ih
    have bound := fun month => (daysIn_bounds month ((date n).year)).1
    have bound' := fun month => (daysIn_bounds month ((date n).year + 1)).1
    unfold date Date.tomorrow
    split
    · exact ⟨month, ⟨by simp, by simp; omega⟩⟩
    · split
      · have long := bound ((date n).month + 1)
        exact ⟨⟨by simp, by simp; omega⟩, ⟨by simp, by simp; omega⟩⟩
      · have long := bound' 1
        exact ⟨⟨by simp, by simp⟩, ⟨by simp, by simp; omega⟩⟩

theorem tomorrow_inside {n : Nat} (inside : (date n).day < daysIn (date n).month (date n).year) :
    date (n + 1) = { date n with day := (date n).day + 1 } := by
  show (date n).tomorrow = _
  unfold Date.tomorrow
  rw [if_pos inside]

theorem tomorrow_first {n : Nat} (last : ¬ (date n).day < daysIn (date n).month (date n).year) :
    (date (n + 1)).day = 1 ∧ ((date (n + 1)).month = 1 ∨ (date (n + 1)).year = (date n).year) ∧
      (date n).year ≤ (date (n + 1)).year := by
  show (date n).tomorrow.day = 1 ∧ ((date n).tomorrow.month = 1 ∨ (date n).tomorrow.year = _) ∧
    _ ≤ (date n).tomorrow.year
  unfold Date.tomorrow
  rw [if_neg last]
  split
  · exact ⟨rfl, .inr rfl, by simp⟩
  · exact ⟨rfl, .inl rfl, by simp⟩

/-- Within a month only the day changes. -/
theorem same_month {n : Nat} (inside : (date (n + 1)).day ≠ 1) :
    date (n + 1) = { date n with day := (date n).day + 1 } := by
  by_cases bound : (date n).day < daysIn (date n).month (date n).year
  · exact tomorrow_inside bound
  · exact absurd (tomorrow_first bound).1 inside

theorem same_year {n : Nat} (inside : ¬ ((date (n + 1)).day = 1 ∧ (date (n + 1)).month = 1)) :
    (date (n + 1)).year = (date n).year := by
  by_cases bound : (date n).day < daysIn (date n).month (date n).year
  · rw [tomorrow_inside bound]
  · obtain ⟨first, month | year, _⟩ := tomorrow_first bound
    · exact absurd ⟨first, month⟩ inside
    · exact year

/-- Back to the first day of the month. -/
theorem first_of_month (n : Nat) : (date n).day ≤ n + 1 ∧ ∀ k, k < (date n).day →
    date (n - k) = { date n with day := (date n).day - k } := by
  induction n with
  | zero =>
    refine ⟨by decide, fun k bound => ?_⟩
    have zero : k = 0 := by
      have one : (date 0).day = 1 := rfl
      omega
    subst zero
    rfl
  | succ n ih =>
    by_cases first : (date (n + 1)).day = 1
    · refine ⟨by omega, fun k bound => ?_⟩
      have zero : k = 0 := by omega
      subst zero
      rfl
    · have step := same_month first
      have day : (date (n + 1)).day = (date n).day + 1 := by rw [step]
      refine ⟨by omega, fun k bound => ?_⟩
      cases k with
      | zero => rfl
      | succ k =>
        have before := ih.2 k (by omega)
        rw [Nat.add_sub_add_right, before, step]
        simp

/-- On from the first day of a month, within the month. -/
theorem within_month {n : Nat} (first : (date n).day = 1) {k : Nat} (inside : k < daysIn (date n).month (date n).year) :
    date (n + k) = { date n with day := k + 1 } := by
  induction k with
  | zero =>
    rw [Nat.add_zero, Nat.zero_add, ← first]
  | succ k ih =>
    have before := ih (by omega)
    have bound : (date (n + k)).day < daysIn (date (n + k)).month (date (n + k)).year := by
      rw [before]
      exact inside
    rw [← Nat.add_assoc, tomorrow_inside bound, before]

theorem next_month {n : Nat} (first : (date n).day = 1) : (date (n + daysIn (date n).month (date n).year)).day = 1 := by
  have many := (daysIn_bounds (date n).month (date n).year).1
  have before := within_month first (k := daysIn (date n).month (date n).year - 1) (by omega)
  have sum : n + daysIn (date n).month (date n).year = n + (daysIn (date n).month (date n).year - 1) + 1 := by omega
  rw [sum]
  refine (tomorrow_first ?_).1
  rw [before]
  simp
  omega

theorem year_mono {m n : Nat} (upto : m ≤ n) : (date m).year ≤ (date n).year := by
  induction n, upto using Nat.le_induction with
  | base => exact Int.le_refl _
  | succ n upto ih =>
    by_cases bound : (date n).day < daysIn (date n).month (date n).year
    · rw [tomorrow_inside bound]
      exact ih
    · exact Int.le_trans ih (tomorrow_first bound).2.2

/-- The days from the first of the month to the year's end. -/
def rest (year : Int) (month : Nat) : Nat := ((List.range' month (13 - month)).map (daysIn · year)).sum

theorem rest_step (year : Int) {month : Nat} (valid : 1 ≤ month ∧ month ≤ 12) :
    rest year month = daysIn month year + rest year (month + 1) := by
  unfold rest
  have size : 13 - month = (13 - (month + 1)) + 1 := by omega
  rw [size, List.range'_succ]
  simp

theorem rest_year (year : Int) : rest year 1 ≤ 366 := by
  have values : List.range' 1 (13 - 1) = [1, 2, 3, 4, 5, 6, 7, 8, 9, 10, 11, 12] := by decide
  unfold rest
  rw [values]
  simp [daysIn]
  split <;> decide

theorem rest_le (year : Int) {month : Nat} (valid : 1 ≤ month) (bound : month ≤ 12) : rest year month ≤ 366 := by
  induction month, valid using Nat.le_induction with
  | base => exact rest_year year
  | succ month valid ih =>
    have before := ih (by omega)
    rw [rest_step year ⟨valid, by omega⟩] at before
    omega

/-- The days that are left of the year, today included. -/
def left (d : Date) : Nat := rest d.year d.month - (d.day - 1)

theorem left_step {n : Nat} (same : (date (n + 1)).year = (date n).year) : left (date (n + 1)) + 1 = left (date n) := by
  obtain ⟨month, day⟩ := date_valid n
  have here := rest_step (date n).year month
  by_cases bound : (date n).day < daysIn (date n).month (date n).year
  · rw [tomorrow_inside bound]
    simp only [left]
    omega
  · have first : date (n + 1) = (date n).tomorrow := rfl
    unfold Date.tomorrow at first
    rw [if_neg bound] at first
    split at first
    · rw [first]
      simp only [left]
      omega
    · rw [first] at same
      simp at same

/-- After 366 days it is a later year. -/
theorem year_ends (n : Nat) : (date n).year < (date (n + 366)).year := by
  by_contra late
  have same : ∀ k, k ≤ 366 → (date (n + k)).year = (date n).year := by
    intro k bound
    have low := year_mono (Nat.le_add_right n k)
    have high := year_mono (Nat.add_le_add_left bound n)
    omega
  have falls : ∀ k, k ≤ 366 → left (date (n + k)) + k = left (date n) := by
    intro k bound
    induction k with
    | zero => rfl
    | succ k ih =>
      have before := ih (by omega)
      have step := left_step (n := n + k) ((same (k + 1) bound).trans (same k (by omega)).symm)
      have sum : n + (k + 1) = n + k + 1 := by omega
      rw [sum]
      omega
  obtain ⟨month, day⟩ := date_valid n
  have most := rest_le (date n).year month.1 month.2
  have last := falls 366 (Nat.le_refl 366)
  obtain ⟨month', day'⟩ := date_valid (n + 366)
  have here := rest_step (date (n + 366)).year month'
  simp only [left] at last
  omega

theorem years_end (n k : Nat) : (date n).year + k ≤ (date (n + 366 * k)).year := by
  induction k with
  | zero => simp
  | succ k ih =>
    have one := year_ends (n + 366 * k)
    have sum : n + 366 * (k + 1) = n + 366 * k + 366 := by omega
    rw [sum]
    push_cast
    omega

end Calendar
