import HomelabDaemon.Cron.Odometer
import HomelabDaemon.Cron.Calendar

/-!
# The next activation of a schedule

The vendored cron's `SpecSchedule`, whose fields are bit sets, and its `Next`. A time is read on
the clock of a place whose offset does not change: nanoseconds since the epoch for what is asked
about, whole seconds for what is found.
-/

namespace Crontab
open Calendar Rfc3339 Odometer

structure SpecSchedule where
  second : BitVec 64
  minute : BitVec 64
  hour : BitVec 64
  dom : BitVec 64
  month : BitVec 64
  dow : BitVec 64
  deriving DecidableEq

/-- The top bit, of a field with a star. -/
def starBit : BitVec 64 := 1 <<< 63

def year (t : Nat) : Int := (date (t / 86400)).year

def month (t : Nat) : Nat := (date (t / 86400)).month

def day (t : Nat) : Nat := (date (t / 86400)).day

/-- The epoch was a Thursday. -/
def weekday (t : Nat) : Nat := (t / 86400 + 4) % 7

def hour (t : Nat) : Nat := t % 86400 / 3600

def minute (t : Nat) : Nat := t % 3600 / 60

def second (t : Nat) : Nat := t % 60

/-- `1<<n & bits != 0` -/
def has (bits : BitVec 64) (n : Nat) : Bool := (1#64 <<< n &&& bits) != 0

def dayMatches (s : SpecSchedule) (t : Nat) : Bool :=
  let domMatch := has s.dom (day t)
  let dowMatch := has s.dow (weekday t)
  if s.dom &&& starBit != 0 || s.dow &&& starBit != 0 then domMatch && dowMatch else domMatch || dowMatch

/-- `time.Date(t.Year(), t.Month(), 1, 0, 0, 0, 0, loc)` -/
def monthStart (t : Nat) : Nat := (t / 86400 - (day t - 1)) * 86400

/-- `t.AddDate(0, 1, 0)`; a day that the next month does not have runs over into the one after. -/
def addMonth (t : Nat) : Nat := t + daysIn (month t) (year t) * 86400

/-- `t.AddDate(0, 0, 1)`, and the correction of an hour that is not midnight. -/
def addDay (t : Nat) : Nat :=
  let t := t + 86400
  if hour t ≠ 0 then if hour t > 12 then t + (24 - hour t) * 3600 else t - hour t * 3600 else t

/-- A month begins. -/
def FirstOfMonth (t : Nat) : Prop := t % 86400 = 0 ∧ day t = 1

/-- A year begins. -/
def FirstOfYear (t : Nat) : Prop := FirstOfMonth t ∧ month t = 1

theorem day_pos (t : Nat) : 1 ≤ day t := (date_valid _).day.1

theorem monthStart_eq (t : Nat) : monthStart t / 86400 = t / 86400 - (day t - 1) := Nat.mul_div_cancel _ (by decide)

theorem within_day {t : Nat} (inside : (t + 1) % 86400 ≠ 0) : (t + 1) / 86400 = t / 86400 := by omega

theorem next_day {t : Nat} (midnight : (t + 1) % 86400 = 0) : (t + 1) / 86400 = t / 86400 + 1 := by omega

/-- The date of the first of the month. -/
theorem date_monthStart (t : Nat) : date (monthStart t / 86400) = { date (t / 86400) with day := 1 } := by
  have pos := day_pos t
  unfold day at pos
  have first : (date (t / 86400)).day - ((date (t / 86400)).day - 1) = 1 := by omega
  rw [monthStart_eq, day, (first_of_month (t / 86400)).2 _ (by omega), first]

theorem month_turns {t : Nat} (inside : ¬ FirstOfMonth (t + 1)) : month (t + 1) = month t ∧ year (t + 1) = year t := by
  unfold month year
  by_cases midnight : (t + 1) % 86400 = 0
  · have later : day (t + 1) ≠ 1 := fun first => inside ⟨midnight, first⟩
    unfold day at later
    rw [next_day midnight] at later ⊢
    rw [same_month later]
    exact ⟨rfl, rfl⟩
  · rw [within_day midnight]
    exact ⟨rfl, rfl⟩

theorem year_turns {t : Nat} (inside : ¬ FirstOfYear (t + 1)) : year (t + 1) = year t := by
  unfold year
  by_cases midnight : (t + 1) % 86400 = 0
  · have later : ¬ (day (t + 1) = 1 ∧ month (t + 1) = 1) := fun first => inside ⟨⟨midnight, first.1⟩, first.2⟩
    unfold day month at later
    rw [next_day midnight] at later ⊢
    exact same_year later
  · rw [within_day midnight]

theorem floor_last (size t u : Nat) (after : t / size * size < u) (upto : u ≤ t) : u % size ≠ 0 := by
  intro first
  have whole := Nat.div_add_mod u size
  rw [first, Nat.add_zero] at whole
  have fits : u / size ≤ t / size := Nat.div_le_div_right upto
  have bound := Nat.mul_le_mul_left size fits
  rw [whole, Nat.mul_comm] at bound
  omega

theorem step_start {size t : Nat} (begins : t % size = 0) : (t + size) % size = 0 := by
  rw [Nat.add_mod_right, begins]

theorem step_next {size t u : Nat} (begins : t % size = 0) (after : t < u) (before : u < t + size) : u % size ≠ 0 := by
  obtain ⟨q, rfl⟩ := Nat.dvd_of_mod_eq_zero begins
  obtain ⟨k, rfl⟩ := Nat.exists_eq_add_of_lt after
  rw [Nat.add_assoc, Nat.mul_add_mod, Nat.mod_eq_of_lt (by omega)]
  omega

theorem monthStart_le (t : Nat) : monthStart t ≤ t := by
  unfold monthStart
  generalize day t = d
  omega

theorem monthStart_last (t u : Nat) (after : monthStart t < u) (upto : u ≤ t) : ¬ FirstOfMonth u := by
  rintro ⟨midnight, first⟩
  -- `u` is `k` days before `t`, and fewer than since the month began
  have back := (first_of_month (t / 86400)).2 (t / 86400 - u / 86400)
  have fits : u / 86400 ≤ t / 86400 := Nat.div_le_div_right upto
  have enough := (first_of_month (t / 86400)).1
  have pos := day_pos t
  unfold monthStart at after
  unfold day at first after pos
  have few : t / 86400 - u / 86400 < (date (t / 86400)).day - 1 := by omega
  have same : t / 86400 - (t / 86400 - u / 86400) = u / 86400 := by omega
  rw [same] at back
  rw [back (by omega)] at first
  simp at first
  omega

theorem addMonth_day (t : Nat) : addMonth t / 86400 = t / 86400 + daysIn (month t) (year t) := by
  unfold addMonth
  omega

theorem addMonth_lt (t : Nat) (_ : FirstOfMonth t) : t < addMonth t := by
  have many := (daysIn_bounds (month t) (year t)).1
  unfold addMonth
  omega

theorem addMonth_start (t : Nat) (begins : FirstOfMonth t) : FirstOfMonth (addMonth t) := by
  refine ⟨?_, ?_⟩
  · have midnight := begins.1
    unfold addMonth
    omega
  · rw [day, addMonth_day]
    exact next_month begins.2

theorem addMonth_next (t u : Nat) (begins : FirstOfMonth t) (after : t < u) (before : u < addMonth t) :
    ¬ FirstOfMonth u := by
  rintro ⟨midnight, first⟩
  have start := begins.1
  unfold addMonth at before
  obtain ⟨k, sum⟩ := Nat.exists_eq_add_of_le (Nat.div_le_div_right (c := 86400) (Nat.le_of_lt after))
  have inside := within_month begins.2 (k := k) (by unfold month year at before; omega)
  rw [day, sum, inside] at first
  simp at first
  omega

theorem addDay_midnight {t : Nat} (midnight : t % 86400 = 0) : addDay t = t + 86400 := by
  have zero : hour (t + 86400) = 0 := by
    unfold hour
    omega
  simp [addDay, zero]

theorem dayMatches_turns {s : SpecSchedule} {t : Nat} (inside : (t + 1) % 86400 ≠ 0) :
    dayMatches s (t + 1) = dayMatches s t := by
  unfold dayMatches day weekday
  rw [within_day inside]

/-! ### The loops of Next -/

def monthWheel (s : SpecSchedule) : Wheel where
  ok t := has s.month (month t)
  floor := monthStart
  step := addMonth
  wrapped t := month t == 1
  start := FirstOfMonth
  floor_le := monthStart_le
  floor_start t := ⟨Nat.mul_mod_left _ _, by rw [day, date_monthStart]⟩
  floor_last := monthStart_last
  step_lt := addMonth_lt
  step_start := addMonth_start
  step_next := addMonth_next
  turns t inside := by rw [(month_turns inside).1]

/-- Midnight. -/
def FirstOfDay (t : Nat) : Prop := t % 86400 = 0

def dayWheel (s : SpecSchedule) : Wheel where
  ok := dayMatches s
  floor t := t / 86400 * 86400
  step := addDay
  wrapped t := day t == 1
  start := FirstOfDay
  floor_le t := Nat.div_mul_le_self t 86400
  floor_start t := Nat.mul_mod_left _ _
  floor_last := floor_last 86400
  step_lt t midnight := by rw [addDay_midnight midnight]; omega
  step_start t midnight := by rw [addDay_midnight midnight]; exact step_start midnight
  step_next t u midnight := by rw [addDay_midnight midnight]; exact step_next midnight
  turns t inside := dayMatches_turns inside

/-- A wheel whose units have one size and whose values begin with 0. -/
def clockWheel (size : Nat) (pos : 0 < size) (ok : Nat → Bool) (value : Nat → Nat)
    (turns : ∀ t, (t + 1) % size ≠ 0 → ok (t + 1) = ok t) : Wheel where
  ok := ok
  floor t := t / size * size
  step t := t + size
  wrapped t := value t == 0
  start t := t % size = 0
  floor_le t := Nat.div_mul_le_self t size
  floor_start _ := Nat.mul_mod_left _ _
  floor_last := floor_last size
  step_lt _ _ := Nat.lt_add_of_pos_right pos
  step_start _ := step_start
  step_next _ _ := step_next
  turns := turns

theorem hour_turns (t : Nat) (inside : (t + 1) % 3600 ≠ 0) : hour (t + 1) = hour t := by
  unfold hour
  omega

theorem minute_turns (t : Nat) (inside : (t + 1) % 60 ≠ 0) : minute (t + 1) = minute t := by
  unfold minute
  omega

def hourWheel (s : SpecSchedule) : Wheel :=
  clockWheel 3600 (by decide) (fun t => has s.hour (hour t)) hour fun t inside =>
    congrArg (has s.hour) (hour_turns t inside)

def minuteWheel (s : SpecSchedule) : Wheel :=
  clockWheel 60 (by decide) (fun t => has s.minute (minute t)) minute fun t inside =>
    congrArg (has s.minute) (minute_turns t inside)

/-- Every second is a unit of its own. -/
def secondWheel (s : SpecSchedule) : Wheel :=
  clockWheel 1 (by decide) (fun t => has s.second (second t)) second fun t inside => absurd (Nat.mod_one _) inside

/-- The fields in the order in which `Next` checks them. -/
def wheels (s : SpecSchedule) : List Wheel := [monthWheel s, dayWheel s, hourWheel s, minuteWheel s, secondWheel s]

theorem train (s : SpecSchedule) : Train FirstOfYear (wheels s) := by
  have month_gear : Gear FirstOfYear (monthWheel s) := by
    refine ⟨fun t begins => begins.1, fun t begins => ?_⟩
    have first := addMonth_start t begins
    show (month (addMonth t) == 1) = true ↔ FirstOfMonth (addMonth t) ∧ month (addMonth t) = 1
    simp [first]
  have day_gear : Gear FirstOfMonth (dayWheel s) := by
    refine ⟨fun t begins => begins.1, fun t begins => ?_⟩
    have first : FirstOfDay (addDay t) := (dayWheel s).step_start t begins
    show (day (addDay t) == 1) = true ↔ addDay t % 86400 = 0 ∧ day (addDay t) = 1
    unfold FirstOfDay at first
    simp [first]
  have hour_gear : Gear FirstOfDay (hourWheel s) := by
    refine ⟨fun t begins => ?_, fun t begins => ?_⟩
    · show t % 3600 = 0
      unfold FirstOfDay at begins
      omega
    · show (hour (t + 3600) == 0) = true ↔ (t + 3600) % 86400 = 0
      have begins : t % 3600 = 0 := begins
      unfold hour
      rw [beq_iff_eq]
      omega
  have minute_gear : Gear (fun t => t % 3600 = 0) (minuteWheel s) := by
    refine ⟨fun t begins => ?_, fun t begins => ?_⟩
    · show t % 60 = 0
      omega
    · show (minute (t + 60) == 0) = true ↔ (t + 60) % 3600 = 0
      have begins : t % 60 = 0 := begins
      unfold minute
      rw [beq_iff_eq]
      omega
  have second_gear : Gear (fun t => t % 60 = 0) (secondWheel s) := by
    refine ⟨fun t _ => Nat.mod_one t, fun t _ => ?_⟩
    show (second (t + 1) == 0) = true ↔ (t + 1) % 60 = 0
    rw [beq_iff_eq]
    rfl
  exact ⟨month_gear, day_gear, hour_gear, minute_gear, second_gear, trivial⟩

/-- More seconds than there are until the year after the limit. -/
def patience : Nat := 366 * 6 * 86400

/-- `Next` from the upcoming second on. -/
def SpecSchedule.nextFrom (s : SpecSchedule) (t : Nat) : Option Nat :=
  let yearLimit := year t + 5
  let late := fun t => decide (year t > yearLimit)
  if late t then none else search (wheels s) late patience (wheels s) false t

/-- The next activation after `t`; none where the source returns the zero time. -/
def SpecSchedule.next (s : SpecSchedule) (t : Nat) : Option Nat := s.nextFrom (t / 1000000000 + 1)

/-! ### What Next finds -/

/-- The schedule is active in this second. -/
structure SpecSchedule.Active (s : SpecSchedule) (t : Nat) : Prop where
  month : has s.month (Crontab.month t) = true
  day : dayMatches s t = true
  hour : has s.hour (Crontab.hour t) = true
  minute : has s.minute (Crontab.minute t) = true
  second : has s.second (Crontab.second t) = true

theorem suits_active {s : SpecSchedule} {t : Nat} : Suits (wheels s) t ↔ s.Active t := by
  constructor
  · intro suits
    exact ⟨suits (monthWheel s) (by simp [wheels]), suits (dayWheel s) (by simp [wheels]),
      suits (hourWheel s) (by simp [wheels]),
      suits (minuteWheel s) (by simp [wheels]), suits (secondWheel s) (by simp [wheels])⟩
  · rintro ⟨month, day, hour, minute, second⟩ w member
    simp only [wheels, List.mem_cons, List.not_mem_nil, or_false] at member
    rcases member with rfl | rfl | rfl | rfl | rfl
    · exact month
    · exact day
    · exact hour
    · exact minute
    · exact second

theorem year_mono_seconds {t u : Nat} (upto : t ≤ u) : year t ≤ year u := year_mono (Nat.div_le_div_right upto)

theorem patience_days (t : Nat) : (t + patience) / 86400 = t / 86400 + 366 * 6 := by
  rw [patience, Nat.add_mul_div_right _ _ (by decide)]

theorem year_patience (t : Nat) : year t + (6 : Nat) ≤ year (t + patience) := by
  rw [year, year, patience_days]
  have six := years_end (t / 86400) 6
  -- what is left must not be computed
  generalize t / 86400 = n at six ⊢
  exact six

theorem patience_late (t : Nat) : decide (year (t + patience) > year t + 5) = true := by
  have later := year_patience t
  generalize year (t + patience) = y at later ⊢
  exact decide_eq_true (by omega)

theorem nextFrom_isLeast (s : SpecSchedule) (t u : Nat) :
    s.nextFrom t = some u ↔ IsLeast {v | t ≤ v ∧ year v ≤ year t + 5 ∧ s.Active v} u := by
  have monotone : ∀ u, decide (year u > year t + 5) = true → decide (year (u + 1) > year t + 5) = true := by
    intro u past
    have later : year u ≤ year (u + 1) := year_mono_seconds (by omega)
    have past := of_decide_eq_true past
    exact decide_eq_true (by omega)
  have years : ∀ u, ¬ FirstOfYear (u + 1) → decide (year (u + 1) > year t + 5) = decide (year u > year t + 5) :=
    fun u inside => by rw [year_turns inside]
  have early : decide (year t > year t + 5) = false := decide_eq_false (by omega)
  have same : {v | t ≤ v ∧ decide (year v > year t + 5) = false ∧ Suits (wheels s) v} =
      {v | t ≤ v ∧ year v ≤ year t + 5 ∧ s.Active v} := by
    ext v
    show _ ∧ _ ∧ _ ↔ _ ∧ _ ∧ _
    rw [suits_active, decide_eq_false_iff_not, not_lt]
  have correct := search_first monotone years (train s) early (patience_late t) u
  rw [same] at correct
  rw [← correct]
  simp only [SpecSchedule.nextFrom]
  rw [if_neg (by rw [early]; exact Bool.false_ne_true)]

/-- `Next` returns the first full second after `t` in which the schedule is active, unless the
year is then more than five past the one of the second after `t`; it returns the zero time where
there is none. -/
theorem next_isLeast (s : SpecSchedule) (t u : Nat) :
    s.next t = some u ↔
      IsLeast {v | t < v * 1000000000 ∧ year v ≤ year (t / 1000000000 + 1) + 5 ∧ s.Active v} u := by
  have first : ∀ v, t / 1000000000 + 1 ≤ v ↔ t < v * 1000000000 := by
    intro v
    omega
  rw [SpecSchedule.next, nextFrom_isLeast]
  simp only [first]

end Crontab
