import Mathlib.Data.Char
import Mathlib.Data.List.Basic
import Mathlib.Algebra.GroupWithZero.Nat

/-!
# Times and their RFC 3339 text

A time is its date and clock where it was taken, with the offset of that place. The text has no
fraction of a second, and no seconds in the offset.
-/

namespace Rfc3339

def isLeap (year : Int) : Bool := year % 4 = 0 && (year % 100 ≠ 0 || year % 400 = 0)

def daysIn (month : Nat) (year : Int) : Nat :=
  if month = 2 then if isLeap year then 29 else 28
  else if month = 4 ∨ month = 6 ∨ month = 9 ∨ month = 11 then 30
  else 31

structure DateTime where
  year : Int
  month : Nat
  day : Nat
  hour : Nat
  minute : Nat
  second : Nat
  nanosecond : Nat
  /-- Seconds east of UTC. -/
  offset : Int
  month_valid : 1 ≤ month ∧ month ≤ 12
  day_valid : 1 ≤ day ∧ day ≤ daysIn month year
  hour_valid : hour < 24
  minute_valid : minute < 60
  second_valid : second < 60
  nanosecond_valid : nanosecond < 1000000000
  deriving DecidableEq

def digit (n : Nat) : Char := Char.ofNat (48 + n)

def appendInt (x : Int) (width : Nat) : List Char :=
  let u := x.natAbs
  let digits :=
    if width = 2 ∧ u < 100 then [digit (u / 10), digit (u % 10)]
    else if width = 4 ∧ u < 10000 then [digit (u / 1000), digit (u / 100 % 10), digit (u / 10 % 10), digit (u % 10)]
    else
      let long := (Nat.repr u).toList
      List.replicate (width - long.length) '0' ++ long
  if x < 0 then '-' :: digits else digits

def formatZone (offset : Int) : List Char :=
  if offset = 0 then ['Z']
  else
    let zone := offset.tdiv 60
    (if zone < 0 then '-' else '+') :: (appendInt (zone.natAbs / 60 : Nat) 2 ++ ':' ::
      appendInt (zone.natAbs % 60 : Nat) 2)

def format (t : DateTime) : List Char :=
  appendInt t.year 4 ++ '-' :: (appendInt t.month 2 ++ '-' :: (appendInt t.day 2 ++ 'T' :: (appendInt t.hour 2 ++
    ':' :: (appendInt t.minute 2 ++ ':' :: (appendInt t.second 2 ++ formatZone t.offset)))))

def valueOf (c : Char) : Nat := c.toNat - 48

def skip (c : Char) : List Char → Option (List Char)
  | [] => none
  | d :: s => if d = c then some s else none

/-- Two digits, or one where the number is not `fixed`. -/
def getnum (fixed : Bool) : List Char → Option (Nat × List Char)
  | a :: b :: s =>
    if ¬ a.isDigit then none
    else if b.isDigit then some (valueOf a * 10 + valueOf b, s)
    else if fixed then none
    else some (valueOf a, b :: s)
  | [a] => if a.isDigit ∧ ¬ fixed then some (valueOf a, []) else none
  | [] => none

def getYear : List Char → Option (Nat × List Char)
  | a :: b :: c :: d :: s =>
    if a.isDigit ∧ b.isDigit ∧ c.isDigit ∧ d.isDigit then
      some (((valueOf a * 10 + valueOf b) * 10 + valueOf c) * 10 + valueOf d, s)
    else none
  | _ => none

def nanoseconds (digits : List Char) : Nat :=
  (digits.take 9).foldl (fun n c => n * 10 + valueOf c) 0 * 10 ^ (9 - digits.length)

/-- A fraction is read although the layout has none. -/
def getFraction : List Char → Nat × List Char
  | sep :: d :: s =>
    if (sep = '.' ∨ sep = ',') ∧ d.isDigit then (nanoseconds ((d :: s).takeWhile Char.isDigit),
    (d :: s).dropWhile Char.isDigit) else (0, sep :: d :: s)
  | s => (0, s)

def getZone : List Char → Option (Int × List Char)
  | 'Z' :: s => some (0, s)
  | sign :: h₁ :: h₂ :: ':' :: m₁ :: m₂ :: s => do
    let (hours, _) ← getnum true [h₁, h₂]
    let (minutes, _) ← getnum true [m₁, m₂]
    if hours > 24 ∨ minutes > 60 then none
    else if sign = '+' then some (((hours * 60 + minutes) * 60 : Nat), s)
    else if sign = '-' then some (-((hours * 60 + minutes) * 60 : Nat), s)
    else none
  | _ => none

def parse (s : List Char) : Option DateTime := do
  let (year, s) ← getYear s
  let s ← skip '-' s
  let (month, s) ← getnum true s
  let s ← skip '-' s
  let (day, s) ← getnum true s
  let s ← skip 'T' s
  let (hour, s) ← getnum false s
  let s ← skip ':' s
  let (minute, s) ← getnum true s
  let s ← skip ':' s
  let (second, s) ← getnum true s
  let (nanosecond, s) := getFraction s
  let (offset, s) ← getZone s
  if valid : s = [] ∧ (1 ≤ month ∧ month ≤ 12) ∧ (1 ≤ day ∧ day ≤ daysIn month year) ∧ hour < 24 ∧ minute < 60 ∧
    second < 60
      ∧ nanosecond < 1000000000 then
    some {
      year := year, month := month, day := day, hour := hour, minute := minute, second := second, nanosecond :=
        nanosecond
      offset := offset, month_valid := valid.2.1, day_valid := valid.2.2.1, hour_valid := valid.2.2.2.1
      minute_valid := valid.2.2.2.2.1, second_valid := valid.2.2.2.2.2.1, nanosecond_valid := valid.2.2.2.2.2.2 }
  else none

/-! ### Round trip -/

namespace DateTime

def truncate (t : DateTime) : DateTime := { t with nanosecond := 0, nanosecond_valid := by decide }

/-- The year has four digits and the offset is in minutes. -/
structure Representable (t : DateTime) : Prop where
  year : 0 ≤ t.year ∧ t.year ≤ 9999
  minutes : t.offset % 60 = 0
  hours : t.offset.natAbs < 25 * 3600

@[simp] theorem truncate_truncate (t : DateTime) : t.truncate.truncate = t.truncate := rfl

theorem Representable.truncate {t : DateTime} (representable : t.Representable) : t.truncate.Representable :=
  ⟨representable.year, representable.minutes, representable.hours⟩

end DateTime

theorem digit_isDigit : ∀ n < 10, (digit n).isDigit = true := by decide

theorem valueOf_digit : ∀ n < 10, valueOf (digit n) = n := by decide

theorem appendInt_two {n : Nat} (small : n < 100) : appendInt n 2 = [digit (n / 10), digit (n % 10)] := by
  have natural : ¬ (n : Int) < 0 := by omega
  simp only [appendInt, natural, if_false, Int.natAbs_natCast, true_and, if_pos small]

theorem appendInt_four {n : Nat} (small : n < 10000) :
    appendInt n 4 = [digit (n / 1000), digit (n / 100 % 10), digit (n / 10 % 10), digit (n % 10)] := by
  have natural : ¬ (n : Int) < 0 := by omega
  simp [appendInt, natural, small]

theorem getnum_digits (fixed : Bool) {n : Nat} (small : n < 100) (s : List Char) :
    getnum fixed (digit (n / 10) :: digit (n % 10) :: s) = some (n, s) := by
  have tens : n / 10 < 10 := by omega
  have units : n % 10 < 10 := by omega
  have value : n / 10 * 10 + n % 10 = n := by omega
  simp [getnum, digit_isDigit _ tens, digit_isDigit _ units, valueOf_digit _ tens, valueOf_digit _ units, value]

theorem getnum_appendInt (fixed : Bool) {n : Nat} (small : n < 100) (s : List Char) :
    getnum fixed (appendInt n 2 ++ s) = some (n, s) := by
  rw [appendInt_two small]
  exact getnum_digits fixed small s

theorem getYear_appendInt {n : Nat} (small : n < 10000) (s : List Char) :
    getYear (appendInt n 4 ++ s) = some (n, s) := by
  have thousands : n / 1000 < 10 := by omega
  have hundreds : n / 100 % 10 < 10 := by omega
  have tens : n / 10 % 10 < 10 := by omega
  have units : n % 10 < 10 := by omega
  have value : ((n / 1000 * 10 + n / 100 % 10) * 10 + n / 10 % 10) * 10 + n % 10 = n := by omega
  rw [appendInt_four small]
  simp [getYear, digit_isDigit _ thousands, digit_isDigit _ hundreds, digit_isDigit _ tens, digit_isDigit _ units,
    valueOf_digit _ thousands, valueOf_digit _ hundreds, valueOf_digit _ tens, valueOf_digit _ units, value]

theorem skip_cons (c : Char) (s : List Char) : skip c (c :: s) = some s := by simp [skip]

/-- What is between the sign and the end of an offset. -/
theorem getZone_clock {c : Char} (apart : c ≠ 'Z') {hours minutes : Nat} (day : hours ≤ 24) (hour : minutes < 60) :
    getZone (c :: (appendInt hours 2 ++ ':' :: appendInt minutes 2)) =
      if c = '+' then some ((((hours * 60 + minutes) * 60 : Nat) : Int), [])
      else if c = '-' then some (-(((hours * 60 + minutes) * 60 : Nat) : Int), [])
      else none := by
  have h := getnum_digits true (n := hours) (by omega) []
  have m := getnum_digits true (n := minutes) (by omega) []
  have inside : ¬ (hours > 24 ∨ minutes > 60) := by omega
  rw [appendInt_two (n := hours) (by omega), appendInt_two (n := minutes) (by omega)]
  simp [getZone, h, m, inside]

theorem getZone_formatZone {offset : Int} (minutes : offset % 60 = 0) (hours : offset.natAbs < 25 * 3600) :
    getZone (formatZone offset) = some (offset, []) := by
  obtain ⟨zone, rfl⟩ : ∃ zone, offset = zone * 60 := ⟨offset / 60, by omega⟩
  have day : zone.natAbs / 60 ≤ 24 := by omega
  have hour : zone.natAbs % 60 < 60 := by omega
  have clock : ((zone.natAbs / 60 * 60 + zone.natAbs % 60) * 60 : Nat) = zone.natAbs * 60 := by omega
  have toward : (zone * 60).tdiv 60 = zone := Int.mul_tdiv_cancel zone (by decide)
  unfold formatZone
  by_cases utc : zone * 60 = 0
  · rw [if_pos utc, utc]
    rfl
  · rw [if_neg utc]
    dsimp only
    rw [toward]
    by_cases west : zone < 0
    · rw [if_pos west, getZone_clock (c := '-') (by decide) day hour, if_neg (by decide), if_pos rfl, clock]
      congr 2
      omega
    · rw [if_neg west, getZone_clock (c := '+') (by decide) day hour, if_pos rfl, clock]
      congr 2
      omega

theorem getFraction_formatZone (offset : Int) : getFraction (formatZone offset) = (0, formatZone offset) := by
  unfold formatZone
  by_cases utc : offset = 0
  · rw [if_pos utc]
    rfl
  · rw [if_neg utc]
    dsimp only
    generalize appendInt _ 2 ++ _ = clock
    cases clock with
    | nil => split <;> rfl
    | cons d s => split <;> simp [getFraction]

theorem parse_format {t : DateTime} (representable : t.Representable) : parse (format t) = some t.truncate := by
  obtain ⟨year, month, day, hour, minute, second, nanosecond, offset, months, days, hours, minutes, seconds, _⟩ := t
  obtain ⟨⟨positive, four⟩, whole, bounded⟩ := representable
  obtain ⟨year, rfl⟩ := Int.eq_ofNat_of_zero_le positive
  have most : daysIn month year ≤ 31 := by
    unfold daysIn
    split_ifs <;> decide
  have date : day < 100 := by omega
  simp only at whole bounded four
  simp only [parse, format, getYear_appendInt (n := year) (by omega), getnum_appendInt _ (n := month) (by omega),
    getnum_appendInt _ date, getnum_appendInt _ (n := hour) (by omega), getnum_appendInt _ (n := minute) (by omega),
    getnum_appendInt _ (n := second) (by omega), skip_cons, getFraction_formatZone, getZone_formatZone whole bounded,
    Option.bind_some, bind]
  rw [dif_pos ⟨trivial, months, days, hours, minutes, seconds, by decide⟩]
  rfl

end Rfc3339
