import HomelabDaemon.Cron.Field
import HomelabDaemon.Strings
import Mathlib.Data.List.Infix

/-!
# Crontab lines

The vendored cron's standard parser. A line may name its time zone, and may be a descriptor in
place of five fields. The zone's name is cut out of the line up to a blank that need not be there.
-/

namespace Crontab
open Strings Calendar

inductive ParseError where
  | empty
  | badLocation (name : Str)
  | fieldCount (count : Nat)
  | field (error : FieldError)
  | duration (descriptor : Str)
  | descriptor (descriptor : Str)
  deriving DecidableEq

/-- The location is `none` for `time.Local`. -/
inductive Schedule (Location : Type) where
  | spec (s : SpecSchedule) (location : Option Location)
  /-- A delay in whole seconds. -/
  | every (delay : Nat)
  deriving DecidableEq

/-- A parse may end in a panic. -/
inductive Outcome (α : Type) where
  | ok (a : α)
  | error (e : ParseError)
  | panics
  deriving DecidableEq

def Outcome.ofExcept {α : Type} : Except ParseError α → Outcome α
  | .ok a => .ok a
  | .error e => .error e

/-- `all(r)` -/
def all (r : Bounds) : BitVec 64 := getBits r.min r.max 1 ||| starBit

/-- The zero seconds, minutes and so on of a descriptor. -/
def first (r : Bounds) : BitVec 64 := 1 <<< r.min

def yearly : SpecSchedule where
  second := first seconds
  minute := first minutes
  hour := first hours
  dom := first dom
  month := first months
  dow := all dow

def monthly : SpecSchedule := { yearly with month := all months }

def daily : SpecSchedule := { monthly with dom := all dom }

def weekly : SpecSchedule := { daily with dow := first dow }

def hourly : SpecSchedule := { daily with hour := all hours }

section Parse
variable {Location : Type} (loadLocation : Str → Option Location) (parseDuration : Str → Option Int)

/-- `Every`: at least a second, and whole seconds. -/
def every (duration : Int) : Schedule Location :=
  let duration := if duration < 1000000000 then 1000000000 else duration
  .every (duration / 1000000000).toNat

def parseDescriptor (descriptor : Str) (location : Option Location) : Except ParseError (Schedule Location) :=
  if descriptor = "@yearly".toList ∨ descriptor = "@annually".toList then .ok (.spec yearly location)
  else if descriptor = "@monthly".toList then .ok (.spec monthly location)
  else if descriptor = "@weekly".toList then .ok (.spec weekly location)
  else if descriptor = "@daily".toList ∨ descriptor = "@midnight".toList then .ok (.spec daily location)
  else if descriptor = "@hourly".toList then .ok (.spec hourly location)
  else if "@every ".toList <+: descriptor then
    match parseDuration (descriptor.drop 7) with
    | none => .error (.duration descriptor)
    | some duration => .ok (every duration)
  else .error (.descriptor descriptor)

/-- For the options of the standard parser: five fields, and no seconds. -/
def normalizeFields (words : List Str) : Except ParseError (List Str) :=
  if words.length = 5 then .ok (['0'] :: words) else .error (.fieldCount words.length)

def field (text : Str) (r : Bounds) : Except ParseError (BitVec 64) :=
  match getField text r with
  | .ok bits => .ok bits
  | .error e => .error (.field e)

/-- The schedule of the six fields. -/
def parseFields (words : List Str) : Except ParseError SpecSchedule := do
  let second ← field (words.getD 0 []) seconds
  let minute ← field (words.getD 1 []) minutes
  let hour ← field (words.getD 2 []) hours
  let dayofmonth ← field (words.getD 3 []) dom
  let month ← field (words.getD 4 []) months
  let dayofweek ← field (words.getD 5 []) dow
  return { second := second, minute := minute, hour := hour, dom := dayofmonth, month := month, dow := dayofweek }

/-- What is left of the line without its zone. -/
def parseIn (spec : Str) (location : Option Location) : Except ParseError (Schedule Location) :=
  if ['@'] <+: spec then parseDescriptor parseDuration spec location
  else do
    let words ← normalizeFields (fields spec)
    let s ← parseFields words
    return .spec s location

/-- The line names a time zone. -/
def Zoned (spec : Str) : Prop := "TZ=".toList <+: spec ∨ "CRON_TZ=".toList <+: spec

instance (spec : Str) : Decidable (Zoned spec) :=
  inferInstanceAs (Decidable (_ ∨ _))

/-- `ParseStandard`. The slice up to the blank panics when there is none. -/
def parse (spec : Str) : Outcome (Schedule Location) :=
  if spec = [] then .error .empty
  else if Zoned spec then
    match cut [' '] spec with
    | none => .panics
    | some (zone, rest) =>
      let name := ((cut ['='] zone).getD ([], [])).2
      match loadLocation name with
      | none => .error (.badLocation name)
      | some location => .ofExcept (parseIn parseDuration (trimSpace (' ' :: rest)) (some location))
  else .ofExcept (parseIn parseDuration spec none)

variable {loadLocation parseDuration} {spec : Str} {location : Option Location}

/-- A line that names a zone and has no blank stops the program. -/
theorem parse_panics : parse loadLocation parseDuration spec = .panics ↔ Zoned spec ∧ ' ' ∉ spec := by
  have blank : (cut [' '] spec).isSome = true ↔ ' ' ∈ spec := by
    rw [← contains, contains_iff, List.singleton_infix_iff]
  have total : ∀ {x : Except ParseError (Schedule Location)}, Outcome.ofExcept x ≠ .panics := by
    intro x
    cases x <;> simp [Outcome.ofExcept]
  unfold parse
  split
  · rename_i empty
    subst empty
    simp [Zoned]
  split
  · rename_i zoned
    cases found : cut [' '] spec with
    | none =>
      rw [found] at blank
      simpa [zoned] using blank
    | some parts =>
      rw [found] at blank
      obtain ⟨zone, rest⟩ := parts
      have here : ' ' ∈ spec := blank.mp rfl
      simp only [here, not_true_eq_false, and_false, iff_false]
      split
      · simp
      · exact total
  · rename_i plain
    simp [plain, total]

/-! ### From a line to its activations -/

/-- The numbers that the five fields of a line stand for. If the day of the month or the one of
the week is a star both must hold, else one is enough. -/
structure Matches (mi h d mo w : Str) (t : Nat) : Prop where
  second : second t = 0
  minute : Denotes minutes mi (minute t)
  hour : Denotes hours h (hour t)
  month : Denotes months mo (month t)
  both : Starred dom d ∨ Starred dow w → Denotes dom d (day t) ∧ Denotes dow w (weekday t)
  either : ¬ (Starred dom d ∨ Starred dow w) → Denotes dom d (day t) ∨ Denotes dow w (weekday t)

theorem field_ok {text : Str} {r : Bounds} {bits : BitVec 64} :
    field text r = .ok bits ↔ getField text r = .ok bits := by
  unfold field
  cases getField text r <;> simp

theorem zero_field : getField ['0'] seconds = .ok 1 := by decide

/-- The seconds of a line are 0. -/
theorem zero_second (t : Nat) : has (1 : BitVec 64) (second t) = true ↔ second t = 0 := by
  have inside : second t < 64 := Nat.lt_of_lt_of_le (Nat.mod_lt t (by decide)) (by decide)
  rw [has_getLsbD inside]
  show (1#64).getLsbD (second t) = true ↔ _
  rw [BitVec.getLsbD_one]
  simp

theorem field_bounds (t : Nat) : minute t < 63 ∧ hour t < 63 ∧ month t < 63 ∧ day t < 63 ∧ weekday t < 63 := by
  have valid := date_valid (t / 86400)
  have most := daysIn_bounds (month t) (year t)
  have months_ := valid.month.2
  have days := valid.day.2
  unfold minute hour month day weekday
  unfold month year at most
  omega

theorem parseFields_active {mi h d mo w : Str} {s : SpecSchedule} (read : parseFields [['0'], mi, h, d, mo, w] = .ok s)
    (t : Nat) :
    s.Active t ↔ Matches mi h d mo w t := by
  obtain ⟨b0, r0, read⟩ := bind_ok read
  obtain ⟨b1, r1, read⟩ := bind_ok read
  obtain ⟨b2, r2, read⟩ := bind_ok read
  obtain ⟨b3, r3, read⟩ := bind_ok read
  obtain ⟨b4, r4, read⟩ := bind_ok read
  obtain ⟨b5, r5, read⟩ := bind_ok read
  cases read
  have zero : b0 = 1 := by
    have same := (field_ok.mp r0).symm.trans zero_field
    exact Except.ok.inj same
  subst zero
  obtain ⟨minuteSmall, hourSmall, monthSmall, daySmall, weekdaySmall⟩ := field_bounds t
  have minute_ := getField_has (by decide) (field_ok.mp r1) minuteSmall
  have hour_ := getField_has (by decide) (field_ok.mp r2) hourSmall
  have day_ := getField_has (by decide) (field_ok.mp r3) daySmall
  have month_ := getField_has (by decide) (field_ok.mp r4) monthSmall
  have weekday_ := getField_has (by decide) (field_ok.mp r5) weekdaySmall
  have star := getField_star (by decide) (field_ok.mp r3)
  have star' := getField_star (by decide) (field_ok.mp r5)
  have days : dayMatches ⟨1, b1, b2, b3, b4, b5⟩ t = true ↔
      (Starred dom d ∨ Starred dow w → Denotes dom d (day t) ∧ Denotes dow w (weekday t)) ∧
      (¬ (Starred dom d ∨ Starred dow w) → Denotes dom d (day t) ∨ Denotes dow w (weekday t)) := by
    unfold dayMatches
    simp only
    by_cases starred : Starred dom d ∨ Starred dow w
    · rw [if_pos (by rw [Bool.or_eq_true, star, star']; exact starred), Bool.and_eq_true, day_, weekday_]
      simp [starred]
    · rw [if_neg (by rw [Bool.or_eq_true, star, star']; exact starred), Bool.or_eq_true, day_, weekday_]
      simp [starred]
  constructor
  · rintro ⟨onMonth, onDay, onHour, onMinute, onSecond⟩
    obtain ⟨both, either⟩ := days.mp onDay
    exact ⟨(zero_second t).mp onSecond, minute_.mp onMinute, hour_.mp onHour, month_.mp onMonth, both, either⟩
  · rintro ⟨onSecond, onMinute, onHour, onMonth, both, either⟩
    exact ⟨month_.mpr onMonth, days.mpr ⟨both, either⟩, hour_.mpr onHour, minute_.mpr onMinute,
      (zero_second t).mpr onSecond⟩

/-- A schedule of bits is that of a descriptor of one word, or of five fields. -/
theorem parseIn_spec {s : SpecSchedule} {given : Option Location}
    (read : parseIn parseDuration spec given = .ok (.spec s location)) :
    location = given ∧ ((fields spec).length = 1 ∨ ∃ words, normalizeFields (fields spec) = .ok words ∧
    parseFields words = .ok s) := by
  unfold parseIn at read
  split at read
  · unfold parseDescriptor at read
    split at read
    · rename_i is
      cases read
      exact ⟨rfl, .inl (by rcases is with rfl | rfl <;> decide)⟩
    split at read
    · rename_i is
      cases read
      exact ⟨rfl, .inl (by rw [is]; decide)⟩
    split at read
    · rename_i is
      cases read
      exact ⟨rfl, .inl (by rw [is]; decide)⟩
    split at read
    · rename_i is
      cases read
      exact ⟨rfl, .inl (by rcases is with rfl | rfl <;> decide)⟩
    split at read
    · rename_i is
      cases read
      exact ⟨rfl, .inl (by rw [is]; decide)⟩
    split at read
    · split at read <;> simp [every] at read
    · cases read
  · obtain ⟨words, five, read⟩ := bind_ok read
    obtain ⟨s', fields_, read⟩ := bind_ok read
    cases read
    exact ⟨rfl, .inr ⟨words, five, fields_⟩⟩

/-- A line that is accepted without a zone names none. -/
theorem parse_local {s : SpecSchedule} (accepted : parse loadLocation parseDuration spec = .ok (.spec s none)) :
    (parseIn parseDuration spec none : Except ParseError (Schedule Location)) = .ok (.spec s none) := by
  have inner : ∀ {x : Except ParseError (Schedule Location)} {a}, Outcome.ofExcept x = .ok a → x = .ok a := by
    intro x a same
    cases x with
    | error e => cases same
    | ok b =>
      cases same
      rfl
  unfold parse at accepted
  split at accepted
  · cases accepted
  split at accepted
  · split at accepted
    · cases accepted
    · simp only at accepted
      split at accepted
      · cases accepted
      · have other := (parseIn_spec (inner accepted)).1
        cases other
  · exact inner accepted

theorem parse_fields {mi h d mo w : Str} {s : SpecSchedule} (words : fields spec = [mi, h, d, mo, w])
    (accepted : parse loadLocation parseDuration spec = .ok (.spec s none)) :
    parseFields [['0'], mi, h, d, mo, w] = .ok s := by
  rcases (parseIn_spec (parse_local accepted)).2 with one | ⟨all, five, read⟩
  · rw [words] at one
    cases one
  · rw [words] at five
    cases five
    exact read

/-- An accepted line of five fields is next active in the first full minute after `t` that its
fields stand for, unless the year is then more than five on. -/
theorem parse_next {mi h d mo w : Str} {s : SpecSchedule} {t u : Nat} (words : fields spec = [mi, h, d, mo, w])
    (accepted : parse loadLocation parseDuration spec = .ok (.spec s none)) :
    s.next t = some u ↔
      IsLeast {v | t < v * 1000000000 ∧ year v ≤ year (t / 1000000000 + 1) + 5 ∧ Matches mi h d mo w v} u := by
  rw [next_isLeast]
  simp only [parseFields_active (parse_fields words accepted)]

/-- Three o'clock on leap days: the first one after the epoch is in 1972. -/
theorem parse_next_leapDay :
    IsLeast {v | 0 < v * 1000000000 ∧ year v ≤ year (0 / 1000000000 + 1) + 5 ∧
      Matches ['0'] ['3'] ['2', '9'] ['2'] ['*'] v} 68180400 := by
  have words : fields "0 3 29 2 *".toList = [['0'], ['3'], ['2', '9'], ['2'], ['*']] := by decide
  have accepted : parse (fun _ => some ()) (fun _ => none) "0 3 29 2 *".toList =
      .ok (.spec { second := 1, minute := 1, hour := 8, dom := 536870912, month := 4, dow := 0x800000000000007F } none) := by
    decide
  exact (parse_next words accepted).mp (by decide +kernel)

/-- A line without a zone that is no descriptor is accepted exactly if it has five fields, each
of which is well formed. -/
theorem parse_accepts (plain : ¬ Zoned spec ∧ ¬ ['@'] <+: spec) :
    (∃ s, parse loadLocation parseDuration spec = .ok (.spec s none)) ↔
      ∃ mi h d mo w, fields spec = [mi, h, d, mo, w] ∧ WellFormed minutes mi ∧ WellFormed hours h ∧ WellFormed dom d ∧
        WellFormed months mo ∧ WellFormed dow w := by
  simp only [← getField_accepts]
  constructor
  · rintro ⟨s, accepted⟩
    have read := parse_local accepted
    unfold parseIn at read
    rw [if_neg plain.2] at read
    obtain ⟨words, five, read⟩ := bind_ok read
    obtain ⟨s', read, _⟩ := bind_ok read
    unfold normalizeFields at five
    split at five
    · rename_i five_
      cases five
      obtain ⟨mi, h, d, mo, w, is⟩ : ∃ mi h d mo w, fields spec = [mi, h, d, mo, w] := by
        generalize fields spec = words at five_ ⊢
        rcases words with _ | ⟨mi, _ | ⟨h, _ | ⟨d, _ | ⟨mo, _ | ⟨w, _ | ⟨more, rest⟩⟩⟩⟩⟩⟩ <;> simp at five_
        exact ⟨mi, h, d, mo, w, rfl⟩
      rw [is] at read
      obtain ⟨_, _, read⟩ := bind_ok read
      obtain ⟨b1, r1, read⟩ := bind_ok read
      obtain ⟨b2, r2, read⟩ := bind_ok read
      obtain ⟨b3, r3, read⟩ := bind_ok read
      obtain ⟨b4, r4, read⟩ := bind_ok read
      obtain ⟨b5, r5, read⟩ := bind_ok read
      exact ⟨mi, h, d, mo, w, is, ⟨b1, field_ok.mp r1⟩, ⟨b2, field_ok.mp r2⟩, ⟨b3, field_ok.mp r3⟩,
        ⟨b4, field_ok.mp r4⟩, ⟨b5, field_ok.mp r5⟩⟩
    · cases five
  · rintro ⟨mi, h, d, mo, w, is, ⟨b1, r1⟩, ⟨b2, r2⟩, ⟨b3, r3⟩, ⟨b4, r4⟩, ⟨b5, r5⟩⟩
    have some_ : spec ≠ [] := by
      rintro rfl
      simp [fields] at is
    have zero : field ['0'] seconds = .ok 1 := field_ok.mpr zero_field
    refine ⟨⟨1, b1, b2, b3, b4, b5⟩, ?_⟩
    have read : parseFields [['0'], mi, h, d, mo, w] = .ok ⟨1, b1, b2, b3, b4, b5⟩ := by
      simp only [parseFields, List.getD_cons_zero, List.getD_cons_succ, zero, field_ok.mpr r1, field_ok.mpr r2,
        field_ok.mpr r3,
        field_ok.mpr r4, field_ok.mpr r5]
      rfl
    have five : normalizeFields (fields spec) = .ok [['0'], mi, h, d, mo, w] := by rw [is]; rfl
    rw [parse, if_neg some_, if_neg plain.1, parseIn, if_neg plain.2, five]
    show Outcome.ofExcept (parseFields _ >>= _) = _
    rw [read]
    rfl

/-- Every quarter of an hour on working days. -/
theorem parse_accepts_quarters : ∃ mi h d mo w, fields "*/15 * * * mon-fri".toList = [mi, h, d, mo, w] ∧
    WellFormed minutes mi ∧ WellFormed hours h ∧ WellFormed dom d ∧ WellFormed months mo ∧ WellFormed dow w := by
  have accepts : (∃ s, parse (fun _ => some ()) (fun _ => none) "*/15 * * * mon-fri".toList = .ok (.spec s none)) ↔ _ :=
    parse_accepts (by decide)
  exact accepts.mp ⟨_, rfl⟩

end Parse

end Crontab
