import HomelabDaemon.Cron.Spec
import HomelabDaemon.Strings.ParseInt
import HomelabDaemon.Strings.Words

/-!
# The fields of a crontab line

A field is a list of ranges, and its bits are those of the numbers that one of the ranges has. A
range reads `number`, `number-number` or a star, each with a step if it likes.
-/

namespace Crontab
open Strings

structure Bounds where
  min : Nat
  max : Nat
  names : List (Str × Nat) := []

def seconds : Bounds := { min := 0, max := 59 }

def minutes : Bounds := { min := 0, max := 59 }

def hours : Bounds := { min := 0, max := 23 }

def dom : Bounds := { min := 1, max := 31 }

def months : Bounds where
  min := 1
  max := 12
  names := [("jan".toList, 1), ("feb".toList, 2), ("mar".toList, 3), ("apr".toList, 4), ("may".toList, 5),
    ("jun".toList, 6),
    ("jul".toList, 7), ("aug".toList, 8), ("sep".toList, 9), ("oct".toList, 10), ("nov".toList, 11), ("dec".toList, 12)]

def dow : Bounds where
  min := 0
  max := 6
  names := [("sun".toList, 0), ("mon".toList, 1), ("tue".toList, 2), ("wed".toList, 3), ("thu".toList, 4),
    ("fri".toList, 5),
    ("sat".toList, 6)]

inductive FieldError where
  | parseInt (expr : Str) (error : NumError)
  | negative (num : Int) (expr : Str)
  | tooManyHyphens (expr : Str)
  | tooManySlashes (expr : Str)
  | belowMinimum (start min : Nat) (expr : Str)
  | aboveMaximum (stop max : Nat) (expr : Str)
  | beyondEnd (start stop : Nat) (expr : Str)
  | stepZero (expr : Str)
  deriving DecidableEq

def mustParseInt (expr : Str) : Except FieldError Nat :=
  match parseInt expr with
  | (_, some error) => .error (.parseInt expr error)
  | (num, none) => if num < 0 then .error (.negative num expr) else .ok num.toNat

/-- The lower case of a letter whose lower case is in the names: two of them are not ASCII. -/
def lower (c : Char) : Char :=
  if c.isUpper then c.toLower else if c.toNat = 0x130 then 'i' else if c.toNat = 0x212A then 'k' else c

def parseIntOrName (expr : Str) (names : List (Str × Nat)) : Except FieldError Nat :=
  match names.lookup (expr.map lower) with
  | some namedInt => .ok namedInt
  | none => mustParseInt expr

/-- The loop of `getBits`. -/
def getBitsFrom (max step : Nat) : Nat → Nat → BitVec 64 → BitVec 64
  | 0, _, bits => bits
  | fuel + 1, i, bits => if i ≤ max then getBitsFrom max step fuel (i + step) (bits ||| 1 <<< i) else bits

def getBits (min max step : Nat) : BitVec 64 :=
  if step = 1 then ~~~(BitVec.allOnes 64 <<< (max + 1)) &&& (BitVec.allOnes 64 <<< min)
  else getBitsFrom max step (max + 1) min 0

/-- The switch on the hyphens. -/
def getEnd (expr : Str) (start : Nat) (r : Bounds) : List Str → Except FieldError Nat
  | [_] => .ok start
  | [_, high] => parseIntOrName high r.names
  | _ => .error (.tooManyHyphens expr)

/-- Start, end and whether there is a star. -/
def getEnds (expr : Str) (lowAndHigh : List Str) (r : Bounds) : Except FieldError (Nat × Nat × Bool) :=
  let low := lowAndHigh.headD []
  if low = ['*'] ∨ low = ['?'] then .ok (r.min, r.max, true)
  else do
    let start ← parseIntOrName low r.names
    let stop ← getEnd expr start r lowAndHigh
    return (start, stop, false)

structure Item where
  low : Nat
  high : Nat
  step : Nat
  star : Bool
  deriving DecidableEq

/-- Adds the step. "N/step" means "N-max/step". -/
def getStep (expr : Str) (rangeAndStep : List Str) (singleDigit : Bool) (ends : Nat × Nat × Bool) (r : Bounds) :
    Except FieldError Item :=
  match rangeAndStep with
  | [_] => .ok ⟨ends.1, ends.2.1, 1, ends.2.2⟩
  | [_, text] => do
    let step ← mustParseInt text
    .ok ⟨ends.1, if singleDigit then r.max else ends.2.1, step, if step > 1 then false else ends.2.2⟩
  | _ => .error (.tooManySlashes expr)

def Item.check (item : Item) (expr : Str) (r : Bounds) : Except FieldError Unit :=
  if item.low < r.min then .error (.belowMinimum item.low r.min expr)
  else if item.high > r.max then .error (.aboveMaximum item.high r.max expr)
  else if item.low > item.high then .error (.beyondEnd item.low item.high expr)
  else if item.step = 0 then .error (.stepZero expr)
  else .ok ()

def Item.bits (item : Item) : BitVec 64 := getBits item.low item.high item.step ||| if item.star then starBit else 0

def getRange (expr : Str) (r : Bounds) : Except FieldError (BitVec 64) := do
  let rangeAndStep := expr.splitOn '/'
  let lowAndHigh := (rangeAndStep.headD []).splitOn '-'
  let ends ← getEnds expr lowAndHigh r
  let item ← getStep expr rangeAndStep (lowAndHigh.length == 1) ends r
  item.check expr r
  return item.bits

def ranges (field : Str) : List Str := wordsBy (· == ',') field

def getField (field : Str) (r : Bounds) : Except FieldError (BitVec 64) :=
  (ranges field).foldlM (fun bits expr => do
    let bit ← getRange expr r
    return bits ||| bit) 0

/-! ### The grammar -/

/-- A number as digits or by its name. -/
def Number (r : Bounds) (text : Str) (n : Nat) : Prop := parseIntOrName text r.names = .ok n

/-- A range without its step: what it goes from and to, whether it is a single number or a star
alone, and whether it is a star. Behind a star anything may follow a hyphen. -/
inductive Span (r : Bounds) : Str → Nat → Nat → Bool → Bool → Prop where
  | star {c : Char} (star : c = '*' ∨ c = '?') : Span r [c] r.min r.max true true
  | starFrom {c : Char} (star : c = '*' ∨ c = '?') (rest : Str) : Span r (c :: '-' :: rest) r.min r.max false true
  | single {text : Str} {n : Nat} (plain : '-' ∉ text) (other : text ≠ ['*'] ∧ text ≠ ['?'])
      (number : Number r text n) :
      Span r text n n true false
  | range {low high : Str} {a b : Nat} (plain : '-' ∉ low ∧ '-' ∉ high) (other : low ≠ ['*'] ∧ low ≠ ['?'])
      (from_ : Number r low a) (upto : Number r high b) : Span r (low ++ '-' :: high) a b false false

inductive Reads (r : Bounds) : Str → Item → Prop where
  | plain {text : Str} {low high : Nat} {single star : Bool} (unstepped : '/' ∉ text)
      (span : Span r text low high single star) :
      Reads r text ⟨low, high, 1, star⟩
  | stepped {text step : Str} {low high k : Nat} {single star : Bool} (unstepped : '/' ∉ text ∧ '/' ∉ step)
      (span : Span r text low high single star) (number : mustParseInt step = .ok k) :
      Reads r (text ++ '/' :: step) ⟨low, if single then r.max else high, k, star && decide (k ≤ 1)⟩

structure Item.Fits (item : Item) (r : Bounds) : Prop where
  low : r.min ≤ item.low
  high : item.high ≤ r.max
  order : item.low ≤ item.high
  step : 0 < item.step

def Item.Has (item : Item) (n : Nat) : Prop := item.low ≤ n ∧ n ≤ item.high ∧ item.step ∣ n - item.low

/-- One of the ranges has the number. -/
def Denotes (r : Bounds) (field : Str) (n : Nat) : Prop :=
  ∃ expr ∈ ranges field, ∃ item, Reads r expr item ∧ item.Fits r ∧ item.Has n

/-- One of the ranges is a star without a step. -/
def Starred (r : Bounds) (field : Str) : Prop :=
  ∃ expr ∈ ranges field, ∃ item, Reads r expr item ∧ item.Fits r ∧ item.star = true

theorem splitOn_cases (c : Char) (s : Str) :
    (c ∉ s ∧ s.splitOn c = [s]) ∨ ∃ a b, s = a ++ c :: b ∧ c ∉ a ∧ s.splitOn c = a :: b.splitOn c := by
  by_cases member : c ∈ s
  · obtain ⟨a, b, rfl, fresh⟩ := List.eq_append_cons_of_mem member
    exact .inr ⟨a, b, rfl, fresh, List.splitOn_append_cons_self_of_not_mem fresh b⟩
  · exact .inl ⟨member, List.splitOn_eq_singleton member⟩

theorem length_splitOn (c : Char) (s : Str) : (s.splitOn c).length ≠ 0 := by
  intro empty
  exact List.splitOn_ne_nil c s (List.length_eq_zero_iff.mp empty)

section Range
variable {r : Bounds} {expr text : Str} {a b : Nat} {single star : Bool}

theorem getEnds_span (expr : Str) (span : Span r text a b single star) :
    getEnds expr (text.splitOn '-') r = .ok (a, b, star) ∧ single = ((text.splitOn '-').length == 1) := by
  cases span with
  | @star c is =>
    have fresh : '-' ∉ [c] := by rcases is with rfl | rfl <;> decide
    rw [List.splitOn_eq_singleton fresh]
    refine ⟨?_, rfl⟩
    simp [getEnds, is]
  | @starFrom c is rest =>
    have fresh : '-' ∉ [c] := by rcases is with rfl | rfl <;> decide
    have split : (c :: '-' :: rest).splitOn '-' = [c] :: rest.splitOn '-' :=
      List.splitOn_append_cons_self_of_not_mem fresh rest
    have more := length_splitOn '-' rest
    rw [split]
    refine ⟨?_, ?_⟩
    · simp [getEnds, is]
    · simp
  | single plain other number =>
    rw [List.splitOn_eq_singleton plain]
    refine ⟨?_, rfl⟩
    unfold Number at number
    simp [getEnds, getEnd, other, number]
    rfl
  | @range low high _ _ plain other from_ upto =>
    have split : (low ++ '-' :: high).splitOn '-' = [low, high] := by
      rw [List.splitOn_append_cons_self_of_not_mem plain.1, List.splitOn_eq_singleton plain.2]
    rw [split]
    refine ⟨?_, rfl⟩
    unfold Number at from_ upto
    simp [getEnds, getEnd, other, from_, upto]
    rfl

theorem bind_ok {ε α β : Type} {x : Except ε α} {f : α → Except ε β} {b : β} (h : x >>= f = .ok b) :
    ∃ a, x = .ok a ∧ f a = .ok b := by
  cases x with
  | error e => cases h
  | ok a => exact ⟨a, rfl, h⟩

theorem ends_of_star {c : Char} {lowAndHigh : List Str} (is : [c] = ['*'] ∨ [c] = ['?']) :
    getEnds expr ([c] :: lowAndHigh) r = .ok (r.min, r.max, true) := if_pos is

theorem ends_of_number {low : Str} {lowAndHigh : List Str} (other : ¬ (low = ['*'] ∨ low = ['?']))
    (read : getEnds expr (low :: lowAndHigh) r = .ok (a, b, star)) :
    Number r low a ∧ getEnd expr a r (low :: lowAndHigh) = .ok b ∧ star = false := by
  unfold getEnds at read
  rw [List.headD_cons] at read
  simp only at read
  rw [if_neg other] at read
  obtain ⟨start, number, read⟩ := bind_ok read
  obtain ⟨stop, upto, read⟩ := bind_ok read
  cases read
  exact ⟨number, upto, rfl⟩

theorem span_of_getEnds (read : getEnds expr (text.splitOn '-') r = .ok (a, b, star)) :
    Span r text a b ((text.splitOn '-').length == 1) star := by
  rcases splitOn_cases '-' text with ⟨plain, split⟩ | ⟨low, rest, rfl, plain, split⟩
  · rw [split] at read ⊢
    by_cases is : text = ['*'] ∨ text = ['?']
    · obtain ⟨c, rfl⟩ : ∃ c, text = [c] := by rcases is with is | is <;> exact ⟨_, is⟩
      rw [ends_of_star is] at read
      cases read
      exact .star (by simpa using is)
    · obtain ⟨number, upto, rfl⟩ := ends_of_number is read
      cases upto
      exact .single plain (not_or.mp is) number
  · rw [split] at read ⊢
    have more := length_splitOn '-' rest
    have several : ((low :: rest.splitOn '-').length == 1) = false := by
      rw [List.length_cons, beq_eq_false_iff_ne]
      omega
    rw [several]
    by_cases is : low = ['*'] ∨ low = ['?']
    · obtain ⟨c, rfl⟩ : ∃ c, low = [c] := by rcases is with is | is <;> exact ⟨_, is⟩
      rw [ends_of_star is] at read
      cases read
      exact .starFrom (by simpa using is) rest
    · obtain ⟨number, upto, rfl⟩ := ends_of_number is read
      rcases splitOn_cases '-' rest with ⟨plain', split'⟩ | ⟨high, after, rfl, _, split'⟩
      · rw [split'] at upto
        exact .range ⟨plain, plain'⟩ (not_or.mp is) number upto
      · rw [split'] at upto
        obtain ⟨last, more, same⟩ := List.exists_cons_of_ne_nil (List.splitOn_ne_nil '-' after)
        rw [same] at upto
        cases upto

theorem check_ok {item : Item} : item.check expr r = .ok () ↔ item.Fits r := by
  unfold Item.check
  constructor
  · intro passed
    split at passed
    · cases passed
    split at passed
    · cases passed
    split at passed
    · cases passed
    split at passed
    · cases passed
    exact ⟨by omega, by omega, by omega, by omega⟩
  · rintro ⟨low, high, order, step⟩
    rw [if_neg (by omega), if_neg (by omega), if_neg (by omega), if_neg (by omega)]

theorem stepped_star (k : Nat) : (if k > 1 then false else star) = (star && decide (k ≤ 1)) := by
  by_cases wide : k > 1
  · simp [wide]
  · simp [wide, Nat.not_lt.mp wide]

theorem reads_parts {item : Item} (reads : Reads r expr item) : ∃ ends,
    getEnds expr (((expr.splitOn '/').headD []).splitOn '-') r = .ok ends ∧
    getStep expr (expr.splitOn '/') ((((expr.splitOn '/').headD []).splitOn '-').length == 1) ends r = .ok item := by
  cases reads with
  | @plain _ low high single star unstepped span =>
    obtain ⟨read, is⟩ := getEnds_span expr span
    rw [List.splitOn_eq_singleton unstepped]
    exact ⟨_, read, rfl⟩
  | @stepped text step low high k single star unstepped span number =>
    obtain ⟨read, is⟩ := getEnds_span (text ++ '/' :: step) span
    rw [List.splitOn_append_cons_self_of_not_mem unstepped.1, List.splitOn_eq_singleton unstepped.2]
    refine ⟨_, read, ?_⟩
    rw [List.headD_cons, ← is, getStep, number]
    rw [← stepped_star]
    rfl

theorem getRange_ok {bits : BitVec 64} : getRange expr r = .ok bits ↔ ∃ item, Reads r expr item ∧ item.Fits r ∧
    bits = item.bits := by
  constructor
  · intro read
    obtain ⟨⟨low, high, star⟩, ends, read⟩ := bind_ok read
    obtain ⟨item, step, read⟩ := bind_ok read
    obtain ⟨_, passed, read⟩ := bind_ok read
    cases read
    refine ⟨item, ?_, check_ok.mp passed, rfl⟩
    have span := span_of_getEnds ends
    rcases splitOn_cases '/' expr with ⟨plain, split⟩ | ⟨text, rest, rfl, plain, split⟩
    · rw [split] at step span
      cases step
      exact .plain plain span
    · rw [split] at step span
      rcases splitOn_cases '/' rest with ⟨plain', split'⟩ | ⟨second, after, rfl, _, split'⟩
      · rw [split'] at step
        obtain ⟨k, number, step⟩ := bind_ok step
        rw [← Except.ok.inj step, stepped_star]
        exact .stepped ⟨plain, plain'⟩ span number
      · rw [split'] at step
        obtain ⟨last, more, same⟩ := List.exists_cons_of_ne_nil (List.splitOn_ne_nil '/' after)
        rw [same] at step
        cases step
  · rintro ⟨item, reads, fits, rfl⟩
    obtain ⟨ends, first, second⟩ := reads_parts reads
    simp only [getRange]
    rw [first]
    show getStep _ _ _ _ _ >>= _ = _
    rw [second]
    show Item.check _ _ _ >>= _ = _
    rw [check_ok.mpr fits]
    rfl

end Range

/-! ### Bits -/

theorem has_getLsbD {bits : BitVec 64} {n : Nat} (inside : n < 64) : has bits n = bits.getLsbD n := by
  have single := BitVec.twoPow_and bits n
  rw [BitVec.twoPow_eq] at single
  unfold has
  rw [single]
  cases bit : bits.getLsbD n with
  | false => rfl
  | true =>
    have one : (1#64 <<< n).getLsbD n = true := by simp [inside]
    rw [if_pos rfl, bne_iff_ne]
    intro zero
    rw [zero] at one
    simp at one

theorem starBit_getLsbD {bits : BitVec 64} : (bits &&& starBit != 0) = bits.getLsbD 63 := by
  have same : has bits 63 = bits.getLsbD 63 := has_getLsbD (by decide)
  rw [has, BitVec.and_comm] at same
  exact same

theorem getBitsFrom_getLsbD {max step fuel i n : Nat} {bits : BitVec 64} (pos : 0 < step) (small : max < 64)
    (enough : max < i + fuel) :
    (getBitsFrom max step fuel i bits).getLsbD n = true ↔
      bits.getLsbD n = true ∨ i ≤ n ∧ n ≤ max ∧ step ∣ n - i := by
  induction fuel generalizing i bits with
  | zero =>
    have past : ¬ (i ≤ n ∧ n ≤ max ∧ step ∣ n - i) := by omega
    simp [getBitsFrom, past]
  | succ fuel ih =>
    unfold getBitsFrom
    split
    · rename_i inside
      rw [ih (by omega), BitVec.getLsbD_or, Bool.or_eq_true]
      have one : (1#64 <<< i).getLsbD n = true ↔ n = i := by
        simp only [BitVec.getLsbD_shiftLeft, BitVec.getLsbD_one]
        simp
        omega
      -- a number of the loop is its first one or one after a step
      have steps : i ≤ n ∧ n ≤ max ∧ step ∣ n - i ↔ n = i ∨ i + step ≤ n ∧ n ≤ max ∧ step ∣ n - (i + step) := by
        constructor
        · rintro ⟨low, high, k, is⟩
          cases k with
          | zero => exact .inl (by omega)
          | succ k =>
            rw [Nat.mul_succ] at is
            exact .inr ⟨by omega, high, k, by omega⟩
        · rintro (rfl | ⟨low, high, k, is⟩)
          · exact ⟨Nat.le_refl n, inside, by simp⟩
          · refine ⟨by omega, high, k + 1, ?_⟩
            rw [Nat.mul_succ]
            omega
      show (_ ∨ (1#64 <<< i).getLsbD n = true) ∨ _ ↔ _
      rw [one, steps, or_assoc]
    · rename_i past
      have none_ : ¬ (i ≤ n ∧ n ≤ max ∧ step ∣ n - i) := by omega
      simp [none_]

theorem getBits_getLsbD (min : Nat) {max step n : Nat} (pos : 0 < step) (small : max < 63) (inside : n < 64) :
    (getBits min max step).getLsbD n = true ↔ min ≤ n ∧ n ≤ max ∧ step ∣ n - min := by
  unfold getBits
  split
  · rename_i one
    subst one
    have from_ : ∀ k, (BitVec.allOnes 64 <<< k).getLsbD n = decide (k ≤ n) := by
      intro k
      have all : (BitVec.allOnes 64).getLsbD (n - k) = true := by
        rw [BitVec.getLsbD_allOnes, decide_eq_true_eq]
        omega
      rw [BitVec.getLsbD_shiftLeft, all, Bool.and_true, decide_eq_true inside, Bool.true_and]
      by_cases low : n < k
      · simp [low]
      · simp [low, Nat.not_lt.mp low]
    rw [BitVec.getLsbD_and, BitVec.getLsbD_not, from_, from_, decide_eq_true inside, Bool.true_and, Bool.and_eq_true]
    simp only [Bool.not_eq_true', decide_eq_false_iff_not, decide_eq_true_eq, one_dvd, and_true]
    omega
  · rw [getBitsFrom_getLsbD pos (by omega) (by omega)]
    simp

section Item
variable {r : Bounds} {item : Item}

theorem bits_getLsbD (small : r.max < 63) (fits : item.Fits r) {n : Nat} (inside : n < 63) :
    item.bits.getLsbD n = true ↔ item.Has n := by
  have numbers := @getBits_getLsbD item.low _ _ n fits.step (Nat.lt_of_le_of_lt fits.high small) (by omega)
  have top : (if item.star then starBit else 0 : BitVec 64).getLsbD n = false := by
    cases item.star with
    | false => simp
    | true =>
      show (1#64 <<< 63).getLsbD n = false
      rw [BitVec.getLsbD_shiftLeft]
      simp [inside]
  rw [Item.bits, BitVec.getLsbD_or, top, Bool.or_false, numbers]
  rfl

theorem bits_star (small : r.max < 63) (fits : item.Fits r) : item.bits.getLsbD 63 = item.star := by
  have numbers := @getBits_getLsbD item.low _ _ 63 fits.step (Nat.lt_of_le_of_lt fits.high small) (by decide)
  have none_ : (getBits item.low item.high item.step).getLsbD 63 = false := by
    rw [← Bool.not_eq_true, numbers]
    have high := fits.high
    omega
  rw [Item.bits, BitVec.getLsbD_or, none_, Bool.false_or]
  cases item.star <;> rfl

end Item

/-! ### The field -/

section Field
variable {r : Bounds} {field : Str} {bits : BitVec 64}

/-- Every range reads and fits. -/
def WellFormed (r : Bounds) (field : Str) : Prop := ∀ expr ∈ ranges field, ∃ item, Reads r expr item ∧ item.Fits r

theorem foldRanges_ok {exprs : List Str} {acc : BitVec 64} (read : exprs.foldlM (fun bits expr => do
      let bit ← getRange expr r
      return bits ||| bit) acc = Except.ok bits) :
    (∀ expr ∈ exprs, ∃ bit, getRange expr r = .ok bit) ∧
    ∀ n, bits.getLsbD n = true ↔ acc.getLsbD n = true ∨ ∃ expr ∈ exprs, ∃ bit, getRange expr r = .ok bit ∧
    bit.getLsbD n = true := by
  induction exprs generalizing acc with
  | nil =>
    cases read
    simp
  | cons expr exprs ih =>
    rw [List.foldlM_cons] at read
    obtain ⟨acc', first, read⟩ := bind_ok read
    obtain ⟨bit, here, first⟩ := bind_ok first
    cases first
    obtain ⟨all, has⟩ := ih read
    constructor
    · intro e member
      rcases List.mem_cons.mp member with rfl | member
      · exact ⟨bit, here⟩
      · exact all e member
    · intro n
      rw [has n, BitVec.getLsbD_or, Bool.or_eq_true]
      simp only [List.mem_cons, exists_eq_or_imp, here, Except.ok.injEq, exists_eq_left', or_assoc]

theorem foldRanges_accepts {exprs : List Str} (acc : BitVec 64)
    (reads : ∀ expr ∈ exprs, ∃ bit, getRange expr r = .ok bit) :
    ∃ bits, exprs.foldlM (fun bits expr => do
      let bit ← getRange expr r
      return bits ||| bit) acc = Except.ok bits := by
  induction exprs generalizing acc with
  | nil => exact ⟨acc, rfl⟩
  | cons expr exprs ih =>
    obtain ⟨bit, here⟩ := reads expr List.mem_cons_self
    obtain ⟨bits, rest⟩ := ih (acc ||| bit) fun e member => reads e (List.mem_cons_of_mem _ member)
    refine ⟨bits, ?_⟩
    rw [List.foldlM_cons, here]
    exact rest

theorem getField_accepts : (∃ bits, getField field r = .ok bits) ↔ WellFormed r field := by
  constructor
  · rintro ⟨bits, read⟩ expr member
    obtain ⟨bit, here⟩ := (foldRanges_ok read).1 expr member
    obtain ⟨item, reads, fits, _⟩ := getRange_ok.mp here
    exact ⟨item, reads, fits⟩
  · intro formed
    refine foldRanges_accepts 0 fun expr member => ?_
    obtain ⟨item, reads, fits⟩ := formed expr member
    exact ⟨item.bits, getRange_ok.mpr ⟨item, reads, fits, rfl⟩⟩

/-- The bits of an accepted field are the numbers that it denotes. -/
theorem getField_has (small : r.max < 63) (read : getField field r = .ok bits) {n : Nat} (inside : n < 63) :
    has bits n = true ↔ Denotes r field n := by
  rw [has_getLsbD (by omega), (foldRanges_ok read).2 n]
  simp only [BitVec.ofNat_eq_ofNat, BitVec.getLsbD_zero, Bool.false_eq_true, false_or, getRange_ok]
  constructor
  · rintro ⟨expr, member, _, ⟨item, reads, fits, rfl⟩, on⟩
    exact ⟨expr, member, item, reads, fits, (bits_getLsbD small fits inside).mp on⟩
  · rintro ⟨expr, member, item, reads, fits, has⟩
    exact ⟨expr, member, item.bits, ⟨item, reads, fits, rfl⟩, (bits_getLsbD small fits inside).mpr has⟩

theorem getField_star (small : r.max < 63) (read : getField field r = .ok bits) :
    (bits &&& starBit != 0) = true ↔ Starred r field := by
  rw [starBit_getLsbD, (foldRanges_ok read).2 63]
  simp only [BitVec.ofNat_eq_ofNat, BitVec.getLsbD_zero, Bool.false_eq_true, false_or, getRange_ok]
  constructor
  · rintro ⟨expr, member, _, ⟨item, reads, fits, rfl⟩, on⟩
    exact ⟨expr, member, item, reads, fits, (bits_star small fits).symm.trans on⟩
  · rintro ⟨expr, member, item, reads, fits, star⟩
    exact ⟨expr, member, item.bits, ⟨item, reads, fits, rfl⟩, (bits_star small fits).trans star⟩

end Field

end Crontab
