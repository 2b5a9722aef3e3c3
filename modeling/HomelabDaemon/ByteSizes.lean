import HomelabDaemon.Config
import Mathlib.Algebra.Order.Ring.Int
import Mathlib.Logic.Relation
import Mathlib.Tactic.Positivity
import Mathlib.Tactic.Ring

/-!
# Byte sizes

A number of bytes in the largest unit that it fills. The collector, the doctor and the CLI have a copy each; the
divisor is signed in the first. `quotient` is the text that `%.1f` makes of the quotient of the two as floats.
-/

namespace HomelabDaemon.ByteSizes

structure Scaling (D : Type) where
  n : UInt64
  div : D
  exp : Nat

namespace Scaling
variable {D : Type} [Mul D] [OfNat D 1024]

def start (b : UInt64) : Scaling D := { n := b / 1024, div := 1024, exp := 0 }

def next (s : Scaling D) : Scaling D := { n := s.n / 1024, div := s.div * 1024, exp := s.exp + 1 }

theorem next_smaller {s : Scaling D} (more : 1024 ≤ s.n) : s.next.n.toNat < s.n.toNat := by
  have large : 1024 ≤ s.n.toNat := UInt64.le_iff_toNat_le.mp more
  have quotient : s.next.n.toNat = s.n.toNat / 1024 := UInt64.toNat_div ..
  omega

def loop (s : Scaling D) : Scaling D := if 1024 ≤ s.n then s.next.loop else s
termination_by s.n.toNat
decreasing_by exact next_smaller ‹_›

def Turn (s s' : Scaling D) : Prop := 1024 ≤ s.n ∧ s' = s.next

/-- The loop comes by `s'`. -/
abbrev Reaches : Scaling D → Scaling D → Prop := Relation.ReflTransGen Turn

end Scaling

section Format
variable {D : Type} [Mul D] [OfNat D 1024]

/-- None is an index beyond the units. -/
def format (quotient : UInt64 → D → String) (b : UInt64) : Option String :=
  if b < 1024 then some (toString b ++ " B")
  else
    let s := (Scaling.start b).loop
    "KMGTPE".toList[s.exp]?.map fun unit => quotient b s.div ++ " " ++ unit.toString ++ "B"

end Format

def formatBytes (quotient : UInt64 → Int64 → String) (b : UInt64) : Option String := format quotient b

def fmtBytes (quotient : UInt64 → UInt64 → String) (b : UInt64) : Option String := format quotient b

def fmtStorageBytes (quotient : UInt64 → UInt64 → String) (b : UInt64) : Option String := format quotient b

/-- The loop comes to an end in range, with a divisor whose value is a power at each turn. -/
structure InRange {D : Type} [Mul D] [OfNat D 1024] (value : D → Int) (b : UInt64) (s : Scaling D) : Prop where
  reached : (Scaling.start b).Reaches s
  ended : s.n < 1024
  exact : ∀ s', (Scaling.start b).Reaches s' → value s'.div = 1024 ^ (s'.exp + 1)
  exp_le : s.exp ≤ 5
  div_le : value s.div ≤ b.toNat
  lt_div : b.toNat < 1024 * value s.div

namespace Scaling
variable {D : Type} [Mul D] [OfNat D 1024] {s s' : Scaling D} {b : UInt64}

theorem reaches_loop (s : Scaling D) : s.Reaches s.loop ∧ s.loop.n < 1024 := by
  induction s using loop.induct with
  | case1 s more ih =>
    rw [loop, if_pos more]
    exact ⟨.head ⟨more, rfl⟩ ih.1, ih.2⟩
  | case2 s small =>
    rw [loop, if_neg small]
    exact ⟨.refl, UInt64.not_le.mp small⟩

/-- What every turn keeps. -/
structure Exact (value : D → Int) (b : UInt64) (s : Scaling D) : Prop where
  div : value s.div = 1024 ^ (s.exp + 1)
  n : s.n.toNat = b.toNat / 1024 ^ (s.exp + 1)
  filled : 1024 ^ (s.exp + 1) ≤ b.toNat

theorem filled_small {b : UInt64} {k : Nat} (filled : 1024 ^ (k + 1) ≤ b.toNat) : k ≤ 5 := by
  by_contra large
  have power : 1024 ^ 7 ≤ 1024 ^ (k + 1) := Nat.pow_le_pow_right (by decide) (by omega)
  have bound : b.toNat < 1024 ^ 7 := lt_of_lt_of_le b.toNat_lt (by decide)
  omega

section Value
variable {value : D → Int}

omit [Mul D] in
theorem start_exact (unit : value 1024 = 1024) (large : 1024 ≤ b) : Exact value b (start b) where
  div := by simpa [start] using unit
  n := by simp [start, UInt64.toNat_div]
  filled := by simpa [start] using UInt64.le_iff_toNat_le.mp large

variable (unit : value 1024 = 1024)
  (times : ∀ d : D, 0 ≤ value d → value d * 1024 < 2 ^ 63 → value (d * 1024) = value d * 1024)

include times in
theorem Exact.next (exact : Exact value b s) (more : 1024 ≤ s.n) : Exact value b s.next := by
  have filled : 1024 ^ (s.exp + 1 + 1) ≤ b.toNat := by
    have more := UInt64.le_iff_toNat_le.mp more
    rw [exact.n, Nat.le_div_iff_mul_le (Nat.pow_pos (by decide))] at more
    calc 1024 ^ (s.exp + 1 + 1) = 1024 * 1024 ^ (s.exp + 1) := by ring
      _ ≤ b.toNat := more
  have small := filled_small filled
  have fits : (1024 : Int) ^ (s.exp + 1) * 1024 < 2 ^ 63 := by
    calc (1024 : Int) ^ (s.exp + 1) * 1024 = 1024 ^ (s.exp + 2) := by ring
      _ ≤ 1024 ^ 6 := pow_le_pow_right₀ (by decide) (by omega)
      _ < 2 ^ 63 := by decide
  refine ⟨?_, ?_, filled⟩
  · have product := times s.div (by rw [exact.div]; positivity) (by rw [exact.div]; exact fits)
    calc value (s.div * 1024) = value s.div * 1024 := product
      _ = 1024 ^ (s.exp + 1 + 1) := by rw [exact.div]; ring
  · calc (s.n / 1024).toNat = s.n.toNat / 1024 := UInt64.toNat_div ..
      _ = b.toNat / 1024 ^ (s.exp + 1 + 1) := by rw [exact.n, Nat.div_div_eq_div_mul, ← pow_succ]

include unit times

theorem reaches_exact (large : 1024 ≤ b) (reaches : (start b).Reaches s) : Exact value b s := by
  induction reaches with
  | refl => exact start_exact unit large
  | tail _ turn exact =>
    obtain ⟨more, rfl⟩ := turn
    exact exact.next times more

theorem loop_inRange (large : 1024 ≤ b) : InRange value b (start b).loop := by
  obtain ⟨reached, ended⟩ := reaches_loop (start (D := D) b)
  have exact := reaches_exact unit times large reached
  have last := UInt64.lt_iff_toNat_lt.mp ended
  refine ⟨reached, ended, fun s' there => (reaches_exact unit times large there).div, filled_small exact.filled, ?_, ?_⟩
  · rw [exact.div]
    exact_mod_cast exact.filled
  · rw [exact.n, Nat.div_lt_iff_lt_mul (Nat.pow_pos (by decide))] at last
    rw [exact.div]
    exact_mod_cast last

end Value
end Scaling

/-! ### The three copies -/

section Format
variable {D : Type} [Mul D] [OfNat D 1024] (value : D → Int)

/-- The loop ends in range, and the text has the number over its divisor, in the unit at its index. -/
def Formats (format : (UInt64 → D → String) → UInt64 → Option String) (b : UInt64) : Prop :=
  ∃ s : Scaling D, InRange value b s ∧ ∀ quotient, ∃ unit, "KMGTPE".toList[s.exp]? = some unit ∧
    format quotient b = some (quotient b s.div ++ " " ++ unit.toString ++ "B")

variable {value}

theorem format_formats {b : UInt64} (large : 1024 ≤ b) (inRange : InRange value b (Scaling.start b).loop) :
    Formats value format b := by
  refine ⟨_, inRange, fun quotient => ?_⟩
  have within : (Scaling.start b : Scaling D).loop.exp < "KMGTPE".toList.length := Nat.lt_succ_of_le inRange.exp_le
  refine ⟨"KMGTPE".toList[(Scaling.start b : Scaling D).loop.exp], List.getElem?_eq_getElem within, ?_⟩
  rw [format, if_neg (UInt64.not_lt.mpr large)]
  dsimp only
  rw [List.getElem?_eq_getElem within]
  rfl

end Format

theorem int64_times (d : Int64) (positive : 0 ≤ d.toInt) (fits : d.toInt * 1024 < 2 ^ 63) :
    (d * 1024).toInt = d.toInt * 1024 := by
  have unit : (1024 : Int64).toInt = 1024 := rfl
  rw [Int64.toInt_mul, unit]
  exact Int.bmod_eq_of_le (by omega) (by omega)

theorem uint64_times (d : UInt64) (fits : (d.toNat : Int) * 1024 < 2 ^ 63) :
    ((d * 1024).toNat : Int) = d.toNat * 1024 := by
  have unit : (1024 : UInt64).toNat = 1024 := rfl
  rw [UInt64.toNat_mul, unit]
  omega

theorem sizes_inRange (b : UInt64) (large : 1024 ≤ b) :
    Formats Int64.toInt formatBytes b ∧ Formats (fun d : UInt64 => (d.toNat : Int)) fmtBytes b ∧
    Formats (fun d : UInt64 => (d.toNat : Int)) fmtStorageBytes b := by
  have signed : InRange Int64.toInt b (Scaling.start b).loop := Scaling.loop_inRange rfl int64_times large
  have unsigned : InRange (fun d : UInt64 => (d.toNat : Int)) b (Scaling.start b).loop :=
    Scaling.loop_inRange rfl (fun d _ => uint64_times d) large
  exact ⟨format_formats large signed, format_formats large unsigned, format_formats large unsigned⟩

theorem largest_inRange : (1024 : UInt64) ≤ 0xFFFFFFFFFFFFFFFF ∧ Formats Int64.toInt formatBytes 0xFFFFFFFFFFFFFFFF ∧
    Formats (fun d : UInt64 => (d.toNat : Int)) fmtBytes 0xFFFFFFFFFFFFFFFF :=
  ⟨by decide, (sizes_inRange _ (by decide)).1, (sizes_inRange _ (by decide)).2.1⟩

end HomelabDaemon.ByteSizes
