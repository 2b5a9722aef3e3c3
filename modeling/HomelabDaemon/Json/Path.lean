import HomelabDaemon.Json.Machine
import Mathlib.Algebra.GroupWithZero.Nat

/-!
# Paths of keys

A path is a sequence of keys in brackets, each a JSON string. Keys that are put between the quotes
as they are come back when they have nothing to escape, and only then: an escape is longer than
what it stands for.
-/

namespace Json

inductive PathMode where
  | between
  | opened
  | inside (lexeme : Lexeme) (spot : Spot)
  | closed (key : List Char)
  deriving DecidableEq

structure PathReader where
  keys : List (List Char) := []
  mode : PathMode := .between
  deriving DecidableEq

namespace PathReader

def step (r : PathReader) (c : Char) : Option PathReader :=
  match r.mode with
  | .between => if c = '[' then some { r with mode := .opened } else none
  | .opened => if c = '"' then some { r with mode := .inside {} .plain } else none
  | .inside l spot =>
    if spot = .plain ∧ c = '"' then some { r with mode := .closed l.settled }
    else (spot.step l c).map fun (l, spot) => { r with mode := .inside l spot }
  | .closed key => if c = ']' then some { keys := r.keys ++ [key] } else none

def run (r : PathReader) (text : List Char) : Option PathReader := text.foldlM step r

def finish (r : PathReader) : Option (List (List Char)) := if r.mode = .between then some r.keys else none

end PathReader

def parsePath (text : List Char) : Option (List (List Char)) := (PathReader.run {} text).bind PathReader.finish

def segment (key : List Char) : List Char := '[' :: '"' :: key ++ ['"', ']']

/-- A character that stands for itself between quotes. -/
def IsLiteral (c : Char) : Prop := c ≠ '"' ∧ c ≠ '\\' ∧ 0x20 ≤ c.toNat

instance (c : Char) : Decidable (IsLiteral c) := inferInstanceAs (Decidable (c ≠ '"' ∧ c ≠ '\\' ∧ 0x20 ≤ c.toNat))

instance (text : List Char) : Decidable (∀ c ∈ text, IsLiteral c) := List.decidableBAll _ text

namespace PathReader
variable {r r' : PathReader} {c : Char} {p q text key : List Char} {keys : List (List Char)} {n : Nat}

theorem run_append : r.run (p ++ q) = (r.run p).bind fun r' => r'.run q := List.foldlM_append

theorem run_cons : r.run (c :: text) = (r.step c).bind fun r' => r'.run text := rfl

theorem run_literal (literal : ∀ c ∈ text, IsLiteral c) (before : List Char) :
    run { keys := keys, mode := .inside { text := before } .plain } text =
      some { keys := keys, mode := .inside { text := before ++ text } .plain } := by
  induction text generalizing before with
  | nil => simp [run]
  | cons c text ih =>
    obtain ⟨quote, backslash, high⟩ := literal c List.mem_cons_self
    have low : ¬ c.toNat < 32 := by omega
    have stepped : step { keys := keys, mode := .inside { text := before } .plain } c =
        some { keys := keys, mode := .inside { text := before ++ [c] } .plain } := by
      simp [step, Spot.step, quote, backslash, low, Lexeme.add, Lexeme.settled]
    rw [run_cons, stepped, Option.bind_some, ih fun d member => literal d (List.mem_cons_of_mem c member),
      List.append_assoc]
    rfl

theorem run_segment (literal : ∀ c ∈ key, IsLiteral c) :
    run { keys := keys } (segment key) = some { keys := keys ++ [key] } := by
  show run { keys := keys, mode := .inside {} .plain } (key ++ ['"', ']']) = _
  rw [run_append, run_literal literal]
  rfl

theorem run_segments (done : List (List Char)) (literal : ∀ key ∈ keys, ∀ c ∈ key, IsLiteral c) :
    run { keys := done } (keys.flatMap segment) = some { keys := done ++ keys } := by
  induction keys generalizing done with
  | nil => simp [run]
  | cons key keys ih =>
    rw [List.flatMap_cons, run_append, run_segment (literal key List.mem_cons_self), Option.bind_some,
      ih _ fun k member => literal k (List.mem_cons_of_mem key member), List.append_assoc]
    rfl

/-! ### An escape is longer than what it stands for -/

/-- How much of an escape has been read. -/
def pending : Spot → Nat
  | .plain => 0
  | .escaped => 1
  | .hex digits => 2 + digits.length

def modeSize : PathMode → Nat
  | .between => 0
  | .opened => 1
  | .inside l spot => 2 + l.settled.length + pending spot
  | .closed key => 3 + key.length

def keysSize (keys : List (List Char)) : Nat := (keys.map fun key => 4 + key.length).sum

/-- The length of the keys and of what has been read of the next, as if nothing had been escaped. -/
def size (r : PathReader) : Nat := keysSize r.keys + modeSize r.mode

def ModeLiteral : PathMode → Prop
  | .between | .opened => True
  | .inside l _ => l.high = none ∧ ∀ c ∈ l.text, IsLiteral c
  | .closed key => ∀ c ∈ key, IsLiteral c

/-- No more than `n` characters make up the keys; exactly as many when nothing was escaped. -/
structure Within (n : Nat) (r : PathReader) : Prop where
  bound : r.size ≤ n
  literal : r.size = n → (∀ key ∈ r.keys, ∀ c ∈ key, IsLiteral c) ∧ ModeLiteral r.mode

theorem length_addUnit (l : Lexeme) (unit : Nat) : (l.addUnit unit).settled.length ≤ l.settled.length + 1 := by
  rcases l with ⟨text, _ | high⟩ <;> simp only [Lexeme.addUnit] <;> split_ifs <;> simp [Lexeme.add, Lexeme.settled]

/-- One character more; fewer where an escape ends. -/
theorem spot_step {l l' : Lexeme} {spot spot' : Spot} (inside : ¬ (spot = .plain ∧ c = '"'))
    (stepped : spot.step l c = some (l', spot')) :
    modeSize (.inside l' spot') ≤ modeSize (.inside l spot) + 1 ∧
      (modeSize (.inside l' spot') = modeSize (.inside l spot) + 1 → ModeLiteral (.inside l spot) →
      ModeLiteral (.inside l' spot')) := by
  cases spot with
  | plain =>
    have quote : c ≠ '"' := fun same => inside ⟨rfl, same⟩
    simp only [Spot.step] at stepped
    split_ifs at stepped with backslash low
    · cases stepped
      exact ⟨by simp [modeSize, pending], fun _ literal => literal⟩
    · cases stepped
      refine ⟨by simp [modeSize, pending, Lexeme.add, Lexeme.settled]; omega, fun _ literal => ⟨rfl, ?_⟩⟩
      have text : (l.add c).text = l.text ++ [c] := by simp [Lexeme.add, Lexeme.settled, literal.1]
      rw [text]
      refine List.forall_mem_append.mpr ⟨literal.2, List.forall_mem_singleton.mpr ⟨quote, backslash, by omega⟩⟩
  | escaped =>
    simp only [Spot.step] at stepped
    split_ifs at stepped with unicode
    · cases stepped
      exact ⟨by simp [modeSize, pending], fun _ literal => literal⟩
    · obtain ⟨plain, _, same⟩ := Option.map_eq_some_iff.mp stepped
      cases same
      have settled : (l.add plain).settled.length = l.settled.length + 1 := by simp [Lexeme.add, Lexeme.settled]
      refine ⟨?_, fun equal => ?_⟩
      · simp only [modeSize, pending]
        omega
      · simp only [modeSize, pending] at equal
        omega
  | hex digits =>
    obtain ⟨digit, _, rest⟩ := Option.bind_eq_some_iff.mp stepped
    split at rest
    · cases rest
      rename_i d₁ d₂ d₃
      have settled := length_addUnit l (((d₁ * 16 + d₂) * 16 + d₃) * 16 + digit)
      refine ⟨?_, fun equal => ?_⟩
      · simp only [modeSize, pending, List.length_cons, List.length_nil]
        omega
      · simp only [modeSize, pending, List.length_cons, List.length_nil] at equal
        omega
    · cases rest
      refine ⟨?_, fun _ literal => literal⟩
      simp only [modeSize, pending, List.length_append, List.length_singleton]
      omega

theorem keysSize_append (keys : List (List Char)) (key : List Char) :
    keysSize (keys ++ [key]) = keysSize keys + (4 + key.length) := by
  simp [keysSize]

theorem Within.step (within : Within n r) (stepped : r.step c = some r') : Within (n + 1) r' := by
  obtain ⟨keys, mode⟩ := r
  obtain ⟨bound, literal⟩ := within
  simp only [size] at bound literal
  unfold PathReader.step at stepped
  cases mode with
  | between =>
    obtain ⟨_, rfl⟩ := Option.ite_none_right_eq_some.mp stepped |>.imp_right Option.some.inj
    exact ⟨by simpa [size, modeSize] using bound, fun equal => ⟨(literal (by simpa [size, modeSize] using equal)).1,
      trivial⟩⟩
  | opened =>
    obtain ⟨_, rfl⟩ := Option.ite_none_right_eq_some.mp stepped |>.imp_right Option.some.inj
    refine ⟨by simp [size, modeSize, pending, Lexeme.settled] at bound ⊢; omega, fun equal => ?_⟩
    refine ⟨(literal ?_).1, rfl, nofun⟩
    simp [size, modeSize, pending, Lexeme.settled] at equal ⊢
    omega
  | inside l spot =>
    dsimp only at stepped
    split_ifs at stepped with closes
    · cases stepped
      obtain ⟨rfl, -⟩ := closes
      simp only [modeSize, pending] at bound literal
      refine ⟨by simp only [size, modeSize]; omega, fun equal => ?_⟩
      have before := literal (by simp only [size, modeSize] at equal; omega)
      refine ⟨before.1, ?_⟩
      show ∀ c ∈ l.settled, IsLiteral c
      rw [Lexeme.settled, before.2.1]
      exact before.2.2
    · obtain ⟨⟨l', spot'⟩, inner, rfl⟩ := Option.map_eq_some_iff.mp stepped
      obtain ⟨less, kept⟩ := spot_step closes inner
      refine ⟨by simp only [size]; omega, fun equal => ?_⟩
      simp only [size] at equal
      have before := literal (by omega)
      exact ⟨before.1, kept (by omega) before.2⟩
  | closed key =>
    obtain ⟨_, rfl⟩ := Option.ite_none_right_eq_some.mp stepped |>.imp_right Option.some.inj
    simp only [modeSize] at bound literal
    refine ⟨?_, fun equal => ?_⟩
    · simp only [size, keysSize_append, modeSize]
      omega
    · simp only [size, keysSize_append, modeSize] at equal
      have before := literal (by omega)
      exact ⟨List.forall_mem_append.mpr ⟨before.1, List.forall_mem_singleton.mpr before.2⟩, trivial⟩

theorem Within.run (within : Within n r) (ran : r.run text = some r') : Within (n + text.length) r' := by
  induction text generalizing n r with
  | nil =>
    cases ran
    exact within
  | cons c text ih =>
    rw [run_cons] at ran
    obtain ⟨next, stepped, ran⟩ := Option.bind_eq_some_iff.mp ran
    have after := ih (within.step stepped) ran
    rw [List.length_cons, Nat.add_comm text.length 1, ← Nat.add_assoc]
    exact after

end PathReader

theorem length_segments (keys : List (List Char)) : (keys.flatMap segment).length = PathReader.keysSize keys := by
  induction keys with
  | nil => rfl
  | cons key keys ih =>
    rw [List.flatMap_cons, List.length_append, ih]
    simp [PathReader.keysSize, segment]
    omega

theorem parsePath_segments_iff (keys : List (List Char)) :
    parsePath (keys.flatMap segment) = some keys ↔ ∀ key ∈ keys, ∀ c ∈ key, IsLiteral c := by
  constructor
  · intro parsed
    obtain ⟨r, ran, finished⟩ := Option.bind_eq_some_iff.mp parsed
    have start : PathReader.Within 0 {} := ⟨Nat.le_refl 0, fun _ => ⟨List.forall_mem_nil _, trivial⟩⟩
    have within := start.run ran
    obtain ⟨mode, same⟩ := Option.ite_none_right_eq_some.mp finished |>.imp_right Option.some.inj
    have size : r.size = 0 + (keys.flatMap segment).length := by
      rw [length_segments, PathReader.size, mode, same, Nat.zero_add]
      rfl
    rw [← same]
    exact (within.literal size).1
  · intro literal
    rw [parsePath, PathReader.run_segments [] literal]
    rfl

/-- Literal keys are told apart by their paths. -/
theorem parsePath_inj {keys keys' : List (List Char)} (literal : ∀ key ∈ keys, ∀ c ∈ key, IsLiteral c)
    (literal' : ∀ key ∈ keys', ∀ c ∈ key, IsLiteral c)
    (same : parsePath (keys.flatMap segment) = parsePath (keys'.flatMap segment)) : keys = keys' := by
  rw [(parsePath_segments_iff keys).mpr literal, (parsePath_segments_iff keys').mpr literal'] at same
  exact Option.some.inj same

end Json
