import Mathlib.Data.List.TakeWhile
import Mathlib.Algebra.GroupWithZero.Nat

/-!
# Scanning lines

A scanner reads a stream through a buffer of a bounded size and hands out the lines. However the stream
arrives, these are its lines before the first one that the buffer cannot hold.
-/

namespace Bufio

abbrev Bytes := List UInt8

def newline : UInt8 := 0x0A

def carriageReturn : UInt8 := 0x0D

/-- The last line need not end with a newline. -/
def lines : Bytes → List Bytes
  | [] => []
  | c :: s =>
    if c = newline then [] :: lines s
    else match lines s with
      | [] => [[c]]
      | line :: rest => (c :: line) :: rest

def text (ls : List Bytes) : Bytes := ls.flatMap (· ++ [newline])

def dropCR (line : Bytes) : Bytes := if line.getLast? = some carriageReturn then line.dropLast else line

/-- The first line of the data and what follows it; at the end of the stream also a line without a newline. -/
def scanLines (data : Bytes) (atEOF : Bool) : Option (Bytes × Bytes) :=
  if newline ∈ data then some (dropCR (data.takeWhile (· ≠ newline)), (data.dropWhile (· ≠ newline)).tail)
  else if atEOF ∧ data ≠ [] then some (dropCR data, [])
  else none

structure Scanner where
  unread : Bytes
  buffer : Bytes := []
  eof : Bool := false

inductive Found where
  | nothing
  | token (line : Bytes)
  | stop

/-- One turn of the scanner's loop. A read gets at least one byte, and more as `n` and the buffer allow. -/
def Scanner.step (max n : Nat) (s : Scanner) : Scanner × Found :=
  match scanLines s.buffer s.eof with
  | some (line, rest) => ({ s with buffer := rest }, .token line)
  | none =>
    if s.eof ∨ max ≤ s.buffer.length then (s, .stop)
    else if s.unread = [] then ({ s with eof := true }, .nothing)
    else
      let got := min (n + 1) (max - s.buffer.length)
      ({ s with unread := s.unread.drop got, buffer := s.buffer ++ s.unread.take got }, .nothing)

/-- What a scanner hands out of a stream. -/
def delivered (max : Nat) (s : Bytes) : List Bytes := ((lines s).takeWhile (·.length < max)).map dropCR

variable {s rest line : Bytes} {ls : List Bytes} {max n : Nat}

theorem lines_cons {c : UInt8} (inside : c ≠ newline) (s : Bytes) :
    lines (c :: s) = (c :: (lines s).headD []) :: (lines s).tail := by
  rw [lines, if_neg inside]
  cases lines s <;> rfl

theorem lines_append (unbroken : newline ∉ line) (rest : Bytes) :
    lines (line ++ newline :: rest) = line :: lines rest := by
  induction line with
  | nil => simp [lines]
  | cons c line ih =>
    obtain ⟨inside, unbroken⟩ : newline ≠ c ∧ newline ∉ line := by simpa using unbroken
    rw [List.cons_append, lines_cons (Ne.symm inside), ih unbroken]
    rfl

theorem lines_single (unbroken : newline ∉ s) (filled : s ≠ []) : lines s = [s] := by
  induction s with
  | nil => exact absurd rfl filled
  | cons c s ih =>
    obtain ⟨inside, unbroken⟩ : newline ≠ c ∧ newline ∉ s := by simpa using unbroken
    rw [lines_cons (Ne.symm inside)]
    cases s with
    | nil => rfl
    | cons d s =>
      rw [ih unbroken (List.cons_ne_nil d s)]
      rfl

theorem lines_long (unbroken : newline ∉ s) (filled : s ≠ []) (rest : Bytes) :
    ∃ line ls, lines (s ++ rest) = line :: ls ∧ s.length ≤ line.length := by
  induction s with
  | nil => exact absurd rfl filled
  | cons c s ih =>
    obtain ⟨inside, unbroken⟩ : newline ≠ c ∧ newline ∉ s := by simpa using unbroken
    refine ⟨_, _, lines_cons (Ne.symm inside) (s ++ rest), ?_⟩
    by_cases more : s = []
    · simp [more]
    · obtain ⟨line, ls, same, long⟩ := ih unbroken more
      simpa [same] using long

theorem lines_text (unbroken : ∀ line ∈ ls, newline ∉ line) : lines (text ls) = ls := by
  induction ls with
  | nil => rfl
  | cons line ls ih =>
    obtain ⟨here, later⟩ := List.forall_mem_cons.mp unbroken
    have apart : text (line :: ls) = line ++ newline :: text ls := by simp [text]
    rw [apart, lines_append here, ih later]

theorem newline_not_mem_lines (member : line ∈ lines s) : newline ∉ line := by
  induction s generalizing line with
  | nil => cases member
  | cons c s ih =>
    by_cases ends : c = newline
    · rw [lines, if_pos ends] at member
      rcases List.mem_cons.mp member with rfl | later
      · exact List.not_mem_nil
      · exact ih later
    · rw [lines_cons ends] at member
      have head : newline ∉ (lines s).headD [] := by
        cases same : lines s with
        | nil => exact List.not_mem_nil
        | cons first ls =>
          apply ih
          rw [same]
          exact List.mem_cons_self
      rcases List.mem_cons.mp member with rfl | later
      · simpa [Ne.symm ends] using head
      · exact ih (List.mem_of_mem_tail later)

/-! ### The carriage return -/

theorem dropCR_starts : dropCR line <+: line := by
  unfold dropCR
  split
  · exact List.dropLast_prefix line
  · exact List.prefix_refl line

theorem dropCR_eq_self : dropCR line = line ↔ line.getLast? ≠ some carriageReturn := by
  unfold dropCR
  split
  · rename_i ends
    refine iff_of_false (fun same => ?_) (not_not.mpr ends)
    have shorter := congrArg List.length same
    have filled : 0 < line.length := List.length_pos_iff.mpr (by rintro rfl; cases ends)
    rw [List.length_dropLast] at shorter
    omega
  · rename_i other
    exact iff_of_true rfl other

/-- Only the carriage returns are lost. -/
theorem sum_dropCR (ls : List Bytes) : ((ls.map dropCR).map List.length).sum ≤ (ls.map List.length).sum ∧
    (((ls.map dropCR).map List.length).sum = (ls.map List.length).sum ↔
      ∀ line ∈ ls, line.getLast? ≠ some carriageReturn) := by
  induction ls with
  | nil => simp
  | cons line ls ih =>
    obtain ⟨shorter, same⟩ := ih
    have here : (dropCR line).length ≤ line.length := dropCR_starts.length_le
    have whole : (dropCR line).length = line.length ↔ line.getLast? ≠ some carriageReturn := by
      rw [← dropCR_eq_self]
      exact ⟨dropCR_starts.eq_of_length, congrArg List.length⟩
    simp only [List.map_cons, List.sum_cons, List.forall_mem_cons, ← whole, ← same]
    omega

theorem delivered_append (unbroken : newline ∉ line) (short : line.length < max) :
    delivered max (line ++ newline :: rest) = dropCR line :: delivered max rest := by
  simp [delivered, lines_append unbroken, short]

theorem delivered_single (unbroken : newline ∉ s) (filled : s ≠ []) (short : s.length < max) :
    delivered max s = [dropCR s] := by
  simp [delivered, lines_single unbroken filled, short]

theorem delivered_long (unbroken : newline ∉ s) (long : max ≤ s.length) (rest : Bytes) :
    delivered max (s ++ rest) = [] := by
  by_cases filled : s = []
  · subst filled
    have none : max = 0 := Nat.le_zero.mp long
    subst none
    unfold delivered
    cases lines ([] ++ rest) <;> rfl
  · obtain ⟨line, ls, same, longer⟩ := lines_long unbroken filled rest
    rw [delivered, same, List.takeWhile_cons_of_neg]
    · rfl
    · rw [decide_eq_true_eq]
      omega

theorem newline_not_mem_delivered (member : line ∈ delivered max s) : newline ∉ line := by
  obtain ⟨whole, handedOut, rfl⟩ := List.mem_map.mp member
  intro broken
  exact newline_not_mem_lines ((List.takeWhile_prefix _).subset handedOut) (dropCR_starts.subset broken)

theorem length_delivered (max : Nat) (s : Bytes) : (delivered max s).length ≤ (lines s).length := by
  rw [delivered, List.length_map]
  exact (List.takeWhile_prefix _).length_le

theorem length_delivered_eq : (delivered max s).length = (lines s).length ↔ ∀ line ∈ lines s, line.length < max := by
  rw [delivered, List.length_map]
  constructor
  · intro same
    have all : (lines s).takeWhile (·.length < max) = lines s := (List.takeWhile_prefix _).eq_of_length same
    simpa using List.takeWhile_eq_self_iff.mp all
  · intro short
    rw [List.takeWhile_eq_self_iff.mpr (by simpa using short)]

theorem delivered_short (short : ∀ line ∈ lines s, line.length < max) : delivered max s = (lines s).map dropCR := by
  rw [delivered, List.takeWhile_eq_self_iff.mpr (by simpa using short)]

theorem scanLines_newline {data : Bytes} (broken : newline ∈ data) (atEOF : Bool) :
    ∃ line rest, data = line ++ newline :: rest ∧ newline ∉ line ∧ scanLines data atEOF = some (dropCR line, rest) := by
  have split : data = data.takeWhile (· ≠ newline) ++ data.dropWhile (· ≠ newline) :=
    List.takeWhile_append_dropWhile.symm
  have unbroken : newline ∉ data.takeWhile (· ≠ newline) := by
    intro member
    simpa using List.mem_takeWhile_imp member
  cases after : data.dropWhile (· ≠ newline) with
  | nil =>
    rw [after, List.append_nil] at split
    exact absurd (split ▸ broken) unbroken
  | cons c rest =>
    have ends : c = newline := by
      have head := List.head?_dropWhile_not (· ≠ newline) data
      rw [after] at head
      simpa using head
    subst ends
    refine ⟨data.takeWhile (· ≠ newline), rest, ?_, unbroken, ?_⟩
    · rw [← after]
      exact split
    · rw [scanLines, if_pos broken, after]
      rfl

namespace Scanner

structure Valid (max : Nat) (s : Scanner) : Prop where
  fits : s.buffer.length ≤ max
  ended : s.eof = true → s.unread = [] ∧ s.buffer.length < max

/-- What a scanner still hands out. -/
def pending (max : Nat) (s : Scanner) : List Bytes := delivered max (s.buffer ++ s.unread)

def size (s : Scanner) : Nat := 2 * s.unread.length + s.buffer.length + if s.eof then 0 else 1

variable {s : Scanner}

theorem valid_new (stream : Bytes) : Valid max { unread := stream } := ⟨Nat.zero_le max, fun ended => nomatch ended⟩

/-- A turn hands out what is next, or stops when there is nothing more to hand out. -/
theorem step_cases (valid : s.Valid max) (n : Nat) :
    (∃ t, s.step max n = (t, .nothing) ∧ t.Valid max ∧ t.size < s.size ∧ t.pending max = s.pending max) ∨
    (∃ t line, s.step max n = (t, .token line) ∧ t.Valid max ∧ t.size < s.size ∧
    s.pending max = line :: t.pending max) ∨ (s.step max n = (s, .stop) ∧ s.pending max = []) := by
  obtain ⟨unread, buffer, eof⟩ := s
  obtain ⟨fits, ended⟩ := valid
  simp only at fits ended
  by_cases broken : newline ∈ buffer
  · obtain ⟨line, rest, rfl, unbroken, found⟩ := scanLines_newline broken eof
    rw [List.length_append, List.length_cons] at fits ended
    refine .inr (.inl ⟨{ unread := unread, buffer := rest, eof := eof }, dropCR line, ?_, ⟨?_, ?_⟩, ?_, ?_⟩)
    · simp only [step, found]
    · show rest.length ≤ max
      omega
    · intro atEnd
      obtain ⟨read, short⟩ := ended atEnd
      exact ⟨read, by show rest.length < max; omega⟩
    · simp only [size, List.length_append, List.length_cons]
      omega
    · rw [pending, pending, List.append_assoc, List.cons_append, delivered_append unbroken (by omega)]
  · by_cases last : eof = true
    · obtain ⟨rfl, short⟩ := ended last
      subst last
      by_cases filled : buffer = []
      · subst filled
        exact .inr (.inr ⟨rfl, rfl⟩)
      · refine .inr (.inl ⟨{ unread := [], buffer := [], eof := true }, dropCR buffer, ?_, ⟨Nat.zero_le max, ?_⟩, ?_,
          ?_⟩)
        · simp [step, scanLines, broken, filled]
        · intro _
          exact ⟨rfl, by show 0 < max; omega⟩
        · simpa [size] using List.length_pos_iff.mpr filled
        · rw [pending, List.append_nil, delivered_single broken filled short]
          rfl
    · have open_ : eof = false := Bool.eq_false_iff.mpr last
      subst open_
      have waits : scanLines buffer false = none := by simp [scanLines, broken]
      by_cases full : max ≤ buffer.length
      · refine .inr (.inr ⟨?_, delivered_long broken full unread⟩)
        simp [step, waits, full]
      · by_cases read : unread = []
        · subst read
          refine .inl ⟨{ unread := [], buffer := buffer, eof := true }, ?_, ⟨fits, fun _ => ⟨rfl, not_le.mp full⟩⟩, ?_,
            rfl⟩
          · simp [step, waits, full]
          · simp [size]
        · have more : 0 < unread.length := List.length_pos_iff.mpr read
          let got := min (n + 1) (max - buffer.length)
          refine .inl ⟨{ unread := unread.drop got, buffer := buffer ++ unread.take got }, ?_,
            ⟨?_, fun ended => nomatch ended⟩, ?_, ?_⟩
          · simp [step, waits, full, read, got]
          · simp only [List.length_append, List.length_take]
            omega
          · simp only [size, List.length_append, List.length_take, List.length_drop]
            omega
          · rw [pending, pending, List.append_assoc, List.take_append_drop]

end Scanner
end Bufio
