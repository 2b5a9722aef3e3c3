import HomelabDaemon.Bufio
import HomelabDaemon.Cmdrunner.Sandbox

/-!
# Reading line by line

With a line handler, or for combined output, `Run` reads the two streams of the process in goroutines of
their own, one scanner each. It does not ask a scanner why it has stopped.
-/

namespace HomelabDaemon.Cmdrunner

namespace Lines
open Bufio (Scanner delivered lines dropCR newline carriageReturn text)

def maxScanTokenSize : Nat := 64 * 1024

inductive Stream where
  | stdout | stderr
  deriving DecidableEq

inductive Phase where
  | scanning
  /-- The handler was called with the line, which is not written yet. -/
  | handled (line : Bytes)
  | finished

structure Reader where
  scanner : Scanner
  phase : Phase := .scanning

/-- At the end the two buffers are `Stdout` and `Stderr` of the result. -/
structure State where
  readers : Stream → Reader
  calls : List (Stream × Bytes) := []
  stdoutBuf : Bytes := []
  stderrBuf : Bytes := []

def start (streams : Stream → Bytes) : State where
  readers stream := { scanner := { unread := streams stream } }

namespace State

def set (s : State) (stream : Stream) (r : Reader) : State := { s with readers := Function.update s.readers stream r }

def writeString (b : Builder) (stream : Stream) (line : Bytes) (s : State) : State :=
  if stream = .stdout ∨ b.outputMode = .combined then { s with stdoutBuf := s.stdoutBuf ++ (line ++ [newline]) }
  else { s with stderrBuf := s.stderrBuf ++ (line ++ [newline]) }

def handle (b : Builder) (stream : Stream) (line : Bytes) (s : State) : State :=
  if b.lineHandler.isSome then { s with calls := s.calls ++ [(stream, line)] } else s

/-- One step of a goroutine that has not finished; `n` says how much a read gets. -/
def step (b : Builder) (stream : Stream) (n : Nat) (s : State) : Option State :=
  let r := s.readers stream
  match r.phase with
  | .finished => none
  | .handled line => some ((s.writeString b stream line).set stream { r with phase := .scanning })
  | .scanning =>
    match r.scanner.step maxScanTokenSize n with
    | (scanner, .nothing) => some (s.set stream { r with scanner := scanner })
    | (scanner, .token line) => some ((s.handle b stream line).set stream
        { scanner := scanner, phase := .handled line })
    | (scanner, .stop) => some (s.set stream { scanner := scanner, phase := .finished })

def run (b : Builder) : List (Stream × Nat) → State → Option State
  | [], s => some s
  | (stream, n) :: moves, s => (s.step b stream n).bind (run b moves)

/-- Both goroutines are done, so that `Run` goes on. -/
def Returned (s : State) : Prop := ∀ stream, (s.readers stream).phase = .finished

end State

def ofStream (stream : Stream) (entries : List (Stream × Bytes)) : List Bytes :=
  (entries.filter (·.1 = stream)).map (·.2)

/-- The handler was called once for each line, in the order of the stream. -/
def Handled (b : Builder) (contents : Stream → List Bytes) (s : State) : Prop :=
  if b.lineHandler.isSome then ∀ stream, ofStream stream s.calls = contents stream else s.calls = []

/-- The buffers hold exactly the lines; a combined one holds them interleaved. -/
def Written (b : Builder) (contents : Stream → List Bytes) (s : State) : Prop :=
  if b.outputMode = .combined then
    s.stderrBuf = [] ∧ ∃ merged : List (Stream × Bytes),
      (∀ stream, ofStream stream merged = contents stream) ∧ s.stdoutBuf = text (merged.map (·.2))
  else s.stdoutBuf = text (contents .stdout) ∧ s.stderrBuf = text (contents .stderr)

/-- Every line was delivered, with what counts as its content. -/
structure Complete (b : Builder) (streams : Stream → Bytes) (content : Bytes → Bytes) (s : State) : Prop where
  handled : Handled b (fun stream => (lines (streams stream)).map content) s
  written : Written b (fun stream => (lines (streams stream)).map content) s

def Short (streams : Stream → Bytes) : Prop := ∀ stream, ∀ line ∈ lines (streams stream), line.length < maxScanTokenSize

/-- No line ends with a carriage return. -/
def Bare (streams : Stream → Bytes) : Prop :=
  ∀ stream, ∀ line ∈ lines (streams stream), line.getLast? ≠ some carriageReturn

variable {b : Builder} {host : Host} {streams : Stream → Bytes} {stream : Stream} {s t : State} {n : Nat} {line : Bytes}
  {contents other : Stream → List Bytes} {moves : List (Stream × Nat)}

/-! ### One step -/

namespace Reader

/-- What is still to be written. -/
def rest (r : Reader) : List Bytes :=
  match r.phase with
  | .scanning => r.scanner.pending maxScanTokenSize
  | .handled line => line :: r.scanner.pending maxScanTokenSize
  | .finished => []

/-- What the handler has not seen yet. -/
def unseen (r : Reader) : List Bytes :=
  match r.phase with
  | .finished => []
  | _ => r.scanner.pending maxScanTokenSize

def size (r : Reader) : Nat :=
  2 * r.scanner.size + match r.phase with
    | .scanning => 1
    | .handled _ => 2
    | .finished => 0

end Reader

def State.size (s : State) : Nat := (s.readers .stdout).size + (s.readers .stderr).size

/-- What each goroutine has delivered, beside what it still will. -/
structure Inv (b : Builder) (streams : Stream → Bytes) (s : State) : Prop where
  valid : ∀ stream, (s.readers stream).scanner.Valid maxScanTokenSize
  handled : ∃ seen, Handled b seen s ∧
    ∀ stream, seen stream ++ (s.readers stream).unseen = delivered maxScanTokenSize (streams stream)
  written : ∃ sofar, Written b sofar s ∧
    ∀ stream, sofar stream ++ (s.readers stream).rest = delivered maxScanTokenSize (streams stream)

theorem ofStream_append (first second : List (Stream × Bytes)) :
    ofStream stream (first ++ second) = ofStream stream first ++ ofStream stream second := by
  simp [ofStream]

theorem ofStream_single (who : Stream) (line : Bytes) :
    ofStream stream [(who, line)] = if who = stream then [line] else [] := by
  by_cases same : who = stream <;> simp [ofStream, same]

def extended (contents : Stream → List Bytes) (stream : Stream) (line : Bytes) : Stream → List Bytes :=
  Function.update contents stream (contents stream ++ [line])

theorem ofStream_extended {entries : List (Stream × Bytes)}
    (holds : ∀ stream, ofStream stream entries = contents stream)
    (who : Stream) : ofStream who (entries ++ [(stream, line)]) = extended contents stream line who := by
  rw [ofStream_append, ofStream_single, holds who, extended]
  by_cases same : stream = who
  · subst same
    simp
  · simp [same, Function.update_of_ne (Ne.symm same)]

theorem handle_handled (holds : Handled b contents s) :
    Handled b (extended contents stream line) (s.handle b stream line) := by
  unfold Handled State.handle at *
  split at holds
  · rename_i handler
    simp only [handler, if_true]
    exact ofStream_extended holds
  · rename_i none
    simpa [none] using holds

theorem writeString_written (holds : Written b contents s) :
    Written b (extended contents stream line) (s.writeString b stream line) := by
  unfold Written State.writeString at *
  split at holds
  · rename_i combined
    obtain ⟨empty, merged, interleaves, filled⟩ := holds
    simp only [combined, or_true, if_true]
    refine ⟨empty, merged ++ [(stream, line)], ofStream_extended interleaves, ?_⟩
    simp [filled, text]
  · rename_i separate
    obtain ⟨out, err⟩ := holds
    cases stream with
    | stdout => simp [separate, extended, out, err, text]
    | stderr => simp [separate, extended, out, err, text]

theorem writeString_readers : (s.writeString b stream line).readers = s.readers := by
  unfold State.writeString
  split <;> rfl

theorem handle_readers : (s.handle b stream line).readers = s.readers := by
  unfold State.handle
  split <;> rfl

theorem writeString_calls : (s.writeString b stream line).calls = s.calls := by
  unfold State.writeString
  split <;> rfl

theorem handled_congr (same : t.calls = s.calls) : Handled b contents t ↔ Handled b contents s := by
  rw [Handled, Handled, same]

theorem handle_written : Written b contents (s.handle b stream line) ↔ Written b contents s := by
  unfold State.handle
  split <;> rfl

/-- A step replaces the reader of its stream; what is delivered by it moves from the one side to the other. -/
theorem Inv.set {r : Reader} {seen sofar : Stream → List Bytes} (inv : Inv b streams s) (same : t.readers = s.readers)
    (valid : r.scanner.Valid maxScanTokenSize) (handled : Handled b seen t) (written : Written b sofar t)
    (seenAll : ∀ who, seen who ++ (Function.update s.readers stream r who).unseen = delivered maxScanTokenSize
    (streams who))
    (writtenAll : ∀ who, sofar who ++ (Function.update s.readers stream r who).rest = delivered maxScanTokenSize
    (streams who)) :
    Inv b streams (t.set stream r) := by
  unfold State.set
  rw [same]
  refine ⟨fun who => ?_, ⟨seen, handled, seenAll⟩, ⟨sofar, written, writtenAll⟩⟩
  by_cases this : who = stream
  · subst this
    simpa using valid
  · simpa [Function.update_of_ne this] using inv.valid who

theorem kept {f : Reader → List Bytes} {r : Reader} (all : ∀ who, contents who ++ f (s.readers who) = other who)
    (same : f r = f (s.readers stream)) (who : Stream) :
    contents who ++ f (Function.update s.readers stream r who) = other who := by
  by_cases this : who = stream
  · subst this
    simpa [same] using all who
  · simpa [Function.update_of_ne this] using all who

theorem moved {f : Reader → List Bytes} {r : Reader} (all : ∀ who, contents who ++ f (s.readers who) = other who)
    (next : f (s.readers stream) = line :: f r) (who : Stream) :
    extended contents stream line who ++ f (Function.update s.readers stream r who) = other who := by
  by_cases this : who = stream
  · subst this
    simpa [extended, next] using all who
  · simpa [extended, Function.update_of_ne this] using all who

inductive Effect (b : Builder) (stream : Stream) (s : State) : State → Prop where
  | quiet {r : Reader} (valid : r.scanner.Valid maxScanTokenSize) (less : r.size < (s.readers stream).size)
    (unseen : r.unseen = (s.readers stream).unseen) (rest : r.rest = (s.readers stream).rest) :
    Effect b stream s (s.set stream r)
  | told {r : Reader} {line : Bytes} (valid : r.scanner.Valid maxScanTokenSize)
      (less : r.size < (s.readers stream).size)
    (unseen : (s.readers stream).unseen = line :: r.unseen) (rest : r.rest = (s.readers stream).rest) :
    Effect b stream s ((s.handle b stream line).set stream r)
  | wrote {r : Reader} {line : Bytes} (valid : r.scanner.Valid maxScanTokenSize)
      (less : r.size < (s.readers stream).size)
    (unseen : r.unseen = (s.readers stream).unseen) (rest : (s.readers stream).rest = line :: r.rest) :
    Effect b stream s ((s.writeString b stream line).set stream r)

theorem step_effect (valid : (s.readers stream).scanner.Valid maxScanTokenSize) (stepped : s.step b stream n = some t) :
    Effect b stream s t := by
  cases phase : (s.readers stream).phase with
  | finished =>
    simp only [State.step, phase] at stepped
    cases stepped
  | handled line =>
    simp only [State.step, phase] at stepped
    obtain rfl := Option.some.inj stepped
    refine .wrote valid ?_ ?_ ?_
    · simp only [Reader.size, phase]
      omega
    · simp only [Reader.unseen, phase]
    · simp only [Reader.rest, phase]
  | scanning =>
    simp only [State.step, phase] at stepped
    rcases Scanner.step_cases valid n with ⟨scanner, found, still, less, same⟩ | ⟨scanner, line, found, still, less,
      next⟩ |
      ⟨found, done⟩
    · rw [found] at stepped
      obtain rfl := Option.some.inj stepped
      refine .quiet still ?_ ?_ ?_
      · simp only [Reader.size, phase]
        omega
      · simp only [Reader.unseen, phase, same]
      · simp only [Reader.rest, phase, same]
    · rw [found] at stepped
      obtain rfl := Option.some.inj stepped
      refine .told still ?_ ?_ ?_
      · simp only [Reader.size, phase]
        omega
      · simp only [Reader.unseen, phase, next]
      · simp only [Reader.rest, phase, next]
    · rw [found] at stepped
      obtain rfl := Option.some.inj stepped
      refine .quiet valid ?_ ?_ ?_
      · simp only [Reader.size, phase]
        omega
      · simp only [Reader.unseen, phase, done]
      · simp only [Reader.rest, phase, done]

theorem step_inv (inv : Inv b streams s) (stepped : s.step b stream n = some t) : Inv b streams t := by
  obtain ⟨seen, handled, seenAll⟩ := inv.handled
  obtain ⟨sofar, written, writtenAll⟩ := inv.written
  cases step_effect (inv.valid stream) stepped with
  | quiet valid less unseen rest => exact inv.set rfl valid handled written (kept seenAll unseen) (kept writtenAll rest)
  | told valid less unseen rest =>
    exact inv.set handle_readers valid (handle_handled handled) (handle_written.mpr written)
      (moved seenAll unseen) (kept writtenAll rest)
  | wrote valid less unseen rest =>
    exact inv.set writeString_readers valid ((handled_congr writeString_calls).mpr handled)
      (writeString_written written)
      (kept seenAll unseen) (moved writtenAll rest)

theorem set_size {r : Reader} (same : t.readers = s.readers) (less : r.size < (s.readers stream).size) :
    (t.set stream r).size < s.size := by
  show (Function.update t.readers stream r .stdout).size + (Function.update t.readers stream r .stderr).size < _
  rw [same, State.size]
  cases stream with
  | stdout =>
    rw [Function.update_self, Function.update_of_ne (by decide)]
    omega
  | stderr =>
    rw [Function.update_self, Function.update_of_ne (by decide)]
    omega

theorem step_size (inv : Inv b streams s) (stepped : s.step b stream n = some t) : t.size < s.size := by
  cases step_effect (inv.valid stream) stepped with
  | quiet valid less unseen rest => exact set_size rfl less
  | told valid less unseen rest => exact set_size handle_readers less
  | wrote valid less unseen rest => exact set_size writeString_readers less

theorem step_isSome (running : (s.readers stream).phase ≠ .finished) (n : Nat) : (s.step b stream n).isSome = true := by
  cases phase : (s.readers stream).phase with
  | finished => exact absurd phase running
  | handled line => simp [State.step, phase]
  | scanning =>
    simp only [State.step, phase]
    split <;> rfl

/-! ### Runs -/

theorem start_inv (b : Builder) (streams : Stream → Bytes) : Inv b streams (start streams) := by
  refine ⟨fun stream => Scanner.valid_new _, ⟨fun _ => [], ?_, fun stream => rfl⟩, ⟨fun _ => [], ?_, fun stream => rfl⟩⟩
  · unfold Handled
    split
    · exact fun stream => rfl
    · rfl
  · unfold Written
    split
    · exact ⟨rfl, [], fun stream => rfl, rfl⟩
    · exact ⟨rfl, rfl⟩

theorem run_inv (inv : Inv b streams s) (ran : s.run b moves = some t) :
    Inv b streams t ∧ moves.length + t.size ≤ s.size := by
  induction moves generalizing s with
  | nil =>
    obtain rfl := Option.some.inj ran
    exact ⟨inv, by simp⟩
  | cons move moves ih =>
    obtain ⟨next, stepped, ran⟩ := Option.bind_eq_some_iff.mp ran
    obtain ⟨invEnd, size⟩ := ih (step_inv inv stepped) ran
    have less := step_size inv stepped
    refine ⟨invEnd, ?_⟩
    rw [List.length_cons]
    omega

theorem returned_or_running (s : State) : s.Returned ∨ ∃ stream, (s.readers stream).phase ≠ .finished := by
  unfold State.Returned
  rw [← Classical.not_forall]
  exact Classical.em _

/-- Every run can go on until both goroutines are done. -/
theorem run_returns (inv : Inv b streams s) : ∃ moves t, s.run b moves = some t ∧ t.Returned := by
  induction size : s.size using Nat.strong_induction_on generalizing s with
  | _ size ih =>
    rcases returned_or_running s with returned | ⟨stream, running⟩
    · exact ⟨[], s, rfl, returned⟩
    · obtain ⟨next, stepped⟩ := Option.isSome_iff_exists.mp (step_isSome (b := b) running 0)
      obtain ⟨moves, t, ran, returned⟩ := ih next.size (size ▸ step_size inv stepped) (step_inv inv stepped) rfl
      refine ⟨(stream, 0) :: moves, t, ?_, returned⟩
      rw [State.run, stepped]
      exact ran

/-- However the two goroutines interleave, they deliver what the scanners hand out. -/
theorem returned_delivered (ran : (start streams).run b moves = some s) (returned : s.Returned) :
    Handled b (fun stream => delivered maxScanTokenSize (streams stream)) s ∧
    Written b (fun stream => delivered maxScanTokenSize (streams stream)) s := by
  obtain ⟨inv, _⟩ := run_inv (start_inv b streams) ran
  obtain ⟨seen, handled, seenAll⟩ := inv.handled
  obtain ⟨sofar, written, writtenAll⟩ := inv.written
  have seenEnd : seen = fun stream => delivered maxScanTokenSize (streams stream) := by
    funext stream
    simpa [Reader.unseen, returned stream] using seenAll stream
  have writtenEnd : sofar = fun stream => delivered maxScanTokenSize (streams stream) := by
    funext stream
    simpa [Reader.rest, returned stream] using writtenAll stream
  exact ⟨seenEnd ▸ handled, writtenEnd ▸ written⟩

def total (f : Bytes → Nat) (contents : Stream → List Bytes) : Nat :=
  ((contents .stdout).map f).sum + ((contents .stderr).map f).sum

theorem total_ofStream (f : Bytes → Nat) (merged : List (Stream × Bytes)) :
    total f (fun stream => ofStream stream merged) = ((merged.map (·.2)).map f).sum := by
  induction merged with
  | nil => rfl
  | cons entry merged ih =>
    obtain ⟨stream, line⟩ := entry
    simp only [total] at *
    rw [← List.singleton_append, ofStream_append, ofStream_append, ofStream_single, ofStream_single]
    simp only [List.map_append, List.sum_append, ← ih]
    cases stream with
    | stdout =>
      simp
      omega
    | stderr =>
      simp
      omega

def Unbroken (contents : Stream → List Bytes) : Prop := ∀ stream, ∀ line ∈ contents stream, newline ∉ line

theorem interleaving_lines {merged : List (Stream × Bytes)} (unbroken : Unbroken contents)
    (interleaves : ∀ stream, ofStream stream merged = contents stream) :
    lines (text (merged.map (·.2))) = merged.map (·.2) := by
  apply Bufio.lines_text
  intro line member
  obtain ⟨entry, inside, rfl⟩ := List.mem_map.mp member
  apply unbroken entry.1
  rw [← interleaves entry.1]
  exact List.mem_map.mpr ⟨entry, by simpa using inside, rfl⟩

theorem total_eq (lineMode : b.lineHandler.isSome = true ∨ b.outputMode = .combined)
    (unbroken : Unbroken contents) (unbrokenOther : Unbroken other)
    (handled : Handled b contents s) (handledOther : Handled b other s)
    (written : Written b contents s) (writtenOther : Written b other s) (f : Bytes → Nat) :
    total f contents = total f other := by
  rcases lineMode with handler | combined
  · simp only [Handled, handler, if_true] at handled handledOther
    have same : contents = other := by
      funext stream
      rw [← handled stream, handledOther stream]
    rw [same]
  · simp only [Written, combined, if_true] at written writtenOther
    obtain ⟨_, merged, interleaves, filled⟩ := written
    obtain ⟨_, mergedOther, interleavesOther, filledOther⟩ := writtenOther
    have same : merged.map (·.2) = mergedOther.map (·.2) := by
      rw [← interleaving_lines unbroken interleaves, ← filled, filledOther,
        interleaving_lines unbrokenOther interleavesOther]
    calc total f contents = total f fun stream => ofStream stream merged := by rw [total, total, interleaves,
      interleaves]
      _ = total f fun stream => ofStream stream mergedOther := by rw [total_ofStream, total_ofStream, same]
      _ = total f other := by rw [total, total, interleavesOther, interleavesOther]

section Returned
variable (lineMode : b.lineHandler.isSome = true ∨ b.outputMode = .combined)
  (ran : (start streams).run b moves = some s) (returned : s.Returned)

include lineMode ran returned

theorem complete_total {content : Bytes → Bytes} (cuts : ∀ line, content line <+: line)
    (complete : Complete b streams content s) (f : Bytes → Nat) :
    total f (fun stream => delivered maxScanTokenSize (streams stream)) =
      total f fun stream => (lines (streams stream)).map content := by
  obtain ⟨handled, written⟩ := returned_delivered ran returned
  refine total_eq lineMode (fun stream line member => Bufio.newline_not_mem_delivered member) ?_
    handled complete.handled written complete.written f
  intro stream line member
  obtain ⟨whole, inside, rfl⟩ := List.mem_map.mp member
  exact fun broken => Bufio.newline_not_mem_lines inside ((cuts whole).subset broken)

theorem complete_short {content : Bytes → Bytes} (cuts : ∀ line, content line <+: line)
    (complete : Complete b streams content s) : Short streams := by
  have count := complete_total lineMode ran returned cuts complete fun _ => 1
  simp only [total, List.map_const', List.sum_replicate_nat, List.length_map, Nat.mul_one] at count
  have out := Bufio.length_delivered maxScanTokenSize (streams .stdout)
  have err := Bufio.length_delivered maxScanTokenSize (streams .stderr)
  intro stream
  apply Bufio.length_delivered_eq.mp
  cases stream with
  | stdout => omega
  | stderr => omega

theorem complete_iff : Complete b streams dropCR s ↔ Short streams := by
  constructor
  · exact complete_short lineMode ran returned fun _ => Bufio.dropCR_starts
  · intro short
    obtain ⟨handled, written⟩ := returned_delivered ran returned
    have all : (fun stream => delivered maxScanTokenSize (streams stream)) = fun stream =>
      (lines (streams stream)).map dropCR := by
      funext stream
      exact Bufio.delivered_short (short stream)
    exact ⟨all ▸ handled, all ▸ written⟩

/-- They are delivered with every byte exactly when also no line ends with a carriage return. -/
theorem complete_bytes_iff : Complete b streams id s ↔ Short streams ∧ Bare streams := by
  have cut : ∀ short : Short streams, (fun stream => delivered maxScanTokenSize (streams stream)) =
      fun stream => (lines (streams stream)).map dropCR := by
    intro short
    funext stream
    exact Bufio.delivered_short (short stream)
  constructor
  · intro complete
    have short := complete_short lineMode ran returned (fun line => List.prefix_refl line) complete
    have bytes := complete_total lineMode ran returned (fun line => List.prefix_refl line) complete List.length
    rw [cut short] at bytes
    simp only [total, List.map_id'] at bytes
    obtain ⟨out, outWhole⟩ := Bufio.sum_dropCR (lines (streams .stdout))
    obtain ⟨err, errWhole⟩ := Bufio.sum_dropCR (lines (streams .stderr))
    refine ⟨short, fun stream => ?_⟩
    cases stream with
    | stdout => exact outWhole.mp (by omega)
    | stderr => exact errWhole.mp (by omega)
  · rintro ⟨short, bare⟩
    obtain ⟨handled, written⟩ := returned_delivered ran returned
    have all : (fun stream => delivered maxScanTokenSize (streams stream)) = fun stream =>
      (lines (streams stream)).map id := by
      rw [cut short]
      funext stream
      exact List.map_congr_left fun line member => Bufio.dropCR_eq_self.mpr (bare stream line member)
    exact ⟨all ▸ handled, all ▸ written⟩

end Returned

/-! ### The result of a run -/

theorem run_cases (b : Builder) (host : Host) :
    ((b.run host).started = [] ∧ ∃ stop, (b.run host).result = .error stop) ∨
    (host.wait.error.isSome = true ∧ ∃ stop, (b.run host).result = .error stop) ∨
    (host.wait.error.isSome = false ∧ ∃ res, (b.run host).result = .ok res ∧
      res.stdout = host.stdoutBuf ∧ res.stderr = host.stderrBuf) := by
  unfold Builder.run
  cases assembled : b.runCommand host with
  | error stop => cases stop <;> exact .inl ⟨rfl, _, rfl⟩
  | ok cmd =>
    cases refused : b.runError host cmd with
    | some error =>
      simp only [refused]
      exact .inl ⟨trivial, _, rfl⟩
    | none =>
      simp only [refused]
      cases failed : host.wait.error with
      | some error => exact .inr (.inl ⟨rfl, _, rfl⟩)
      | none => exact .inr (.inr ⟨rfl, _, rfl, rfl, rfl⟩)

theorem run_result (started : (b.run host).started ≠ []) :
    (∃ stop, (b.run host).result = .error stop) ↔ host.wait.error.isSome = true := by
  rcases run_cases b host with ⟨nothing, _⟩ | ⟨failed, stopped⟩ | ⟨ended, res, ok, _⟩
  · exact absurd nothing started
  · exact iff_of_true stopped failed
  · simp [ok, ended]

/-- No run goes on for ever, and one that cannot go on has returned. -/
def Ends (b : Builder) (streams : Stream → Bytes) : Prop :=
  ∀ moves s, (start streams).run b moves = some s →
    moves.length ≤ (start streams).size ∧ (s.Returned ∨ ∃ stream, ∀ n, (s.step b stream n).isSome = true)

theorem readers_end (b : Builder) (streams : Stream → Bytes) : Ends b streams := by
  intro moves s ran
  obtain ⟨_, size⟩ := run_inv (start_inv b streams) ran
  refine ⟨by omega, ?_⟩
  rcases returned_or_running s with returned | ⟨stream, running⟩
  · exact .inl returned
  · exact .inr ⟨stream, step_isSome running⟩

/-- What the run delivers is complete exactly when every line is shorter than the scanner's buffer; otherwise there
is an error only when the process itself fails. -/
theorem lines_complete_iff (lineMode : b.lineHandler.isSome = true ∨ b.outputMode = .combined)
    (started : (b.run host).started ≠ []) :
    Ends b streams ∧ ∀ moves s, (start streams).run b moves = some s → s.Returned →
      (Complete b streams dropCR s ↔ Short streams) ∧ (Complete b streams id s ↔ Short streams ∧ Bare streams) ∧
      ((¬ Complete b streams dropCR s → ∃ stop, (b.run host).result = .error stop) ↔
        Short streams ∨ host.wait.error.isSome = true) := by
  refine ⟨readers_end b streams, fun moves s ran returned => ?_⟩
  have complete : Complete b streams dropCR s ↔ Short streams := complete_iff lineMode ran returned
  refine ⟨complete, complete_bytes_iff lineMode ran returned, ?_⟩
  rw [run_result started, complete, ← or_iff_not_imp_left]

def handledLs : Builder := { Sandbox.ls with lineHandler := some 0 }

def greeting : Stream → Bytes
  | .stdout => [0x68, 0x69, 0x0A]
  | .stderr => []

theorem lines_complete_iff_greeting :
    (((start greeting).run handledLs
      [(.stdout, 2), (.stdout, 0), (.stderr, 0), (.stdout, 0), (.stdout, 0), (.stderr, 0), (.stdout, 0)]).map fun s =>
        (s.calls, s.stdoutBuf, s.stderrBuf)) = some ([(.stdout, [0x68, 0x69])], [0x68, 0x69, 0x0A], []) ∧
    Ends handledLs greeting ∧ ∀ moves s, (start greeting).run handledLs moves = some s → s.Returned →
      (Complete handledLs greeting dropCR s ↔ Short greeting) ∧
      (Complete handledLs greeting id s ↔ Short greeting ∧ Bare greeting) ∧
      ((¬ Complete handledLs greeting dropCR s → ∃ stop, (handledLs.run Sandbox.plainHost).result = .error stop) ↔
        Short greeting ∨ Sandbox.plainHost.wait.error.isSome = true) :=
  ⟨by decide, lines_complete_iff (.inl rfl) (by decide)⟩

/-- One line of 64 KiB. -/
def longLine : Stream → Bytes
  | .stdout => List.replicate maxScanTokenSize 0x61 ++ [newline]
  | .stderr => []

theorem longLine_long : ¬ Short longLine := by
  intro short
  have unbroken : newline ∉ List.replicate maxScanTokenSize (0x61 : UInt8) := by
    intro member
    exact absurd (List.eq_of_mem_replicate member) (by decide)
  have first := short .stdout (List.replicate maxScanTokenSize 0x61) (by
    rw [longLine, Bufio.lines_append unbroken]
    exact List.mem_cons_self)
  rw [List.length_replicate] at first
  exact Nat.lt_irrefl _ first

theorem longLine_lost : ¬ ∀ (b : Builder) (host : Host) (streams : Stream → Bytes) (moves : List (Stream × Nat))
    (s : State), (b.lineHandler.isSome = true ∨ b.outputMode = .combined) → (b.run host).started ≠ [] →
    (start streams).run b moves = some s → s.Returned →
    Complete b streams dropCR s ∧ (¬ Complete b streams dropCR s → ∃ stop, (b.run host).result = .error stop) := by
  intro claim
  obtain ⟨moves, s, ran, returned⟩ := run_returns (start_inv handledLs longLine)
  have complete := claim handledLs Sandbox.plainHost longLine moves s (.inl rfl) (by decide) ran returned
  exact longLine_long ((complete_iff (.inl rfl) ran returned).mp complete.1)

end Lines
end HomelabDaemon.Cmdrunner
