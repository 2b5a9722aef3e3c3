import HomelabDaemon.Bufio
import HomelabDaemon.Json.Value
import HomelabDaemon.Strings
import HomelabDaemon.Utf8.Fields
import HomelabDaemon.Utf8.TextDecoder
import Mathlib.Data.List.Infix

/-!
# The stream of a deploy

POST /api/secrets/deploy sends one frame for each line of `nh os switch` and a last one for its result. `handleDeploy`
decodes each chunk of the body for itself and looks in it for the text of a result.
-/

namespace HomelabDaemon.DeployStream
open Bufio (Bytes newline)

def ascii (text : String) : Bytes := Utf8.encode text.toList

/-- `json.Marshal` writes a byte that starts no character as an escaped U+FFFD. -/
def escapeSymbol : Utf8.Symbol → Bytes
  | .char c => Utf8.encode (Json.escape c)
  | .stray _ => ascii "\\ufffd"

def escaped (s : Bytes) : Bytes := (Utf8.symbols s).flatMap escapeSymbol

inductive EventType where
  | log | done | error
  deriving DecidableEq

def EventType.text : EventType → String
  | log => "log"
  | done => "done"
  | error => "error"

/-- `json.Marshal` of a map with a message and a type; keys come in order. -/
def marshalEvent (type : EventType) (message : Bytes) : Bytes :=
  ascii "\x7b\"message\":\"" ++ escaped message ++ ascii "\",\"type\":\"" ++ ascii type.text ++ ascii "\"\x7d"

def sse (data : Bytes) : Bytes := ascii "data: " ++ data ++ [newline, newline]

/-- Whether the line handler forwards a line as it is. -/
def isRaw (line : Bytes) : Bool := (Utf8.trimSpace line).head? = some 0x7B

def lineData (line : Bytes) : Bytes := if isRaw line then line else marshalEvent .log line

def resultData : Option Bytes → Bytes
  | none => marshalEvent .done (ascii "Deploy completed successfully")
  | some err => marshalEvent .error (ascii "deploy failed: " ++ err)

/-- The body of the response, for the lines of `nh` and the error of its run. -/
def deploy (lines : List Bytes) (failure : Option Bytes) : Bytes :=
  sse (marshalEvent .log (ascii "Starting nh os switch...")) ++ lines.flatMap (fun line => sse (lineData line)) ++
    sse (resultData failure)

inductive Marker where
  | done | error
  deriving DecidableEq

def Marker.text : Marker → List Char
  | done => "\"type\":\"done\"".toList
  | error => "\"type\":\"error\"".toList

inductive Outcome where
  | success | failed
  deriving DecidableEq

def includes (chunk : List Char) (m : Marker) : Bool := decide (m.text <:+: chunk)

/-- What the page tells its user at last: nothing, if no chunk had a marker. -/
def handleDeploy : List Bytes → Option Outcome
  | [] => none
  | value :: rest =>
    let chunk := Utf8.textDecode value
    if includes chunk .done then some .success
    else if includes chunk .error then some .failed
    else handleDeploy rest

/-- A way in which a body arrives. -/
structure Split (stream : Bytes) where
  chunks : List Bytes
  joined : chunks.flatten = stream

/-- The page ends in the same way for both splits, and with success if the deploy succeeded. -/
structure Right {stream : Bytes} (failure : Option Bytes) (s t : Split stream) : Prop where
  same : handleDeploy s.chunks = handleDeploy t.chunks
  success : handleDeploy s.chunks = some .success ↔ failure = none

/-! ### Where markers stand -/

/-- Each quote has a backslash before it. -/
def Escaped (x : Bytes) : Prop := ∀ pre post, x = pre ++ 0x22 :: post → ∃ front, pre = front ++ [0x5C]

variable {x y : Bytes}

theorem Escaped.append (hx : Escaped x) (hy : Escaped y) : Escaped (x ++ y) := by
  intro pre post parts
  rcases List.append_eq_append_iff.mp parts with ⟨mid, rfl, rest⟩ | ⟨mid, rfl, rest⟩
  · obtain ⟨front, rfl⟩ := hy mid post rest
    exact ⟨x ++ front, (List.append_assoc ..).symm⟩
  · cases mid with
    | nil =>
      obtain ⟨front, none⟩ := hy [] post rest.symm
      exact absurd none (by simp)
    | cons b mid =>
      obtain ⟨rfl, _⟩ := List.cons.inj rest
      exact hx pre mid rfl

theorem escaped_free (free : 0x22 ∉ x) : Escaped x := by
  rintro pre post rfl
  exact absurd (by simp) free

theorem quote_of_mem_encode {text : List Char} (member : 0x22 ∈ Utf8.encode text) : '"' ∈ text := by
  obtain ⟨c, inside, own⟩ := List.mem_flatMap.mp member
  have read := Utf8.decodeRune_encode c []
  rw [Utf8.encode_small own (by decide)] at read
  have same : c = '"' := Option.some.inj (read.symm.trans (Utf8.decodeRune_encode '"' []))
  exact same ▸ inside

theorem hexDigit_ne_quote : ∀ n < 16, Json.hexDigit n ≠ '"' := by decide

theorem escape_escaped (c : Char) : Escaped (Utf8.encode (Json.escape c)) := by
  have plain : ∀ {text : List Char}, '"' ∉ text → Escaped (Utf8.encode text) :=
    fun free => escaped_free fun member => free (quote_of_mem_encode member)
  unfold Json.escape
  split
  · rename_i special
    rcases special with rfl | rfl
    · have pair : Utf8.encode ['\\', '"'] = [0x5C, 0x22] := rfl
      rw [pair]
      intro pre post parts
      obtain _ | ⟨a, _ | ⟨b, pre⟩⟩ := pre
      · cases parts
      · obtain ⟨rfl, _⟩ := List.cons.inj parts
        exact ⟨[], rfl⟩
      · have short := congrArg List.length parts
        simp at short
    · exact plain (by decide)
  · rename_i usual
    split
    · rename_i letter short
      have letters : letter ∈ ['b', 'f', 'n', 'r', 't'] := by
        unfold Json.shortEscape at short
        split_ifs at short <;> cases short <;> decide
      refine plain fun member => ?_
      rcases List.mem_cons.mp member with backslash | member
      · exact absurd backslash (by decide)
      · rw [← List.mem_singleton.mp member] at letters
        exact absurd letters (by decide)
    · split
      · have digit := fun n => hexDigit_ne_quote (n % 16) (Nat.mod_lt n (by decide))
        refine plain fun member => ?_
        simp [Json.unicode, (digit _).symm] at member
      · exact plain fun member => usual (.inl (List.mem_singleton.mp member).symm)

theorem escaped_escaped (s : Bytes) : Escaped (escaped s) := by
  unfold escaped
  induction Utf8.symbols s with
  | nil => exact escaped_free (by simp)
  | cons symbol rest ih =>
    rw [List.flatMap_cons]
    refine Escaped.append ?_ ih
    cases symbol with
    | char c => exact escape_escaped c
    | stray b => exact escaped_free (show 0x22 ∉ ascii "\\ufffd" by decide)

/-- What follows the text `"type":` somewhere. -/
def After (x v : Bytes) : Prop := ∃ u, x = u ++ (ascii "\"type\":" ++ v)

theorem key_bytes : ascii "\"type\":" = [0x22, 0x74, 0x79, 0x70, 0x65, 0x22, 0x3A] := rfl

variable {v : Bytes}

theorem after_cons {b : UInt8} : After (b :: x) v ↔ b :: x = ascii "\"type\":" ++ v ∨ After x v := by
  constructor
  · rintro ⟨u, parts⟩
    cases u with
    | nil => exact .inl parts
    | cons a u =>
      obtain ⟨rfl, rest⟩ := List.cons.inj parts
      exact .inr ⟨u, rest⟩
  · rintro (here | ⟨u, rfl⟩)
    · exact ⟨[], here⟩
    · exact ⟨b :: u, rfl⟩

theorem not_after_nil : ¬ After [] v := by
  rintro ⟨u, parts⟩
  exact absurd parts.symm (by simp [key_bytes])

/-- A quote of an escaped text has a backslash before it, and not an `e`. -/
theorem escaped_no_type {pre : Bytes} (quoted : Escaped (pre ++ x)) :
    x ++ 0x22 :: 0x2C :: y ≠ 0x74 :: 0x79 :: 0x70 :: 0x65 :: 0x22 :: 0x3A :: v := by
  intro same
  obtain _ | ⟨a, _ | ⟨b, _ | ⟨c, _ | ⟨d, _ | ⟨e, x⟩⟩⟩⟩⟩ := x
  all_goals simp only [List.nil_append, List.cons_append, List.cons.injEq] at same
  · exact absurd same.1 (by decide)
  · exact absurd same.2.1 (by decide)
  · exact absurd same.2.2.1 (by decide)
  · exact absurd same.2.2.2.1 (by decide)
  · exact absurd same.2.2.2.2.2.1 (by decide)
  · obtain ⟨rfl, rfl, rfl, rfl, rfl, _⟩ := same
    obtain ⟨front, ends⟩ := quoted (pre ++ [0x74, 0x79, 0x70, 0x65]) x (by simp)
    have last := congrArg List.getLast? ends
    simp at last

theorem after_escaped {pre : Bytes} (quoted : Escaped (pre ++ x)) (after : After (x ++ 0x22 :: 0x2C :: y) v) :
    After (0x22 :: 0x2C :: y) v := by
  induction x generalizing pre with
  | nil => exact after
  | cons b x ih =>
    rw [List.append_cons] at quoted
    rcases after_cons.mp after with here | later
    · rw [key_bytes] at here
      exact absurd (List.cons.inj here).2 (escaped_no_type quoted)
    · exact ih quoted later

theorem text_bytes : ascii EventType.log.text = [0x6C, 0x6F, 0x67] ∧
    ascii EventType.done.text = [0x64, 0x6F, 0x6E, 0x65] ∧
    ascii EventType.error.text = [0x65, 0x72, 0x72, 0x6F, 0x72] := ⟨rfl, rfl, rfl⟩

/-- An event has one key of its own, whatever its message. -/
theorem after_event {type : EventType} {message : Bytes} (after : After (marshalEvent type message) v) :
    v = 0x22 :: (ascii type.text ++ [0x22, 0x7D]) := by
  have opening : ascii "\x7b\"message\":\"" =
      [0x7B, 0x22, 0x6D, 0x65, 0x73, 0x73, 0x61, 0x67, 0x65, 0x22, 0x3A, 0x22] := rfl
  have middle : ascii "\",\"type\":\"" = [0x22, 0x2C, 0x22, 0x74, 0x79, 0x70, 0x65, 0x22, 0x3A, 0x22] := rfl
  have closing : ascii "\"\x7d" = [0x22, 0x7D] := rfl
  have quoted : Escaped ([] ++ escaped message) := escaped_escaped message
  rw [marshalEvent, opening, middle, closing] at after
  simp only [List.append_assoc, List.cons_append, List.nil_append] at after
  have behind : After (escaped message ++ 0x22 :: 0x2C :: 0x22 :: 0x74 :: 0x79 :: 0x70 :: 0x65 :: 0x22 :: 0x3A ::
    0x22 ::
      (ascii type.text ++ [0x22, 0x7D])) v := by
    simpa [after_cons, key_bytes, escaped_no_type quoted] using after
  have own := after_escaped quoted behind
  cases type <;> simp [after_cons, key_bytes, not_after_nil, text_bytes] at own <;> exact own.symm

/-! ### Markers -/

namespace Marker

def bytes (m : Marker) : Bytes := Utf8.encode m.text

def type : Marker → EventType
  | done => .done
  | error => .error

theorem bytes_key (m : Marker) : m.bytes = ascii "\"type\":" ++ 0x22 :: (ascii m.type.text ++ [0x22]) := by
  cases m <;> rfl

theorem text_ascii (m : Marker) : ∀ c ∈ m.text, c.toNat < 128 := by
  have all : (m.text.all fun c => c.toNat < 128) = true := by cases m <;> decide
  simpa using all

end Marker

theorem includes_iff (m : Marker) (chunk : Bytes) : includes (Utf8.textDecode chunk) m = true ↔ m.bytes <:+: chunk := by
  rw [includes, decide_eq_true_iff]
  exact Utf8.infix_textDecode m.text_ascii (by cases m <;> decide)

/-- An event has the marker of its type only. -/
theorem marker_event {m : Marker} {type : EventType} {message : Bytes} :
    m.bytes <:+: marshalEvent type message ↔ type = m.type := by
  constructor
  · rintro ⟨u, w, parts⟩
    rw [m.bytes_key] at parts
    have after : After (marshalEvent type message) (0x22 :: (ascii m.type.text ++ [0x22]) ++ w) :=
      ⟨u, by rw [← parts]; simp⟩
    have own := after_event after
    cases m <;> cases type <;> first | rfl | simp [Marker.type, text_bytes] at own
  · rintro rfl
    refine ⟨ascii "\x7b\"message\":\"" ++ escaped message ++ [0x22, 0x2C], [0x7D], ?_⟩
    have middle : ascii "\",\"type\":\"" = [0x22, 0x2C] ++ (ascii "\"type\":" ++ [0x22]) := rfl
    have closing : ascii "\"\x7d" = [0x22, 0x7D] := rfl
    rw [marshalEvent, middle, closing, m.bytes_key]
    simp

def resultType : Option Bytes → EventType
  | none => .done
  | some _ => .error

theorem marker_sse (m : Marker) (data rest : Bytes) : m.bytes <:+: sse data ++ rest ↔ m.bytes <:+: data ∨
    m.bytes <:+: rest := by
  have fresh : newline ∉ m.bytes := by cases m <;> decide
  have lead : m.bytes <:+: ascii "data: " ++ data ↔ m.bytes <:+: data :=
    Utf8.infix_skip (by cases m <;> decide) (by cases m <;> decide +kernel)
  have parts : sse data ++ rest = (ascii "data: " ++ data) ++ newline :: ([] ++ newline :: rest) := by simp [sse]
  rw [parts, Strings.infix_append_fresh fresh, Strings.infix_append_fresh fresh, lead]
  refine or_congr_right (or_iff_right fun empty => ?_)
  cases m <;> cases List.infix_nil.mp empty

theorem marker_line (m : Marker) (line : Bytes) : m.bytes <:+: lineData line ↔ isRaw line = true ∧
    m.bytes <:+: line := by
  unfold lineData
  split
  · rename_i raw
    exact (and_iff_right raw).symm
  · rename_i cooked
    refine iff_of_false (fun inside => ?_) fun both => cooked both.1
    cases m <;> cases marker_event.mp inside

/-- A marker in the stream stands in a forwarded line, or it is the one of the result. -/
theorem marker_deploy {m : Marker} {lines : List Bytes} {failure : Option Bytes} :
    m.bytes <:+: deploy lines failure ↔
      (∃ line ∈ lines, isRaw line = true ∧ m.bytes <:+: line) ∨ m.type = resultType failure := by
  have last : m.bytes <:+: sse (resultData failure) ↔ m.type = resultType failure := by
    have both := marker_sse m (resultData failure) []
    rw [List.append_nil] at both
    rw [both, or_iff_left fun empty => by cases m <;> cases List.infix_nil.mp empty]
    cases failure <;> exact marker_event.trans eq_comm
  have first : ¬ m.bytes <:+: marshalEvent .log (ascii "Starting nh os switch...") := by
    intro inside
    cases m <;> cases marker_event.mp inside
  rw [deploy, List.append_assoc, marker_sse, or_iff_right first]
  induction lines with
  | nil => simpa using last
  | cons line lines ih =>
    rw [List.flatMap_cons, List.append_assoc, marker_sse, marker_line]
    exact (or_congr_right ih).trans (by simp [or_assoc])

/-- A marker is within a chunk. -/
def Has (chunks : List Bytes) (m : Marker) (i : Nat) : Prop := ∃ chunk, chunks[i]? = some chunk ∧ m.bytes <:+: chunk

section Chunks
variable {chunks : List Bytes} {chunk : Bytes} {m : Marker} {i : Nat}

@[simp] theorem not_has_nil : ¬ Has [] m i := by simp [Has]

@[simp] theorem has_zero : Has (chunk :: chunks) m 0 ↔ m.bytes <:+: chunk := by simp [Has]

@[simp] theorem has_succ : Has (chunk :: chunks) m (i + 1) ↔ Has chunks m i := by simp [Has]

theorem handleDeploy_cons (chunk : Bytes) (chunks : List Bytes) [Decidable (Marker.done.bytes <:+: chunk)]
    [Decidable (Marker.error.bytes <:+: chunk)] : handleDeploy (chunk :: chunks) =
      if Marker.done.bytes <:+: chunk then some .success
      else if Marker.error.bytes <:+: chunk then some .failed else handleDeploy chunks := by
  simp only [handleDeploy, includes_iff]

/-- What the markers of one chunk make the page tell. -/
def Decides : Outcome → (Marker → Prop) → Prop
  | .success, has => has .done
  | .failed, has => has .error ∧ ¬ has .done

/-- The first chunk that has a marker decides. -/
theorem handleDeploy_some {o : Outcome} : handleDeploy chunks = some o ↔
    ∃ i, Decides o (Has chunks · i) ∧ ∀ j < i, ∀ m, ¬ Has chunks m j := by
  classical
  induction chunks with
  | nil => cases o <;> simp [handleDeploy, Decides]
  | cons chunk chunks ih =>
    rw [handleDeploy_cons]
    by_cases silent : ∀ m : Marker, ¬ m.bytes <:+: chunk
    · rw [if_neg (silent .done), if_neg (silent .error), ih]
      constructor
      · rintro ⟨i, decides, before⟩
        refine ⟨i + 1, by simpa only [has_succ] using decides, fun j less m => ?_⟩
        cases j with
        | zero => exact fun here => silent m (has_zero.mp here)
        | succ j => exact fun here => before j (Nat.lt_of_succ_lt_succ less) m (has_succ.mp here)
      · rintro ⟨i, decides, before⟩
        cases i with
        | zero => cases o <;> simp [Decides, silent] at decides
        | succ i =>
          refine ⟨i, by simpa only [has_succ] using decides, fun j less m here => ?_⟩
          exact before (j + 1) (Nat.succ_lt_succ less) m (has_succ.mpr here)
    · obtain ⟨m, found⟩ := not_forall_not.mp silent
      have first : (∃ i, Decides o (Has (chunk :: chunks) · i) ∧ ∀ j < i, ∀ m, ¬ Has (chunk :: chunks) m j) ↔
          Decides o (·.bytes <:+: chunk) := by
        constructor
        · rintro ⟨i, decides, before⟩
          cases i with
          | zero => simpa only [has_zero] using decides
          | succ i => exact absurd (has_zero.mpr found) (before 0 (Nat.succ_pos i) m)
        · intro decides
          exact ⟨0, by simpa only [has_zero] using decides, fun j before => absurd before (Nat.not_lt_zero j)⟩
      rw [first]
      by_cases done : Marker.done.bytes <:+: chunk
      · cases o <;> simp [Decides, done]
      · cases m with
        | done => exact absurd found done
        | error => cases o <;> simp [Decides, done, found]

theorem handleDeploy_none : handleDeploy chunks = none ↔ ∀ i m, ¬ Has chunks m i := by
  classical
  induction chunks with
  | nil => simp [handleDeploy]
  | cons chunk chunks ih =>
    have parts : (∀ i m, ¬ Has (chunk :: chunks) m i) ↔ (∀ m : Marker, ¬ m.bytes <:+: chunk) ∧
      ∀ i m, ¬ Has chunks m i := by
      constructor
      · exact fun nowhere => ⟨fun m here => nowhere 0 m (has_zero.mpr here),
          fun i m here => nowhere (i + 1) m (has_succ.mpr here)⟩
      · rintro ⟨here, later⟩ i m has
        cases i with
        | zero => exact here m (has_zero.mp has)
        | succ i => exact later i m (has_succ.mp has)
    rw [handleDeploy_cons, parts, ← ih]
    by_cases done : Marker.done.bytes <:+: chunk
    · rw [if_pos done]
      exact iff_of_false (by simp) fun both => both.1 .done done
    rw [if_neg done]
    by_cases error : Marker.error.bytes <:+: chunk
    · rw [if_pos error]
      exact iff_of_false (by simp) fun both => both.1 .error error
    rw [if_neg error]
    exact (and_iff_right fun m => by cases m <;> assumption).symm

end Chunks

/-! ### Boundaries -/

/-- An infix of a part, as an infix of the whole between the part's ends. -/
theorem infix_between {α : Type} {sub part : List α} (pre post : List α) :
    sub <:+: part ↔ ∃ start, sub <+: (pre ++ (part ++ post)).drop start ∧ pre.length ≤ start ∧
      start + sub.length ≤ pre.length + part.length := by
  constructor
  · rintro ⟨u, w, rfl⟩
    refine ⟨pre.length + u.length, ?_, Nat.le_add_right .., ?_⟩
    · rw [List.drop_length_add_append, List.append_assoc, List.append_assoc, List.drop_left]
      exact List.prefix_append ..
    · simp only [List.length_append]
      omega
  · rintro ⟨start, starts, after, before⟩
    obtain ⟨k, rfl⟩ := Nat.exists_eq_add_of_le after
    rw [List.drop_length_add_append, List.drop_append_of_le_length (by omega)] at starts
    have short : sub.length ≤ (part.drop k).length := by
      rw [List.length_drop]
      omega
    have inside := List.prefix_of_prefix_length_le starts (List.prefix_append ..) short
    exact inside.isInfix.trans (List.drop_suffix k part).isInfix

namespace Split
variable {stream : Bytes}

/-- Where chunk `i` begins in the stream. -/
def offset (s : Split stream) (i : Nat) : Nat := (s.chunks.take i).flatten.length

/-- A marker stands in the stream between the boundaries of chunk `i`, cut by neither. -/
def Whole (s : Split stream) (m : Marker) (i : Nat) : Prop :=
  ∃ start, m.bytes <+: stream.drop start ∧ s.offset i ≤ start ∧ start + m.bytes.length ≤ s.offset (i + 1)

theorem whole_iff (s : Split stream) (m : Marker) (i : Nat) : s.Whole m i ↔ Has s.chunks m i := by
  obtain ⟨chunks, rfl⟩ := s
  cases at_ : chunks[i]? with
  | none =>
    have past := List.getElem?_eq_none_iff.mp at_
    refine iff_of_false ?_ fun ⟨chunk, found, _⟩ => by rw [at_] at found; cases found
    rintro ⟨start, _, after, before⟩
    rw [offset, List.take_of_length_le (Nat.le_succ_of_le past)] at before
    rw [offset, List.take_of_length_le past] at after
    have filled : 0 < m.bytes.length := by cases m <;> decide
    omega
  | some chunk =>
    obtain ⟨inside, rfl⟩ := List.getElem?_eq_some_iff.mp at_
    have parts : chunks.flatten = (chunks.take i).flatten ++ (chunks[i] ++ (chunks.drop (i + 1)).flatten) := by
      rw [← List.flatten_cons, ← List.flatten_append, List.getElem_cons_drop, List.take_append_drop]
    have next : ((chunks.take (i + 1)).flatten).length = (chunks.take i).flatten.length + chunks[i].length := by
      rw [List.take_succ_eq_append_getElem inside, List.flatten_append, List.length_append, List.flatten_singleton]
    have has : Has chunks m i ↔ m.bytes <:+: chunks[i] := by simp [Has, at_]
    rw [has, infix_between (chunks.take i).flatten (chunks.drop (i + 1)).flatten, ← parts, ← next]
    rfl

/-- The first chunk that has a marker whole has the one of the outcome, and for a failure no other. -/
def Shows (s : Split stream) (o : Outcome) : Prop := ∃ i, Decides o (s.Whole · i) ∧ ∀ j < i, ∀ m, ¬ s.Whole m j

/-- Every marker is cut by a boundary. -/
def Silent (s : Split stream) : Prop := ∀ i m, ¬ s.Whole m i

theorem handleDeploy_shows (s : Split stream) (o : Outcome) : handleDeploy s.chunks = some o ↔ s.Shows o := by
  rw [handleDeploy_some, Shows]
  simp only [whole_iff]

theorem handleDeploy_silent (s : Split stream) : handleDeploy s.chunks = none ↔ s.Silent := by
  rw [handleDeploy_none, Silent]
  simp only [whole_iff]

/-- Byte by byte: no chunk has a marker. -/
def bytes (stream : Bytes) : Split stream :=
  ⟨stream.map fun b => [b], by rw [← List.flatMap_def, List.flatMap_singleton']⟩

def whole (stream : Bytes) : Split stream := ⟨[stream], by simp⟩

end Split

section Result
variable (lines : List Bytes) (failure : Option Bytes)

/-- Both splits show the result, or a failure that neither of them shows. -/
theorem deploy_right_iff (s t : Split (deploy lines failure)) :
    Right failure s t ↔
      if failure = none then s.Shows .success ∧ t.Shows .success
      else s.Shows .failed ∧ t.Shows .failed ∨ s.Silent ∧ t.Silent := by
  simp only [← Split.handleDeploy_shows, ← Split.handleDeploy_silent]
  split
  · rename_i done
    constructor
    · rintro ⟨same, success⟩
      have shown := success.mpr done
      exact ⟨shown, same ▸ shown⟩
    · rintro ⟨first, second⟩
      exact ⟨first.trans second.symm, iff_of_true first done⟩
  · rename_i failed
    constructor
    · rintro ⟨same, success⟩
      cases ended : handleDeploy s.chunks with
      | none => exact .inr ⟨rfl, same ▸ ended⟩
      | some o =>
        cases o with
        | success => exact absurd (success.mp ended) failed
        | failed => exact .inl ⟨rfl, same ▸ ended⟩
    · rintro (⟨first, second⟩ | ⟨first, second⟩)
      · exact ⟨first.trans second.symm, iff_of_false (by simp [first]) failed⟩
      · exact ⟨first.trans second.symm, iff_of_false (by simp [first]) failed⟩

variable {lines failure}

theorem Split.Whole.inside {stream : Bytes} {s : Split stream} {m : Marker} {i : Nat} (whole : s.Whole m i) :
    m.bytes <:+: stream := by
  obtain ⟨start, starts, _⟩ := whole
  exact starts.isInfix.trans (List.drop_suffix start stream).isInfix

def Marker.outcome : Marker → Outcome
  | done => .success
  | error => .failed

/-- With one marker only, a chunk that has it whole is enough. -/
theorem shows_of_only {stream : Bytes} {s : Split stream} {m : Marker} (only : ∀ {i m'}, s.Whole m' i → m' = m) :
    (s.Shows m.outcome ↔ ∃ i, s.Whole m i) ∧ (s.Silent ↔ ¬ ∃ i, s.Whole m i) := by
  have silent : s.Silent ↔ ¬ ∃ i, s.Whole m i := by
    refine ⟨fun silent ⟨i, whole⟩ => silent i m whole, fun nowhere i m' whole => ?_⟩
    obtain rfl := only whole
    exact nowhere ⟨i, whole⟩
  have told : ∀ {o}, s.Shows o → o = m.outcome ∧ ∃ i, s.Whole m i := by
    rintro o ⟨i, decides, _⟩
    cases o with
    | success =>
      obtain rfl := only decides
      exact ⟨rfl, i, decides⟩
    | failed =>
      obtain rfl := only decides.1
      exact ⟨rfl, i, decides.1⟩
  refine ⟨⟨fun shows => (told shows).2, fun somewhere => ?_⟩, silent⟩
  cases ended : handleDeploy s.chunks with
  | none => exact absurd somewhere (silent.mp (s.handleDeploy_silent.mp ended))
  | some o =>
    have shown := (s.handleDeploy_shows o).mp ended
    exact (told shown).1 ▸ shown

/-- Where no forwarded line has a marker, it only matters whether the one of the result is cut. -/
theorem quiet_right_iff (quiet : ∀ line ∈ lines, isRaw line = true → ∀ m : Marker, ¬ m.bytes <:+: line)
    (s t : Split (deploy lines failure)) :
    Right failure s t ↔
      if failure = none then (∃ i, s.Whole .done i) ∧ ∃ i, t.Whole .done i
      else (∃ i, s.Whole .error i) ↔ ∃ i, t.Whole .error i := by
  have only : ∀ {s : Split (deploy lines failure)} {i m}, s.Whole m i → m.type = resultType failure := by
    intro s i m whole
    rcases marker_deploy.mp whole.inside with ⟨line, member, raw, inside⟩ | own
    · exact absurd inside (quiet line member raw m)
    · exact own
  rw [deploy_right_iff]
  cases failure with
  | none =>
    have done : ∀ (s : Split (deploy lines none)) {i m}, s.Whole m i → m = .done := by
      intro s i m whole
      have own := only whole
      cases m <;> cases own
      rfl
    rw [if_pos rfl, if_pos rfl, ← (shows_of_only (done s)).1, ← (shows_of_only (done t)).1]
    rfl
  | some err =>
    have error : ∀ (s : Split (deploy lines (some err))) {i m}, s.Whole m i → m = .error := by
      intro s i m whole
      have own := only whole
      cases m <;> cases own
      rfl
    rw [if_neg (Option.some_ne_none err), if_neg (Option.some_ne_none err), (shows_of_only (error s)).2,
      (shows_of_only (error t)).2, ← (shows_of_only (error s)).1, ← (shows_of_only (error t)).1]
    exact iff_iff_and_or_not_and_not.symm

end Result

/-- No deploy is told alike in all splits. -/
theorem bytes_not_right (lines : List Bytes) (failure : Option Bytes) :
    ¬ Right failure (.whole (deploy lines failure)) (.bytes (deploy lines failure)) := by
  rintro ⟨same, -⟩
  have silent : handleDeploy (Split.bytes (deploy lines failure)).chunks = none := by
    rw [handleDeploy_none]
    rintro i m ⟨chunk, found, inside⟩
    obtain ⟨b, _, rfl⟩ := List.mem_map.mp (List.mem_of_getElem? found)
    have short := inside.length_le
    rw [List.length_singleton] at short
    cases m <;> exact absurd short (by decide)
  obtain ⟨m, own⟩ : ∃ m : Marker, m.type = resultType failure := by
    cases failure with
    | none => exact ⟨.done, rfl⟩
    | some err => exact ⟨.error, rfl⟩
  rw [silent, handleDeploy_none] at same
  exact same 0 m (has_zero.mpr (marker_deploy.mpr (.inr own)))

/-- A deploy that succeeds without a line of output: the page tells of it, or it does not. -/
theorem success_in_bytes_unseen :
    ¬ Right none (.whole (deploy [] none)) (.bytes (deploy [] none)) := bytes_not_right [] none

end HomelabDaemon.DeployStream
