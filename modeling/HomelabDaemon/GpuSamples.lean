import HomelabDaemon.GpuStats

/-!
# The newest GPU sample

The layouts in which samples are written, as a stream or as an array, and which of them the poller reads: those
before the first comma that is not followed by one line break or one space.
-/

namespace HomelabDaemon.Gpu
open Json Strings StateFile

/-- The blanks behind a comma that is removed. -/
def noiseBlanks : List Char := ['\n', ' ']

variable {F : Type} {num : Float64 F}

/-- The text of an object, and what it decodes to. -/
structure Sample (num : Float64 F) where
  body : Str
  raw : GpuTopJSON F
  decodes : num.decode ('{' :: body ++ ['}']) = some (raw, [])

namespace Sample

def text (s : Sample num) : Str := '{' :: s.body ++ ['}']

def isHeader (s : Sample num) : Bool := num.isHeader s.raw

/-- An array in it has objects with a comma between them that is removed. -/
def isTorn (s : Sample num) : Bool := Reader.loses noiseBlanks {} false s.text

end Sample

inductive Layout where
  | concatenated
  | array

namespace Layout

def opening : Layout → Str
  | concatenated => []
  | array => ['[']

def closing : Layout → Str
  | concatenated => []
  | array => [']']

/-- What stands before a sample, `after` another one or not. -/
def Gap (layout : Layout) (after : Bool) (gap : Str) : Prop :=
  match layout, after with
  | array, true => Separates gap
  | _, _ => ∀ c ∈ gap, Json.isSpace c = true

end Layout

/-- Samples as they are written to a file, up to its end or to where the last one is cut off. -/
inductive Body (num : Float64 F) (layout : Layout) : Bool → Type
  | ended {after : Bool} (pre post : Str) (blank : ∀ c ∈ pre, Json.isSpace c = true)
      (blank' : ∀ c ∈ post, Json.isSpace c = true) : Body num layout after
  | cut {after : Bool} (gap : Str) (separates : layout.Gap after gap) (s : Sample num) (part rest : Str)
      (parts : s.text = part ++ rest) (more : rest ≠ []) : Body num layout after
  | sample {after : Bool} (gap : Str) (separates : layout.Gap after gap) (s : Sample num)
    (more : Body num layout true) :
      Body num layout after

namespace Body

variable {layout : Layout}

def text {after : Bool} : Body num layout after → Str
  | ended pre post _ _ => pre ++ layout.closing ++ post
  | cut gap _ _ part _ _ _ => gap ++ part
  | sample gap _ s more => gap ++ s.text ++ more.text

def samples {after : Bool} : Body num layout after → List (Sample num)
  | ended _ _ _ _ => []
  | cut _ _ _ _ _ _ _ => []
  | sample _ _ s more => s :: more.samples

/-- The samples before the first comma that stays behind. -/
def reached {after : Bool} : Body num layout after → List (Sample num)
  | ended _ _ _ _ => []
  | cut _ _ _ _ _ _ _ => []
  | sample gap _ s more => if clears noiseBlanks gap && !s.isTorn then s :: more.reached else []

end Body

structure File (num : Float64 F) where
  layout : Layout
  lead : Str
  blank : ∀ c ∈ lead, Json.isSpace c = true
  body : Body num layout false

def File.text (file : File num) : Str := file.lead ++ file.layout.opening ++ file.body.text

/-- The values of the last sample that is not a header. -/
def newest (samples : List (Sample num)) : Option (GpuStats F) :=
  ((samples.filter fun s => !s.isHeader).getLast?).map fun s => num.stats s.raw

/-- Nothing in the text is a sample other than a header. -/
def NoSample (num : Float64 F) (text : Str) : Prop :=
  ∀ piece raw, piece <:+: text → num.decode piece = some (raw, []) → num.isHeader raw = true

def Barren (num : Float64 F) (text : Str) : Prop :=
  NoSample num text ∨ ∃ file : File num, text = file.text ∧ newest file.body.samples = none

/-- A poll returns the newest sample of a file, and the last good value when there is none. -/
def ReturnsNewest (num : Float64 F) (getenv : Str) (readFile : Str → Except Str Str)
    (lastGoodGPU : GpuStats F) : Prop :=
  (∀ file : File num, readFile (statsPath getenv) = .ok file.text →
    ∀ g, newest file.body.samples = some g → (pollGPU num getenv readFile lastGoodGPU).1 = g) ∧
  ((∀ text, readFile (statsPath getenv) = .ok text → Barren num text) → lastGoodGPU.available = true →
    (pollGPU num getenv readFile lastGoodGPU).1 = lastGoodGPU)

/-- The newest sample that is reached shows what the newest of all shows, or the last good value does when none is. -/
def File.Shows (file : File num) (lastGoodGPU : GpuStats F) : Prop :=
  newest file.body.reached = newest file.body.samples ∨
  newest file.body.reached = none ∧ lastGoodGPU.available = true ∧ newest file.body.samples = some lastGoodGPU

/-! ### Samples without the commas -/

theorem noise_white : ∀ w ∈ noiseBlanks, Json.isSpace w = true := List.all_eq_true.mp rfl

namespace Sample

theorem read (s : Sample num) : ∃ v, Reader.readValue {} s.text = some (v, []) ∧ num.decodeRaw v = some s.raw :=
  num.decode_eq_some.mp s.decodes

theorem last_text (s : Sample num) : s.text.getLast? = some '}' := List.getLast?_concat

theorem opens_part {s : Sample num} {part rest : Str} (parts : s.text = part ++ rest) : Opens part := by
  match part with
  | [] => exact .inl rfl
  | c :: part =>
    obtain ⟨rfl, _⟩ := List.cons.inj parts
    exact .inr ⟨part, rfl⟩

/-- A sample is decoded without the commas unless it is torn. -/
theorem decode_text (s : Sample num) (t : Str) :
    s.isTorn = true ∧ num.decode (dropCommas noiseBlanks false (s.text ++ t)) = none ∨
    s.isTorn = false ∧ ∃ raw, num.decode (dropCommas noiseBlanks false (s.text ++ t)) =
    some (raw, dropCommas noiseBlanks true t) ∧
      num.isHeader raw = s.isHeader ∧ num.stats raw = num.stats s.raw := by
  obtain ⟨v, read, decodes⟩ := s.read
  rcases Reader.without_commas noise_white read t with ⟨torn, stuck⟩ | ⟨whole, w, alike, goes⟩
  · refine .inl ⟨torn, ?_⟩
    rw [Float64.decode, stuck]
    rfl
  · obtain ⟨raw, decodes', header, stats⟩ := num.decodeRaw_alike alike.symm decodes
    rw [last_text, decide_eq_true rfl] at goes
    exact .inr ⟨whole, raw, num.decode_eq_some.mpr ⟨w, goes, decodes'⟩, header, stats⟩

theorem cut_unread {s : Sample num} {part rest : Str} (parts : s.text = part ++ rest) (more : rest ≠ []) :
    Reader.readValue {} (dropCommas noiseBlanks false part) = none := by
  obtain ⟨v, read, _⟩ := s.read
  by_contra goes
  obtain ⟨⟨w, u⟩, goes⟩ := Option.ne_none_iff_exists'.mp goes
  obtain ⟨p, t, v', _, rfl, _, inner, _⟩ := Reader.of_dropCommas noise_white goes
  rw [parts, List.append_assoc, Reader.readValue_append inner (t ++ rest)] at read
  obtain ⟨_, nothing⟩ := Prod.mk.inj (Option.some.inj read)
  exact more (List.append_eq_nil_iff.mp (List.append_eq_nil_iff.mp nothing).2).2

end Sample

def trimEnd (s : Str) : Str := trimSuffix (s.rdropWhile Strings.isSpace) ']'

theorem rdropWhile_append {c : Char} (inked : Strings.isSpace c = false) (s t : Str) :
    (s ++ [c] ++ t).rdropWhile Strings.isSpace = s ++ [c] ++ t.rdropWhile Strings.isSpace := by
  have kept : ¬ Strings.isSpace c = true := by rw [inked]; exact Bool.false_ne_true
  induction t using List.reverseRecOn with
  | nil => rw [List.append_nil, List.rdropWhile_nil, List.append_nil, List.rdropWhile_concat_neg _ _ _ kept]
  | append_singleton t x ih =>
    rw [← List.append_assoc]
    by_cases space : Strings.isSpace x = true
    · rw [List.rdropWhile_concat_pos _ _ _ space, List.rdropWhile_concat_pos _ _ _ space, ih]
    · rw [List.rdropWhile_concat_neg _ _ _ space, List.rdropWhile_concat_neg _ _ _ space, List.append_assoc]

theorem trimSuffix_append {c d : Char} (other : c ≠ d) (s t : Str) :
    trimSuffix (s ++ [c] ++ t) d = s ++ [c] ++ trimSuffix t d := by
  unfold trimSuffix
  rcases List.eq_nil_or_concat t with rfl | ⟨t, x, rfl⟩
  · rw [List.append_nil, List.getLast?_concat, if_neg (fun same => other (Option.some.inj same))]
    exact (List.append_nil _).symm
  · rw [List.concat_eq_append, ← List.append_assoc, List.getLast?_concat, List.getLast?_concat, List.dropLast_concat,
      List.dropLast_concat]
    split_ifs
    · rfl
    · rw [List.append_assoc]

theorem trimEnd_append {c : Char} (inked : Strings.isSpace c = false) (other : c ≠ ']') (s t : Str) :
    trimEnd (s ++ [c] ++ t) = s ++ [c] ++ trimEnd t := by
  rw [trimEnd, rdropWhile_append inked, trimSuffix_append other]
  rfl

theorem trimSuffix_starts (s : Str) (c : Char) : trimSuffix s c <+: s := by
  unfold trimSuffix
  split_ifs
  · exact s.dropLast_prefix
  · exact List.prefix_rfl

theorem trimEnd_starts (s : Str) : trimEnd s <+: s :=
  (trimSuffix_starts _ ']').trans (List.rdropWhile_prefix _ s)

theorem space_space {c : Char} (space : Json.isSpace c = true) : Strings.isSpace c = true := by
  simp only [Json.isSpace, Bool.or_eq_true, decide_eq_true_eq] at space
  obtain ((rfl | rfl) | rfl) | rfl := space <;> rfl

theorem trimEnd_blank {s : Str} (blank : ∀ c ∈ s, Json.isSpace c = true) : trimEnd s = [] := by
  rw [trimEnd, List.rdropWhile_eq_nil_iff.mpr fun c member => space_space (blank c member)]
  rfl

/-! ### The loop -/

namespace Float64

theorem decode_length {num : Float64 F} {s rest : Str} {raw : GpuTopJSON F}
    (decodes : num.decode s = some (raw, rest)) :
    rest.length < s.length := by
  obtain ⟨v, read, _⟩ := num.decode_eq_some.mp decodes
  exact Reader.readValue_length read

theorem decode_congr (num : Float64 F) {s t : Str} (same : Reader.readValue {} s = Reader.readValue {} t) :
    num.decode s = num.decode t := by
  rw [decode, same]
  rfl

theorem decode_stuck (num : Float64 F) {s : Str} (stuck : Reader.readValue {} s = none) : num.decode s = none :=
  num.decode_congr (t := []) stuck

theorem lastRecord_stop {num : Float64 F} {s : Str} (stuck : num.decode s = none) (n : Nat)
    (last : Option (GpuTopJSON F)) :
    num.lastRecord n s last = last := by
  cases n with
  | zero => rfl
  | succ n => rw [lastRecord, stuck]

/-- `n` is enough for what follows the first value. -/
def Enough (num : Float64 F) (n : Nat) (s : Str) : Prop := ∀ raw rest, num.decode s = some (raw, rest) → rest.length < n

theorem lastRecord_next {num : Float64 F} {n : Nat} {s rest : Str} {raw : GpuTopJSON F} (enough : num.Enough n s)
    (decodes : num.decode s = some (raw, rest)) (last : Option (GpuTopJSON F)) :
    ∃ m, num.Enough m rest ∧ num.lastRecord n s last = num.lastRecord m rest (if num.isHeader raw then last
    else some raw) := by
  match n with
  | 0 => exact absurd (enough raw rest decodes) (Nat.not_lt_zero _)
  | n + 1 =>
    have room := enough raw rest decodes
    refine ⟨n, fun raw' rest' decodes' => ?_, by rw [lastRecord, decodes]⟩
    have shorter := decode_length decodes'
    omega

end Float64

theorem newest_cons (s : Sample num) (samples : List (Sample num)) :
    newest (s :: samples) = (newest samples).or (if s.isHeader then none else some (num.stats s.raw)) := by
  unfold newest
  cases header : s.isHeader with
  | true =>
    rw [List.filter_cons_of_neg (by rw [header]; exact Bool.false_ne_true), if_pos rfl, Option.or_none]
  | false =>
    rw [List.filter_cons_of_pos (by rw [header]; rfl), if_neg Bool.false_ne_true, List.getLast?_cons]
    cases (samples.filter fun s => !s.isHeader).getLast? with
    | none => rfl
    | some s' => rfl

def GapPart (after : Bool) (gap : Str) : Prop := (∀ c ∈ gap, Json.isSpace c = true) ∨ after = true ∧ Separates gap

theorem gap_part {layout : Layout} {after : Bool} {gap : Str} (separates : layout.Gap after gap) :
    GapPart after gap := by
  match layout, after with
  | .concatenated, _ => exact .inl separates
  | .array, false => exact .inl separates
  | .array, true => exact .inr ⟨rfl, separates⟩

namespace GapPart

variable {after : Bool} {gap u t : Str}

theorem read (part : GapPart after gap) (opens : Opens u) :
    Reader.readValue {} (dropCommas noiseBlanks after (gap ++ u)) =
      if clears noiseBlanks gap then Reader.readValue {} (dropCommas noiseBlanks false u) else none := by
  rcases part with blank | ⟨rfl, separates⟩
  · rw [if_pos (clears_iff.mpr (.inl blank)), Reader.read_blank blank opens]
  · exact Reader.read_gap noise_white (.inr separates) opens

theorem unread (part : GapPart after gap) (opens : Opens u)
    (nothing : Reader.readValue {} (dropCommas noiseBlanks false u) = none) :
    Reader.readValue {} (dropCommas noiseBlanks after (gap ++ u)) = none := by
  rw [part.read opens, nothing, ite_self]

theorem left (part : GapPart after (gap ++ t)) : GapPart after gap := by
  rcases part with blank | ⟨rfl, pre, post, before, behind, parts⟩
  · exact .inl fun c member => blank c (List.mem_append_left t member)
  · rcases List.append_eq_append_iff.mp parts with ⟨more, rfl, _⟩ | ⟨ending, rfl, tails⟩
    · exact .inl fun c member => before c (List.mem_append_left more member)
    · rcases List.cons_eq_append_iff.mp tails with ⟨rfl, _⟩ | ⟨post', rfl, rfl⟩
      · rw [List.append_nil]
        exact .inl before
      · exact .inr ⟨rfl, pre, post', before, fun c member => behind c (List.mem_append_left t member), rfl⟩

end GapPart

namespace Body

variable {layout : Layout} {after : Bool}

def trimmed {after : Bool} : Body num layout after → Str
  | sample gap _ s more => gap ++ s.text ++ more.trimmed
  | ended pre post _ _ => trimEnd (pre ++ layout.closing ++ post)
  | cut gap _ _ part _ _ _ => trimEnd (gap ++ part)

theorem trimEnd_text (body : Body num layout after) : trimEnd body.text = body.trimmed := by
  induction body with
  | ended pre post blank blank' => rfl
  | cut gap separates s part rest parts more => rfl
  | sample gap separates s more ih =>
    rw [text, trimmed, ← ih, Sample.text, ← List.append_assoc, trimEnd_append rfl (by decide)]

theorem ended_unread {pre post : Str} (blank : ∀ c ∈ pre, Json.isSpace c = true)
    (blank' : ∀ c ∈ post, Json.isSpace c = true) :
    Reader.readValue {} (dropCommas noiseBlanks after (trimEnd (pre ++ layout.closing ++ post))) = none := by
  match layout with
  | .concatenated =>
    have blanks : ∀ c ∈ pre ++ [] ++ post, Json.isSpace c = true := by
      intro c member
      rw [List.append_nil] at member
      exact (List.mem_append.mp member).elim (blank c) (blank' c)
    rw [Layout.closing, trimEnd_blank blanks]
    rfl
  | .array =>
    have trims : trimEnd (pre ++ [']'] ++ post) = pre ++ [] := by
      rw [trimEnd, rdropWhile_append rfl, List.rdropWhile_eq_nil_iff.mpr fun c member => space_space (blank' c member),
        List.append_nil, trimSuffix, List.getLast?_concat, if_pos rfl, List.dropLast_concat, List.append_nil]
    rw [Layout.closing, trims, Reader.read_blank blank (.inl rfl)]
    rfl

theorem cut_unread {gap part rest : Str} {s : Sample num} (separates : layout.Gap after gap)
    (parts : s.text = part ++ rest)
    (more : rest ≠ []) : Reader.readValue {} (dropCommas noiseBlanks after (trimEnd (gap ++ part))) = none := by
  obtain ⟨t, trims⟩ := trimEnd_starts (gap ++ part)
  rcases List.append_eq_append_iff.mp trims with ⟨u, same, _⟩ | ⟨u, same, rfl⟩
  · have start : GapPart after (trimEnd (gap ++ part)) := by
      have whole := gap_part separates
      rw [same] at whole
      exact whole.left
    rw [← List.append_nil (trimEnd (gap ++ part))]
    exact start.unread (.inl rfl) rfl
  · have parts' : s.text = u ++ (t ++ rest) := by rw [parts, List.append_assoc]
    rw [same]
    exact (gap_part separates).unread (Sample.opens_part parts')
      (Sample.cut_unread parts' fun nothing => more (List.append_eq_nil_iff.mp nothing).2)

/-- The loop ends with the newest sample that is reached. -/
theorem lastRecord_trimmed (body : Body num layout after) (n : Nat) (last : Option (GpuTopJSON F))
    (enough : num.Enough n (dropCommas noiseBlanks after body.trimmed)) :
    (num.lastRecord n (dropCommas noiseBlanks after body.trimmed) last).map num.stats =
      (newest body.reached).or (last.map num.stats) := by
  induction body generalizing n last with
  | ended pre post blank blank' =>
    rw [trimmed, Float64.lastRecord_stop (num.decode_stuck (ended_unread blank blank'))]
    rfl
  | cut gap separates s part rest parts more =>
    rw [trimmed, Float64.lastRecord_stop (num.decode_stuck (cut_unread separates parts more))]
    rfl
  | sample gap separates s more ih =>
    rw [trimmed, List.append_assoc] at enough ⊢
    have opens : Opens (s.text ++ more.trimmed) := .inr ⟨_, rfl⟩
    have read := (gap_part separates).read opens
    rw [reached]
    cases clear : clears noiseBlanks gap with
    | false =>
      rw [clear, if_neg Bool.false_ne_true] at read
      rw [Float64.lastRecord_stop (num.decode_stuck read)]
      rfl
    | true =>
      rw [clear, if_pos rfl] at read
      have goes := num.decode_congr read
      rcases s.decode_text more.trimmed with ⟨torn, stuck⟩ | ⟨whole, raw, decodes, header, stats⟩
      · rw [Float64.lastRecord_stop (goes.trans stuck), torn]
        rfl
      · obtain ⟨m, enough', steps⟩ := Float64.lastRecord_next enough (goes.trans decodes) last
        have kept : (true && !false) = true := rfl
        rw [steps, ih m _ enough', whole, if_pos kept, newest_cons, Option.or_assoc, header]
        cases s.isHeader with
        | true => rfl
        | false =>
          rw [if_neg Bool.false_ne_true, if_neg Bool.false_ne_true, Option.map_some, stats]
          rfl

theorem first_blank {gap : Str} (separates : layout.Gap false gap) : ∀ c ∈ gap, Json.isSpace c = true :=
  (gap_part separates).resolve_right fun later => Bool.false_ne_true later.1

/-- A stream starts with blanks, before an object or its end. -/
theorem text_opens (body : Body num layout false) (stream : layout.closing = []) :
    ∃ b u, body.text = b ++ u ∧ (∀ c ∈ b, Json.isSpace c = true) ∧ Opens u := by
  cases body with
  | ended pre post blank blank' =>
    refine ⟨pre ++ post, [], ?_, fun c member => (List.mem_append.mp member).elim (blank c) (blank' c), .inl rfl⟩
    rw [text, stream, List.append_nil, List.append_nil]
  | cut gap separates s part rest parts more =>
    exact ⟨gap, part, rfl, first_blank separates, Sample.opens_part parts⟩
  | sample gap separates s more =>
    exact ⟨gap, s.text ++ more.text, List.append_assoc _ _ _, first_blank separates, .inr ⟨_, rfl⟩⟩

end Body

/-! ### Polls -/

theorem stripJSONNoise_eq (b : Str) :
    stripJSONNoise b = dropCommas noiseBlanks false (trimSuffix (trimPrefix (trimSpace b) '[') ']') := by
  have newline : ∀ w ∈ ['\n'], Json.isSpace w = true := List.all_eq_true.mp rfl
  have space : ∀ w ∈ [' '], Json.isSpace w = true := List.all_eq_true.mp rfl
  unfold stripJSONNoise
  rw [replaceAll_comma rfl, replaceAll_comma rfl, dropCommas_dropCommas newline space]
  rfl

theorem dropWhile_blank {b : Str} (blank : ∀ c ∈ b, Json.isSpace c = true) (s : Str) :
    (b ++ s).dropWhile Strings.isSpace = s.dropWhile Strings.isSpace :=
  List.dropWhile_append_of_pos fun c member => space_space (blank c member)

theorem read_strip (file : File num) :
    Reader.readValue {} (stripJSONNoise file.text) = Reader.readValue {}
    (dropCommas noiseBlanks false file.body.trimmed) := by
  obtain ⟨layout, lead, blank, body⟩ := file
  rw [stripJSONNoise_eq, ← Body.trimEnd_text]
  match layout with
  | .array =>
    have trims : trimSpace (lead ++ ['['] ++ body.text) = '[' :: body.text.rdropWhile Strings.isSpace := by
      rw [trimSpace, List.append_assoc, dropWhile_blank blank]
      exact rdropWhile_append rfl [] body.text
    rw [File.text, Layout.opening, trims]
    rfl
  | .concatenated =>
    obtain ⟨b, u, parts, blank', opens⟩ := body.text_opens rfl
    have trims : trimSpace (lead ++ [] ++ body.text) = u.rdropWhile Strings.isSpace := by
      rw [trimSpace, parts, List.append_nil, dropWhile_blank blank, dropWhile_blank blank']
      obtain rfl | ⟨t, rfl⟩ := opens
      · rfl
      · rfl
    rw [File.text, Layout.opening, trims, parts]
    obtain rfl | ⟨t, rfl⟩ := opens
    · rw [List.append_nil, trimEnd_blank blank']
      rfl
    · have alone : trimSuffix (trimPrefix (('{' :: t).rdropWhile Strings.isSpace) '[') ']' = '{' :: trimEnd t := by
        have stays : ('{' :: t).rdropWhile Strings.isSpace = '{' :: t.rdropWhile Strings.isSpace :=
          rdropWhile_append rfl [] t
        rw [stays]
        exact trimSuffix_append (by decide) [] _
      have spaced : trimEnd (b ++ '{' :: t) = b ++ '{' :: trimEnd t := by
        have trimmed := trimEnd_append (c := '{') rfl (by decide) b t
        simpa only [List.append_assoc, List.singleton_append] using trimmed
      rw [alone, spaced, Reader.read_blank blank' (.inr ⟨_, rfl⟩)]

theorem lastRecord_congr {s t : Str} (same : num.decode s = num.decode t) (n : Nat) (last : Option (GpuTopJSON F)) :
    num.lastRecord n s last = num.lastRecord n t last := by
  cases n with
  | zero => rfl
  | succ n => rw [Float64.lastRecord, Float64.lastRecord, same]

theorem lastRecord_file (file : File num) :
    (num.lastRecord (stripJSONNoise file.text).length (stripJSONNoise file.text) none).map num.stats =
      newest file.body.reached := by
  have same := num.decode_congr (read_strip file)
  rw [lastRecord_congr same, Body.lastRecord_trimmed]
  · exact Option.or_none
  · intro raw rest decodes
    exact Float64.decode_length (same.trans decodes)

/-- What is decoded without the commas is a header when the text has no sample. -/
theorem NoSample.decode {after : Bool} {s rest : Str} {raw : GpuTopJSON F} (bare : NoSample num s)
    (decodes : num.decode (dropCommas noiseBlanks after s) = some (raw, rest)) :
    num.isHeader raw = true ∧ ∃ t after', t <:+ s ∧ rest = dropCommas noiseBlanks after' t := by
  obtain ⟨s', suffix, same⟩ := dropCommas_start after s
  rw [same] at decodes
  obtain ⟨w, read, unmarshalled⟩ := num.decode_eq_some.mp decodes
  obtain ⟨p, t, v, after', rfl, rfl, inner, alike⟩ := Reader.of_dropCommas noise_white read
  obtain ⟨raw', unmarshalled', header, _⟩ := num.decodeRaw_alike alike.symm unmarshalled
  have piece : num.decode p = some (raw', []) := num.decode_eq_some.mpr ⟨v, inner, unmarshalled'⟩
  refine ⟨?_, t, after', (List.suffix_append p t).trans suffix, rfl⟩
  rw [← header]
  exact bare p raw' ((List.prefix_append p t).isInfix.trans suffix.isInfix) piece

theorem lastRecord_none {after : Bool} {s : Str} (bare : NoSample num s) (n : Nat) :
    num.lastRecord n (dropCommas noiseBlanks after s) none = none := by
  induction n generalizing s after with
  | zero => rfl
  | succ n ih =>
    rw [Float64.lastRecord]
    cases decodes : num.decode (dropCommas noiseBlanks after s) with
    | none => rfl
    | some next =>
      obtain ⟨raw, rest⟩ := next
      obtain ⟨header, t, after', within, rfl⟩ := bare.decode decodes
      dsimp only
      rw [if_pos header]
      exact ih fun piece raw there => bare piece raw (there.trans within.isInfix)

theorem stripped_within (s : Str) : trimSuffix (trimPrefix (trimSpace s) '[') ']' <:+: s := by
  have front : trimPrefix (trimSpace s) '[' <:+ trimSpace s := by
    unfold trimPrefix
    split_ifs
    · exact List.tail_suffix _
    · exact List.suffix_rfl
  have space : trimSpace s <:+: s := (List.rdropWhile_prefix _ _).isInfix.trans (List.dropWhile_suffix _).isInfix
  exact (trimSuffix_starts _ ']').isInfix.trans (front.isInfix.trans space)

theorem newest_none {samples : List (Sample num)} : newest samples = none ↔ ∀ s ∈ samples, s.isHeader = true := by
  simp only [newest, Option.map_eq_none_iff, List.getLast?_eq_none_iff, List.filter_eq_nil_iff, Bool.not_eq_true',
    Bool.not_eq_false]

theorem newest_available {samples : List (Sample num)} {g : GpuStats F} (found : newest samples = some g) :
    g.available = true := by
  obtain ⟨s, _, rfl⟩ := Option.map_eq_some_iff.mp found
  rfl

theorem Body.reached_subset {layout : Layout} {after : Bool} (body : Body num layout after) :
    ∀ s ∈ body.reached, s ∈ body.samples := by
  induction body with
  | ended pre post blank blank' => exact nofun
  | cut gap separates s part rest parts more => exact nofun
  | sample gap separates s more ih =>
    intro s' member
    rw [reached] at member
    split_ifs at member
    · rcases List.mem_cons.mp member with rfl | later
      · exact List.mem_cons_self
      · exact List.mem_cons_of_mem s (ih s' later)
    · cases member

section Poll
variable {getenv : Str} {readFile : Str → Except Str Str} {lastGoodGPU : GpuStats F}

theorem pollGPU_found {text : Str} (reads : readFile (statsPath getenv) = .ok text) {g : GpuStats F}
    (found : (num.lastRecord (stripJSONNoise text).length (stripJSONNoise text) none).map num.stats = some g) :
    (pollGPU num getenv readFile lastGoodGPU).1 = g := by
  obtain ⟨last, last', rfl⟩ := Option.map_eq_some_iff.mp found
  simp only [pollGPU, reads, last']

theorem pollGPU_cached (nothing : ∀ text, readFile (statsPath getenv) = .ok text →
      num.lastRecord (stripJSONNoise text).length (stripJSONNoise text) none = none)
    (cached : lastGoodGPU.available = true) : (pollGPU num getenv readFile lastGoodGPU).1 = lastGoodGPU := by
  cases reads : readFile (statsPath getenv) with
  | error err => simp only [pollGPU, reads, if_pos cached]
  | ok text => simp only [pollGPU, reads, nothing text reads, if_pos cached]

theorem pollGPU_failed (nothing : ∀ text, readFile (statsPath getenv) = .ok text →
      num.lastRecord (stripJSONNoise text).length (stripJSONNoise text) none = none)
    (missing : ¬ lastGoodGPU.available = true) : (pollGPU num getenv readFile lastGoodGPU).1.available = false := by
  cases reads : readFile (statsPath getenv) with
  | error err => simp only [pollGPU, reads, if_neg missing, Float64.failed]
  | ok text => simp only [pollGPU, reads, nothing text reads, if_neg missing, Float64.failed]

theorem Barren.lastRecord {text : Str} (barren : Barren num text) :
    num.lastRecord (stripJSONNoise text).length (stripJSONNoise text) none = none := by
  rcases barren with bare | ⟨file, rfl, headers⟩
  · rw [stripJSONNoise_eq]
    exact lastRecord_none (fun piece raw there => bare piece raw (there.trans (stripped_within text))) _
  · have none' : newest file.body.reached = none :=
      newest_none.mpr fun s member => newest_none.mp headers s (file.body.reached_subset s member)
    rw [← lastRecord_file, Option.map_eq_none_iff] at none'
    exact none'

theorem shows_of_returns {file : File num} (reads : readFile (statsPath getenv) = .ok file.text) {g : GpuStats F}
    (found : newest file.body.samples = some g) (returns : (pollGPU num getenv readFile lastGoodGPU).1 = g) :
    file.Shows lastGoodGPU := by
  have loop := lastRecord_file file
  cases reached : newest file.body.reached with
  | some g' =>
    rw [reached] at loop
    rw [pollGPU_found reads loop] at returns
    exact .inl (by rw [reached, found, returns])
  | none =>
    rw [reached, Option.map_eq_none_iff] at loop
    have nothing : ∀ text, readFile (statsPath getenv) = .ok text →
        num.lastRecord (stripJSONNoise text).length (stripJSONNoise text) none = none := by
      intro text reads'
      rw [reads] at reads'
      cases reads'
      exact loop
    by_cases cached : lastGoodGPU.available = true
    · rw [pollGPU_cached nothing cached] at returns
      exact .inr ⟨reached, cached, by rw [found, returns]⟩
    · have failed := pollGPU_failed nothing cached
      rw [returns, newest_available found] at failed
      cases failed

theorem returns_of_shows {file : File num} (reads : readFile (statsPath getenv) = .ok file.text) {g : GpuStats F}
    (found : newest file.body.samples = some g) (showing : file.Shows lastGoodGPU) :
    (pollGPU num getenv readFile lastGoodGPU).1 = g := by
  have loop := lastRecord_file file
  rcases showing with same | ⟨reached, cached, cache⟩
  · exact pollGPU_found reads (loop.trans (same.trans found))
  · rw [reached, Option.map_eq_none_iff] at loop
    rw [found, Option.some.injEq] at cache
    rw [cache]
    refine pollGPU_cached (fun text reads' => ?_) cached
    rw [reads] at reads'
    cases reads'
    exact loop

end Poll

/-- A poll returns what it should exactly when the newest sample that is reached shows it. -/
theorem newest_returned_iff (num : Float64 F) (getenv : Str) (readFile : Str → Except Str Str)
    (lastGoodGPU : GpuStats F) :
    ReturnsNewest num getenv readFile lastGoodGPU ↔
      ∀ file : File num, readFile (statsPath getenv) = .ok file.text → newest file.body.samples ≠ none →
        file.Shows lastGoodGPU := by
  refine ⟨?_, fun showing => ⟨?_, ?_⟩⟩
  · rintro ⟨returns, _⟩ file reads some'
    obtain ⟨g, found⟩ := Option.ne_none_iff_exists'.mp some'
    exact shows_of_returns reads found (returns file reads g found)
  · intro file reads g found
    have some' : newest file.body.samples ≠ none := by
      rw [found]
      exact Option.some_ne_none g
    exact returns_of_shows reads found (showing file reads some')
  · intro barren cached
    exact pollGPU_cached (fun text reads => (barren text reads).lastRecord) cached

namespace Demo

def ints : Float64 Int := { zero := 0, isZero := fun x => x == 0, parse := scanInt }

def sample (watts : Char) (x : Int)
    (decodes : ints.decode ('{' :: "\"power\": \x7b\"GPU\": ".toList ++ [watts, '}'] ++ ['}']) =
      some ({ frequencyActual := 0, engines := [], powerGPU := x, rc6Value := 0 }, [])) : Sample ints where
  body := "\"power\": \x7b\"GPU\": ".toList ++ [watts, '}']
  raw := { frequencyActual := 0, engines := [], powerGPU := x, rc6Value := 0 }
  decodes := decodes

def older : Sample ints := sample '1' 1 (by decide)

def newer : Sample ints := sample '2' 2 (by decide)

theorem indent_blank : ∀ c ∈ ['\n', '\t'], Json.isSpace c = true := List.all_eq_true.mp rfl

def indented : File ints where
  layout := .array
  lead := []
  blank := nofun
  body := .sample ['\n', '\t'] indent_blank older
    (.sample [',', '\n', '\t'] ⟨[], ['\n', '\t'], nofun, indent_blank, rfl⟩ newer
      (.ended ['\n'] [] (List.all_eq_true.mp rfl) nofun))

end Demo

theorem indented_sample_is_missed :
    ¬ ∀ (F : Type) (num : Float64 F) (getenv : Str) (readFile : Str → Except Str Str) (lastGoodGPU : GpuStats F),
      ReturnsNewest num getenv readFile lastGoodGPU := by
  intro returns
  have wrong := (returns Int Demo.ints [] (fun _ => .ok Demo.indented.text) (Demo.ints.failed [])).1 Demo.indented rfl
    (Demo.ints.stats Demo.newer.raw) rfl
  revert wrong
  decide

end HomelabDaemon.Gpu
