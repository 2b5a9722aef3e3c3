import HomelabDaemon.Bcachefs.Superblock
import HomelabDaemon.Strings.Words
import HomelabDaemon.Strings
import HomelabDaemon.Strings.Digits
import Mathlib.Data.List.Nodup

/-!
# Reading a superblock back

A superblock, the text that shows it, and when the text is read back as the superblock. A key is
looked for anywhere on a line, and `data_replicas:` stands on the `metadata_replicas:` line too.
-/

namespace HomelabDaemon.Bcachefs
open Strings

structure Token where
  text : Str
  word : IsWord text
  unmarked : ':' ∉ text

structure Device where
  index : Token
  path : Token
  model : Token
  label : Token

def Device.parsed (d : Device) : ParsedDevice :=
  { index := d.index.text, path := d.path.text, model := d.model.text, label := labelOf d.label.text }

/-- A label that is `(none)` is no label. -/
structure Superblock where
  uuid : Token
  label : Token
  dataReplicas : Option Int64
  metadataReplicas : Option Int64
  foregroundTarget : Option Token
  metadataTarget : Option Token
  backgroundTarget : Option Token
  devices : List Device

inductive Key where
  | uuid | label | dataReplicas | metadataReplicas | foregroundTarget | metadataTarget | backgroundTarget
  deriving DecidableEq

def Key.name : Key → Str
  | uuid => "External UUID".toList
  | label => "Label".toList
  | dataReplicas => "data_replicas".toList
  | metadataReplicas => "metadata_replicas".toList
  | foregroundTarget => "foreground_target".toList
  | metadataTarget => "metadata_target".toList
  | backgroundTarget => "background_target".toList

def decimal (n : Int64) : Str := (toString n.toInt).toList

namespace Superblock

/-- The value that is shown for the key. -/
def value (r : Superblock) : Key → Option Str
  | .uuid => some r.uuid.text
  | .label => some r.label.text
  | .dataReplicas => r.dataReplicas.map decimal
  | .metadataReplicas => r.metadataReplicas.map decimal
  | .foregroundTarget => r.foregroundTarget.map (·.text)
  | .metadataTarget => r.metadataTarget.map (·.text)
  | .backgroundTarget => r.backgroundTarget.map (·.text)

/-- The record that a reader should get. -/
def parsed (r : Superblock) : ParsedSuper where
  uuid := r.uuid.text
  label := labelOf r.label.text
  dataReplicas := (r.dataReplicas.map Int64.toInt).getD 0
  metadataReplicas := (r.metadataReplicas.map Int64.toInt).getD 0
  foregroundTarget := (r.foregroundTarget.map Token.text).getD []
  metadataTarget := (r.metadataTarget.map Token.text).getD []
  backgroundTarget := (r.backgroundTarget.map Token.text).getD []
  devices := r.devices.map (·.parsed)

end Superblock

def spaces (n : Nat) : Str := List.replicate n ' '

/-- A line `key: value`. -/
structure Entry where
  key : Key
  value : Str
  indent : Nat
  pad : Nat

def Entry.line (e : Entry) : Str := spaces e.indent ++ e.key.name ++ ':' :: (spaces e.pad ++ e.value)

/-- The lines of a device: `Device N: path model`, then its label. -/
structure Section where
  device : Device
  indent : Nat
  pad : Nat
  gap : Nat
  labelIndent : Nat
  labelPad : Nat

namespace Section

def members (s : Section) : Str := spaces s.pad ++ (s.device.path.text ++ spaces (s.gap + 1) ++ s.device.model.text)

def title (s : Section) : Str := spaces s.indent ++ ("Device ".toList ++ (s.device.index.text ++ ':' :: s.members))

def label (s : Section) : Entry := ⟨.label, s.device.label.text, s.labelIndent, s.labelPad⟩

def lines (s : Section) : List Str := [s.title, s.label.line]

end Section

/-- A text that shows the superblock, with the lines of the header in any order. -/
structure Rendering (r : Superblock) where
  header : List Entry
  once : (header.map (·.key)).Nodup
  shows : ∀ e ∈ header, r.value e.key = some e.value
  complete : ∀ key, (r.value key).isSome = true → key ∈ header.map (·.key)
  sections : List Section
  devices : sections.map (·.device) = r.devices

def Rendering.text {r : Superblock} (p : Rendering r) : Str :=
  (p.header.map (·.line) ++ p.sections.flatMap (·.lines)).flatMap (· ++ ['\n'])

/-! ### Marks and gaps on a line -/

theorem spaces_blank (n : Nat) : Blank (spaces n) := Blank.replicate n

theorem not_mem_spaces {c : Char} (other : c ≠ ' ') (n : Nat) : c ∉ spaces n :=
  fun member => other (List.eq_of_mem_replicate member)

theorem Key.name_unmarked (key : Key) : ':' ∉ key.name := by
  cases key <;> decide

/-- Only `data_replicas` ends another key. -/
theorem Key.suffix_iff (key other : Key) :
    other.name <:+ key.name ↔ other = key ∨ (other = .dataReplicas ∧ key = .metadataReplicas) := by
  cases key <;> cases other <;> decide

theorem Key.suffix_spaces (key : Key) (n : Nat) (s : Str) : key.name <:+ spaces n ++ s ↔ key.name <:+ s := by
  have starts : ∃ c rest, key.name = c :: rest ∧ c ≠ ' ' := by
    cases key <;> exact ⟨_, _, rfl, by decide⟩
  obtain ⟨c, rest, name, other⟩ := starts
  rw [name]
  exact suffix_indent n other s

/-- The characters of a text without the ends of words that end with `e`. -/
def Gapless (s : Str) : Prop := s.IsChain fun a b => b = ' ' → a ≠ 'e'

instance (s : Str) : Decidable (Gapless s) := inferInstanceAs (Decidable (s.IsChain _))

theorem Gapless.no_device {s : Str} (h : Gapless s) : cut "Device ".toList s = none := by
  refine cut_eq_none fun inside => ?_
  have chain := h.infix inside
  revert chain
  decide

theorem Gapless.indent {s : Str} (h : Gapless s) (n : Nat) : Gapless (spaces n ++ s) := by
  induction n with
  | zero => exact h
  | succ n ih => exact List.isChain_cons.mpr ⟨fun c _ _ => by decide, ih⟩

theorem gapless_word {s : Str} (word : IsWord s) : Gapless s := by
  refine (List.pairwise_of_forall_mem_list ?_).isChain
  rintro a _ b member rfl
  cases word.solid ' ' member

theorem Key.gapless (key : Key) {s : Str} (h : Gapless s) : Gapless (key.name ++ ':' :: s) := by
  have name : Gapless (key.name ++ [':']) := by cases key <;> decide
  rw [← List.singleton_append, ← List.append_assoc]
  refine List.isChain_append.mpr ⟨name, h, fun a last b _ _ => ?_⟩
  obtain rfl : ':' = a := by simpa using last
  decide

theorem wordAfter_mark {name before after : Str} (fresh : ':' ∉ before) (last : ':' ∉ after) :
    wordAfter (name ++ [':']) (before ++ ':' :: after) = if name <:+ before then (fields after).head? else none := by
  have parts : (cut (name ++ [':']) (before ++ ':' :: after)).map (·.2) = if name <:+ before then some after
    else none :=
    cut_mark fresh last
  unfold wordAfter
  split
  · rename_i rest found
    rw [found] at parts
    split at parts
    · rename_i ends
      obtain rfl : rest = after := Option.some.inj parts
      rw [if_pos ends, fields_trimSpace]
    · cases parts
  · rename_i missed
    rw [missed] at parts
    split at parts
    · cases parts
    · rename_i other
      rw [if_neg other]

theorem fields_spaces {w : Str} (word : IsWord w) (n : Nat) : fields (spaces n ++ w) = [w] := by
  rw [fields_blank (spaces_blank n), fields_word word]

namespace Entry
variable {e : Entry}

theorem wordAfter_line (word : IsWord e.value) (unmarked : ':' ∉ e.value) (key : Key) :
    wordAfter (key.name ++ [':']) e.line =
      if key = e.key ∨ (key = .dataReplicas ∧ e.key = .metadataReplicas) then some e.value else none := by
  unfold line
  rw [wordAfter_mark, fields_spaces word]
  · simp only [Key.suffix_spaces, Key.suffix_iff]
    rfl
  · simp [not_mem_spaces, Key.name_unmarked]
  · simp [not_mem_spaces, unmarked]

theorem no_device (word : IsWord e.value) : cut "Device ".toList e.line = none := by
  have gapless : Gapless e.line := by
    unfold line
    rw [List.append_assoc]
    exact (Key.gapless e.key ((gapless_word word).indent e.pad)).indent e.indent
  exact gapless.no_device

theorem parseDevice_line (word : IsWord e.value) : parseDevice e.line = none := by
  unfold parseDevice
  rw [no_device word]
  exact ite_self _

/-- What the line makes of the header. -/
def apply (e : Entry) (super : ParsedSuper) : ParsedSuper where
  uuid := if e.key = .uuid then e.value else super.uuid
  label := if e.key = .label then labelOf e.value else super.label
  dataReplicas := if e.key = .dataReplicas ∨ e.key = .metadataReplicas then (scanInt e.value).getD super.dataReplicas
    else super.dataReplicas
  metadataReplicas := if e.key = .metadataReplicas then (scanInt e.value).getD super.metadataReplicas
    else super.metadataReplicas
  foregroundTarget := if e.key = .foregroundTarget then e.value else super.foregroundTarget
  metadataTarget := if e.key = .metadataTarget then e.value else super.metadataTarget
  backgroundTarget := if e.key = .backgroundTarget then e.value else super.backgroundTarget
  devices := super.devices

theorem parseField_eq (line : Str) (super : ParsedSuper) : parseField line super =
    { uuid := (wordAfter (Key.uuid.name ++ [':']) line).getD super.uuid
      label := if contains line "Device ".toList then super.label
        else ((wordAfter (Key.label.name ++ [':']) line).map labelOf).getD super.label
      dataReplicas := numberAfter (Key.dataReplicas.name ++ [':']) line super.dataReplicas
      metadataReplicas := numberAfter (Key.metadataReplicas.name ++ [':']) line super.metadataReplicas
      foregroundTarget := (wordAfter (Key.foregroundTarget.name ++ [':']) line).getD super.foregroundTarget
      metadataTarget := (wordAfter (Key.metadataTarget.name ++ [':']) line).getD super.metadataTarget
      backgroundTarget := (wordAfter (Key.backgroundTarget.name ++ [':']) line).getD super.backgroundTarget
      devices := super.devices } := rfl

theorem parseField_line (word : IsWord e.value) (unmarked : ':' ∉ e.value) (super : ParsedSuper) :
    parseField e.line super = e.apply super := by
  have noDevice : contains e.line "Device ".toList = false := by
    unfold contains
    rw [no_device word]
    rfl
  rw [parseField_eq, noDevice]
  simp only [numberAfter, wordAfter_line word unmarked]
  unfold apply
  cases e.key <;> simp

theorem unbroken (word : IsWord e.value) : '\n' ∉ e.line := by
  have name : '\n' ∉ e.key.name := by cases e.key <;> decide
  simp [line, not_mem_spaces, name, word.unbroken]

end Entry

/-! ### The lines of a device -/

theorem modify_last {α : Type} (xs : List α) (x : α) (f : α → α) :
    (xs ++ [x]).modify ((xs ++ [x]).length - 1) f = xs ++ [f x] := by
  rw [List.length_append, List.length_singleton, Nat.add_sub_cancel]
  induction xs with
  | nil => rfl
  | cons y xs ih => exact congrArg (y :: ·) ih

section ParseLine
variable {super : ParsedSuper} {line : Str} {dev : ParsedDevice} {before : List ParsedDevice}

theorem parseLine_above (none : parseDevice line = none) (top : super.devices = []) :
    parseLine super line = parseField line super := by
  simp [parseLine, none, top]

theorem parseLine_starts (starts : parseDevice line = some dev) :
    parseLine super line = { super with devices := super.devices ++ [parseDeviceField line dev] } := by
  simp only [parseLine, starts, Option.toList_some, modify_last]
  rw [if_neg (by simp)]

theorem parseLine_below (none : parseDevice line = none) (below : super.devices = before ++ [dev]) :
    parseLine super line = { super with devices := before ++ [parseDeviceField line dev] } := by
  simp only [parseLine, none, Option.toList_none, List.append_nil, below, modify_last]
  rw [if_neg (by simp)]

theorem parseLine_length : (parseLine super line).devices.length = super.devices.length +
    (parseDevice line).toList.length := by
  unfold parseLine
  dsimp only
  split
  · rename_i empty
    obtain ⟨top, none⟩ := List.append_eq_nil_iff.mp empty
    have same : (parseField line super).devices = super.devices := rfl
    rw [same, none, List.length_nil, Nat.add_zero]
  · rw [List.length_modify, List.length_append]

theorem parseLine_nil : parseLine super [] = super := by
  have none : parseDevice [] = none := rfl
  rcases List.eq_nil_or_concat' super.devices with top | ⟨before, dev, below⟩
  · rw [parseLine_above none top]
    rfl
  · rw [parseLine_below none below, show parseDeviceField [] dev = dev from rfl, ← below]

end ParseLine

namespace Section
variable (s : Section)

theorem members_fields : fields s.members = [s.device.path.text, s.device.model.text] := by
  unfold members
  rw [fields_blank (spaces_blank _), fields_word_blank s.device.path.word (spaces_blank _) (by simp [spaces]),
    fields_word s.device.model.word]

theorem members_unmarked : ':' ∉ s.members := by
  simp [members, not_mem_spaces, s.device.path.unmarked, s.device.model.unmarked]

/-- What stands before the colon. -/
def number : Str := spaces s.indent ++ "Device".toList ++ ' ' :: s.device.index.text

theorem number_unmarked : ':' ∉ s.number := by
  have own : ':' ∉ "Device".toList := by decide
  have other : ':' ∉ spaces s.indent := not_mem_spaces (by decide) _
  unfold number
  rw [List.mem_append, List.mem_append, List.mem_cons]
  rintro ((member | member) | (eq | member))
  · exact other member
  · exact own member
  · cases eq
  · exact s.device.index.unmarked member

theorem title_number : s.title = s.number ++ ':' :: s.members := by
  unfold title number
  rw [show "Device ".toList = "Device".toList ++ [' '] from rfl]
  simp only [List.append_assoc, List.cons_append, List.nil_append]

theorem title_unbroken : '\n' ∉ s.title := by
  have own : '\n' ∉ "Device".toList := by decide
  have other : ∀ n, '\n' ∉ spaces n := not_mem_spaces (by decide)
  rw [title_number]
  simp only [number, members, List.mem_append, List.mem_cons, own, other, s.device.index.word.unbroken,
    s.device.path.word.unbroken, s.device.model.word.unbroken, or_false, false_or]
  decide

theorem number_suffix : "Device index".toList <:+ s.number ↔ s.device.index.text = "index".toList := by
  constructor
  · rintro ⟨rest, same⟩
    have split : (rest ++ "Device".toList) ++ ' ' :: "index".toList =
        spaces s.indent ++ "Device".toList ++ ' ' :: s.device.index.text := by
      rw [List.append_assoc]
      exact same
    exact (last_inj (by decide) (fun member => nomatch s.device.index.word.solid ' ' member) split).symm
  · intro named
    unfold number
    rw [named, List.append_assoc]
    exact List.suffix_append _ _

theorem title_index : contains s.title "Device index:".toList = decide (s.device.index.text = "index".toList) := by
  have parts : (cut ("Device index".toList ++ [':']) (s.number ++ ':' :: s.members)).map (·.2) =
      if "Device index".toList <:+ s.number then some s.members else none :=
    cut_mark s.number_unmarked s.members_unmarked
  have same : "Device index:".toList = "Device index".toList ++ [':'] := rfl
  unfold contains
  rw [same, title_number, ← Option.isSome_map (f := (·.2)), parts]
  simp only [number_suffix]
  by_cases named : s.device.index.text = "index".toList
  · rw [if_pos named, decide_eq_true named]
    rfl
  · rw [if_neg named, decide_eq_false named]
    rfl

theorem parseDevice_title : parseDevice s.title = if s.device.index.text = "index".toList then none else
    some { index := s.device.index.text, path := s.device.path.text, model := s.device.model.text } := by
  have device : cut "Device ".toList s.title = some (spaces s.indent, s.device.index.text ++ ':' :: s.members) := by
    have start : cut "Device ".toList ("Device ".toList ++ (s.device.index.text ++ ':' :: s.members)) = some ([], _) :=
      cut_start 'D' "evice ".toList _
    have moved : cut "Device ".toList s.title =
      (cut "Device ".toList ("Device ".toList ++ (s.device.index.text ++ ':' :: s.members))).map
        fun parts => (spaces s.indent ++ parts.1, parts.2) :=
      cut_indent s.indent (by decide) _
    rw [moved, start]
    exact congrArg some (Prod.ext (List.append_nil _) rfl)
  have index : cut ":".toList (s.device.index.text ++ ':' :: s.members) = some (s.device.index.text, s.members) :=
    cut_single s.device.index.unmarked
  have marked : contains s.title ":".toList = true :=
    contains_iff.mpr ⟨s.number, s.members, by rw [title_number]; exact List.append_assoc _ _ _⟩
  unfold parseDevice
  rw [title_index, marked, device]
  dsimp only
  rw [index]
  dsimp only
  rw [members_fields, trimSpace_word s.device.index.word]
  by_cases named : s.device.index.text = "index".toList
  · rw [if_pos named, decide_eq_true named]
    rfl
  · rw [if_neg named, decide_eq_false named]
    rfl

theorem parseDeviceField_label (dev : ParsedDevice) :
    parseDeviceField s.label.line dev = { dev with label := labelOf s.device.label.text } := by
  have word : wordAfter "Label:".toList s.label.line = some s.device.label.text :=
    (Entry.wordAfter_line (e := s.label) s.device.label.word s.device.label.unmarked .label).trans (by simp [label])
  unfold parseDeviceField
  rw [word]

theorem parseDevice_label : parseDevice s.label.line = none := Entry.parseDevice_line s.device.label.word

/-- The device line's own fields stay, whatever the lines below say. -/
theorem parseDeviceField_relabel (line : Str) (dev : ParsedDevice) (text : Str) :
    { parseDeviceField line dev with label := text } = { dev with label := text } := by
  unfold parseDeviceField
  split <;> rfl

theorem parse_lines (named : s.device.index.text ≠ "index".toList) (super : ParsedSuper) :
    s.lines.foldl parseLine super = { super with devices := super.devices ++ [s.device.parsed] } := by
  have starts := s.parseDevice_title
  rw [if_neg named] at starts
  rw [lines, List.foldl_cons, List.foldl_cons, List.foldl_nil, parseLine_starts starts,
    parseLine_below s.parseDevice_label rfl, parseDeviceField_label, parseDeviceField_relabel]
  rfl

theorem parse_length (super : ParsedSuper) : (s.lines.foldl parseLine super).devices.length =
    super.devices.length + if s.device.index.text = "index".toList then 0 else 1 := by
  rw [lines, List.foldl_cons, List.foldl_cons, List.foldl_nil, parseLine_length, parseLine_length, parseDevice_label,
    parseDevice_title]
  split <;> rfl

end Section

theorem parse_sections {sections : List Section} (named : ∀ s ∈ sections, s.device.index.text ≠ "index".toList)
    (super : ParsedSuper) : (sections.flatMap (·.lines)).foldl parseLine super =
      { super with devices := super.devices ++ sections.map (·.device.parsed) } := by
  induction sections generalizing super with
  | nil => simp
  | cons s sections ih =>
    rw [List.flatMap_cons, List.foldl_append, s.parse_lines (named s List.mem_cons_self),
      ih fun t member => named t (List.mem_cons_of_mem s member)]
    simp

/-- A line that names its index `index` starts no device. -/
theorem sections_length (sections : List Section) (super : ParsedSuper) :
    ((sections.flatMap (·.lines)).foldl parseLine super).devices.length =
      super.devices.length + sections.countP fun s => decide (s.device.index.text ≠ "index".toList) := by
  induction sections generalizing super with
  | nil => rfl
  | cons s sections ih =>
    rw [List.flatMap_cons, List.foldl_append, ih, s.parse_length, List.countP_cons]
    by_cases named : s.device.index.text = "index".toList
    · rw [if_pos named, decide_eq_false (not_not.mpr named)]
      rfl
    · rw [if_neg named, if_pos (decide_eq_true named)]
      omega

/-! ### The header -/

/-- The last step that writes a part of the state decides what a fold leaves there. -/
theorem foldl_last {σ ε β : Type} {step : σ → ε → σ} (get : σ → β) (writes : ε → Option β)
    (each : ∀ s e, get (step s e) = (writes e).getD (get s)) (es : List ε) (s : σ) :
    get (es.foldl step s) = (es.reverse.findSome? writes).getD (get s) := by
  induction es using List.reverseRecOn with
  | nil => rfl
  | append_singleton es e ih =>
    rw [List.foldl_append, List.foldl_cons, List.foldl_nil, each, List.reverse_append, List.reverse_singleton,
      List.singleton_append, List.findSome?_cons, ih]
    cases writes e <;> rfl

theorem word_decimal (n : Int64) : IsWord (decimal n) ∧ ':' ∉ decimal n := by
  refine ⟨word_toString _, fun member => ?_⟩
  unfold decimal at member
  obtain ⟨m, ⟨digits, _⟩ | ⟨digits, _⟩⟩ := toString_cases n.toInt
  · rw [digits] at member
    cases toDigits_digits m ':' member
  · rw [digits] at member
    rcases List.mem_cons.mp member with eq | member
    · cases eq
    · cases toDigits_digits m ':' member

theorem scanInt_decimal (n : Int64) : scanInt (decimal n) = some n.toInt := scanInt_toString n.le_toInt n.toInt_lt

theorem Superblock.value_word {r : Superblock} {key : Key} {value : Str} (shown : r.value key = some value) :
    IsWord value ∧ ':' ∉ value := by
  have token : ∀ {t : Token}, t.text = value → IsWord value ∧ ':' ∉ value := by
    rintro t rfl
    exact ⟨t.word, t.unmarked⟩
  cases key with
  | uuid | label => exact token (Option.some.inj shown)
  | dataReplicas | metadataReplicas =>
    obtain ⟨n, _, rfl⟩ := Option.map_eq_some_iff.mp shown
    exact word_decimal n
  | foregroundTarget | metadataTarget | backgroundTarget =>
    obtain ⟨t, _, same⟩ := Option.map_eq_some_iff.mp shown
    exact token same

theorem parse_entries {es : List Entry} (words : ∀ e ∈ es, IsWord e.value ∧ ':' ∉ e.value) {super : ParsedSuper}
    (top : super.devices = []) : (es.map (·.line)).foldl parseLine super =
    es.foldl (fun super e => e.apply super) super := by
  induction es generalizing super with
  | nil => rfl
  | cons e es ih =>
    obtain ⟨word, unmarked⟩ := words e List.mem_cons_self
    rw [List.map_cons, List.foldl_cons, List.foldl_cons, parseLine_above (Entry.parseDevice_line word) top,
      Entry.parseField_line word unmarked]
    exact ih (fun e member => words e (List.mem_cons_of_mem _ member)) top

namespace Rendering
variable {r : Superblock} (p : Rendering r)

/-- A line of a key shows the record's value, and there is one if the record has a value. -/
theorem findSome_key {β : Type} (key : Key) (conv : Str → Option β) :
    p.header.reverse.findSome? (fun e => if e.key = key then conv e.value else none) = (r.value key).bind conv := by
  cases value : r.value key with
  | none =>
    refine List.findSome?_eq_none_iff.mpr fun e member => if_neg ?_
    rintro rfl
    have shown := p.shows e (List.mem_reverse.mp member)
    rw [value] at shown
    cases shown
  | some text =>
    have own : ∀ e ∈ p.header.reverse, e.key = key → e.value = text := by
      rintro e member rfl
      have shown := p.shows e (List.mem_reverse.mp member)
      rw [value] at shown
      exact (Option.some.inj shown).symm
    obtain ⟨e, member, named⟩ := List.mem_map.mp (p.complete key (by simp [value]))
    have member := List.mem_reverse.mpr member
    cases found : p.header.reverse.findSome? (fun e => if e.key = key then conv e.value else none) with
    | none =>
      have off := List.findSome?_eq_none_iff.mp found e member
      rw [if_pos named, own e member named] at off
      exact off.symm
    | some x =>
      obtain ⟨e', member', written⟩ := List.exists_of_findSome?_eq_some found
      split at written
      · rename_i same
        rw [own e' member' same] at written
        exact written.symm
      · cases written

/-- What the header's lines leave. -/
def read : ParsedSuper := p.header.foldl (fun super e => e.apply super) {}

theorem read_field {β : Type} (get : ParsedSuper → β) (key : Key) (conv : Str → Option β)
    (each : ∀ (super : ParsedSuper) (e : Entry),
      get (e.apply super) = if e.key = key then (conv e.value).getD (get super) else get super) :
    get p.read = ((r.value key).bind conv).getD (get {}) := by
  rw [← p.findSome_key]
  refine foldl_last get _ (fun super e => ?_) p.header {}
  rw [each]
  split <;> rfl

/-- The last line that holds a `data_replicas:`. -/
def dataRead : Int := (p.header.reverse.findSome? fun e =>
  if e.key = .dataReplicas ∨ e.key = .metadataReplicas then scanInt e.value else none).getD 0

theorem read_data : p.read.dataReplicas = p.dataRead := by
  refine foldl_last ParsedSuper.dataReplicas _ (fun super e => ?_) p.header {}
  unfold Entry.apply
  dsimp only
  split <;> rfl

theorem read_devices : p.read.devices = [] := by
  have kept := foldl_last ParsedSuper.devices (fun _ => none) (fun super (e : Entry) => show (e.apply super).devices =
    _ from rfl) p.header {}
  have none : p.header.reverse.findSome? (fun _ => (none : Option (List ParsedDevice))) = none :=
    List.findSome?_eq_none_iff.mpr fun _ _ => rfl
  rw [none] at kept
  exact kept

theorem read_eq : p.read = { r.parsed with dataReplicas := p.dataRead, devices := [] } := by
  have uuid := p.read_field ParsedSuper.uuid .uuid some fun _ _ => rfl
  have label := p.read_field ParsedSuper.label .label (some ∘ labelOf) fun _ _ => rfl
  have metadata := p.read_field ParsedSuper.metadataReplicas .metadataReplicas scanInt fun _ _ => rfl
  have foreground := p.read_field ParsedSuper.foregroundTarget .foregroundTarget some fun _ _ => rfl
  have target := p.read_field ParsedSuper.metadataTarget .metadataTarget some fun _ _ => rfl
  have background := p.read_field ParsedSuper.backgroundTarget .backgroundTarget some fun _ _ => rfl
  have data := p.read_data
  have devices := p.read_devices
  have numbers : (r.value .metadataReplicas).bind scanInt = r.metadataReplicas.map Int64.toInt := by
    cases shown : r.metadataReplicas with
    | none => simp [Superblock.value, shown]
    | some n => simp [Superblock.value, shown, scanInt_decimal]
  rw [numbers] at metadata
  rw [Option.bind_fun_some] at foreground target background
  cases read : p.read with
  | mk =>
    rw [read] at uuid label metadata foreground target background data devices
    subst uuid label metadata foreground target background data devices
    rfl

/-- The order and the numbers under which the last such line shows `data_replicas` itself. -/
def DataShown : Prop :=
  r.metadataReplicas = none ∨
  (∃ before after, p.header.map (·.key) = before ++ .metadataReplicas :: after ∧ .dataReplicas ∈ after) ∨
  r.metadataReplicas = some (r.dataReplicas.getD 0)

theorem shows_number {e : Entry} (member : e ∈ p.header) {number : Option Int64}
    (shown : r.value e.key = number.map decimal) : ∃ n, number = some n ∧ scanInt e.value = some n.toInt := by
  rw [p.shows e member] at shown
  obtain ⟨n, given, same⟩ := Option.map_eq_some_iff.mp shown.symm
  exact ⟨n, given, same ▸ scanInt_decimal n⟩

theorem shows_data {e : Entry} (member : e ∈ p.header) (key : e.key = .dataReplicas) :
    ∃ n, r.dataReplicas = some n ∧ scanInt e.value = some n.toInt :=
  p.shows_number member (by rw [key]; rfl)

theorem shows_metadata {e : Entry} (member : e ∈ p.header) (key : e.key = .metadataReplicas) :
    ∃ n, r.metadataReplicas = some n ∧ scanInt e.value = some n.toInt :=
  p.shows_number member (by rw [key]; rfl)

theorem absent {key : Key} (off : ∀ e ∈ p.header, e.key ≠ key) : r.value key = none := by
  by_contra shown
  obtain ⟨e, member, named⟩ := List.mem_map.mp (p.complete key (Option.isSome_iff_ne_none.mpr shown))
  exact off e member named

theorem dataRead_cases :
    (p.dataRead = 0 ∧ ∀ e ∈ p.header, e.key ≠ .dataReplicas ∧ e.key ≠ .metadataReplicas) ∨
    ∃ before e after, p.header = before ++ e :: after ∧ scanInt e.value = some p.dataRead ∧
      (e.key = .dataReplicas ∨ e.key = .metadataReplicas) ∧
      ∀ e' ∈ after, e'.key ≠ .dataReplicas ∧ e'.key ≠ .metadataReplicas := by
  let holds : Entry → Option Int := fun e =>
    if e.key = .dataReplicas ∨ e.key = .metadataReplicas then scanInt e.value else none
  have silent : ∀ e ∈ p.header, holds e = none → e.key ≠ .dataReplicas ∧ e.key ≠ .metadataReplicas := by
    intro e member unread
    constructor
    · intro key
      obtain ⟨n, _, read⟩ := p.shows_data member key
      simp [holds, key, read] at unread
    · intro key
      obtain ⟨n, _, read⟩ := p.shows_metadata member key
      simp [holds, key, read] at unread
  have eq : p.dataRead = (p.header.reverse.findSome? holds).getD 0 := rfl
  cases found : p.header.reverse.findSome? holds with
  | none =>
    rw [found] at eq
    refine .inl ⟨eq, fun e member => silent e member ?_⟩
    exact List.findSome?_eq_none_iff.mp found e (List.mem_reverse.mpr member)
  | some x =>
    rw [found] at eq
    obtain ⟨later, e, earlier, parts, read, unread⟩ := List.findSome?_eq_some_iff.mp found
    have header : p.header = earlier.reverse ++ e :: later.reverse := by
      rw [← p.header.reverse_reverse, parts]
      simp
    have counts : e.key = .dataReplicas ∨ e.key = .metadataReplicas := by
      by_contra other
      simp only [holds, if_neg other] at read
      cases read
    simp only [holds, if_pos counts] at read
    refine .inr ⟨earlier.reverse, e, later.reverse, header, eq ▸ read, counts, fun e' member => ?_⟩
    exact silent e' (by simp [header, member]) (unread e' (List.mem_reverse.mp member))

theorem dataRead_iff : p.dataRead = r.parsed.dataReplicas ↔ p.DataShown := by
  rcases p.dataRead_cases with ⟨zero, silent⟩ | ⟨before, e, after, header, read, counts, silent⟩
  · have data : r.dataReplicas = none := Option.map_eq_none_iff.mp (p.absent fun e member => (silent e member).1)
    have metadata : r.metadataReplicas = none :=
      Option.map_eq_none_iff.mp (p.absent fun e member => (silent e member).2)
    simp [Superblock.parsed, DataShown, data, metadata, zero]
  have member : e ∈ p.header := by simp [header]
  rcases counts with key | key
  -- the data line comes last
  · obtain ⟨n, data, shown⟩ := p.shows_data member key
    have value : n.toInt = p.dataRead := Option.some.inj (shown.symm.trans read)
    refine iff_of_true (by simp [Superblock.parsed, data, value]) ?_
    by_cases given : r.metadataReplicas = none
    · exact .inl given
    refine .inr (.inl ?_)
    have present : Key.metadataReplicas ∈ p.header.map (·.key) :=
      p.complete _ (by simpa [Superblock.value, Option.isSome_iff_ne_none] using given)
    rw [header, List.map_append, List.map_cons, key] at present ⊢
    rcases List.mem_append.mp present with early | late
    · obtain ⟨first, mid, parts⟩ := List.append_of_mem early
      exact ⟨first, mid ++ .dataReplicas :: after.map (·.key), by rw [parts]; simp, by simp⟩
    · rcases List.mem_cons.mp late with same | late
      · cases same
      · obtain ⟨e', below, key'⟩ := List.mem_map.mp late
        exact absurd key' (silent e' below).2
  -- the metadata line comes last
  · obtain ⟨m, metadata, shown⟩ := p.shows_metadata member key
    have value : m.toInt = p.dataRead := Option.some.inj (shown.symm.trans read)
    have once := p.once
    rw [header, List.map_append, List.map_cons, key] at once
    have order : ¬ ∃ before after, p.header.map (·.key) = before ++ .metadataReplicas :: after ∧
      Key.dataReplicas ∈ after := by
      rintro ⟨first, rest, parts, late⟩
      rw [header, List.map_append, List.map_cons, key] at parts
      have fresh := (List.nodup_cons.mp (List.nodup_middle.mp once)).1
      rw [List.mem_append, not_or] at fresh
      obtain ⟨-, -, same⟩ := (List.append_cons_inj_of_notMem fresh.1 fresh.2).mp parts
      rw [← same] at late
      obtain ⟨e', below, key'⟩ := List.mem_map.mp late
      exact (silent e' below).1 key'
    have number : r.parsed.dataReplicas = (r.dataReplicas.getD 0).toInt := by
      cases data : r.dataReplicas <;> simp [Superblock.parsed, data]
    rw [number, ← value, Int64.toInt_inj]
    simp [DataShown, order, metadata]

theorem lines_eq : Strings.lines p.text = p.header.map (·.line) ++ p.sections.flatMap (·.lines) ++ [[]] := by
  have unbroken : ∀ line ∈ p.header.map (·.line) ++ p.sections.flatMap (·.lines), '\n' ∉ line := by
    intro line member
    rcases List.mem_append.mp member with above | below
    · obtain ⟨e, inHeader, rfl⟩ := List.mem_map.mp above
      exact Entry.unbroken (Superblock.value_word (p.shows e inHeader)).1
    · obtain ⟨s, _, member⟩ := List.mem_flatMap.mp below
      rcases List.mem_cons.mp member with rfl | member
      · exact s.title_unbroken
      · obtain rfl := List.mem_singleton.mp member
        exact Entry.unbroken s.device.label.word
  have text := lines_text unbroken []
  rw [List.append_nil] at text
  exact text

theorem parse_header : (p.header.map (·.line)).foldl parseLine {} = p.read :=
  parse_entries (fun e member => Superblock.value_word (p.shows e member)) rfl

theorem parseSuper_eq : parseSuper p.text = (p.sections.flatMap (·.lines)).foldl parseLine p.read := by
  unfold parseSuper
  rw [p.lines_eq, List.foldl_append, List.foldl_append, p.parse_header]
  exact parseLine_nil

theorem parseSuper_text (named : ∀ s ∈ p.sections, s.device.index.text ≠ "index".toList) :
    parseSuper p.text = { r.parsed with dataReplicas := p.dataRead } := by
  have devices : p.sections.map (·.device.parsed) = r.parsed.devices := by
    rw [Superblock.parsed, ← p.devices, List.map_map]
    rfl
  rw [p.parseSuper_eq, parse_sections named, p.read_eq, devices]
  rfl

/-- The text is read back as the superblock if and only if the last line with a `data_replicas:`
shows the number of data replicas and no device is called `index`. -/
theorem parseSuper_iff {r : Superblock} (p : Rendering r) :
    parseSuper p.text = r.parsed ↔ p.DataShown ∧ ∀ d ∈ r.devices, d.index.text ≠ "index".toList := by
  have indices : (∀ d ∈ r.devices, d.index.text ≠ "index".toList) ↔
    ∀ s ∈ p.sections, s.device.index.text ≠ "index".toList := by
    rw [← p.devices, List.forall_mem_map]
  rw [indices, ← p.dataRead_iff]
  constructor
  · intro same
    have named : ∀ s ∈ p.sections, s.device.index.text ≠ "index".toList := by
      have length := sections_length p.sections p.read
      rw [← p.parseSuper_eq, same, p.read_devices] at length
      have all : p.sections.countP (fun s => decide (s.device.index.text ≠ "index".toList)) = p.sections.length := by
        rw [Superblock.parsed, List.length_map, ← p.devices, List.length_map, List.length_nil, Nat.zero_add] at length
        exact length.symm
      exact fun s member => of_decide_eq_true (List.countP_eq_length.mp all s member)
    rw [p.parseSuper_text named] at same
    exact ⟨congrArg ParsedSuper.dataReplicas same, named⟩
  · rintro ⟨shown, named⟩
    rw [p.parseSuper_text named, shown]

end Rendering

/-! ### Two replicas of data, three of metadata -/

def token (s : String) (word : IsWord s.toList) (unmarked : ':' ∉ s.toList) : Token := ⟨s.toList, word, unmarked⟩

def pool : Superblock where
  uuid := token "c0ffee" (by decide) (by decide)
  label := token "(none)" (by decide) (by decide)
  dataReplicas := some 2
  metadataReplicas := some 3
  foregroundTarget := none
  metadataTarget := none
  backgroundTarget := none
  devices := []

def pool.shown : Rendering pool where
  header := [⟨.uuid, "c0ffee".toList, 0, 1⟩, ⟨.label, "(none)".toList, 0, 1⟩, ⟨.dataReplicas, decimal 2, 2, 1⟩,
    ⟨.metadataReplicas, decimal 3, 2, 1⟩]
  once := by decide
  shows := by
    simp only [List.forall_mem_cons]
    exact ⟨rfl, rfl, rfl, rfl, fun _ member => nomatch member⟩
  complete := by
    intro key given
    cases key <;> first | (cases given; done) | simp
  sections := []
  devices := rfl

/-- The number of metadata replicas is read as that of data replicas. -/
theorem metadata_misread : ¬ ∀ (r : Superblock) (p : Rendering r), parseSuper p.text = r.parsed := by
  intro claim
  have same := claim pool pool.shown
  rw [pool.shown.parseSuper_text fun _ member => nomatch member] at same
  have data : pool.shown.dataRead = 2 := congrArg ParsedSuper.dataReplicas same
  revert data
  decide

end HomelabDaemon.Bcachefs
