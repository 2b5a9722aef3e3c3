import HomelabDaemon.Utf8.Fields
import HomelabDaemon.Bcachefs.Pools
import Mathlib.Data.List.Find

/-!
# The mount table

The kernel shows a table of mounts as text, a line for each, and escapes in octal what would
split a field. The daemon splits the lines into words and takes the words as they stand.
-/

namespace HomelabDaemon.Mounts
open Utf8
open Strings (splitOn_flatMap splitOn_text)

abbrev Bytes := List UInt8

/-- The word "bcachefs". -/
def bcachefs : Bytes := [0x62, 0x63, 0x61, 0x63, 0x68, 0x65, 0x66, 0x73]

/-- What a reader of the line finds mounted. -/
def targetOf (line : Bytes) : Option Bytes :=
  match fields line with
  | _ :: target :: _ => some target
  | _ => none

def isMounted (mounts : Except String Bytes) (path : Bytes) : Bool :=
  match mounts with
  | .error _ => false
  | .ok data => (data.splitOn 0x0A).any fun line => targetOf line == some path

def mountOn (devicePath line : Bytes) : Option Bytes :=
  match fields line with
  | devices :: mountpoint :: kind :: _ =>
    if kind = bcachefs ∧ devicePath ∈ devices.splitOn 0x3A then some mountpoint else none
  | _ => none

def findBcachefsMount (mounts : Except String Bytes) (devicePath : Bytes) : Bytes :=
  match mounts with
  | .error _ => []
  | .ok data => ((data.splitOn 0x0A).findSome? (mountOn devicePath)).getD []

/-- Space, tab, newline and backslash are written as `\040`, `\011`, `\012` and `\134`. -/
def escapeByte (b : UInt8) : Bytes :=
  if b = 0x20 then [0x5C, 0x30, 0x34, 0x30]
  else if b = 0x09 then [0x5C, 0x30, 0x31, 0x31]
  else if b = 0x0A then [0x5C, 0x30, 0x31, 0x32]
  else if b = 0x5C then [0x5C, 0x31, 0x33, 0x34]
  else [b]

def escape (bytes : Bytes) : Bytes := bytes.flatMap escapeByte

/-- The device of a bcachefs is the list of its devices with colons between them. -/
structure Mount where
  device : Bytes
  target : Bytes
  fstype : Bytes
  options : Bytes

def Mount.line (m : Mount) : Bytes :=
  escape m.device ++ 0x20 :: (escape m.target ++ 0x20 :: (escape m.fstype ++ 0x20 :: (escape m.options ++
    [0x20, 0x30, 0x20, 0x30])))

def render (table : List Mount) : Bytes := (table.map (·.line)).flatMap (· ++ [0x0A])

/-- The mount is of a pool with the device. -/
def Mount.lists (devicePath : Bytes) (m : Mount) : Bool := m.fstype = bcachefs ∧ devicePath ∈ m.device.splitOn 0x3A

def IsTarget (table : List Mount) (path : Bytes) : Prop := ∃ m ∈ table, m.target = path

/-- The target of the first mount of a pool with the device. -/
def poolTarget (table : List Mount) (devicePath : Bytes) : Bytes :=
  ((table.find? (·.lists devicePath)).map (·.target)).getD []

/-- The text is read as the table. -/
structure Decoded (mounts : Except String Bytes) (table : List Mount) : Prop where
  mounted : ∀ path, isMounted mounts path = true ↔ IsTarget table path
  pool : ∀ devicePath, findBcachefsMount mounts devicePath = poolTarget table devicePath

/-- Two tables with the same answers. -/
structure Agree (table table' : List Mount) : Prop where
  mounted : ∀ path, IsTarget table path ↔ IsTarget table' path
  pool : ∀ devicePath, poolTarget table devicePath = poolTarget table' devicePath

variable {b : UInt8} {x y : Bytes} {m : Mount} {table : List Mount}

def special (b : UInt8) : Bool := b = 0x20 ∨ b = 0x09 ∨ b = 0x0A ∨ b = 0x5C

theorem escapeByte_plain (plain : special b = false) : escapeByte b = [b] := by
  simp only [special, decide_eq_false_iff_not, not_or] at plain
  simp [escapeByte, plain]

theorem escapeByte_special (h : special b = true) : ∃ d, escapeByte b = 0x5C :: d ∧ d.length = 3 ∧ ∀ c ∈ d, 0x30 ≤ c ∧
    c ≤ 0x34 := by
  simp only [special, decide_eq_true_eq] at h
  rcases h with rfl | rfl | rfl | rfl <;> exact ⟨_, rfl, rfl, by simp⟩

theorem escape_plain (plain : ∀ b ∈ x, special b = false) : escape x = x := by
  induction x with
  | nil => rfl
  | cons b x ih =>
    obtain ⟨first, rest⟩ := List.forall_mem_cons.mp plain
    rw [escape, List.flatMap_cons, escapeByte_plain first]
    exact congrArg (b :: ·) (ih rest)

theorem length_escape (x : Bytes) : x.length ≤ (escape x).length := by
  induction x with
  | nil => exact Nat.le_refl _
  | cons b x ih =>
    have one : 1 ≤ (escapeByte b).length := by
      cases h : special b with
      | false => simp [escapeByte_plain h]
      | true =>
        obtain ⟨d, eq, _⟩ := escapeByte_special h
        simp [eq]
    rw [escape, List.flatMap_cons, List.length_append, List.length_cons]
    exact (Nat.add_comm _ _).trans_le (Nat.add_le_add one ih)

/-- An escape leaves a backslash and is longer. -/
theorem escape_special (b : UInt8) (member : b ∈ x) (h : special b = true) :
    0x5C ∈ escape x ∧ x.length < (escape x).length := by
  obtain ⟨u, v, rfl⟩ := List.append_of_mem member
  obtain ⟨d, eq, three, _⟩ := escapeByte_special h
  have parts : escape (u ++ b :: v) = escape u ++ (0x5C :: d ++ escape v) := by
    simp [escape, List.flatMap_append, List.flatMap_cons, eq]
  have left := length_escape u
  have right := length_escape v
  rw [parts]
  refine ⟨by simp, ?_⟩
  simp only [List.length_append, List.length_cons, three]
  omega

theorem escape_eq_iff : escape x = x ↔ ∀ b ∈ x, special b = false := by
  refine ⟨fun same b member => ?_, escape_plain⟩
  by_contra h
  have longer := (escape_special b member (by simpa using h)).2
  rw [same] at longer
  exact Nat.lt_irrefl _ longer

/-- Texts that are closed under escaping have nothing to escape, as each escape is longer. -/
theorem escape_closed {texts : List Bytes} (closed : ∀ x ∈ texts, escape x ∈ texts) : ∀ x ∈ texts, escape x = x := by
  intro x member
  by_contra changed
  have unbounded : ∀ k, ∃ t ∈ texts, escape t ≠ t ∧ k ≤ t.length := by
    intro k
    induction k with
    | zero => exact ⟨x, member, changed, Nat.zero_le _⟩
    | succ k ih =>
      obtain ⟨t, inTexts, changed, long⟩ := ih
      obtain ⟨b, inText, h⟩ : ∃ b ∈ t, special b = true := by
        by_contra plain
        exact changed (escape_plain fun b inText => by simpa using fun h => plain ⟨b, inText, h⟩)
      obtain ⟨backslash, longer⟩ := escape_special b inText h
      refine ⟨escape t, closed t inTexts, fun same => ?_, by omega⟩
      cases escape_eq_iff.mp same _ backslash
  obtain ⟨t, inTexts, _, long⟩ := unbounded (texts.flatten.length + 1)
  have short := (List.sublist_flatten_of_mem inTexts).length_le
  omega

/-! ### Words -/

theorem mem_escape {c : UInt8} (member : c ∈ escape x) :
    c = 0x5C ∨ (0x30 ≤ c ∧ c ≤ 0x34) ∨ (c ∈ x ∧ special c = false) := by
  obtain ⟨b, inText, inCode⟩ := List.mem_flatMap.mp member
  cases h : special b with
  | false =>
    rw [escapeByte_plain h, List.mem_singleton] at inCode
    subst inCode
    exact .inr (.inr ⟨inText, h⟩)
  | true =>
    obtain ⟨d, eq, _, digits⟩ := escapeByte_special h
    rw [eq] at inCode
    rcases List.mem_cons.mp inCode with rfl | inCode
    · exact .inl rfl
    · exact .inr (.inl (digits c inCode))

/-- Neither white space nor a backslash. -/
def Plain (x : Bytes) : Prop := IsWord x ∧ 0x5C ∉ x

theorem plain_iff : Plain x ↔ IsWord x ∧ escape x = x := by
  refine and_congr_right fun word => ?_
  rw [escape_eq_iff]
  constructor
  · intro fresh b member
    have space := word.fresh (b := 0x20) (by decide) (by decide)
    have tab := word.fresh (b := 0x09) (by decide) (by decide)
    have newline := word.fresh (b := 0x0A) (by decide) (by decide)
    simp only [special, decide_eq_false_iff_not]
    rintro (rfl | rfl | rfl | rfl) <;> contradiction
  · intro plain member
    cases plain _ member

theorem special_small (h : special b = true) : b.toNat < 128 := by
  simp only [special, decide_eq_true_eq] at h
  rcases h with rfl | rfl | rfl | rfl <;> decide

theorem not_special (large : 128 ≤ b.toNat) : special b = false := by
  by_contra h
  have := special_small (by simpa using h)
  omega

/-- An escape stands for an ASCII byte, so it begins no longer character. -/
theorem prefix_of_escape {h : Bytes} (large : ∀ b ∈ h, 128 ≤ b.toNat) (starts : h <+: escape x) : h <+: x := by
  induction h generalizing x with
  | nil => exact List.nil_prefix
  | cons b h ih =>
    obtain ⟨first, rest⟩ := List.forall_mem_cons.mp large
    cases x with
    | nil =>
      have none := List.prefix_nil.mp starts
      cases none
    | cons c x =>
      rw [escape, List.flatMap_cons] at starts
      cases special_c : special c with
      | false =>
        rw [escapeByte_plain special_c] at starts
        obtain ⟨rfl, behind⟩ := List.cons_prefix_cons.mp starts
        exact List.cons_prefix_cons.mpr ⟨rfl, ih rest behind⟩
      | true =>
        obtain ⟨d, eq, _⟩ := escapeByte_special special_c
        rw [eq] at starts
        obtain ⟨rfl, _⟩ := List.cons_prefix_cons.mp starts
        exact absurd first (by decide)

theorem stray_escape (fails : decodeRune (b :: x) = none) : decodeRune (b :: escape x) = none := by
  cases decoded : decodeRune (b :: escape x) with
  | none => rfl
  | some c =>
    obtain ⟨rest, parts⟩ := decodeRune_some decoded
    obtain ⟨d, h, encoded⟩ := List.exists_cons_of_ne_nil (String.utf8EncodeChar_ne_nil (c := c))
    rw [encoded] at parts
    obtain ⟨rfl, behind⟩ := List.cons.inj parts
    have starts : h <+: x := by
      by_cases single : h = []
      · rw [single]
        exact List.nil_prefix
      · refine prefix_of_escape (fun e member => Nat.le_of_not_lt fun small => single ?_) ⟨rest, behind.symm⟩
        have whole := encode_small (c := c) (by rw [encoded]; exact List.mem_cons_of_mem _ member) small
        rw [encoded] at whole
        exact (List.cons.inj whole).2
    obtain ⟨rest', rfl⟩ := starts
    rw [← List.cons_append, ← encoded, decodeRune_encode] at fails
    cases fails

theorem digit_solid (low : 0x30 ≤ b) (high : b ≤ 0x34) : Strings.isSpace (Char.ofUInt8 b) = false := by
  have value : (Char.ofUInt8 b).toNat = b.toNat := UInt8.toNat_toUInt32 b
  have low : 0x30 ≤ b.toNat := low
  have high : b.toNat ≤ 0x34 := high
  simp only [Strings.isSpace, value, Bool.or_eq_false_iff, Bool.and_eq_false_iff, decide_eq_false_iff_not,
    beq_eq_false_iff_ne]
  omega

theorem solid_escape (solid : ∀ s ∈ symbols x, s.isSpace = false) : ∀ s ∈ symbols (escape x), s.isSpace = false := by
  induction x using reading with
  | nil => exact solid
  | char c x ih =>
    rw [symbols_char] at solid
    obtain ⟨first, rest⟩ := List.forall_mem_cons.mp solid
    have kept : (∀ b ∈ String.utf8EncodeChar c, special b = false) →
        ∀ s ∈ symbols (escape (String.utf8EncodeChar c ++ x)), s.isSpace = false := by
      intro plain
      rw [escape, List.flatMap_append]
      change ∀ s ∈ symbols (escape _ ++ escape x), _
      rw [escape_plain plain, symbols_char]
      exact List.forall_mem_cons.mpr ⟨first, ih rest⟩
    by_cases plain : ∀ b ∈ String.utf8EncodeChar c, special b = false
    · exact kept plain
    · obtain ⟨b, member, h⟩ : ∃ b ∈ String.utf8EncodeChar c, special b = true := by simpa using plain
      obtain ⟨d, eq, _, digits⟩ := escapeByte_special h
      have small : ∀ b ∈ 0x5C :: d, b.toNat < 128 := by
        refine List.forall_mem_cons.mpr ⟨by decide, fun b member => ?_⟩
        have high : b.toNat ≤ 0x34 := (digits b member).2
        omega
      rw [encode_small member (special_small h), List.singleton_append, escape, List.flatMap_cons, eq,
        symbols_small small]
      refine List.forall_mem_append.mpr ⟨?_, ih rest⟩
      rw [List.forall_mem_map]
      exact List.forall_mem_cons.mpr ⟨by decide, fun b member => digit_solid (digits b member).1 (digits b member).2⟩
  | stray b x fails ih =>
    have large : 128 ≤ b.toNat := by
      by_contra small
      have decoded := decodeRune_encode (Char.ofUInt8 b) x
      rw [encode_byte (Nat.lt_of_not_le small), List.singleton_append, fails] at decoded
      cases decoded
    rw [symbols_stray fails] at solid
    obtain ⟨first, rest⟩ := List.forall_mem_cons.mp solid
    have parts : escape (b :: x) = b :: escape x := by
      rw [escape, List.flatMap_cons, escapeByte_plain (not_special large)]
      rfl
    rw [parts, symbols_stray (stray_escape fails)]
    exact List.forall_mem_cons.mpr ⟨first, ih rest⟩

theorem word_escape (word : IsWord x) : IsWord (escape x) := by
  refine ⟨fun none => word.nonempty ?_, solid_escape word.solid⟩
  have length := length_escape x
  rw [none] at length
  exact List.eq_nil_of_length_eq_zero (Nat.le_zero.mp length)

/-! ### What a reader sees -/

/-- The words of the line. -/
def Mount.words (m : Mount) : List Bytes :=
  fields (escape m.device) ++ (fields (escape m.target) ++ (fields (escape m.fstype) ++
    (fields (escape m.options) ++ [[0x30], [0x30]])))

/-- The first words, taken for the fields. -/
def Mount.seen (m : Mount) : Mount :=
  match m.words with
  | device :: target :: fstype :: _ => ⟨device, target, fstype, []⟩
  | [device, target] => ⟨device, target, [], []⟩
  | _ => ⟨[], [], [], []⟩

theorem fields_line (m : Mount) : fields m.line = m.words := by
  have blank : ∀ x y : Bytes, fields (x ++ 0x20 :: y) = fields x ++ fields y := fields_break (by decide) (by decide)
  have tail : fields [0x30, 0x20, 0x30] = [[0x30], [0x30]] := by
    rw [show ([0x30, 0x20, 0x30] : Bytes) = [0x30] ++ 0x20 :: [0x30] from rfl, blank, fields_word ⟨by simp, ?_⟩]
    · rfl
    · rw [symbols_byte (by decide), symbols_nil]
      exact List.forall_mem_singleton.mpr (by decide)
  rw [Mount.line, blank, blank, blank, blank, tail]
  rfl

theorem words_two (m : Mount) : ∃ device target rest, m.words = device :: target :: rest := by
  have enough : 2 ≤ m.words.length := by
    simp only [Mount.words, List.length_append, List.length_cons]
    omega
  match m.words, enough with
  | device :: target :: rest, _ => exact ⟨device, target, rest, rfl⟩

theorem seen_target_mem (m : Mount) : m.seen.target ∈ fields m.line := by
  obtain ⟨device, target, rest, words⟩ := words_two m
  rw [fields_line, Mount.seen, words]
  cases rest <;> simp

theorem targetOf_line (m : Mount) : targetOf m.line = some m.seen.target := by
  obtain ⟨device, target, rest, words⟩ := words_two m
  rw [targetOf, fields_line, Mount.seen, words]
  cases rest <;> rfl

theorem mountOn_line (devicePath : Bytes) (m : Mount) :
    mountOn devicePath m.line = if m.seen.lists devicePath then some m.seen.target else none := by
  obtain ⟨device, target, rest, words⟩ := words_two m
  rw [mountOn, fields_line, Mount.seen, words]
  cases rest with
  | nil => rfl
  | cons fstype rest => simp [Mount.lists]

theorem render_lines (table : List Mount) : (render table).splitOn 0x0A = table.map (·.line) ++ [[]] := by
  have escaped : ∀ x, 0x0A ∉ escape x := by
    intro x member
    rcases mem_escape member with eq | digit | ⟨_, plain⟩
    · cases eq
    · revert digit
      decide
    · cases plain
  have unbroken : ∀ line ∈ table.map (·.line), 0x0A ∉ line := by
    intro line member
    obtain ⟨m, _, rfl⟩ := List.mem_map.mp member
    simp [Mount.line, escaped]
  have cut := splitOn_text unbroken []
  rw [List.append_nil] at cut
  exact cut

theorem findSome?_ite {α β : Type} (p : α → Bool) (f : α → β) (xs : List α) :
    xs.findSome? (fun x => if p x then some (f x) else none) = (xs.find? p).map f := by
  induction xs with
  | nil => rfl
  | cons x xs ih =>
    rw [List.findSome?_cons, List.find?_cons]
    cases p x <;> simp [ih]

/-- The text is read as the table of what is seen. -/
theorem decoded_seen (table : List Mount) : Decoded (.ok (render table)) (table.map (·.seen)) := by
  constructor
  case mounted =>
    intro path
    have last : targetOf [] ≠ some path := by simp [targetOf]
    simp [isMounted, render_lines, IsTarget, targetOf_line, last]
  case pool =>
    intro devicePath
    have last : mountOn devicePath [] = none := by simp [mountOn]
    have found : (table.map (·.line)).findSome? (mountOn devicePath) =
        ((table.map (·.seen)).find? (·.lists devicePath)).map (·.target) := by
      rw [← findSome?_ite, List.findSome?_map, List.findSome?_map]
      exact congrArg (table.findSome? ·) (funext fun m => mountOn_line devicePath m)
    rw [findBcachefsMount, render_lines, List.findSome?_append, List.findSome?_singleton, last, Option.or_none, found]
    rfl

theorem decoded_iff_agree (table table' : List Mount) :
    Decoded (.ok (render table)) table' ↔ Agree (table.map (·.seen)) table' := by
  have seen := decoded_seen table
  constructor
  · intro decoded
    exact ⟨fun path => (seen.mounted path).symm.trans (decoded.mounted path),
      fun devicePath => (seen.pool devicePath).symm.trans (decoded.pool devicePath)⟩
  · intro agree
    exact ⟨fun path => (seen.mounted path).trans (agree.mounted path),
      fun devicePath => (seen.pool devicePath).trans (agree.pool devicePath)⟩

/-! ### Tables whose fields are words -/

/-- Once escaped, the fields before and behind the target are words. -/
def Separate (table : List Mount) : Prop := ∀ m ∈ table, IsWord (escape m.device) ∧ IsWord (escape m.fstype)

structure Clean (table : List Mount) : Prop where
  targets : ∀ m ∈ table, Plain m.target
  devices : ∀ m ∈ table, m.fstype = bcachefs → Plain m.device

theorem seen_eq (separate : IsWord (escape m.device) ∧ IsWord (escape m.fstype)) (word : IsWord m.target) :
    m.seen = ⟨escape m.device, escape m.target, escape m.fstype, []⟩ := by
  rw [Mount.seen, Mount.words, fields_word separate.1, fields_word (word_escape word), fields_word separate.2]
  rfl

theorem escape_bcachefs_iff : escape x = bcachefs ↔ x = bcachefs := by
  constructor
  · intro same
    have plain : escape x = x := by
      rw [escape_eq_iff]
      intro b member
      by_contra h
      have backslash := (escape_special b member (by simpa using h)).1
      rw [same] at backslash
      revert backslash
      decide
    rw [← plain, same]
  · rintro rfl
    decide

theorem split_escape (x : Bytes) : (escape x).splitOn 0x3A = (x.splitOn 0x3A).map escape := by
  refine splitOn_flatMap (by decide) (fun b other member => ?_) x
  cases h : special b with
  | false =>
    rw [escapeByte_plain h] at member
    exact other (List.mem_singleton.mp member).symm
  | true =>
    obtain ⟨d, eq, _, digits⟩ := escapeByte_special h
    rw [eq] at member
    rcases List.mem_cons.mp member with eq | member
    · cases eq
    · have digit := digits _ member
      revert digit
      decide

theorem poolTarget_listed {x : Bytes} (found : poolTarget table x ≠ []) : ∃ m ∈ table, m.lists x = true := by
  cases first : table.find? (·.lists x) with
  | none => exact absurd (by rw [poolTarget, first]; rfl) found
  | some m => exact ⟨m, List.mem_of_find?_eq_some first, List.find?_some first⟩

theorem listed_poolTarget {x : Bytes} (targets : ∀ m ∈ table, m.target ≠ []) {m : Mount} (member : m ∈ table)
    (lists : m.lists x = true) : poolTarget table x ≠ [] := by
  cases first : table.find? (·.lists x) with
  | none => exact absurd lists (List.find?_eq_none.mp first m member)
  | some m' =>
    rw [poolTarget, first]
    exact targets m' (List.mem_of_find?_eq_some first)

section Agree
variable (agree : Agree (table.map (·.seen)) table)
include agree

theorem target_word {m : Mount} (member : m ∈ table) : IsWord m.target := by
  obtain ⟨s, inSeen, same⟩ := (agree.mounted m.target).mpr ⟨m, member, rfl⟩
  obtain ⟨m', _, rfl⟩ := List.mem_map.mp inSeen
  exact word_of_mem_fields (same ▸ seen_target_mem m')

variable (separate : Separate table)
include separate

theorem target_plain {m : Mount} (member : m ∈ table) : Plain m.target := by
  have closed : ∀ x ∈ table.map (·.target), escape x ∈ table.map (·.target) := by
    intro x inTable
    obtain ⟨m, member, rfl⟩ := List.mem_map.mp inTable
    obtain ⟨m', member', same⟩ := (agree.mounted (escape m.target)).mp
      ⟨m.seen, List.mem_map_of_mem member, by rw [seen_eq (separate m member) (target_word agree member)]⟩
    exact List.mem_map.mpr ⟨m', member', same⟩
  exact plain_iff.mpr ⟨target_word agree member, escape_closed closed _ (List.mem_map_of_mem member)⟩

/-- The devices of all pools are closed under escaping, for a reader finds the escaped ones. -/
theorem device_plain {m : Mount} (member : m ∈ table) (kind : m.fstype = bcachefs) : Plain m.device := by
  let devices := (table.filter (·.fstype = bcachefs)).flatMap (·.device.splitOn 0x3A)
  have mem_devices : ∀ {x}, x ∈ devices ↔ ∃ m ∈ table, m.lists x = true := by
    intro x
    simp [devices, Mount.lists, and_assoc]
  have closed : ∀ x ∈ devices, escape x ∈ devices := by
    intro x listed
    obtain ⟨m, member, lists⟩ := mem_devices.mp listed
    simp only [Mount.lists, decide_eq_true_eq] at lists
    have seen : m.seen.lists (escape x) = true := by
      rw [seen_eq (separate m member) (target_word agree member)]
      simp only [Mount.lists, split_escape, decide_eq_true_eq]
      exact ⟨escape_bcachefs_iff.mpr lists.1, List.mem_map_of_mem lists.2⟩
    have targets : ∀ m ∈ table.map (·.seen), m.target ≠ [] := by
      intro s inSeen
      obtain ⟨m', _, rfl⟩ := List.mem_map.mp inSeen
      exact (word_of_mem_fields (seen_target_mem m')).nonempty
    have found := listed_poolTarget targets (List.mem_map_of_mem member) seen
    rw [agree.pool] at found
    exact mem_devices.mpr (poolTarget_listed found)
  have parts : (m.device.splitOn 0x3A).map escape = m.device.splitOn 0x3A := by
    refine (List.map_congr_left fun x part => ?_).trans (List.map_id _)
    exact escape_closed closed x (mem_devices.mpr ⟨m, member, by simp [Mount.lists, kind, part]⟩)
  have same : escape m.device = m.device := by
    have joined : ∀ x : Bytes, [0x3A].intercalate (x.splitOn 0x3A) = x := fun _ => List.intercalate_splitOn 0x3A
    rw [← joined (escape m.device), split_escape, parts, joined]
  exact plain_iff.mpr ⟨same ▸ (separate m member).1, same⟩

end Agree

theorem agree_clean (separate : Separate table) : Agree (table.map (·.seen)) table ↔ Clean table := by
  constructor
  · intro agree
    exact ⟨fun m member => target_plain agree separate member, fun m member => device_plain agree separate member⟩
  · intro clean
    have target : ∀ m ∈ table, m.seen.target = m.target := by
      intro m member
      obtain ⟨word, plain⟩ := plain_iff.mp (clean.targets m member)
      rw [seen_eq (separate m member) word]
      exact plain
    have lists : ∀ x, ∀ m ∈ table, m.seen.lists x = m.lists x := by
      intro x m member
      rw [seen_eq (separate m member) (clean.targets m member).1]
      simp only [Mount.lists, escape_bcachefs_iff]
      by_cases kind : m.fstype = bcachefs
      · rw [(plain_iff.mp (clean.devices m member kind)).2]
      · simp [kind]
    constructor
    case mounted =>
      intro path
      unfold IsTarget
      constructor
      · rintro ⟨s, inSeen, rfl⟩
        obtain ⟨m, member, rfl⟩ := List.mem_map.mp inSeen
        exact ⟨m, member, (target m member).symm⟩
      · rintro ⟨m, member, rfl⟩
        exact ⟨m.seen, List.mem_map_of_mem member, target m member⟩
    case pool =>
      intro x
      have same : table.find? ((·.lists x) ∘ (·.seen)) = table.find? (·.lists x) := List.find?_congr (lists x)
      rw [poolTarget, poolTarget, List.find?_map, same]
      cases found : table.find? (·.lists x) with
      | none => rfl
      | some m => exact target m (List.mem_of_find?_eq_some found)

/-- The text is read as its table if and only if no target and no device of a bcachefs needs an
escape or has white space; or else fields shift, and the words that are read instead agree. -/
theorem decoded_iff (table : List Mount) : Decoded (.ok (render table)) table ↔
    (Separate table ∧ Clean table) ∨ (¬ Separate table ∧ Agree (table.map (·.seen)) table) := by
  rw [decoded_iff_agree]
  by_cases separate : Separate table
  · simp [separate, agree_clean separate]
  · simp [separate]

/-! ### A disk with a space in its name -/

def spaced : Mount where
  device := encode "/dev/sda".toList
  target := encode "/mnt/my disk".toList
  fstype := encode "ext4".toList
  options := encode "rw".toList

theorem spaced_unread : ¬ ∀ table, Decoded (.ok (render table)) table := by
  intro claim
  have agree := (decoded_iff_agree [spaced] [spaced]).mp (claim [spaced])
  have word : IsWord spaced.target := target_word agree List.mem_cons_self
  exact word.fresh (b := 0x20) (by decide) (by decide) (by decide)

theorem bcachefs_eq : bcachefs = encode "bcachefs".toList := by decide

theorem mountOn_encode (devicePath line : Strings.Str) :
    mountOn (encode devicePath) (encode line) = (Bcachefs.mountOn devicePath line).map encode := by
  unfold mountOn Bcachefs.mountOn
  rw [fields_encode]
  match Strings.fields line with
  | [] | [_] | [_, _] => rfl
  | devices :: mountpoint :: kind :: rest =>
    have colon : (encode devices).splitOn 0x3A = (devices.splitOn ':').map encode :=
      splitOn_encode (by decide) (by decide) devices
    have listed : encode devicePath ∈ (encode devices).splitOn 0x3A ↔ devicePath ∈ devices.splitOn ':' := by
      rw [colon, List.mem_map_of_injective fun _ _ => encode_inj]
    have named : encode kind = bcachefs ↔ kind = "bcachefs".toList := by
      rw [bcachefs_eq]
      exact ⟨encode_inj, congrArg encode⟩
    simp only [List.map_cons, listed, named]
    split <;> rfl

/-- On a text of characters this is the search of the pools' discovery. -/
theorem findBcachefsMount_encode (probes : Bcachefs.Probes) (devicePath : Strings.Str) :
    findBcachefsMount (probes.mounts.map encode)
    (encode devicePath) = encode (Bcachefs.findBcachefsMount probes devicePath) := by
  unfold findBcachefsMount Bcachefs.findBcachefsMount
  cases probes.mounts with
  | error e => rfl
  | ok text =>
    have broken : (encode text).splitOn 0x0A = (Strings.lines text).map encode :=
      splitOn_encode (by decide) (by decide) text
    have found : ((Strings.lines text).map encode).findSome? (mountOn (encode devicePath)) =
        ((Strings.lines text).findSome? (Bcachefs.mountOn devicePath)).map encode := by
      rw [List.findSome?_map, List.map_findSome?]
      exact congrArg ((Strings.lines text).findSome? ·) (funext fun line => mountOn_encode devicePath line)
    simp only [Except.map, broken, found]
    cases (Strings.lines text).findSome? (Bcachefs.mountOn devicePath) <;> rfl

end HomelabDaemon.Mounts
