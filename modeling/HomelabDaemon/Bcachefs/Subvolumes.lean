import HomelabDaemon.Filepath
import HomelabDaemon.Utf8.Fields
import HomelabDaemon.Strings.Digits

/-!
# Subvolumes

The list of a pool's subvolumes is read from a table, by the first two words of each row. A path
of several words loses all but the first, and a row that looks like a heading is lost.
-/

namespace HomelabDaemon.Bcachefs.Subvolumes
open Utf8 Filepath

abbrev Bytes := List UInt8

def text (s : String) : Bytes := encode s.toList

structure Subvolume where
  id : Bytes
  path : Bytes
  usedBytes : Int
  deriving DecidableEq

/-- What the loop body appends for a line. -/
def subvolumeOf (mountpoint line : Bytes) : Option Subvolume :=
  let line := trimSpace line
  if line = [] ∨ text "Subvolumes" <+: line ∨ text "Path" <+: line then none
  else
    match fields line with
    | relPath :: id :: _ => some { id, path := join mountpoint relPath, usedBytes := -1 }
    | _ => none

def listSubvolumes (mountpoint : Bytes) (out : Except String Bytes) : Except String (List Subvolume) :=
  out.map fun out => (out.splitOn 0x0A).filterMap (subvolumeOf mountpoint)

inductive Deletion where
  | refused (message : Bytes)
  | command (args : List Bytes)
  deriving DecidableEq

/-- A directory that cannot be read is left to the command. -/
def deleteSubvolume (entries : Except String (List Bytes)) (path : Bytes) : Deletion :=
  match entries with
  | .ok (entry :: rest) =>
    .refused (text s!"subvolume is not empty: {(entry :: rest).length} entries remain at " ++ path ++
      text " — remove its contents first")
  | _ => .command [text "bcachefs", text "subvolume", text "delete", path]

def spaces (n : Nat) : Bytes := List.replicate n 0x20

/-- The spaces in front of a column, beyond the one that must be there. -/
structure Gaps where
  id : Nat
  created : Nat
  flags : Nat
  size : Nat

/-- A row can end without a size, or with spaces in its place. -/
def columns (gaps : Gaps) (path id created flags size : Bytes) : Bytes :=
  path ++ 0x20 :: (spaces gaps.id ++ (id ++ 0x20 :: (spaces gaps.created ++ (created ++ 0x20 :: (spaces gaps.flags ++
    (flags ++ spaces gaps.size ++ size))))))

/-- A subvolume lies along names below the mountpoint. -/
structure Row where
  names : List Path
  proper : ∀ name ∈ names, IsName name
  nonempty : names ≠ []
  id : Nat
  created : Bytes
  flags : Bytes
  size : Bytes
  unbroken : 0x0A ∉ names.flatten ++ created ++ flags ++ size
  gaps : Gaps

namespace Row

def path (r : Row) : Path := [slash].intercalate r.names

def digits (r : Row) : Bytes := encode (Nat.toDigits 10 r.id)

def line (r : Row) : Bytes := columns r.gaps r.path r.digits r.created r.flags r.size

/-- The subvolume as it should be returned. -/
def expected (mountpoint : Bytes) (r : Row) : Subvolume :=
  { id := r.digits, path := join mountpoint r.path, usedBytes := -1 }

/-- The path leads to the subvolume. -/
def Named (mountpoint : Bytes) (r : Row) (target : Bytes) : Prop :=
  rooted target = rooted mountpoint ∧ Filepath.names target = Filepath.names mountpoint ++ r.names

/-- No white space in the path, and no start of a heading. -/
structure Plain (r : Row) : Prop where
  solid : ∀ s ∈ symbols r.path, s.isSpace = false
  no_title : ¬ text "Subvolumes" <+: r.path
  no_header : ¬ text "Path" <+: r.path

end Row

structure Table where
  gaps : Gaps
  rows : List Row

namespace Table

def header (t : Table) : Bytes :=
  columns t.gaps (text "Path") (text "ID") (text "Created") (text "Flags") (text "Size")

def text (t : Table) : Bytes := (t.header :: t.rows.map (·.line)).flatMap (· ++ [0x0A])

end Table

/-- The table is read back, and each path returned for a row deletes the subvolume of that row. -/
structure Returned (mountpoint : Bytes) (t : Table) : Prop where
  listed : listSubvolumes mountpoint (.ok t.text) = .ok (t.rows.map (·.expected mountpoint))
  deletes : ∀ subvolumes, listSubvolumes mountpoint (.ok t.text) = .ok subvolumes →
    ∀ (i : Nat) (r : Row) (s : Subvolume), t.rows[i]? = some r → subvolumes[i]? = some s →
      ∃ target, deleteSubvolume (.ok []) s.path = .command [Subvolumes.text "bcachefs", Subvolumes.text "subvolume",
        Subvolumes.text "delete", target] ∧ r.Named mountpoint target

/-! ### White space in paths -/

variable {mountpoint : Bytes} {r : Row} {x y : Bytes}

/-- The text has white space in it. -/
def spaced (x : Bytes) : Bool := (symbols x).any Symbol.isSpace

theorem spaced_eq_false : spaced x = false ↔ ∀ s ∈ symbols x, s.isSpace = false := by
  simp [spaced]

theorem spaced_append (x y : Bytes) : spaced (x ++ slash :: y) = (spaced x || spaced y) := by
  unfold spaced
  rw [symbols_ascii (by decide), List.any_append, List.any_cons]
  rfl

theorem spaced_intercalate (ns : List Path) : spaced ([slash].intercalate ns) = ns.any spaced := by
  induction ns with
  | nil => rfl
  | cons part ns ih =>
    cases ns with
    | nil => simp [List.intercalate]
    | cons other ns =>
      rw [List.intercalate_cons_cons, List.append_assoc, List.singleton_append, spaced_append, ih]
      rfl

/-- A path is without white space if a word leads to the same place. -/
theorem solid_of_join (r : Row) {w : Bytes} (word : IsWord w) (same : join mountpoint w = join mountpoint r.path) :
    ∀ s ∈ symbols r.path, s.isSpace = false := by
  have parts : ∀ part ∈ w.splitOn slash, spaced part = false := by
    have solid : (w.splitOn slash).any spaced = false := by
      rw [← spaced_intercalate, List.intercalate_splitOn]
      exact spaced_eq_false.mpr word.solid
    exact fun part member => by simpa using List.any_eq_false.mp solid part member
  have count := countP_join parts mountpoint
  rw [same, Row.path, (names_join r.proper r.nonempty mountpoint).2, List.countP_append] at count
  have none : r.names.countP spaced = 0 := by omega
  rw [← spaced_eq_false, Row.path, spaced_intercalate, List.any_eq_false]
  exact List.countP_eq_zero.mp none

theorem Row.word_path (r : Row) (solid : ∀ s ∈ symbols r.path, s.isSpace = false) : IsWord r.path :=
  ⟨(Separate.names r.proper).ne_nil r.nonempty, solid⟩

theorem Row.word_digits (r : Row) : IsWord r.digits := by
  refine ⟨fun none => ?_, fun s member => ?_⟩
  · exact Nat.toDigits_ne_nil (encode_inj (none.trans rfl : encode (Nat.toDigits 10 r.id) = encode []))
  · rw [Row.digits, symbols_encode] at member
    obtain ⟨c, digit, rfl⟩ := List.mem_map.mp member
    exact Strings.digit_solid (Strings.toDigits_digits r.id c digit)

theorem fields_columns {gaps : Gaps} {path id created flags size : Bytes} (path_word : IsWord path)
    (id_word : IsWord id) :
    ∃ rest, fields (columns gaps path id created flags size) = path :: id :: rest := by
  have blank : ∀ x y : Bytes, fields (x ++ 0x20 :: y) = fields x ++ fields y := fields_break (by decide) (by decide)
  refine ⟨fields (spaces gaps.created ++
    (created ++ 0x20 :: (spaces gaps.flags ++ (flags ++ spaces gaps.size ++ size)))), ?_⟩
  rw [columns, blank, fields_word path_word, spaces, fields_indent, blank, fields_word id_word]
  rfl

theorem prefix_columns {k x y : Bytes} (fresh : 0x20 ∉ k) (tail : y = [] ∨ ∃ z, y = 0x20 :: z) :
    k <+: x ++ y ↔ k <+: x := by
  refine ⟨fun starts => ?_, fun starts => starts.trans (List.prefix_append x y)⟩
  rcases List.prefix_or_prefix_of_prefix starts (List.prefix_append x y) with shorter | ⟨mid, rfl⟩
  · exact shorter
  · rcases tail with rfl | ⟨z, rfl⟩
    · rwa [List.append_nil] at starts
    · rw [List.prefix_append_right_inj] at starts
      cases mid with
      | nil => simp
      | cons b mid =>
        obtain ⟨rfl, _⟩ := List.cons_prefix_cons.mp starts
        simp at fresh

theorem subvolumeOf_columns {gaps : Gaps} {path id created flags size : Bytes} (path_word : IsWord path)
    (id_word : IsWord id) :
    subvolumeOf mountpoint (columns gaps path id created flags size) =
      if text "Subvolumes" <+: path ∨ text "Path" <+: path then none
      else some { id, path := join mountpoint path, usedBytes := -1 } := by
  obtain ⟨rest, words⟩ : ∃ rest, fields (columns gaps path id created flags size) = path :: id :: rest :=
    fields_columns path_word id_word
  obtain ⟨y, trimmed, tail⟩ : ∃ y, trimSpace (columns gaps path id created flags size) = path ++ y ∧ _ :=
    trimSpace_word path_word (by decide) _
  have nonempty : path ++ y ≠ [] := by simp [path_word.nonempty]
  rw [← fields_trimSpace] at words
  unfold subvolumeOf
  dsimp only
  rw [words, trimmed]
  have title : text "Subvolumes" <+: path ++ y ↔ text "Subvolumes" <+: path := prefix_columns (by decide) tail
  have header : text "Path" <+: path ++ y ↔ text "Path" <+: path := prefix_columns (by decide) tail
  simp only [nonempty, false_or, title, header]

/-- Whatever is returned for a line, the path ends in a word. -/
theorem subvolumeOf_word {line : Bytes} {s : Subvolume} (found : subvolumeOf mountpoint line = some s) :
    ∃ w, IsWord w ∧ s.path = join mountpoint w := by
  unfold subvolumeOf at found
  dsimp only at found
  split at found
  · cases found
  · split at found
    · rename_i w id rest words
      obtain rfl := Option.some.inj found
      exact ⟨w, word_of_mem_fields (by rw [words]; exact List.mem_cons_self), rfl⟩
    · cases found

/-! ### The whole table -/

variable {t : Table}

theorem columns_unbroken {gaps : Gaps} {path id created flags size : Bytes} (path_unbroken : 0x0A ∉ path)
    (id_unbroken : 0x0A ∉ id) (rest_unbroken : 0x0A ∉ created ++ flags ++ size) :
    0x0A ∉ columns gaps path id created flags size := by
  have gap : ∀ n, 0x0A ∉ spaces n := fun n member => by cases List.eq_of_mem_replicate member
  simp only [List.mem_append, not_or] at rest_unbroken
  simp [columns, path_unbroken, id_unbroken, rest_unbroken, gap]

theorem Row.line_unbroken (r : Row) : 0x0A ∉ r.line := by
  have unbroken := r.unbroken
  rw [List.append_assoc, List.append_assoc, List.mem_append, not_or] at unbroken
  obtain ⟨in_names, rest⟩ := unbroken
  refine columns_unbroken ?_ (r.word_digits.fresh (by decide) (by decide)) (by rwa [List.append_assoc])
  intro member
  have split : ∀ ns : List Path, 0x0A ∈ [slash].intercalate ns → 0x0A ∈ ns.flatten := by
    intro ns
    induction ns with
    | nil => exact fun member => member
    | cons part ns ih =>
      cases ns with
      | nil => simp [List.intercalate]
      | cons other ns =>
        rw [List.intercalate_cons_cons, List.flatten_cons]
        intro member
        rcases List.mem_append.mp member with member | member
        · refine List.mem_append_left _ ((List.mem_append.mp member).resolve_right ?_)
          decide
        · exact List.mem_append_right _ (ih member)
  exact in_names (split r.names member)

theorem subvolumeOf_header (t : Table) : subvolumeOf mountpoint t.header = none := by
  have path_word : IsWord (text "Path") := by decide
  have id_word : IsWord (text "ID") := by decide
  rw [Table.header, subvolumeOf_columns path_word id_word, if_pos (.inr (List.prefix_refl _))]

theorem listSubvolumes_text (mountpoint : Bytes) (t : Table) :
    listSubvolumes mountpoint (.ok t.text) = .ok (t.rows.filterMap fun r => subvolumeOf mountpoint r.line) := by
  have unbroken : ∀ line ∈ t.header :: t.rows.map (·.line), 0x0A ∉ line := by
    refine List.forall_mem_cons.mpr ⟨columns_unbroken (by decide) (by decide) (by decide), ?_⟩
    intro line member
    obtain ⟨r, _, rfl⟩ := List.mem_map.mp member
    exact r.line_unbroken
  have lines : t.text.splitOn 0x0A = t.header :: t.rows.map (·.line) ++ [[]] := by
    have split := Strings.splitOn_text unbroken []
    rwa [List.append_nil, List.splitOn_nil] at split
  have last : subvolumeOf mountpoint [] = none := rfl
  rw [listSubvolumes, Except.map, lines, List.filterMap_append, List.filterMap_cons_none (subvolumeOf_header t),
    List.filterMap_cons_none last, List.filterMap_nil, List.append_nil, List.filterMap_map]
  rfl

theorem named_expected (mountpoint : Bytes) (r : Row) : r.Named mountpoint (r.expected mountpoint).path :=
  names_join r.proper r.nonempty mountpoint

theorem returned_of_plain (plain : ∀ r ∈ t.rows, r.Plain) (mountpoint : Bytes) : Returned mountpoint t := by
  have listed : listSubvolumes mountpoint (.ok t.text) = .ok (t.rows.map (·.expected mountpoint)) := by
    rw [listSubvolumes_text, ← List.filterMap_eq_map]
    refine congrArg Except.ok (List.filterMap_congr fun r member => ?_)
    obtain ⟨solid, no_title, no_header⟩ := plain r member
    rw [Row.line, subvolumeOf_columns (r.word_path solid) r.word_digits, if_neg (not_or.mpr ⟨no_title, no_header⟩)]
    rfl
  refine ⟨listed, fun subvolumes same i r s row returned => ?_⟩
  obtain rfl : t.rows.map (·.expected mountpoint) = subvolumes := Except.ok.inj (listed.symm.trans same)
  rw [List.getElem?_map, row] at returned
  obtain rfl : r.expected mountpoint = s := Option.some.inj returned
  exact ⟨_, rfl, named_expected mountpoint r⟩

theorem plain_of_returned (returned : Returned mountpoint t) : ∀ r ∈ t.rows, r.Plain := by
  have same := Except.ok.inj ((listSubvolumes_text mountpoint t).symm.trans returned.listed)
  have solid : ∀ r ∈ t.rows, ∀ s ∈ symbols r.path, s.isSpace = false := by
    intro r member
    have listed : r.expected mountpoint ∈ t.rows.filterMap fun r => subvolumeOf mountpoint r.line := by
      rw [same]
      exact List.mem_map_of_mem member
    obtain ⟨other, _, found⟩ := List.mem_filterMap.mp listed
    obtain ⟨w, word, path⟩ := subvolumeOf_word found
    exact solid_of_join r word path.symm
  -- no row is left out, so none is taken for a heading
  have complete : ∀ r ∈ t.rows, (subvolumeOf mountpoint r.line).isSome = true := by
    rw [← List.filterMap_length_eq_length, same, List.length_map]
  intro r member
  have some := complete r member
  rw [Row.line, subvolumeOf_columns (r.word_path (solid r member)) r.word_digits] at some
  split at some
  · cases some
  · rename_i plain
    obtain ⟨no_title, no_header⟩ := not_or.mp plain
    exact ⟨solid r member, no_title, no_header⟩

/-- The table is read back exactly when every path is plain. -/
theorem returned_iff (mountpoint : Bytes) (t : Table) : Returned mountpoint t ↔ ∀ r ∈ t.rows, r.Plain :=
  ⟨plain_of_returned, fun plain => returned_of_plain plain mountpoint⟩

/-! ### A path of two words -/

def photos : Table where
  gaps := ⟨20, 7, 10, 8⟩
  rows := [{ names := [text "my photos"], proper := by simpa using ⟨by decide, by decide, by decide, by decide⟩,
             nonempty := by decide, id := 7, created := text "2026-05-27 21:46", flags := text "-", size := [],
             unbroken := by decide, gaps := ⟨15, 8, 0, 0⟩ }]

/-- The second word is taken for the id, and the path is that of another subvolume. -/
theorem photos_misread :
    listSubvolumes (text "/pool") (.ok photos.text) =
    .ok [{ id := text "photos", path := text "/pool/my", usedBytes := -1 }] ∧
      ¬ Returned (text "/pool") photos := by
  refine ⟨?_, fun returned => ?_⟩
  · decide
  · have solid := (plain_of_returned returned _ List.mem_cons_self).solid
    have space : Symbol.char ' ' ∈ symbols (text "my photos") := by decide
    cases solid _ space

end HomelabDaemon.Bcachefs.Subvolumes
