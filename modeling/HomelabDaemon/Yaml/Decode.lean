import HomelabDaemon.Strings.Digits
import HomelabDaemon.Yaml.Node
import Mathlib.Algebra.Group.Int.Defs

/-!
# Decoding nodes

Nodes as values of a record's fields. A field that is missing or null has the zero value of its
type. Only what leaves no doubt is decoded: known fields, each at most once, canonical numbers.
-/

namespace Yaml
open Strings (toString_cases toDigits_digits)

/-- The plain scalars that stand for no value. -/
def nullTexts : List String := ["", "~", "null", "Null", "NULL"]

/-- The text of a number in decimal digits. -/
def readInt (cs : List Char) : Int :=
  match cs with
  | '-' :: digits => -Nat.ofDigitChars 10 digits 0
  | digits => Nat.ofDigitChars 10 digits 0

/-- A number of 64 bits. -/
def IsInt64 (n : Int) : Prop := -2 ^ 63 ≤ n ∧ n < 2 ^ 63

instance (n : Int) : Decidable (IsInt64 n) := inferInstanceAs (Decidable (_ ∧ _))

namespace Node

def text : Node → Option String
  | null => some ""
  | scalar text => if text ∈ nullTexts then some "" else some text
  | _ => none

def bool : Node → Option Bool
  | null => some false
  | scalar "true" => some true
  | scalar "false" => some false
  | _ => none

def int : Node → Option Int
  | null => some 0
  | scalar text =>
    let n := readInt text.toList
    if toString n = text ∧ IsInt64 n then some n else none
  | _ => none

def items : Node → Option (List Node)
  | null => some []
  | seq items => some items
  | _ => none

/-- An item that is null would be dropped. -/
def item : Node → Option String
  | scalar text => if text ∈ nullTexts then none else some text
  | _ => none

def texts (node : Node) : Option (List String) := node.items.bind fun items => items.mapM item

/-- The fields of a record with these names. -/
def fields (names : List String) : Node → Option (List (String × Node))
  | null => some []
  | map fields => if (∀ f ∈ fields, f.1 ∈ names) ∧ (fields.map (·.1)).Nodup then some fields else none
  | _ => none

/-- The fields of an item; null would be dropped. -/
def record (names : List String) : Node → Option (List (String × Node))
  | null => none
  | node => node.fields names

end Node

def field (fields : List (String × Node)) (name : String) : Node := (fields.lookup name).getD .null

/-- A string that stands as it is in a plain scalar, and does not mean null there. -/
def IsText (text : String) : Prop := isPlain text.toList = true ∧ text ∉ nullTexts

instance (text : String) : Decidable (IsText text) := inferInstanceAs (Decidable (_ ∧ _))

/-- The empty string comes back where nothing stands. -/
def IsOptionalText (text : String) : Prop := text = "" ∨ IsText text

instance (text : String) : Decidable (IsOptionalText text) := inferInstanceAs (Decidable (_ ∨ _))

def textTokens (text : String) : List Token := if text = "" then [] else [.scalar text]

def textNode (text : String) : Node := if text = "" then .null else .scalar text

section Texts
variable {text : String} {min : Nat}

theorem IsText.ne_empty (h : IsText text) : text ≠ "" := by
  rintro rfl
  exact h.2 (by decide)

theorem presents_text (text : String) : Presents min (textTokens text) (textNode text) := by
  unfold textTokens textNode
  split
  · exact presents_null
  · exact presents_scalar text

theorem text_textNode (h : IsOptionalText text) : (textNode text).text = some text := by
  rcases h with rfl | isText
  · rfl
  · rw [textNode, if_neg isText.ne_empty, Node.text, if_neg isText.2]

theorem bool_textNode (b : Bool) : (textNode (if b then "true" else "false")).bool = some b := by
  cases b <;> rfl

theorem texts_seq {items : List String} (h : ∀ item ∈ items, IsText item) :
    (Node.seq (items.map .scalar)).texts = some items := by
  unfold Node.texts Node.items
  rw [Option.bind_some]
  induction items with
  | nil => rfl
  | cons first items ih =>
    have isText := h first List.mem_cons_self
    have rest := ih fun item member => h item (List.mem_cons_of_mem first member)
    rw [List.map_cons, List.mapM_cons, rest, Node.item, if_neg isText.2]
    rfl

end Texts

/-! ### Numbers -/

section Numbers

theorem readInt_digits {digits : List Char} (h : ∀ c ∈ digits, c.isDigit = true) :
    readInt digits = Nat.ofDigitChars 10 digits 0 := by
  unfold readInt
  split
  · have digit := h '-' List.mem_cons_self
    cases digit
  · rfl

theorem readInt_toString (n : Int) : readInt (toString n).toList = n := by
  obtain ⟨m, ⟨digits, value⟩ | ⟨digits, value⟩⟩ := toString_cases n
  · rw [digits, readInt_digits (toDigits_digits m), Nat.ofDigitChars_ten_toDigits, value]
  · rw [digits, readInt, Nat.ofDigitChars_ten_toDigits, value]

theorem isText_toString (n : Int) : IsText (toString n) := by
  obtain ⟨m, ⟨digits, _⟩ | ⟨digits, _⟩⟩ := toString_cases n
  · refine ⟨?_, fun member => ?_⟩
    · rw [digits]
      exact digits_plain (toDigits_digits m) Nat.toDigits_ne_nil
    · have noDigit : ∀ text ∈ nullTexts, text.toList.all (fun c => !c.isDigit) = true := by decide
      obtain ⟨c, inDigits⟩ := List.exists_mem_of_ne_nil _ (Nat.toDigits_ne_nil (n := m) (b := 10))
      have digit := toDigits_digits m c inDigits
      rw [← digits] at inDigits
      have other := List.all_eq_true.mp (noDigit _ member) c inDigits
      rw [digit] at other
      cases other
  · refine ⟨?_, fun member => ?_⟩
    · rw [digits]
      exact negative_plain (toDigits_digits m) Nat.toDigits_ne_nil
    · have noSign : ∀ text ∈ nullTexts, '-' ∉ text.toList := by decide
      apply noSign _ member
      rw [digits]
      exact List.mem_cons_self

theorem int_textNode {n : Int} (h : IsInt64 n) : (textNode (toString n)).int = some n := by
  rw [textNode, if_neg (isText_toString n).ne_empty, Node.int]
  simp only [readInt_toString, h, and_self, ↓reduceIte]

end Numbers

/-- The name of a field, as it stands before its colon. -/
structure IsName (name : String) : Prop where
  plain : isPlain name.toList = true
  noColon : ':' ∉ name.toList
  letter : name.toList.head?.any (·.isAlpha) = true

instance (name : String) : Decidable (IsName name) :=
  decidable_of_iff (isPlain name.toList = true ∧ ':' ∉ name.toList ∧ name.toList.head?.any (·.isAlpha) = true)
    ⟨fun ⟨plain, noColon, letter⟩ => ⟨plain, noColon, letter⟩, fun h => ⟨h.plain, h.noColon, h.letter⟩⟩

section Lines
variable {afterDash : Bool} {col k : Nat} {name text pre : String} {cs rest after : List Char} {tokens : List Token}

theorem splitKey_name (h : ':' ∉ cs) (ends : splitKey (':' :: rest) = some ([], after)) :
    splitKey (cs ++ ':' :: rest) = some (cs, after) := by
  induction cs with
  | nil => exact ends
  | cons c cs ih =>
    have notColon : c ≠ ':' := fun same => h (same ▸ List.mem_cons_self)
    have split := ih fun member => h (List.mem_cons_of_mem c member)
    cases cs with
    | nil =>
      rw [List.nil_append] at split
      simp [splitKey, notColon, split]
    | cons d cs =>
      rw [List.cons_append, List.cons_append, splitKey, if_neg fun both => notColon both.1]
      rw [List.cons_append] at split
      rw [split]
      rfl

theorem lexValue_text (h : IsOptionalText text) : lexValue text.toList = some (textTokens text) := by
  rcases h with rfl | isText
  · rfl
  · rw [lexValue_plain isText.1, textTokens, if_neg isText.ne_empty, String.ofList_toList]

theorem lexLine_indent (some : cs ≠ []) :
    lexLine afterDash col (List.replicate k ' ' ++ cs) = lexLine afterDash (col + k) cs := by
  induction k generalizing col with
  | zero => rfl
  | succ k ih =>
    obtain ⟨d, ds, next⟩ : ∃ d ds, List.replicate k ' ' ++ cs = d :: ds := by
      apply List.exists_cons_of_ne_nil
      simp [some]
    rw [List.replicate_succ, List.cons_append, next, lexLine, if_pos rfl, ← next, ih]
    congr 1
    omega

theorem lexLine_dash : lexLine afterDash col ('-' :: ' ' :: cs) = (lexLine true (col + 2) cs).map (Token.dash col ::
    ·) := by
  rw [lexLine]
  simp

theorem lexLine_name (isName : IsName name) (ends : splitKey (':' :: rest) = some ([], after))
    (value : lexValue after = some tokens) :
    lexLine afterDash col (name.toList ++ ':' :: rest) = some (.key col name :: tokens) := by
  have letter := isName.letter
  have entry : lexEntry afterDash col (name.toList ++ ':' :: rest) = some (.key col name :: tokens) := by
    have notMarker : isMarker name.toList = false := by
      cases chars : name.toList with
      | nil => rfl
      | cons c cs =>
        rw [chars] at letter
        have notDash : ¬ ('-' == c) = true := by
          intro same
          obtain rfl := eq_of_beq same
          cases letter
        have notDot : ¬ ('.' == c) = true := by
          intro same
          obtain rfl := eq_of_beq same
          cases letter
        simp [isMarker, List.isPrefixOf, notDash, notDot]
    unfold lexEntry
    rw [splitKey_name isName.noColon ends]
    simp only [isName.plain, notMarker, Bool.and_false, Bool.not_false, Bool.and_self, ↓reduceIte, value,
      Option.map_some,
      String.ofList_toList]
  cases chars : name.toList with
  | nil =>
    rw [chars] at letter
    cases letter
  | cons c cs =>
    rw [chars] at letter entry
    have notSpace : c ≠ ' ' := by
      rintro rfl
      cases letter
    have notDash : c ≠ '-' := by
      rintro rfl
      cases letter
    obtain ⟨d, ds, next⟩ : ∃ d ds, cs ++ ':' :: rest = d :: ds := by
      apply List.exists_cons_of_ne_nil
      simp
    rw [List.cons_append, next] at entry ⊢
    rw [lexLine, if_neg notSpace, if_neg fun both => notDash both.1, entry]

theorem lexLine_field (isName : IsName name) (h : IsOptionalText text) :
    lexLine afterDash col (name.toList ++ ':' :: ' ' :: text.toList) = some (.key col name :: textTokens text) :=
  lexLine_name isName (if_pos ⟨rfl, rfl⟩) (lexValue_text h)

theorem lexLine_item (h : IsText text) : lexLine true col text.toList = some [.scalar text] := by
  rw [lexLine_plain col h.1, String.ofList_toList]

theorem lexes_line {line : String} (h : lexLine false 0 line.toList = some tokens) : Lexes [line] tokens := by
  have read := Lexes.cons h .nil
  rwa [List.append_nil] at read

theorem lexes_field (pre : String) (k : Nat) (name : String)
    (shape : pre.toList = List.replicate k ' ' ++ (name.toList ++ [':', ' '])) (isName : IsName name)
    (h : IsOptionalText text) : Lexes [pre ++ text] (.key k name :: textTokens text) := by
  apply lexes_line
  rw [String.toList_append, shape, List.append_assoc, List.append_assoc, lexLine_indent (by simp), Nat.zero_add]
  exact lexLine_field isName h

theorem lexes_first (pre : String) (k : Nat) (name : String)
    (shape : pre.toList = List.replicate k ' ' ++ '-' :: ' ' :: (name.toList ++ [':', ' '])) (isName : IsName name)
    (h : IsOptionalText text) : Lexes [pre ++ text] (.dash k :: .key (k + 2) name :: textTokens text) := by
  apply lexes_line
  rw [String.toList_append, shape, List.append_assoc, lexLine_indent (by simp), Nat.zero_add, List.cons_append,
    List.cons_append,
    List.append_assoc, lexLine_dash]
  simp only [List.cons_append, List.nil_append, lexLine_field isName h, Option.map_some]

/-- A field whose value stands on the lines below. -/
theorem lexes_header (pre : String) (k : Nat) (name : String)
    (shape : pre.toList = List.replicate k ' ' ++ (name.toList ++ [':'])) (isName : IsName name) :
    Lexes [pre] [.key k name] := by
  apply lexes_line
  rw [shape, lexLine_indent (by simp), Nat.zero_add]
  exact lexLine_name isName rfl rfl

theorem lexes_item (k : Nat) (shape : pre.toList = List.replicate k ' ' ++ ['-', ' ']) (h : IsText text) :
    Lexes [pre ++ text] [.dash k, .scalar text] := by
  apply lexes_line
  rw [String.toList_append, shape, List.append_assoc, lexLine_indent (by simp), Nat.zero_add, List.cons_append,
    List.cons_append,
    lexLine_dash]
  simp only [List.nil_append, lexLine_item h, Option.map_some]

end Lines

end Yaml
