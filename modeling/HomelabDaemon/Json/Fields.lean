import HomelabDaemon.Json.Compact
import HomelabDaemon.Strings.ParseInt

/-!
# Structs in JSON

A struct is written as an object with a member for each field. A decoder goes through the members and sets the
field that has the name of each; a member that no field is named after is passed over, and a field that no member
is there for keeps what it had.
-/

namespace Json

variable {α β γ : Type}

def encodeInt (n : Int64) : Value := .number (toString n.toInt).toList

def encodeUint (n : UInt64) : Value := .number (Nat.toDigits 10 n.toNat)

/-- A nil slice is `none`. -/
def encodeSlice (encode : α → Value) : Option (List α) → Value
  | none => .null
  | some items => .array (items.map encode)

/-- A member that is left out where there is nothing to write. -/
def omitEmpty (key : String) (v : Option Value) : List (String × Value) := (v.map fun v => (key, v)).toList

/-- What a value of the type that is no null is decoded to. -/
abbrev Decoder (α : Type) := Value → Option α

def decodeString : Decoder String
  | .string s => some s
  | _ => none

def decodeBool : Decoder Bool
  | .bool b => some b
  | _ => none

def decodeInt : Decoder Int64
  | .number text => match Strings.parseInt text with
    | (n, none) => some (Int64.ofInt n)
    | (_, some _) => none
  | _ => none

def decodeUint : Decoder UInt64
  | .number text => match Strings.parseUint text 0 with
    | .ok n => some (UInt64.ofNat n)
    | .error _ => none
  | _ => none

def decodeSlice (decode : Decoder α) : Decoder (List α)
  | .null => some []
  | .array items => items.mapM decode
  | _ => none

/-- A field of a struct, and how a value under its name changes the struct. -/
structure StructField (α : Type) where
  name : String
  set : Value → α → Option α

namespace StructField

/-- Null leaves a field of a plain type as it is. -/
def plain (name : String) (decode : Decoder β) (set : α → β → α) : StructField α where
  name := name
  set v s := match v with
    | .null => some s
    | v => (decode v).map (set s)

def slice (name : String) (decode : Decoder β) (set : α → List β → α) : StructField α where
  name := name
  set v s := (decodeSlice decode v).map (set s)

/-- What a pointer points to is decoded into. -/
def pointer (name : String) (decode : β → Decoder β) (zero : β) (get : α → Option β) (set : α → Option β → α) :
    StructField α where
  name := name
  set v s := match v with
    | .null => some (set s none)
    | v => (decode ((get s).getD zero) v).map fun x => set s (some x)

end StructField

section Structs
variable (fold : String → List Char)

/-- The name itself is looked for first, then one that folds to the same. -/
def findField (fields : List (StructField α)) (key : String) : Option (StructField α) :=
  (fields.find? fun f => f.name = key).or (fields.find? fun f => fold f.name = fold key)

/-- The members that a field is there for. -/
def assigned (fields : List (StructField α)) (members : List (String × Value)) : List (StructField α × Value) :=
  members.filterMap fun (key, v) => (findField fold fields key).map fun f => (f, v)

def decodeStruct (fields : List (StructField α)) (s : α) : Decoder α
  | .null => some s
  | .object members => (assigned fold fields members).foldlM (fun s (f, v) => f.set v s) s
  | _ => none

end Structs

/-! ### What was written is read -/

@[simp] theorem decodeInt_encodeInt (n : Int64) : decodeInt (encodeInt n) = some n := by
  rw [encodeInt, decodeInt, Strings.parseInt_toString n.le_toInt n.toInt_lt]
  simp

@[simp] theorem decodeUint_encodeUint (n : UInt64) : decodeUint (encodeUint n) = some n := by
  rw [encodeUint, decodeUint, Strings.parseUint_toDigits n.toNat_lt]
  simp

theorem decodeSlice_encodeSlice {encode : α → Value} {decode : Decoder β} {f : α → β}
    (read : ∀ x, decode (encode x) = some (f x))
    (items : Option (List α)) : decodeSlice decode (encodeSlice encode items) = some ((items.getD []).map f) := by
  cases items with
  | none => rfl
  | some items =>
    rw [encodeSlice, decodeSlice, Option.getD_some]
    induction items with
    | nil => rfl
    | cons x items ih => simp [read, ih]

namespace StructField
variable (name : String) (s : α)

@[simp] theorem plain_string (set : α → String → α) (x : String) :
    (plain name decodeString set).set (.string x) s = some (set s x) := rfl

@[simp] theorem plain_bool (set : α → Bool → α) (x : Bool) :
    (plain name decodeBool set).set (.bool x) s = some (set s x) := rfl

@[simp] theorem plain_int (set : α → Int64 → α) (n : Int64) :
    (plain name decodeInt set).set (encodeInt n) s = some (set s n) :=
  congrArg (Option.map (set s)) (decodeInt_encodeInt n)

@[simp] theorem plain_uint (set : α → UInt64 → α) (n : UInt64) :
    (plain name decodeUint set).set (encodeUint n) s = some (set s n) :=
  congrArg (Option.map (set s)) (decodeUint_encodeUint n)

theorem pointer_fresh {decode : β → Decoder β} {zero x : β} {get : α → Option β} {set : α → Option β → α} {v : Value}
    (filled : v ≠ .null) (fresh : get s = none) (read : decode zero v = some x) :
    (pointer name decode zero get set).set v s = some (set s (some x)) := by
  unfold pointer
  dsimp only
  split
  · contradiction
  · rw [fresh, Option.getD_none, read, Option.map_some]

end StructField

section Structs
variable {fold : String → List Char} {fields : List (StructField α)} {key : String} {f : StructField α}

theorem assigned_append (members more : List (String × Value)) :
    assigned fold fields (members ++ more) = assigned fold fields members ++ assigned fold fields more :=
  List.filterMap_append

theorem assigned_unknown (unknown : findField fold fields key = none) (v : Option Value) :
    assigned fold fields (omitEmpty key v) = [] := by
  cases v with
  | none => rfl
  | some v => simp [omitEmpty, assigned, unknown]

theorem assigned_known (found : findField fold fields key = some f) (v : Option Value) :
    assigned fold fields (omitEmpty key v) = (v.map fun v => (f, v)).toList := by
  cases v with
  | none => rfl
  | some v => simp [omitEmpty, assigned, found]

end Structs

section Fits
variable {room : Nat}

@[simp] theorem fits_bool (b : Bool) : Fits room (.bool b) := trivial

@[simp] theorem fits_encodeInt (n : Int64) : Fits room (encodeInt n) := isNumber_toString n.toInt

@[simp] theorem fits_encodeUint (n : UInt64) : Fits room (encodeUint n) := (isNumber_toDigits n.toNat).1

theorem fits_object {members : List (String × Value)} (fits : ∀ member ∈ members, Fits room member.2) :
    Fits (room + 1) (.object members) :=
  ⟨room.succ_pos, fitsMembers_iff.mpr fits⟩

theorem fits_encodeSlice {encode : α → Value} (fits : ∀ x, Fits room (encode x)) (items : Option (List α)) :
    Fits (room + 1) (encodeSlice encode items) := by
  cases items with
  | none => trivial
  | some items =>
    refine ⟨room.succ_pos, fitsItems_iff.mpr fun v member => ?_⟩
    obtain ⟨x, _, rfl⟩ := List.mem_map.mp member
    exact fits x

theorem fits_omitEmpty {key : String} {v : Option Value} (fits : ∀ x ∈ v, Fits room x) :
    ∀ member ∈ omitEmpty key v, Fits room member.2 := by
  cases v with
  | none => simp [omitEmpty]
  | some v => simpa [omitEmpty] using fits v rfl

end Fits

/-! ### Values of no declared type -/

/-- The finite floating-point numbers of 64 bits. `format` writes one with the fewest digits that `parse` reads back. -/
structure FloatFormat (F : Type) where
  format : F → List Char
  parse : List Char → Option F
  isNumber_format : ∀ x, isNumber (format x) = true
  parse_format : ∀ x, parse (format x) = some x

/-- The order of UTF-8, which is that of the code points. -/
def before (key other : String) : Bool := key.toList.lex other.toList fun c d => c.toNat < d.toNat

/-- A map is written in the order of its keys, and has the last value of each. -/
def insertMember (members : List (String × Value)) (member : String × Value) : List (String × Value) :=
  members.takeWhile (fun m => before m.1 member.1) ++ member :: members.dropWhile fun m => !before member.1 m.1

def sortMembers (members : List (String × Value)) : List (String × Value) := members.foldl insertMember []

section AnyValue
variable {F : Type} (fl : FloatFormat F)

def encodeFloat (x : F) : Value := .number (fl.format x)

def decodeFloat : Decoder F
  | .number text => fl.parse text
  | _ => none

mutual

/-- What is written for the value that is decoded: a number is a float, and an object a map. -/
def decodeAny : Value → Option Value
  | .number text => (fl.parse text).map (encodeFloat fl)
  | .array items => (decodeAnyItems items).map .array
  | .object members => (decodeAnyMembers members).map fun members => .object (sortMembers members)
  | v => some v

def decodeAnyItems : List Value → Option (List Value)
  | [] => some []
  | v :: items => do return (← decodeAny v) :: (← decodeAnyItems items)

def decodeAnyMembers : List (String × Value) → Option (List (String × Value))
  | [] => some []
  | (key, v) :: members => do return (key, ← decodeAny v) :: (← decodeAnyMembers members)

end

@[simp] theorem StructField.plain_float (name : String) (set : α → F → α) (x : F) (s : α) :
    (StructField.plain name (decodeFloat fl) set).set (encodeFloat fl x) s = some (set s x) :=
  congrArg (Option.map (set s)) (fl.parse_format x)

@[simp] theorem fits_encodeFloat {room : Nat} (x : F) : Fits room (encodeFloat fl x) := fl.isNumber_format x

theorem mem_insertMember {members : List (String × Value)} {first member : String × Value}
    (there : member ∈ insertMember members first) : member ∈ members ∨ member = first := by
  rcases List.mem_append.mp there with before | after
  · exact .inl ((List.takeWhile_prefix _).subset before)
  · rcases List.mem_cons.mp after with rfl | after
    · exact .inr rfl
    · exact .inl ((List.dropWhile_suffix _).subset after)

theorem mem_sortMembers {members : List (String × Value)} {member : String × Value}
    (sorted : member ∈ sortMembers members) :
    member ∈ members := by
  have inserted : ∀ (members done : List (String × Value)), member ∈ members.foldl insertMember done →
      member ∈ done ∨ member ∈ members := by
    intro members
    induction members with
    | nil => exact fun done there => .inl there
    | cons first members ih =>
      intro done there
      rcases ih _ there with early | late
      · exact (mem_insertMember early).imp_right fun same => List.mem_cons.mpr (.inl same)
      · exact .inr (List.mem_cons_of_mem first late)
  exact (inserted members [] sorted).resolve_left List.not_mem_nil

variable {fl}

theorem decodeAny_slice {encode rewritten : α → Value} (read : ∀ x, decodeAny fl (encode x) = some (rewritten x))
    (items : Option (List α)) : decodeAny fl (encodeSlice encode items) = some (encodeSlice rewritten items) := by
  cases items with
  | none => rfl
  | some items =>
    have all : decodeAnyItems fl (items.map encode) = some (items.map rewritten) := by
      induction items with
      | nil => rfl
      | cons x items ih => simp [decodeAnyItems, read, ih]
    rw [encodeSlice, decodeAny, all, Option.map_some, encodeSlice]

theorem decodeAny_object {members : List (String × Value)}
    (same : ∀ member ∈ members, decodeAny fl member.2 = some member.2) :
    decodeAny fl (.object members) = some (.object (sortMembers members)) := by
  have kept : decodeAnyMembers fl members = some members := by
    induction members with
    | nil => rfl
    | cons member members ih =>
      obtain ⟨first, others⟩ := List.forall_mem_cons.mp same
      simp [decodeAnyMembers, first, ih others]
  rw [decodeAny, kept, Option.map_some]

end AnyValue

end Json
