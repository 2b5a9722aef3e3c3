import HomelabDaemon.Json.Machine
import HomelabDaemon.Utf8

/-!
# The reader reads what the printer prints

A value's text, and a blank or a comma after it, takes the reader from where a value is due to
where the value is delivered.
-/

namespace Json

theorem hexValue_hexDigit : ∀ n < 16, hexValue (hexDigit n) = some n := by decide

theorem unescape_short {c letter : Char} (short : shortEscape c = some letter) :
    letter ≠ 'u' ∧ unescape letter = some c := by
  unfold shortEscape at short
  split_ifs at short
  all_goals
    cases short
    subst c
    decide

theorem addUnit_char (text : List Char) (c : Char) :
    Lexeme.addUnit { text := text } c.toNat = { text := text ++ [c] } := by
  have scalar := c.valid
  have bounds : c.toNat < 0xD800 ∨ 0xE000 ≤ c.toNat := by
    rcases scalar with low | ⟨high, _⟩
    · exact .inl low
    · exact .inr high
  have first : ¬ (0xD800 ≤ c.toNat ∧ c.toNat < 0xDC00) := by omega
  have second : ¬ (0xDC00 ≤ c.toNat ∧ c.toNat < 0xE000) := by omega
  simp only [Lexeme.addUnit, if_neg first, if_neg second, Lexeme.add, Lexeme.settled, Char.ofNat_toNat]

namespace Reader
variable {r : Reader} {isKey : Bool} {text rest : List Char}

def within (r : Reader) (isKey : Bool) (text : List Char) :
    Reader := { r with mode := .string isKey { text := text } .plain }

theorem run_unicode (c : Char) (small : c.toNat < 65536) :
    (r.within isKey text).run (unicode c.toNat) = some (r.within isKey (text ++ [c])) := by
  have hex : ∀ n, hexValue (hexDigit (n % 16)) = some (n % 16) :=
    fun n => hexValue_hexDigit _ (Nat.mod_lt _ (by decide))
  have whole : ((c.toNat / 4096 % 16 * 16 + c.toNat / 256 % 16) * 16 + c.toNat / 16 % 16) * 16 + c.toNat % 16 =
    c.toNat := by
    omega
  have added := addUnit_char text c
  simp [unicode, run, within, step, Spot.step, hex, whole, added]

theorem run_escape (c : Char) : (r.within isKey text).run (escape c) = some (r.within isKey (text ++ [c])) := by
  unfold escape
  by_cases special : c = '"' ∨ c = '\\'
  · rw [if_pos special]
    rcases special with rfl | rfl <;> rfl
  · rw [if_neg special]
    rw [not_or] at special
    cases short : shortEscape c with
    | some letter =>
      obtain ⟨apart, back⟩ := unescape_short short
      simp [run, within, step, Spot.step, apart, back, Lexeme.add, Lexeme.settled]
    | none =>
      dsimp only
      split_ifs with coded
      · apply run_unicode
        rcases coded with low | rfl | rfl | rfl | line | paragraph
        all_goals first | omega | decide
      · rw [not_or] at coded
        simp [run, within, step, Spot.step, special, coded.1, Lexeme.add, Lexeme.settled]

theorem run_escapes (chars : List Char) :
    (r.within isKey text).run (chars.flatMap escape) = some (r.within isKey (text ++ chars)) := by
  induction chars generalizing text with
  | nil => simp [run]
  | cons c chars ih =>
    rw [List.flatMap_cons, run_append, run_escape, Option.bind_some, ih, List.append_assoc]
    rfl

theorem run_quoted (s : String) :
    (r.within isKey []).run (s.toList.flatMap escape ++ ['"']) = some (r.closesString isKey { text := s.toList }) := by
  rw [run_append, run_escapes, Option.bind_some, List.nil_append]
  rfl

theorem run_blank {blank : List Char} (spaces : ∀ c ∈ blank, isSpace c = true)
    (skips : ∀ c, isSpace c = true → r.step c = some r) : r.run blank = some r := by
  induction blank with
  | nil => rfl
  | cons c blank ih =>
    rw [run_cons, skips c (spaces c (by simp)), Option.bind_some]
    exact ih fun d member => spaces d (List.mem_cons_of_mem _ member)

theorem newline_spaces (depth : Nat) : ∀ c ∈ newline depth, isSpace c = true := by
  intro c member
  rcases List.mem_cons.mp member with rfl | member
  · rfl
  · rw [List.eq_of_mem_replicate member]
    rfl

/-- Before a value, a key or the end of an array or object blanks do not matter. -/
def Skips (r : Reader) : Prop :=
  r.mode = .value ∨ r.mode = .valueOrEnd ∨ r.mode = .key ∨ r.mode = .keyOrEnd ∨ r.mode = .comma

theorem run_newline (skips : r.Skips) (depth : Nat) (rest : List Char) :
    r.run (newline depth ++ rest) = r.run rest := by
  have skip : ∀ c, isSpace c = true → r.step c = some r := by
    intro c space
    rcases skips with mode | mode | mode | mode | mode <;> simp [step, between, mode, space]
  rw [run_append, run_blank (newline_spaces depth) skip, Option.bind_some]

/-- What follows a value in an indented text. -/
def Delimited (text : List Char) : Prop := ∃ c rest, text = c :: rest ∧ (isSpace c = true ∨ c = ',')

theorem newline_delimited (depth : Nat) (rest : List Char) : Delimited (newline depth ++ rest) :=
  ⟨'\n', _, rfl, .inl rfl⟩

/-- What no number goes on with. -/
def Stops (text : List Char) : Prop := ∃ c rest, text = c :: rest ∧ ∀ numeral : Numeral, numeral.next c = none

end Reader

/-! ### Values -/

mutual

/-- The numbers are numbers, and no more than `room` arrays and objects are open at once. -/
def Fits (room : Nat) : Value → Prop
  | .number text => isNumber text = true
  | .array items => 0 < room ∧ FitsItems (room - 1) items
  | .object members => 0 < room ∧ FitsMembers (room - 1) members
  | _ => True

def FitsItems (room : Nat) : List Value → Prop
  | [] => True
  | v :: items => Fits room v ∧ FitsItems room items

def FitsMembers (room : Nat) : List (String × Value) → Prop
  | [] => True
  | (_, v) :: members => Fits room v ∧ FitsMembers room members

end

namespace Reader
variable {r : Reader} {rest : List Char}

theorem delimiter_next {c : Char} (delimiter : isSpace c = true ∨ c = ',') (numeral : Numeral) :
    numeral.next c = none := by
  rcases delimiter with space | rfl
  · simp [isSpace] at space
    rcases space with ((rfl | rfl) | rfl) | rfl <;> cases numeral <;> rfl
  · cases numeral <;> rfl

theorem Delimited.stops (delimited : Delimited rest) : Stops rest := by
  obtain ⟨c, rest, rfl, delimiter⟩ := delimited
  exact ⟨c, rest, rfl, delimiter_next delimiter⟩

theorem deliver_step (v : Value) (stack : List Frame) (c : Char) :
    (deliver v stack).step c = (deliver v stack).between c := by
  rcases stack with _ | ⟨_ | _ | _, _⟩ <;> rfl

theorem run_numeral {text pre : List Char} {numeral : Numeral} (accepts : numeral.accepts text = true)
    (stops : Stops rest) :
    run { r with mode := .number numeral pre } (text ++ rest) = (deliver (.number (pre ++ text)) r.stack).run rest := by
  induction text generalizing numeral pre with
  | nil =>
    have isFinal : numeral.isFinal = true := by simpa [Numeral.accepts] using accepts
    obtain ⟨c, rest, rfl, ends⟩ := stops
    rw [List.nil_append, List.append_nil, run_cons, run_cons, deliver_step]
    simp [step, ends, isFinal]
  | cons c text ih =>
    cases read : numeral.next c with
    | none => simp [Numeral.accepts, read] at accepts
    | some next =>
      have goes : next.accepts text = true := by simpa [Numeral.accepts, read] using accepts
      have more := @ih (pre ++ [c]) next goes
      rw [List.append_assoc] at more
      rw [List.cons_append, run_cons, step]
      simpa [read] using more

theorem first_begins {c : Char} {numeral : Numeral} (first : Numeral.first c = some numeral)
    (due : r.mode = .value ∨ r.mode = .valueOrEnd) : r.step c = some { r with mode := .number numeral [c] } := by
  have apart : ∀ d, Numeral.first d = none → c ≠ d := by
    rintro d none rfl
    cases first.symm.trans none
  have begins : r.begins c = some { r with mode := .number numeral [c] } := by
    simp (disch := decide) [begins, first, apart]
  have dark : isSpace c = false := by
    simp (disch := decide) [isSpace, apart]
  rcases due with mode | mode
  · simp [step, mode, dark, begins]
  · simp (disch := decide) [step, mode, dark, begins, apart]

theorem run_number {text : List Char} (number : isNumber text = true) (due : r.mode = .value ∨ r.mode = .valueOrEnd)
    (stops : Stops rest) : r.run (text ++ rest) = (deliver (.number text) r.stack).run rest := by
  cases text with
  | nil => cases number
  | cons c text =>
    obtain ⟨numeral, first, accepts⟩ : ∃ numeral, Numeral.first c = some numeral ∧ numeral.accepts text = true := by
      simpa [isNumber, Option.any_eq_true] using number
    rw [List.cons_append, run_cons, first_begins first due]
    exact run_numeral accepts stops

theorem run_string {s : String} (due : r.mode = .value ∨ r.mode = .valueOrEnd) (rest : List Char) :
    r.run (quote s ++ rest) = (deliver (.string s) r.stack).run rest := by
  have opened : r.step '"' = some (r.within false []) := by
    rcases due with mode | mode <;> simp [step, begins, mode, isSpace, within]
  rw [quote, List.cons_append, List.cons_append, run_cons, opened, Option.bind_some, run_append, run_quoted,
    Option.bind_some]
  simp [closesString, Lexeme.settled]

theorem run_literal (word : Literal) (due : r.mode = .value ∨ r.mode = .valueOrEnd) (rest : List Char) :
    r.run (word.text ++ rest) = (deliver word.value r.stack).run rest := by
  have read : r.run word.text = some (deliver word.value r.stack) := by
    rcases due with mode | mode <;> cases word <;> simp [run, step, begins, mode, isSpace, Literal.text]
  rw [run_append, read, Option.bind_some]

theorem run_colon (members : List (String × Value)) (stack : List Frame) {mode : Mode}
    (due : mode = .key ∨ mode = .keyOrEnd) (key : String) (rest : List Char) :
    run { stack := .object members :: stack, mode := mode } (quote key ++ ':' :: rest) =
      run { stack := .member members key :: stack, mode := .value } rest := by
  have opened : step { stack := .object members :: stack, mode := mode } '"'
      = some (within { stack := .object members :: stack } true []) := by
    rcases due with rfl | rfl <;> rfl
  rw [quote, List.cons_append, List.cons_append, run_cons, opened, Option.bind_some, run_append, run_quoted,
    Option.bind_some]
  simp [closesString, Lexeme.settled, run, step, isSpace]

theorem run_key (members : List (String × Value)) (stack : List Frame) {mode : Mode}
    (due : mode = .key ∨ mode = .keyOrEnd) (key : String) (rest : List Char) :
    run { stack := .object members :: stack, mode := mode } (quote key ++ [':', ' '] ++ rest) =
      run { stack := .member members key :: stack, mode := .value } rest := by
  rw [List.append_assoc]
  exact run_colon members stack due key (' ' :: rest)

theorem items_delimited (depth : Nat) (items : List Value) (delimited : Delimited rest) :
    Delimited (indentItems depth items ++ rest) := by
  cases items with
  | nil => exact delimited
  | cons v items => exact ⟨',', _, rfl, .inr rfl⟩

theorem members_delimited (depth : Nat) (members : List (String × Value)) (delimited : Delimited rest) :
    Delimited (indentMembers depth members ++ rest) := by
  cases members with
  | nil => exact delimited
  | cons member members => exact ⟨',', _, rfl, .inr rfl⟩

theorem open_array (room : r.stack.length < maxNestingDepth) (due : r.mode = .value ∨ r.mode = .valueOrEnd) :
    r.step '[' = some { stack := .array [] :: r.stack, mode := .valueOrEnd } := by
  rcases due with mode | mode <;> simp [step, begins, push, mode, isSpace, room]

theorem open_object (room : r.stack.length < maxNestingDepth) (due : r.mode = .value ∨ r.mode = .valueOrEnd) :
    r.step '{' = some { stack := .object [] :: r.stack, mode := .keyOrEnd } := by
  rcases due with mode | mode <;> simp [step, begins, push, mode, isSpace, room]

mutual

theorem run_indent (depth : Nat) {room : Nat} (v : Value) (fits : Fits room v) {r : Reader}
    (roomy : r.stack.length + room ≤ maxNestingDepth) (due : r.mode = .value ∨ r.mode = .valueOrEnd) {rest : List Char}
    (delimited : Delimited rest) :
    r.run (indent depth v ++ rest) = (deliver v r.stack).run rest := by
  match v with
  | .null => exact run_literal .null due rest
  | .bool true => exact run_literal .yes due rest
  | .bool false => exact run_literal .no due rest
  | .number text => exact run_number fits due delimited.stops
  | .string s => exact run_string due rest
  | .array [] =>
    obtain ⟨free, _⟩ := fits
    rw [indent, List.cons_append, run_cons, open_array (by omega) due]
    rfl
  | .array (v :: items) =>
    obtain ⟨free, first, others⟩ := fits
    have closes := newline_delimited depth (']' :: rest)
    have inner : r.stack.length + 1 + (room - 1) ≤ maxNestingDepth := by omega
    have head := run_indent (depth + 1) v first (r := { stack := .array [] :: r.stack, mode := .valueOrEnd }) inner
      (.inr rfl)
      (items_delimited (depth + 1) items closes)
    have tail := run_items (depth + 1) items others [v] inner closes
    simp only [indent, List.append_assoc, List.cons_append, List.nil_append, run_cons,
      open_array (r := r) (by omega) due,
      Option.bind_some]
    rw [run_newline (.inr (.inl rfl)), head]
    refine tail.trans ?_
    rw [run_newline (.inr (.inr (.inr (.inr rfl))))]
    rfl
  | .object [] =>
    obtain ⟨free, _⟩ := fits
    rw [indent, List.cons_append, run_cons, open_object (by omega) due]
    rfl
  | .object ((key, v) :: members) =>
    obtain ⟨free, first, others⟩ := fits
    have closes := newline_delimited depth ('}' :: rest)
    have inner : r.stack.length + 1 + (room - 1) ≤ maxNestingDepth := by omega
    have head := run_indent (depth + 1) v first (r := { stack := .member [] key :: r.stack, mode := .value }) inner
      (.inl rfl)
      (members_delimited (depth + 1) members closes)
    have tail := run_members (depth + 1) members others [(key, v)] inner closes
    have keyed := run_key [] r.stack (.inr rfl) key
      (indent (depth + 1) v ++ (indentMembers (depth + 1) members ++ (newline depth ++ ('}' :: rest))))
    simp only [indent, List.append_assoc, List.cons_append, List.nil_append, run_cons,
      open_object (r := r) (by omega) due,
      Option.bind_some] at keyed ⊢
    rw [run_newline (.inr (.inr (.inr (.inl rfl)))), keyed, head]
    refine tail.trans ?_
    rw [run_newline (.inr (.inr (.inr (.inr rfl))))]
    rfl

theorem run_items (depth : Nat) {room : Nat} (items : List Value) (fits : FitsItems room items) (done : List Value)
    {stack : List Frame} (roomy : stack.length + 1 + room ≤ maxNestingDepth) {rest : List Char}
    (delimited : Delimited rest) :
    run { stack := .array done :: stack, mode := .comma } (indentItems depth items ++ rest) =
      run { stack := .array (done ++ items) :: stack, mode := .comma } rest := by
  match items with
  | [] => simp [indentItems]
  | v :: items =>
    have comma : step { stack := .array done :: stack, mode := .comma } ',' =
      some { stack := .array done :: stack, mode := .value } := rfl
    rw [indentItems, List.append_assoc, List.append_assoc, List.cons_append, run_cons, comma, Option.bind_some,
      run_newline (.inl rfl),
      run_indent depth v fits.1 (r := { stack := .array done :: stack, mode := .value }) roomy (.inl rfl)
        (items_delimited depth items delimited)]
    have more := run_items depth items fits.2 (done ++ [v]) roomy delimited
    rw [List.append_assoc] at more
    exact more

theorem run_members (depth : Nat) {room : Nat} (members : List (String × Value)) (fits : FitsMembers room members)
    (done : List (String × Value)) {stack : List Frame} (roomy : stack.length + 1 + room ≤ maxNestingDepth)
    {rest : List Char} (delimited : Delimited rest) :
    run { stack := .object done :: stack, mode := .comma } (indentMembers depth members ++ rest) =
      run { stack := .object (done ++ members) :: stack, mode := .comma } rest := by
  match members with
  | [] => simp [indentMembers]
  | (key, v) :: members =>
    have comma : step { stack := .object done :: stack, mode := .comma } ',' =
      some { stack := .object done :: stack, mode := .key } := rfl
    have head := run_indent depth v fits.1 (r := { stack := .member done key :: stack, mode := .value }) roomy
      (.inl rfl)
      (members_delimited depth members delimited)
    have tail := run_members depth members fits.2 (done ++ [(key, v)]) roomy delimited
    have keyed := run_key done stack (.inl rfl) key (indent depth v ++ (indentMembers depth members ++ rest))
    simp only [indentMembers, List.append_assoc, List.cons_append, List.nil_append, run_cons, comma, Option.bind_some]
      at keyed tail ⊢
    rw [run_newline (.inr (.inr (.inl rfl))), keyed, head]
    exact tail

end

end Reader

theorem parse_marshalIndent {v : Value} (fits : Fits maxNestingDepth v) : parse (marshalIndent v) = some v := by
  have ends : Reader.Delimited [' '] := ⟨' ', [], rfl, .inl rfl⟩
  have read := Reader.run_indent 0 v fits (r := {}) (by simp) (.inl rfl) ends
  have last : ∀ r : Reader, r.run [' '] = r.step ' ' := fun r => by
    rw [Reader.run_cons]
    cases r.step ' ' <;> rfl
  rw [Reader.run_append] at read
  unfold parse marshalIndent
  cases ran : Reader.run {} (indent 0 v) with
  | none =>
    rw [ran] at read
    cases read
  | some r =>
    rw [ran, Option.bind_some, last] at read
    change r.finish = some v
    rw [Reader.finish, read]
    rfl

/-! ### Bytes -/

def marshal (v : Value) : List UInt8 := Utf8.encode (marshalIndent v)

def unmarshal (data : List UInt8) : Option Value := parse (Utf8.decode data)

theorem unmarshal_marshal {v : Value} (fits : Fits maxNestingDepth v) : unmarshal (marshal v) = some v := by
  rw [unmarshal, marshal, Utf8.decode_encode, parse_marshalIndent fits]

theorem marshalIndent_object (members : List (String × Value)) :
    ∃ text, marshalIndent (.object members) = '{' :: text ∧ (text.getLast?.any isSpace) = false := by
  cases members with
  | nil => exact ⟨['}'], rfl, rfl⟩
  | cons member members =>
    obtain ⟨key, v⟩ := member
    refine ⟨_, rfl, ?_⟩
    rw [List.append_eq, List.getLast?_append_of_ne_nil _ (by simp)]
    rfl

/-- Of a file that holds an object no proper beginning is read. -/
theorem unmarshal_cut {members : List (String × Value)} (fits : Fits maxNestingDepth (.object members)) {k : Nat}
    (short : k < (marshal (.object members)).length) : unmarshal ((marshal (.object members)).take k) = none := by
  obtain ⟨p, q, junk, parts, more, decoded, foreign⟩ := Utf8.decode_cut (marshalIndent (.object members)) short
  obtain ⟨text, opens, last⟩ := marshalIndent_object members
  rw [unmarshal, marshal, decoded]
  rcases List.eq_nil_or_concat' junk with rfl | ⟨junk, c, rfl⟩
  · have read := parse_marshalIndent fits
    rw [opens] at read parts
    rw [List.append_nil]
    exact Reader.object_unread (by simp [read]) last parts more
  · rw [← List.append_assoc]
    exact Reader.foreign_unread (foreign c (by simp))

end Json
