import HomelabDaemon.Json.RoundTrip
import HomelabDaemon.Json.Stream
import HomelabDaemon.Strings.Digits

/-!
# The text on one line

What is sent over a wire has no blanks between its parts. A reader of the stream gets the value back and leaves
what follows it.
-/

namespace Json

mutual

def compact : Value → List Char
  | .null => "null".toList
  | .bool b => if b then "true".toList else "false".toList
  | .number text => text
  | .string s => quote s
  | .array [] => ['[', ']']
  | .array (v :: items) => '[' :: compact v ++ compactItems items ++ [']']
  | .object [] => ['{', '}']
  | .object ((key, v) :: members) => '{' :: quote key ++ ':' :: compact v ++ compactMembers members ++ ['}']

def compactItems : List Value → List Char
  | [] => []
  | v :: items => ',' :: compact v ++ compactItems items

def compactMembers : List (String × Value) → List Char
  | [] => []
  | (key, v) :: members => ',' :: quote key ++ ':' :: compact v ++ compactMembers members

end

namespace Reader
variable {rest : List Char}

theorem stops_cons {c : Char} (mark : c = ',' ∨ c = ']' ∨ c = '}') (rest : List Char) : Stops (c :: rest) := by
  refine ⟨c, rest, rfl, fun numeral => ?_⟩
  rcases mark with rfl | rfl | rfl <;> cases numeral <;> rfl

theorem items_stops (items : List Value) (stops : Stops rest) : Stops (compactItems items ++ rest) := by
  cases items with
  | nil => exact stops
  | cons v items => exact stops_cons (.inl rfl) _

theorem members_stops (members : List (String × Value)) (stops : Stops rest) :
    Stops (compactMembers members ++ rest) := by
  cases members with
  | nil => exact stops
  | cons member members => exact stops_cons (.inl rfl) _

mutual

theorem run_compact {room : Nat} (v : Value) (fits : Fits room v) {r : Reader}
    (roomy : r.stack.length + room ≤ maxNestingDepth)
    (due : r.mode = .value ∨ r.mode = .valueOrEnd) {rest : List Char}
    (stops : (∀ text, v ≠ .number text) ∨ Stops rest) :
    r.run (compact v ++ rest) = (deliver v r.stack).run rest := by
  match v with
  | .null => exact run_literal .null due rest
  | .bool true => exact run_literal .yes due rest
  | .bool false => exact run_literal .no due rest
  | .number text => exact run_number fits due (stops.resolve_left fun other => other text rfl)
  | .string s => exact run_string due rest
  | .array [] =>
    obtain ⟨free, _⟩ := fits
    rw [compact, List.cons_append, run_cons, open_array (by omega) due]
    rfl
  | .array (v :: items) =>
    obtain ⟨free, first, others⟩ := fits
    have closes := stops_cons (.inr (.inl rfl)) rest
    have inner : r.stack.length + 1 + (room - 1) ≤ maxNestingDepth := by omega
    have head := run_compact v first (r := { stack := .array [] :: r.stack, mode := .valueOrEnd }) inner (.inr rfl)
      (.inr (items_stops items closes))
    have tail := run_compactItems items others [v] inner closes
    simp only [compact, List.append_assoc, List.cons_append, List.nil_append, run_cons,
      open_array (r := r) (by omega) due,
      Option.bind_some]
    rw [head]
    exact tail
  | .object [] =>
    obtain ⟨free, _⟩ := fits
    rw [compact, List.cons_append, run_cons, open_object (by omega) due]
    rfl
  | .object ((key, v) :: members) =>
    obtain ⟨free, first, others⟩ := fits
    have closes := stops_cons (.inr (.inr rfl)) rest
    have inner : r.stack.length + 1 + (room - 1) ≤ maxNestingDepth := by omega
    have head := run_compact v first (r := { stack := .member [] key :: r.stack, mode := .value }) inner (.inl rfl)
      (.inr (members_stops members closes))
    have tail := run_compactMembers members others [(key, v)] inner closes
    simp only [compact, List.append_assoc, List.cons_append, List.nil_append, run_cons,
      open_object (r := r) (by omega) due,
      Option.bind_some]
    rw [run_colon [] r.stack (.inr rfl), head]
    exact tail

theorem run_compactItems {room : Nat} (items : List Value) (fits : FitsItems room items) (done : List Value)
    {stack : List Frame} (roomy : stack.length + 1 + room ≤ maxNestingDepth) {rest : List Char} (stops : Stops rest) :
    run { stack := .array done :: stack, mode := .comma } (compactItems items ++ rest) =
      run { stack := .array (done ++ items) :: stack, mode := .comma } rest := by
  match items with
  | [] => simp [compactItems]
  | v :: items =>
    have comma : step { stack := .array done :: stack, mode := .comma } ',' =
      some { stack := .array done :: stack, mode := .value } := rfl
    have more := run_compactItems items fits.2 (done ++ [v]) roomy stops
    rw [List.append_assoc] at more
    rw [compactItems, List.append_assoc, List.cons_append, run_cons, comma, Option.bind_some,
      run_compact v fits.1 (r := { stack := .array done :: stack, mode := .value }) roomy (.inl rfl)
        (.inr (items_stops items stops))]
    exact more

theorem run_compactMembers {room : Nat} (members : List (String × Value)) (fits : FitsMembers room members)
    (done : List (String × Value)) {stack : List Frame} (roomy : stack.length + 1 + room ≤ maxNestingDepth)
    {rest : List Char} (stops : Stops rest) :
    run { stack := .object done :: stack, mode := .comma } (compactMembers members ++ rest) =
      run { stack := .object (done ++ members) :: stack, mode := .comma } rest := by
  match members with
  | [] => simp [compactMembers]
  | (key, v) :: members =>
    have comma : step { stack := .object done :: stack, mode := .comma } ',' =
      some { stack := .object done :: stack, mode := .key } := rfl
    have head := run_compact v fits.1 (r := { stack := .member done key :: stack, mode := .value }) roomy (.inl rfl)
      (.inr (members_stops members stops))
    have tail := run_compactMembers members fits.2 (done ++ [(key, v)]) roomy stops
    simp only [compactMembers, List.append_assoc, List.cons_append, List.nil_append, run_cons, comma,
      Option.bind_some] at tail ⊢
    rw [run_colon done stack (.inl rfl), head]
    exact tail

end

/-- A value that ends with the text is the first one that is read. -/
theorem readValue_run {r r' : Reader} {s : List Char} {v : Value} (waits : r.value = none) (ran : r.run s = some r')
    (done : r'.mode = .done v) (last : s.getLast?.any isSpace = false) : r.readValue s = some (v, []) := by
  induction s generalizing r with
  | nil =>
    cases ran
    rw [value, done] at waits
    cases waits
  | cons c s ih =>
    rw [run_cons] at ran
    obtain ⟨next, stepped, ran⟩ := Option.bind_eq_some_iff.mp ran
    cases found : next.value with
    | none =>
      rw [readValue_on stepped found]
      cases s with
      | nil =>
        cases ran
        rw [value, done] at found
        cases found
      | cons d s => exact ih found ran (by simpa using last)
    | some w =>
      have ended : next.mode = .done w := by
        unfold value at found
        split at found
        · rename_i mode
          rw [mode, Option.some.inj found]
        · cases found
      obtain ⟨rfl, blank⟩ := run_done ended ran
      obtain rfl := Mode.done.inj (ended.symm.trans done)
      rw [readValue_done stepped found]
      rcases List.eq_nil_or_concat' s with rfl | ⟨s, d, rfl⟩
      · rfl
      · have spaced := blank d (by simp)
        rw [← List.cons_append, List.getLast?_concat, Option.any_some, spaced] at last
        cases last

end Reader

variable {v : Value}

theorem compact_last (v : Value) (other : ∀ text, v ≠ .number text) : (compact v).getLast?.any isSpace = false := by
  match v with
  | .null => rfl
  | .bool true => rfl
  | .bool false => rfl
  | .number text => exact absurd rfl (other text)
  | .string s =>
    rw [compact, quote, List.getLast?_concat]
    rfl
  | .array [] => rfl
  | .array (v :: items) =>
    rw [compact, List.getLast?_concat]
    rfl
  | .object [] => rfl
  | .object ((key, v) :: members) =>
    rw [compact, List.getLast?_concat]
    rfl

theorem run_whole (fits : Fits maxNestingDepth v) (other : ∀ text, v ≠ .number text) :
    Reader.run {} (compact v) = some { mode := .done v } := by
  have ran : Reader.run {} (compact v ++ []) = Reader.run (Reader.deliver v []) [] :=
    Reader.run_compact v fits (by simp) (.inl rfl) (.inl other)
  rwa [List.append_nil] at ran

theorem parse_compact (fits : Fits maxNestingDepth v) (other : ∀ text, v ≠ .number text) :
    parse (compact v) = some v := by
  rw [parse, run_whole fits other]
  rfl

theorem readValue_compact (fits : Fits maxNestingDepth v) (other : ∀ text, v ≠ .number text) (rest : List Char) :
    Reader.readValue {} (compact v ++ rest) = some (v, rest) :=
  Reader.readValue_append (Reader.readValue_run rfl (run_whole fits other) rfl (compact_last v other)) rest

/-! ### Integers -/

theorem first_digit {c : Char} (digit : c.isDigit = true) (nonzero : c ≠ '0') : Numeral.first c = some .digits := by
  have unsigned : c ≠ '-' := by
    rintro rfl
    cases digit
  simp [Numeral.first, unsigned, nonzero, digit]

theorem accepts_digits {text : List Char} (digits : ∀ c ∈ text, c.isDigit = true) :
    Numeral.digits.accepts text = true := by
  induction text with
  | nil => rfl
  | cons c text ih =>
    have next : Numeral.digits.next c = some .digits := by simp [Numeral.next, digits c List.mem_cons_self]
    have more := ih fun d member => digits d (List.mem_cons_of_mem c member)
    simpa [Numeral.accepts, next] using more

theorem digitChar_nonzero : ∀ n < 10, 0 < n → n.digitChar ≠ '0' := by decide

theorem toDigits_first {n : Nat} (pos : 0 < n) : ∃ c text, Nat.toDigits 10 n = c :: text ∧ c ≠ '0' := by
  induction n using Nat.strongRecOn with
  | ind n ih =>
    by_cases small : n < 10
    · exact ⟨n.digitChar, [], Nat.toDigits_of_lt_base small, digitChar_nonzero n small pos⟩
    · obtain ⟨c, text, digits, nonzero⟩ := ih (n / 10) (by omega) (by omega)
      exact ⟨c, _, by rw [Nat.toDigits_of_base_le (by decide) (by omega), digits]; rfl, nonzero⟩

theorem isNumber_toDigits (n : Nat) : isNumber (Nat.toDigits 10 n) = true ∧
    isNumber ('-' :: Nat.toDigits 10 n) = true := by
  rcases Nat.eq_zero_or_pos n with rfl | pos
  · exact ⟨rfl, rfl⟩
  · obtain ⟨c, text, digits, nonzero⟩ := toDigits_first pos
    have all := Strings.toDigits_digits n
    rw [digits] at all ⊢
    have digit := all c List.mem_cons_self
    have goes := accepts_digits fun d member => all d (List.mem_cons_of_mem c member)
    have next : Numeral.negative.next c = some .digits := by simp [Numeral.next, nonzero, digit]
    refine ⟨?_, ?_⟩
    · simpa [isNumber, first_digit digit nonzero] using goes
    · simpa [isNumber, Numeral.first, Numeral.accepts, next] using goes

theorem isNumber_toString (n : Int) : isNumber (toString n).toList = true := by
  obtain ⟨m, ⟨digits, _⟩ | ⟨digits, _⟩⟩ := Strings.toString_cases n
  · rw [digits]
    exact (isNumber_toDigits m).1
  · rw [digits]
    exact (isNumber_toDigits m).2

theorem fitsItems_iff {room : Nat} {items : List Value} : FitsItems room items ↔ ∀ v ∈ items, Fits room v := by
  induction items with
  | nil => exact iff_of_true trivial nofun
  | cons v items ih => rw [FitsItems, ih, List.forall_mem_cons]

theorem fitsMembers_iff {room : Nat} {members : List (String × Value)} :
    FitsMembers room members ↔ ∀ member ∈ members, Fits room member.2 := by
  induction members with
  | nil => exact iff_of_true trivial nofun
  | cons member members ih => rw [FitsMembers, ih, List.forall_mem_cons]

end Json
