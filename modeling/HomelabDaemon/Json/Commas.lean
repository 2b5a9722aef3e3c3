import HomelabDaemon.Json.Blur
import HomelabDaemon.Strings

/-!
# Dropping commas between objects

A stream of objects has no commas between them. Where a text that has some is read as a stream, the comma is
dropped wherever a brace closes before it and a blank and an opening brace follow, inside strings too.
-/

namespace Json

/-- What follows a comma that is dropped. -/
def opensAfter (blanks : List Char) : List Char → Bool
  | w :: '{' :: _ => w ∈ blanks
  | _ => false

/-- `after` says whether a closing brace stands before the text. -/
def dropCommas (blanks : List Char) (after : Bool) : List Char → List Char
  | [] => []
  | c :: s =>
    if after ∧ c = ',' ∧ opensAfter blanks s then dropCommas blanks false s else c :: dropCommas blanks (c = '}') s

/-- Whether the reader loses a comma between two objects of an array. -/
def Reader.loses (blanks : List Char) (r : Reader) (after : Bool) : List Char → Bool
  | [] => false
  | c :: s => match r.step c with
    | none => false
    | some r' => after && c == ',' && opensAfter blanks s && (r.mode matches .comma) || r'.loses blanks (c = '}') s

variable {blanks : List Char} {after : Bool} {s t p u : List Char} {c : Char}

theorem opensAfter_iff : opensAfter blanks s = true ↔ ∃ w t, s = w :: '{' :: t ∧ w ∈ blanks := by
  unfold opensAfter
  split
  · simp
  · rename_i other
    simp only [Bool.false_eq_true, false_iff]
    rintro ⟨w, t, rfl, _⟩
    exact other w t rfl

theorem opensAfter_append (opens : opensAfter blanks s = true) (t : List Char) : opensAfter blanks (s ++ t) = true := by
  obtain ⟨w, u, rfl, member⟩ := opensAfter_iff.mp opens
  exact opensAfter_iff.mpr ⟨w, u ++ t, rfl, member⟩

theorem dropCommas_drop (opens : opensAfter blanks s = true) :
    dropCommas blanks true (',' :: s) = dropCommas blanks false s := if_pos ⟨rfl, rfl, opens⟩

theorem dropCommas_keep (kept : ¬ (after = true ∧ c = ',' ∧ opensAfter blanks s = true)) :
    dropCommas blanks after (c :: s) = c :: dropCommas blanks (c = '}') s := if_neg kept

theorem dropCommas_cons (other : c ≠ ',') : dropCommas blanks after (c :: s) = c :: dropCommas blanks (c = '}') s :=
  dropCommas_keep fun drops => other drops.2.1

theorem dropCommas_false : dropCommas blanks false (c :: s) = c :: dropCommas blanks (c = '}') s :=
  dropCommas_keep fun drops => Bool.false_ne_true drops.1

/-- A closing brace before the text matters only when a comma that is dropped comes first. -/
theorem dropCommas_after (kept : ∀ s', opensAfter blanks s' = true → s ≠ ',' :: s') :
    dropCommas blanks true s = dropCommas blanks false s := by
  match s with
  | [] => rfl
  | c :: s =>
    have stays : ¬ (true = true ∧ c = ',' ∧ opensAfter blanks s = true) := by
      rintro ⟨_, rfl, opens⟩
      exact kept s opens rfl
    rw [dropCommas_keep stays, dropCommas_false]

/-- A text is read on as if nothing stood before it, except for a comma that is dropped at once. -/
theorem dropCommas_start (after : Bool) (s : List Char) :
    ∃ t, t <:+ s ∧ dropCommas blanks after s = dropCommas blanks false t := by
  match s with
  | [] => exact ⟨[], List.suffix_rfl, rfl⟩
  | c :: s =>
    by_cases drops : after = true ∧ c = ',' ∧ opensAfter blanks s = true
    · exact ⟨s, List.suffix_cons c s, if_pos drops⟩
    · exact ⟨c :: s, List.suffix_rfl, (dropCommas_keep drops).trans dropCommas_false.symm⟩

section Blanks
variable (white : ∀ w ∈ blanks, isSpace w = true)

theorem space_ne {w d : Char} (space : isSpace w = true) (inked : isSpace d = false) : w ≠ d := by
  rintro rfl
  rw [space] at inked
  cases inked

include white in
theorem dropCommas_opens (opens : opensAfter blanks s = true) :
    ∃ w t, s = w :: '{' :: t ∧ w ∈ blanks ∧ isSpace w = true ∧
      ∀ blanks' after, dropCommas blanks' after s = w :: '{' :: dropCommas blanks' false t := by
  obtain ⟨w, t, rfl, member⟩ := opensAfter_iff.mp opens
  have space := white w member
  refine ⟨w, t, rfl, member, space, fun blanks' after => ?_⟩
  rw [dropCommas_cons (space_ne space rfl), dropCommas_cons (by decide)]
  rfl

theorem dropCommas_blank (blank : ∀ c ∈ u, isSpace c = true) (s : List Char) :
    dropCommas blanks false (u ++ s) = u ++ dropCommas blanks false s := by
  induction u with
  | nil => rfl
  | cons c u ih =>
    have space := blank c List.mem_cons_self
    rw [List.cons_append, dropCommas_false, decide_eq_false (space_ne space rfl), List.cons_append,
      ih fun c' member => blank c' (List.mem_cons_of_mem c member)]

theorem dropCommas_blanks (blank : ∀ c ∈ u, isSpace c = true) (more : u ≠ []) (s : List Char) :
    dropCommas blanks after (u ++ s) = u ++ dropCommas blanks false s := by
  match u with
  | [] => exact absurd rfl more
  | c :: u =>
    have space := blank c List.mem_cons_self
    rw [List.cons_append, dropCommas_cons (space_ne space rfl), decide_eq_false (space_ne space rfl), List.cons_append,
      dropCommas_blank fun c' member => blank c' (List.mem_cons_of_mem c member)]

end Blanks

/-! ### Replacing the commas -/

theorem replaceAll_comma {w : Char} (space : isSpace w = true) (s : List Char) :
    Strings.replaceAll s ['}', ',', w, '{'] ['}', w, '{'] = dropCommas [w] false s := by
  have white : ∀ c ∈ [w], isSpace c = true := by simpa using space
  induction size : s.length using Nat.strong_induction_on generalizing s with
  | _ n ih =>
    match s with
    | [] => rfl
    | c :: s =>
      by_cases found : ['}', ',', w, '{'] <+: c :: s
      · obtain ⟨t, parts⟩ := found
        have shorter : t.length < n := by
          rw [← size, ← parts, List.length_append, List.length_cons]
          omega
        have opens : opensAfter [w] (w :: '{' :: t) = true := opensAfter_iff.mpr ⟨w, t, rfl, List.mem_cons_self⟩
        have whole : dropCommas [w] false ('}' :: ',' :: w :: '{' :: t) = '}' :: w :: '{' ::
          dropCommas [w] false t := by
          rw [dropCommas_false, decide_eq_true rfl, dropCommas_drop opens, dropCommas_false,
            decide_eq_false (space_ne space rfl), dropCommas_false]
          rfl
        rw [← parts, Strings.replaceAll_found (List.cons_ne_nil _ _), ih _ shorter t rfl]
        exact whole.symm
      · have shorter : s.length < n := by
          rw [← size, List.length_cons]
          omega
        rw [Strings.replaceAll_cons found, ih _ shorter s rfl, dropCommas_false]
        by_cases closes : c = '}'
        · have same : dropCommas [w] true s = dropCommas [w] false s := by
            refine dropCommas_after fun s' opens => ?_
            rintro rfl
            obtain ⟨w', t, rfl, member⟩ := opensAfter_iff.mp opens
            rw [closes, List.mem_singleton.mp member] at found
            exact found (List.prefix_append ['}', ',', w, '{'] t)
          rw [decide_eq_true closes, same]
        · rw [decide_eq_false closes]

theorem opensAfter_append_iff {blanks' : List Char} :
    opensAfter (blanks ++ blanks') s = true ↔ opensAfter blanks s = true ∨ opensAfter blanks' s = true := by
  simp only [opensAfter_iff, List.mem_append, and_or_left, exists_or]

theorem opensAfter_dropCommas {blanks' : List Char} (white : ∀ w ∈ blanks, isSpace w = true) :
    opensAfter blanks (dropCommas blanks' false s) = true ↔ opensAfter blanks s = true := by
  refine ⟨fun opens => ?_, fun opens => ?_⟩
  · match s with
    | [] => cases opens
    | c :: s =>
      rw [dropCommas_false] at opens
      obtain ⟨w, t, parts, member⟩ := opensAfter_iff.mp opens
      obtain ⟨rfl, tail⟩ := List.cons.inj parts
      rw [decide_eq_false (space_ne (white c member) rfl)] at tail
      match s with
      | [] => cases tail
      | d :: s =>
        rw [dropCommas_false] at tail
        exact opensAfter_iff.mpr ⟨c, s, by rw [(List.cons.inj tail).1], member⟩
  · obtain ⟨w, t, _, member, _, dropped⟩ := dropCommas_opens white opens
    rw [dropped]
    exact opensAfter_iff.mpr ⟨w, _, rfl, member⟩

theorem dropCommas_dropCommas {blanks' : List Char} (white : ∀ w ∈ blanks, isSpace w = true)
    (white' : ∀ w ∈ blanks', isSpace w = true) (after : Bool) (s : List Char) :
    dropCommas blanks' after (dropCommas blanks after s) = dropCommas (blanks ++ blanks') after s := by
  induction s generalizing after with
  | nil => rfl
  | cons c s ih =>
    by_cases drops : after = true ∧ c = ',' ∧ opensAfter blanks s = true
    · obtain ⟨rfl, rfl, opens⟩ := drops
      obtain ⟨w, t, _, _, space, dropped⟩ := dropCommas_opens white opens
      have here : dropCommas blanks' true (dropCommas blanks false s) = dropCommas blanks' false
        (dropCommas blanks false s) := by
        rw [dropped, dropCommas_cons (space_ne space rfl), dropCommas_cons (space_ne space rfl)]
      rw [dropCommas_drop opens, dropCommas_drop (opensAfter_append_iff.mpr (.inl opens)), here, ih]
    · rw [dropCommas_keep drops]
      by_cases drops' : after = true ∧ c = ',' ∧ opensAfter blanks' s = true
      · obtain ⟨rfl, rfl, opens⟩ := drops'
        have still : opensAfter blanks' (dropCommas blanks false s) = true := (opensAfter_dropCommas white').mpr opens
        rw [dropCommas_drop (opensAfter_append_iff.mpr (.inr opens)), ← ih]
        exact dropCommas_drop still
      · have kept : ¬ (after = true ∧ c = ',' ∧ opensAfter blanks' (dropCommas blanks (c = '}') s) = true) := by
          rintro ⟨rfl, rfl, opens⟩
          exact drops' ⟨rfl, rfl, (opensAfter_dropCommas white').mp opens⟩
        have kept' : ¬ (after = true ∧ c = ',' ∧ opensAfter (blanks ++ blanks') s = true) := by
          rintro ⟨behind, comma, opens⟩
          rcases opensAfter_append_iff.mp opens with opens | opens
          · exact drops ⟨behind, comma, opens⟩
          · exact drops' ⟨behind, comma, opens⟩
        rw [dropCommas_keep kept, dropCommas_keep kept', ih]

/-! ### Reading on without the commas -/

namespace Reader

/-- Behind a closing brace a reader is between values, or in a string that holds the brace. -/
def AfterBrace (r : Reader) : Prop := r.mode = .comma ∨ ∃ isKey l, r.mode = .string isKey l .plain ∧ '}' ∈ l.text

theorem deliver_comma (v : Value) (stack : List Frame) (unfinished : (deliver v stack).value = none) :
    (deliver v stack).mode = .comma := by
  match stack with
  | [] => cases unfinished
  | .array items :: stack => rfl
  | .object members :: stack => rfl
  | .member members key :: stack => rfl

theorem between_brace {r r' : Reader} (went : r.between '}' = some r') (unfinished : r'.value = none) :
    r'.mode = .comma := by
  obtain ⟨stack, mode⟩ := r
  match stack with
  | [] => cases went
  | .array items :: stack => cases went
  | .member members key :: stack => cases went
  | .object members :: stack =>
    cases went
    exact deliver_comma _ stack unfinished

theorem step_brace {r r' : Reader} (stepped : r.step '}' = some r') (unfinished : r'.value = none) : r'.AfterBrace := by
  obtain ⟨stack, mode⟩ := r
  cases mode with
  | value => cases stepped
  | valueOrEnd => cases stepped
  | key => cases stepped
  | keyOrEnd => exact .inl (between_brace stepped unfinished)
  | colon name =>
    match stack with
    | [] => cases stepped
    | .array items :: stack => cases stepped
    | .member members key :: stack => cases stepped
    | .object members :: stack => cases stepped
  | comma => exact .inl (between_brace stepped unfinished)
  | string isKey l spot =>
    cases spot with
    | plain =>
      cases stepped
      exact .inr ⟨isKey, l.add '}', rfl, List.mem_append_right _ List.mem_cons_self⟩
    | escaped => cases stepped
    | hex digits => cases stepped
  | number numeral text =>
    have ends : numeral.next '}' = none := by cases numeral <;> rfl
    simp only [step, ends] at stepped
    split_ifs at stepped
    exact .inl (between_brace stepped unfinished)
  | literal word read =>
    have other : word.text[read]? ≠ some '}' := by
      intro same
      have member := List.mem_of_getElem? same
      revert member
      cases word <;> decide
    simp only [step, if_pos other] at stepped
    cases stepped
  | done v => cases stepped

theorem mode_comma {r q : Reader} (alike : r.blur = q.blur) (between : r.mode = .comma) : q.mode = .comma := by
  have modes := congrArg Reader.mode alike
  rw [show r.blur.mode = r.mode.blur from rfl, show q.blur.mode = q.mode.blur from rfl, between] at modes
  revert modes
  cases q.mode with
  | comma => exact fun _ => rfl
  | string isKey l spot => cases isKey <;> exact nofun
  | _ => exact nofun

theorem step_alike {r r' q : Reader} (alike : r.blur = q.blur) (stepped : r.step c = some r') :
    ∃ q', q.step c = some q' ∧ r'.blur = q'.blur := by
  have same : (r.step c).map blur = (q.step c).map blur := by rw [step_blur, alike, ← step_blur]
  rw [stepped, Option.map_some, eq_comm, Option.map_eq_some_iff] at same
  obtain ⟨q', there, blurs⟩ := same
  exact ⟨q', there, blurs.symm⟩

theorem value_alike {r q : Reader} (alike : r.blur = q.blur) : r.value.map Value.blur = q.value.map Value.blur := by
  rw [← value_blur, alike, value_blur]

/-- A comma in a string that holds a brace leaves the reader as it is, up to the string. -/
theorem step_quiet {r : Reader} {isKey : Bool} {l : Lexeme} (inside : r.mode = .string isKey l .plain)
    (brace : '}' ∈ l.text) : ∃ r', r.step ',' = some r' ∧ r'.blur = r.blur ∧ r'.value = none := by
  refine ⟨{ r with mode := .string isKey (l.add ',') .plain }, ?_, ?_, rfl⟩
  · unfold step
    rw [inside]
    rfl
  · unfold blur
    rw [inside]
    cases isKey with
    | false => rfl
    | true =>
      dsimp only [Mode.blur]
      rw [Lexeme.blur_brace brace, Lexeme.blur_brace (Lexeme.mem_add brace ',')]

theorem step_comma {r r' : Reader} (between : r.mode = .comma) (stepped : r.step ',' = some r') :
    r'.mode = .value ∨ r'.mode = .key := by
  obtain ⟨stack, mode⟩ := r
  cases between
  match stack with
  | [] => cases stepped
  | .member members key :: stack => cases stepped
  | .array items :: stack =>
    cases stepped
    exact .inl rfl
  | .object members :: stack =>
    cases stepped
    exact .inr rfl

theorem due_unfinished {r : Reader} (due : r.mode = .value ∨ r.mode = .key) : r.value = none := by
  unfold value
  rcases due with due | due <;> rw [due]

theorem due_waits {r : Reader} (due : r.mode = .value ∨ r.mode = .key) (space : isSpace c = true) :
    r.step c = some r := by
  unfold step
  rcases due with due | due <;> rw [due] <;> exact if_pos space

/-- Between values a reader stops at an opening brace. -/
theorem readValue_comma {q : Reader} {w : Char} (between : q.mode = .comma) (space : isSpace w = true) :
    q.readValue (w :: '{' :: s) = none := by
  obtain ⟨stack, mode⟩ := q
  cases between
  have waits : step { stack := stack, mode := .comma } w = some { stack := stack, mode := .comma } := if_pos space
  rw [readValue_on waits rfl]
  refine readValue_stuck ?_
  match stack with
  | [] => rfl
  | .array items :: stack => rfl
  | .object members :: stack => rfl
  | .member members key :: stack => rfl

section Read
variable (white : ∀ w ∈ blanks, isSpace w = true) {r q : Reader} {v w : Value}
include white

/-- What is read without the commas is read with them. -/
theorem read_of_dropCommas (alike : r.blur = q.blur) (behind : after = true → r.AfterBrace)
    (read : q.readValue (dropCommas blanks after s) = some (w, u)) :
    ∃ p t v after', s = p ++ t ∧ u = dropCommas blanks after' t ∧ r.readValue p = some (v, []) ∧ v.blur = w.blur := by
  induction s generalizing r q after with
  | nil => cases read
  | cons c s ih =>
    by_cases drops : after = true ∧ c = ',' ∧ opensAfter blanks s = true
    · obtain ⟨rfl, rfl, opens⟩ := drops
      rw [dropCommas_drop opens] at read
      rcases behind rfl with between | ⟨isKey, l, inside, brace⟩
      · obtain ⟨_, _, _, _, space, dropped⟩ := dropCommas_opens white opens
        rw [dropped, readValue_comma (mode_comma alike between) space] at read
        cases read
      · obtain ⟨r', stepped, same, unfinished⟩ := step_quiet inside brace
        have outside : false = true → r'.AfterBrace := nofun
        obtain ⟨p, t, v, after', rfl, rest, inner, blurs⟩ := ih (same.trans alike) outside read
        exact ⟨',' :: p, t, v, after', rfl, rest, (readValue_on stepped unfinished).trans inner, blurs⟩
    · rw [dropCommas_keep drops] at read
      obtain ⟨q', went, ends⟩ := readValue_cons read
      obtain ⟨r', stepped, same⟩ := step_alike alike.symm went
      have values := value_alike same
      rcases ends with ⟨done, rfl⟩ | ⟨unfinished, read⟩
      · rw [done, Option.map_some, eq_comm, Option.map_eq_some_iff] at values
        obtain ⟨v, finished, blurs⟩ := values
        exact ⟨[c], s, v, _, rfl, rfl, readValue_done stepped finished, blurs⟩
      · rw [unfinished, Option.map_none, eq_comm, Option.map_eq_none_iff] at values
        have behind' : decide (c = '}') = true → r'.AfterBrace := by
          intro closes
          rw [of_decide_eq_true closes] at stepped
          exact step_brace stepped values
        obtain ⟨p, t, v, after', rfl, rest, inner, blurs⟩ := ih same.symm behind' read
        exact ⟨c :: p, t, v, after', rfl, rest, (readValue_on stepped values).trans inner, blurs⟩

/-- Of a reader between values a comma and an opening brace are read in an array only, and not at its end. -/
theorem opens_of_read {r' : Reader} (due : r'.mode = .value ∨ r'.mode = .key) (read : r'.readValue p = some (v, []))
    (opens : opensAfter blanks (p ++ t) = true) : opensAfter blanks p = true := by
  obtain ⟨w, t', parts, member⟩ := opensAfter_iff.mp opens
  match p with
  | [] => cases read
  | [c] =>
    obtain ⟨rfl, _⟩ := List.cons.inj parts
    rw [readValue_on (due_waits due (white c member)) (due_unfinished due)] at read
    cases read
  | c :: d :: p =>
    simp only [List.cons_append, List.cons.injEq] at parts
    obtain ⟨rfl, rfl, _⟩ := parts
    exact opensAfter_iff.mpr ⟨c, p, rfl, member⟩

/-- What is read with the commas is read without them, as long as none is lost between two objects of an array. -/
theorem read_dropCommas (alike : r.blur = q.blur) (behind : after = true → r.AfterBrace)
    (read : r.readValue p = some (v, [])) (t : List Char) :
    r.loses blanks after p = true ∧ q.readValue (dropCommas blanks after (p ++ t)) = none ∨
    r.loses blanks after p = false ∧ ∃ w, w.blur = v.blur ∧
      q.readValue (dropCommas blanks after (p ++ t)) = some (w, dropCommas blanks (p.getLast? = some '}') t) := by
  induction p generalizing r q after with
  | nil => cases read
  | cons c p ih =>
    obtain ⟨r', stepped, ends⟩ := readValue_cons read
    rw [List.cons_append, loses, stepped]
    dsimp only
    by_cases drops : after = true ∧ c = ',' ∧ opensAfter blanks (p ++ t) = true
    · obtain ⟨rfl, rfl, opens⟩ := drops
      rw [dropCommas_drop opens]
      rcases behind rfl with between | ⟨isKey, l, inside, brace⟩
      · obtain ⟨_, _, _, _, space, dropped⟩ := dropCommas_opens white opens
        have due := step_comma between stepped
        rw [due_unfinished due] at ends
        obtain ⟨⟨⟩, _⟩ | ⟨_, read⟩ := ends
        rw [between, opens_of_read white due read opens, dropped, readValue_comma (mode_comma alike between) space]
        exact .inl ⟨rfl, rfl⟩
      · obtain ⟨_, went, same, unfinished⟩ := step_quiet inside brace
        obtain rfl := Option.some.inj (stepped.symm.trans went)
        rw [unfinished] at ends
        obtain ⟨⟨⟩, _⟩ | ⟨_, read⟩ := ends
        have outside : false = true → r'.AfterBrace := nofun
        have more : p ≠ [] := by
          rintro rfl
          cases read
        rw [inside, Bool.and_false, Bool.false_or, List.getLast?_cons_of_ne_nil more]
        exact ih (same.trans alike) outside read
    · have kept : (after && c == ',' && opensAfter blanks p) = false := by
        rw [Bool.eq_false_iff]
        intro lost
        simp only [Bool.and_eq_true, beq_iff_eq] at lost
        exact drops ⟨lost.1.1, lost.1.2, opensAfter_append lost.2 t⟩
      rw [dropCommas_keep drops, kept, Bool.false_and, Bool.false_or]
      obtain ⟨q', went, same⟩ := step_alike alike stepped
      have values := value_alike same
      rcases ends with ⟨done, rfl⟩ | ⟨unfinished, read⟩
      · rw [done, Option.map_some, eq_comm, Option.map_eq_some_iff] at values
        obtain ⟨w, finished, blurs⟩ := values
        refine .inr ⟨rfl, w, blurs, ?_⟩
        rw [readValue_done went finished]
        simp only [List.nil_append, List.getLast?_singleton, Option.some.injEq]
      · rw [unfinished, Option.map_none, eq_comm, Option.map_eq_none_iff] at values
        have behind' : decide (c = '}') = true → r'.AfterBrace := by
          intro closes
          rw [of_decide_eq_true closes] at stepped
          exact step_brace stepped unfinished
        have more : p ≠ [] := by
          rintro rfl
          cases read
        rw [readValue_on went values, List.getLast?_cons_of_ne_nil more]
        exact ih same behind' read

theorem of_dropCommas (read : readValue {} (dropCommas blanks false s) = some (w, u)) :
    ∃ p t v after', s = p ++ t ∧ u = dropCommas blanks after' t ∧ readValue {} p = some (v, []) ∧ v.blur = w.blur := by
  have outside : false = true → AfterBrace {} := nofun
  exact read_of_dropCommas white rfl outside read

theorem without_commas (read : readValue {} p = some (v, [])) (t : List Char) :
    loses blanks {} false p = true ∧ readValue {} (dropCommas blanks false (p ++ t)) = none ∨
    loses blanks {} false p = false ∧ ∃ w, w.blur = v.blur ∧
      readValue {} (dropCommas blanks false (p ++ t)) = some (w, dropCommas blanks (p.getLast? = some '}') t) := by
  have outside : false = true → AfterBrace {} := nofun
  exact read_dropCommas white rfl outside read t

end Read

end Reader

/-! ### Between two objects -/

/-- What stands between two elements of an array. -/
def Separates (gap : List Char) : Prop :=
  ∃ pre post, (∀ c ∈ pre, isSpace c = true) ∧ (∀ c ∈ post, isSpace c = true) ∧ gap = pre ++ ',' :: post

/-- The start of an object, or nothing. -/
def Opens (s : List Char) : Prop := s = [] ∨ ∃ t, s = '{' :: t

/-- A gap that is a stream's once the commas are dropped. -/
def clears (blanks : List Char) (gap : List Char) : Bool := gap.all isSpace || blanks.any fun w => gap == [',', w]

theorem clears_iff : clears blanks u = true ↔ (∀ c ∈ u, isSpace c = true) ∨ ∃ w ∈ blanks, u = [',', w] := by
  simp only [clears, Bool.or_eq_true, List.all_eq_true, List.any_eq_true, beq_iff_eq]

theorem Opens.dropCommas_eq (opens : Opens s) (after : Bool) :
    dropCommas blanks after s = dropCommas blanks false s := by
  obtain rfl | ⟨t, rfl⟩ := opens
  · rfl
  · rw [dropCommas_cons (by decide), dropCommas_false]

namespace Reader

theorem read_blank (blank : ∀ c ∈ u, isSpace c = true) (opens : Opens s) (after : Bool) :
    readValue {} (dropCommas blanks after (u ++ s)) = readValue {} (dropCommas blanks false s) := by
  by_cases nothing : u = []
  · rw [nothing, List.nil_append, opens.dropCommas_eq]
  · rw [dropCommas_blanks blank nothing, readValue_blank blank]

section Gap
variable (white : ∀ w ∈ blanks, isSpace w = true)
include white

/-- A blank and an opening brace are seen behind a comma when the blank stands there alone. -/
theorem opens_gap {post : List Char} (blank : ∀ c ∈ post, isSpace c = true) (opens : Opens s)
    (drops : opensAfter blanks (post ++ s) = true) : ∃ w ∈ blanks, post = [w] := by
  obtain ⟨w, t, parts, member⟩ := opensAfter_iff.mp drops
  match post with
  | [] =>
    obtain rfl | ⟨t', rfl⟩ := opens
    · cases parts
    · cases parts
      cases white '{' member
  | [d] => exact ⟨w, member, by rw [(List.cons.inj parts).1]⟩
  | d :: e :: post =>
    cases parts
    cases blank '{' (List.mem_cons_of_mem _ List.mem_cons_self)

theorem read_separator {post : List Char} (blank : ∀ c ∈ post, isSpace c = true) (opens : Opens s) :
    readValue {} (dropCommas blanks true (',' :: (post ++ s))) =
      if clears blanks (',' :: post) then readValue {} (dropCommas blanks false s) else none := by
  by_cases drops : opensAfter blanks (post ++ s) = true
  · obtain ⟨w, member, rfl⟩ := opens_gap white blank opens drops
    rw [dropCommas_drop drops, read_blank blank opens, if_pos (clears_iff.mpr (.inr ⟨w, member, rfl⟩))]
  · rw [dropCommas_keep (fun drops' => drops drops'.2.2), readValue_stuck rfl]
    split_ifs with clear
    · rcases clears_iff.mp clear with space | ⟨w, member, gap⟩
      · cases space ',' List.mem_cons_self
      · obtain rfl := (List.cons.inj gap).2
        obtain rfl | ⟨t, rfl⟩ := opens
        · rfl
        · exact absurd (opensAfter_iff.mpr ⟨w, t, rfl, member⟩) drops
    · rfl

/-- A comma that stays behind stops the reader. -/
theorem read_gap (gap : (∀ c ∈ u, isSpace c = true) ∨ Separates u) (opens : Opens s) :
    readValue {} (dropCommas blanks true (u ++ s)) = if clears blanks u then readValue {} (dropCommas blanks false s)
    else none := by
  rcases gap with blank | ⟨pre, post, before, behind, rfl⟩
  · rw [if_pos (clears_iff.mpr (.inl blank)), read_blank blank opens]
  · match pre with
    | [] => exact read_separator white behind opens
    | c :: pre =>
      have space := before c List.mem_cons_self
      have unclear : ¬ clears blanks (c :: pre ++ ',' :: post) = true := by
        intro clear
        rcases clears_iff.mp clear with spaces | ⟨w, _, parts⟩
        · cases spaces ',' (List.mem_append_right _ List.mem_cons_self)
        · rw [(List.cons.inj parts).1] at space
          cases space
      rw [if_neg unclear, List.append_assoc, dropCommas_blanks before (List.cons_ne_nil c pre), readValue_blank before]
      exact readValue_stuck rfl

end Gap

end Reader
end Json
