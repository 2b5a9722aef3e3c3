import HomelabDaemon.Yaml.Scalar

/-!
# The lines of a block document

Each line is read by itself: its indentation, the dashes of the sequences it enters, a key, a
scalar. A line that holds anything else is not read.
-/

namespace Yaml

inductive Token where
  | dash (col : Nat)
  | key (col : Nat) (name : String)
  | scalar (text : String)

def dropSpaces (cs : List Char) : List Char := cs.dropWhile (· == ' ')

/-- A line at its first colon that ends a key. -/
def splitKey : List Char → Option (List Char × List Char)
  | [] => none
  | [c] => if c = ':' then some ([], []) else none
  | c :: d :: cs =>
    if c = ':' ∧ d = ' ' then some ([], cs)
    else (splitKey (d :: cs)).map fun (name, rest) => (c :: name, rest)

/-- What stands after a dash or a key: nothing, or a plain scalar. -/
def lexValue (cs : List Char) : Option (List Token) :=
  match dropSpaces cs with
  | [] => some []
  | c :: cs => if isPlain (c :: cs) then some [.scalar (String.ofList (c :: cs))] else none

/-- Three dashes or dots would start or end a document. -/
def isMarker (name : List Char) : Bool := "---".toList.isPrefixOf name || "...".toList.isPrefixOf name

/-- From the first character after the indentation and the dashes on. A scalar must follow a
dash or a key on its line. -/
def lexEntry (afterDash : Bool) (col : Nat) (cs : List Char) : Option (List Token) :=
  match splitKey cs with
  | some (name, rest) =>
    if isPlain name && !(col == 0 && isMarker name) then
      (lexValue rest).map (Token.key col (String.ofList name) :: ·)
    else none
  | none => if afterDash then lexValue cs else none

/-- A line from column `col` on. -/
def lexLine (afterDash : Bool) (col : Nat) : List Char → Option (List Token)
  | [] => some []
  | [c] =>
    if c = ' ' then some []
    else if c = '-' then some [.dash col]
    else lexEntry afterDash col [c]
  | c :: d :: cs =>
    if c = ' ' then lexLine afterDash (col + 1) (d :: cs)
    else if c = '-' ∧ d = ' ' then (lexLine true (col + 2) cs).map (Token.dash col :: ·)
    else lexEntry afterDash col (c :: d :: cs)

def lexLines : List (List Char) → Option (List Token)
  | [] => some []
  | line :: lines => (lexLine false 0 line).bind fun tokens => (lexLines lines).map (tokens ++ ·)

/-- All lines of a text. -/
def lex (text : List Char) : Option (List Token) := lexLines (text.splitOn '\n')

section Plain
variable {cs : List Char}

theorem dropSpaces_plain (h : isPlain cs = true) : dropSpaces cs = cs := by
  cases cs with
  | nil => rfl
  | cons c cs =>
    have notBlank := plain_head h
    have notSpace : (c == ' ') = false := by
      unfold isBlank at notBlank
      exact (Bool.or_eq_false_iff.mp notBlank).1
    unfold dropSpaces
    rw [List.dropWhile_cons_of_neg (by simp [notSpace])]

theorem lexValue_plain (h : isPlain cs = true) : lexValue cs = some [.scalar (String.ofList cs)] := by
  unfold lexValue
  rw [dropSpaces_plain h]
  cases cs with
  | nil => cases h
  | cons c cs => exact if_pos h

theorem splitKey_continues (h : continues cs = true) : splitKey cs = none := by
  induction cs with
  | nil => rfl
  | cons c cs ih =>
    cases cs with
    | nil =>
      have notColon : c ≠ ':' := by
        rintro rfl
        cases h
      exact if_neg notColon
    | cons d cs =>
      simp only [continues, Bool.and_eq_true, Bool.not_eq_true'] at h
      obtain ⟨⟨noKey, _⟩, rest⟩ := h
      have notKey : ¬ (c = ':' ∧ d = ' ') := by
        rintro ⟨rfl, rfl⟩
        cases noKey
      rw [splitKey, if_neg notKey, ih rest]
      rfl

theorem lexLine_plain (col : Nat) (h : isPlain cs = true) :
    lexLine true col cs = some [.scalar (String.ofList cs)] := by
  have entry : lexEntry true col cs = some [.scalar (String.ofList cs)] := by
    unfold lexEntry
    rw [splitKey_continues (isPlain_iff.mp h).2.2]
    exact lexValue_plain h
  have notSpace : ∀ {c cs}, isPlain (c :: cs) = true → c ≠ ' ' := by
    rintro c cs plain rfl
    cases plain_head plain
  cases cs with
  | nil => cases h
  | cons c cs =>
    cases cs with
    | nil =>
      have notDash : c ≠ '-' := by
        rintro rfl
        cases h
      rw [lexLine, if_neg (notSpace h), if_neg notDash, entry]
    | cons d cs =>
      have notDash : ¬ (c = '-' ∧ d = ' ') := by
        rintro ⟨rfl, rfl⟩
        rw [plain_not_dash] at h
        cases h
      rw [lexLine, if_neg (notSpace h), if_neg notDash, entry]

end Plain

/-! ### A line that is read holds no line break -/

section Break
variable {cs : List Char} {tokens : List Token}

theorem newline_notMem_dropSpaces (h : '\n' ∉ dropSpaces cs) : '\n' ∉ cs := by
  induction cs with
  | nil => exact List.not_mem_nil
  | cons c cs ih =>
    by_cases space : c = ' '
    · subst space
      intro member
      rcases List.mem_cons.mp member with same | member
      · cases same
      · exact ih h member
    · have kept : dropSpaces (c :: cs) = c :: cs := by
        unfold dropSpaces
        rw [List.dropWhile_cons_of_neg (by simp [space])]
      rwa [kept] at h

theorem lexValue_line (h : lexValue cs = some tokens) : '\n' ∉ cs := by
  apply newline_notMem_dropSpaces
  unfold lexValue at h
  split at h
  · rename_i none
    rw [none]
    exact List.not_mem_nil
  · rename_i c rest at_
    split at h
    · rename_i plain
      rw [at_]
      exact newline_notMem fun d member => plain_printable plain member
    · cases h

theorem splitKey_mem {name rest : List Char} (h : splitKey cs = some (name, rest)) (member : '\n' ∈ cs) :
    '\n' ∈ name ∨ '\n' ∈ rest := by
  induction cs generalizing name rest with
  | nil => cases h
  | cons c cs ih =>
    cases cs with
    | nil =>
      rw [splitKey] at h
      split at h
      · rename_i colon
        subst colon
        cases List.mem_singleton.mp member
      · cases h
    | cons d cs =>
      rw [splitKey] at h
      split at h
      · rename_i both
        obtain ⟨rfl, rfl⟩ := both
        obtain ⟨rfl, rfl⟩ := Prod.mk.inj (Option.some.inj h)
        simp only [List.mem_cons, Char.reduceEq, false_or] at member
        exact .inr member
      · obtain ⟨⟨name', rest'⟩, split, same⟩ := Option.map_eq_some_iff.mp h
        obtain ⟨rfl, rfl⟩ := Prod.mk.inj same
        rcases List.mem_cons.mp member with rfl | member
        · exact .inl List.mem_cons_self
        · exact (ih split member).imp_left fun inName => List.mem_cons_of_mem c inName

theorem lexEntry_line {afterDash : Bool} {col : Nat} (h : lexEntry afterDash col cs = some tokens) : '\n' ∉ cs := by
  unfold lexEntry at h
  split at h
  · rename_i name rest found
    split at h
    · rename_i both
      obtain ⟨plain, _⟩ := Bool.and_eq_true_iff.mp both
      obtain ⟨value, valued, _⟩ := Option.map_eq_some_iff.mp h
      intro member
      rcases splitKey_mem found member with member | member
      · exact newline_notMem (fun d member => plain_printable plain member) member
      · exact lexValue_line valued member
    · cases h
  · split at h
    · exact lexValue_line h
    · cases h

theorem lexLine_line {afterDash : Bool} {col : Nat} (h : lexLine afterDash col cs = some tokens) : '\n' ∉ cs := by
  fun_induction lexLine afterDash col cs generalizing tokens with
  | case1 => exact List.not_mem_nil
  | case2 | case3 => decide
  | case4 | case7 => exact lexEntry_line h
  | case5 _ _ _ _ ih =>
    have notRest := ih h
    simpa using notRest
  | case6 _ _ _ _ _ _ both ih =>
    obtain ⟨rest, read, _⟩ := Option.map_eq_some_iff.mp h
    obtain ⟨rfl, rfl⟩ := both
    have notRest := ih read
    simpa using notRest

end Break

/-! ### Whole texts -/

/-- The lines are read as these tokens. -/
def Lexes (lines : List String) (tokens : List Token) : Prop := lexLines (lines.map String.toList) = some tokens

section Lexes
variable {line : String} {lines rest : List String} {tokens more : List Token}

theorem Lexes.nil : Lexes [] [] := rfl

theorem Lexes.cons (h : lexLine false 0 line.toList = some tokens) (rest : Lexes lines more) :
    Lexes (line :: lines) (tokens ++ more) := by
  unfold Lexes at *
  rw [List.map_cons, lexLines, h, rest]
  rfl

theorem Lexes.append (h : Lexes lines tokens) (h' : Lexes rest more) : Lexes (lines ++ rest) (tokens ++ more) := by
  induction lines generalizing tokens with
  | nil =>
    obtain rfl := Option.some.inj h
    exact h'
  | cons line lines ih =>
    obtain ⟨first, read, h⟩ := Option.bind_eq_some_iff.mp h
    obtain ⟨second, lexed, rfl⟩ := Option.map_eq_some_iff.mp h
    rw [List.append_assoc]
    exact .cons read (ih lexed)

theorem Lexes.flatMap {α : Type} {xs : List α} {f : α → List String} {g : α → List Token}
    (h : ∀ x ∈ xs, Lexes (f x) (g x)) : Lexes (xs.flatMap f) (xs.flatMap g) := by
  induction xs with
  | nil => exact .nil
  | cons x xs ih =>
    rw [List.flatMap_cons, List.flatMap_cons]
    exact .append (h x List.mem_cons_self) (ih fun y member => h y (List.mem_cons_of_mem x member))

theorem Lexes.unbroken (h : Lexes lines tokens) : ∀ line ∈ lines.map String.toList, '\n' ∉ line := by
  induction lines generalizing tokens with
  | nil => exact fun line member => nomatch member
  | cons first lines ih =>
    obtain ⟨_, read, h⟩ := Option.bind_eq_some_iff.mp h
    obtain ⟨_, lexed, _⟩ := Option.map_eq_some_iff.mp h
    rw [List.map_cons]
    exact List.forall_mem_cons.mpr ⟨lexLine_line read, ih lexed⟩

theorem splitOn_lines {lines : List (List Char)} (unbroken : ∀ line ∈ lines, '\n' ∉ line) :
    (lines.flatMap fun line => line ++ ['\n']).splitOn '\n' = lines ++ [[]] := by
  have text : (lines.flatMap fun line => line ++ ['\n']) = ['\n'].intercalate (lines ++ [[]]) := by
    induction lines with
    | nil => rfl
    | cons first lines ih =>
      rw [List.flatMap_cons, ih fun line member => unbroken line (List.mem_cons_of_mem first member)]
      cases lines with
      | nil => simp [List.intercalate]
      | cons second lines => simp [List.intercalate]
  rw [text, List.splitOn_intercalate]
  · intro line member
    rcases List.mem_append.mp member with member | member
    · exact unbroken line member
    · obtain rfl := List.mem_singleton.mp member
      exact List.not_mem_nil
  · simp

theorem Lexes.text (h : Lexes lines tokens) :
    lex (lines.flatMap fun line => line.toList ++ ['\n']) = some tokens := by
  have split := splitOn_lines h.unbroken
  rw [List.flatMap_map] at split
  unfold lex
  rw [split]
  have last : Lexes (lines ++ [""]) (tokens ++ []) := h.append rfl
  unfold Lexes at last
  rwa [List.map_append, List.append_nil] at last

end Lexes

end Yaml
