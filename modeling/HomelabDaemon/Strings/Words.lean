import HomelabDaemon.Strings

/-!
# Words and lines

How a text of words with white space between them is trimmed and cut into its words, and a text
of lines into its lines.
-/

namespace Strings

section Alphabet
variable {α : Type} {space : α → Bool} {w s : List α}

def wordsBy (space : α → Bool) (s : List α) : List (List α) := (s.splitOnP space).filter (· ≠ [])

@[simp] theorem wordsBy_nil : wordsBy space [] = [] := by simp [wordsBy]

theorem wordsBy_break {c : α} (gap : space c = true) (x y : List α) :
    wordsBy space (x ++ c :: y) = wordsBy space x ++ wordsBy space y := by
  unfold wordsBy
  rw [List.splitOnP_append_cons x y gap, List.filter_append]

theorem wordsBy_word (nonempty : w ≠ []) (solid : ∀ c ∈ w, space c = false) : wordsBy space w = [w] := by
  unfold wordsBy
  rw [List.splitOnP_eq_singleton solid]
  simp [nonempty]

theorem wordsBy_blank {b : List α} (blank : ∀ c ∈ b, space c = true) (s : List α) :
    wordsBy space (b ++ s) = wordsBy space s := by
  induction b with
  | nil => rfl
  | cons c b ih =>
    have first : wordsBy space ((c :: b) ++ s) = wordsBy space [] ++ wordsBy space (b ++ s) :=
      wordsBy_break (blank c List.mem_cons_self) [] _
    rw [first, ih fun d member => blank d (List.mem_cons_of_mem c member)]
    rfl

theorem wordsBy_blank_end {b : List α} (blank : ∀ c ∈ b, space c = true) (s : List α) :
    wordsBy space (s ++ b) = wordsBy space s := by
  cases b with
  | nil => rw [List.append_nil]
  | cons c b =>
    have none : wordsBy space (b ++ []) = wordsBy space [] :=
      wordsBy_blank (fun d member => blank d (List.mem_cons_of_mem c member)) []
    rw [List.append_nil] at none
    rw [wordsBy_break (blank c List.mem_cons_self), none, wordsBy_nil, List.append_nil]

def trimBy (space : α → Bool) (s : List α) : List α := (s.dropWhile space).rdropWhile space

theorem trimBy_parts (space : α → Bool) (s : List α) :
    ∃ b b', (∀ c ∈ b, space c = true) ∧ (∀ c ∈ b', space c = true) ∧ s = b ++ trimBy space s ++ b' := by
  refine ⟨s.takeWhile space, (s.dropWhile space).rtakeWhile space, ?_, ?_, ?_⟩
  · exact fun c member => List.mem_takeWhile_imp member
  · exact fun c member => List.mem_rtakeWhile_imp member
  · rw [List.append_assoc, trimBy, List.rdropWhile_append_rtakeWhile, List.takeWhile_append_dropWhile]

theorem wordsBy_trimBy (s : List α) : wordsBy space (trimBy space s) = wordsBy space s := by
  obtain ⟨b, b', blank, blank', parts⟩ := trimBy_parts space s
  conv_rhs => rw [parts, List.append_assoc, wordsBy_blank blank, wordsBy_blank_end blank']

theorem trimBy_word (nonempty : w ≠ []) (solid : ∀ c ∈ w, space c = false) (s : List α) :
    ∃ s', s' <+: s ∧ trimBy space (w ++ s) = w ++ s' := by
  have starts : (w ++ s).dropWhile space = w ++ s := by
    obtain ⟨c, w, rfl⟩ := List.exists_cons_of_ne_nil nonempty
    exact List.dropWhile_cons_of_neg (by simp [solid c List.mem_cons_self])
  rw [trimBy, starts]
  refine ⟨s.rdropWhile space, s.rdropWhile_prefix space, ?_⟩
  unfold List.rdropWhile
  rw [List.reverse_append, List.dropWhile_append]
  split
  · rename_i gone
    have last : w.reverse.dropWhile space = w.reverse := by
      obtain ⟨c, v, parts⟩ := List.exists_cons_of_ne_nil (List.reverse_ne_nil_iff.mpr nonempty)
      rw [parts]
      refine List.dropWhile_cons_of_neg ?_
      have member : c ∈ w := List.mem_reverse.mp (parts ▸ List.mem_cons_self)
      simp [solid c member]
    rw [last, List.reverse_reverse, List.isEmpty_iff.mp gone]
    simp
  · rw [List.reverse_append, List.reverse_reverse]

theorem word_of_mem_wordsBy (member : w ∈ wordsBy space s) : w ≠ [] ∧ ∀ c ∈ w, space c = false := by
  obtain ⟨split, nonempty⟩ := List.mem_filter.mp member
  refine ⟨by simpa using nonempty, ?_⟩
  clear member nonempty
  induction s generalizing w with
  | nil =>
    obtain rfl : w = [] := by simpa using split
    exact nofun
  | cons c s ih =>
    rw [List.splitOnP_cons_eq_if_modifyHead] at split
    split at split
    · rcases List.mem_cons.mp split with rfl | split
      · exact nofun
      · exact ih split
    · rename_i solid
      obtain ⟨head, tail, parts⟩ := List.exists_cons_of_ne_nil (List.splitOnP_ne_nil space s)
      rw [parts, List.modifyHead_cons] at split
      rcases List.mem_cons.mp split with rfl | split
      · have rest : ∀ d ∈ head, space d = false := ih (parts ▸ List.mem_cons_self)
        exact List.forall_mem_cons.mpr ⟨Bool.eq_false_iff.mpr solid, rest⟩
      · exact ih (parts ▸ List.mem_cons_of_mem head split)

theorem infix_of_mem_wordsBy (member : w ∈ wordsBy space s) : w <:+: s := by
  have pieces : ∀ s : List α, (∀ v ∈ s.splitOnP space, v <:+: s) ∧ ∀ v ∈ (s.splitOnP space).head?, v <+: s := by
    intro s
    induction s with
    | nil => simp
    | cons c s ih =>
      rw [List.splitOnP_cons_eq_if_modifyHead]
      split
      · refine ⟨List.forall_mem_cons.mpr
          ⟨List.nil_infix, fun v member => (ih.1 v member).trans (List.suffix_cons c s).isInfix⟩, ?_⟩
        intro v first
        obtain rfl := Option.some.inj first
        exact List.nil_prefix
      · obtain ⟨head, tail, parts⟩ := List.exists_cons_of_ne_nil (List.splitOnP_ne_nil space s)
        have first : c :: head <+: c :: s := (List.prefix_cons_inj c).mpr (ih.2 head (by rw [parts]; rfl))
        rw [parts, List.modifyHead_cons]
        refine ⟨List.forall_mem_cons.mpr ⟨first.isInfix, fun v member => ?_⟩, ?_⟩
        · exact (ih.1 v (parts ▸ List.mem_cons_of_mem head member)).trans (List.suffix_cons c s).isInfix
        · intro v same
          obtain rfl := Option.some.inj same
          exact first
  exact (pieces s).1 w (List.mem_filter.mp member).1

variable {β : Type}

theorem wordsBy_map {space' : β → Bool} {f : α → β} (same : ∀ c, space' (f c) = space c) (s : List α) :
    wordsBy space' (s.map f) = (wordsBy space s).map (·.map f) := by
  have pieces : (s.map f).splitOnP space' = (s.splitOnP space).map (·.map f) := by
    induction s with
    | nil => rfl
    | cons c s ih =>
      rw [List.map_cons, List.splitOnP_cons_eq_if_modifyHead, List.splitOnP_cons_eq_if_modifyHead, same, ih]
      obtain ⟨head, tail, parts⟩ := List.exists_cons_of_ne_nil (List.splitOnP_ne_nil space s)
      split <;> simp [parts]
  unfold wordsBy
  rw [pieces, List.filter_map]
  congr 2
  funext w
  simp

variable [DecidableEq α] [DecidableEq β]

theorem splitOn_text {c : α} {texts : List (List α)} (unbroken : ∀ text ∈ texts, c ∉ text) (s : List α) :
    (texts.flatMap (· ++ [c]) ++ s).splitOn c = texts ++ s.splitOn c := by
  induction texts with
  | nil => rfl
  | cons text texts ih =>
    rw [List.flatMap_cons, List.append_assoc, List.append_assoc, List.singleton_append,
      List.splitOn_append_cons_of_beq text _ (beq_self_eq_true c),
        List.splitOn_eq_singleton (unbroken text List.mem_cons_self),
      ih fun t member => unbroken t (List.mem_cons_of_mem text member)]
    rfl

theorem splitOn_front {b : β} {front : List β} (fresh : b ∉ front) (s : List β) :
    (front ++ s).splitOn b = (s.splitOn b).modifyHead (front ++ ·) := by
  induction front with
  | nil =>
    obtain ⟨head, tail, parts⟩ := List.exists_cons_of_ne_nil (List.splitOn_ne_nil b s)
    rw [List.nil_append, parts, List.modifyHead_cons]
    rfl
  | cons d front ih =>
    obtain ⟨other, fresh⟩ : b ≠ d ∧ b ∉ front := by simpa using fresh
    rw [List.cons_append, List.splitOn_cons_eq_if_modifyHead, if_neg (by simpa using other.symm), ih fresh]
    obtain ⟨head, tail, parts⟩ := List.exists_cons_of_ne_nil (List.splitOn_ne_nil b s)
    rw [parts]
    rfl

/-- Coded letter by letter, a text splits where it split before, if only the separator's code has
the new separator. -/
theorem splitOn_flatMap {f : α → List β} {a : α} {b : β} (own : f a = [b]) (other : ∀ x, x ≠ a → b ∉ f x) (s : List α) :
    (s.flatMap f).splitOn b = (s.splitOn a).map (·.flatMap f) := by
  induction s with
  | nil => rfl
  | cons x s ih =>
    rw [List.flatMap_cons, List.splitOn_cons_eq_if_modifyHead]
    by_cases same : x = a
    · subst same
      rw [own, List.singleton_append, List.splitOn_cons_eq_if_modifyHead, if_pos (beq_self_eq_true b),
        if_pos (beq_self_eq_true x), ih]
      rfl
    · rw [splitOn_front (other x same), if_neg (by simpa using same), ih]
      obtain ⟨head, tail, parts⟩ := List.exists_cons_of_ne_nil (List.splitOn_ne_nil a s)
      rw [parts]
      rfl

end Alphabet

/-- Without white space. -/
def Solid (s : Str) : Prop := ∀ c ∈ s, isSpace c = false

/-- Nothing but white space. -/
def Blank (s : Str) : Prop := ∀ c ∈ s, isSpace c = true

instance (s : Str) : Decidable (Solid s) := List.decidableBAll (isSpace · = false) s

instance (s : Str) : Decidable (Blank s) := List.decidableBAll (isSpace · = true) s

structure IsWord (s : Str) : Prop where
  nonempty : s ≠ []
  solid : Solid s

instance (s : Str) : Decidable (IsWord s) :=
  decidable_of_iff (s ≠ [] ∧ Solid s) ⟨fun h => ⟨h.1, h.2⟩, fun h => ⟨h.nonempty, h.solid⟩⟩

variable {s w b : Str}

theorem Blank.replicate (n : Nat) : Blank (List.replicate n ' ') := by
  intro c member
  rw [List.eq_of_mem_replicate member]
  rfl

/-! ### Words -/

theorem fields_break {c : Char} (space : isSpace c = true) (x y : Str) : fields (x ++ c :: y) = fields x ++ fields y :=
  wordsBy_break space x y

theorem fields_word (word : IsWord w) : fields w = [w] := wordsBy_word word.nonempty word.solid

theorem fields_blank (blank : Blank b) (s : Str) : fields (b ++ s) = fields s := wordsBy_blank blank s

theorem fields_word_blank (word : IsWord w) (blank : Blank b) (gap : b ≠ []) (s : Str) :
    fields (w ++ b ++ s) = w :: fields s := by
  cases b with
  | nil => exact absurd rfl gap
  | cons c b =>
    rw [List.append_assoc, List.cons_append, fields_break (blank c List.mem_cons_self), fields_word word,
      fields_blank fun d member => blank d (List.mem_cons_of_mem c member)]
    rfl

theorem fields_trimSpace (s : Str) : fields (trimSpace s) = fields s := wordsBy_trimBy s

theorem trimSpace_framed {first last : Str} (head : IsWord first) (tail : IsWord last) (blank : Blank b)
    (starts : first <+: s) (ends : last <:+ s) : trimSpace (s ++ b) = s := by
  obtain ⟨c, first, rfl⟩ := List.exists_cons_of_ne_nil head.nonempty
  obtain ⟨rest, rfl⟩ := starts
  have solid : ¬ isSpace c = true := by simp [head.solid c List.mem_cons_self]
  unfold trimSpace
  rw [List.cons_append, List.cons_append, List.dropWhile_cons_of_neg solid]
  have dropped : ∀ t : Str, (t ++ b).rdropWhile isSpace = t.rdropWhile isSpace := by
    intro t
    unfold List.rdropWhile
    rw [List.reverse_append, List.dropWhile_append_of_pos fun d member => blank d (List.mem_reverse.mp member)]
  rw [← List.cons_append, ← List.cons_append, dropped, List.rdropWhile_eq_self_iff]
  intro nonempty
  obtain ⟨before, parts⟩ := ends
  have same : (c :: first ++ rest).getLast nonempty = last.getLast tail.nonempty := by
    simp only [← parts]
    exact List.getLast_append_of_ne_nil _ tail.nonempty
  rw [same]
  simp [tail.solid _ (List.getLast_mem tail.nonempty)]

theorem trimSpace_word (word : IsWord w) : trimSpace w = w := by
  have framed := trimSpace_framed (b := []) word word nofun (List.prefix_refl w) (List.suffix_refl w)
  rwa [List.append_nil] at framed

theorem lines_single (unbroken : '\n' ∉ w) : lines w = [w] := List.splitOn_eq_singleton unbroken

theorem lines_text {texts : List Str} (unbroken : ∀ text ∈ texts, '\n' ∉ text) (s : Str) :
    lines (texts.flatMap (· ++ ['\n']) ++ s) = texts ++ lines s := splitOn_text unbroken s

theorem IsWord.unbroken (word : IsWord w) : '\n' ∉ w := by
  intro member
  cases word.solid '\n' member

end Strings
