import HomelabDaemon.Strings
import HomelabDaemon.Strings.Words

/-!
# Splitting at a separator

A text of sections, with a separator between them, splits into its sections.
-/

namespace Strings

/-- At most `n` pieces; the last one is what is left. The separator is not empty. -/
def splitN (sep : Str) : Nat → Str → List Str
  | 0, _ => []
  | 1, s => [s]
  | n + 2, s =>
    match cut sep s with
    | none => [s]
    | some (before, after) => before :: splitN sep (n + 1) after

def split (sep s : Str) : List Str := splitN sep (s.length + 1) s

variable {sep s before after : Str}

theorem splitN_none (absent : ¬ sep <:+: s) (n : Nat) : splitN sep (n + 1) s = [s] := by
  cases n with
  | zero => rfl
  | succ n => rw [splitN, cut_eq_none absent]

/-- The first occurrence is where the text up to its last character has none. -/
theorem cut_first (nonempty : sep ≠ []) (fresh : ¬ sep <:+: before ++ sep.dropLast) :
    cut sep (before ++ sep ++ after) = some (before, after) := by
  induction before with
  | nil =>
    obtain ⟨c, sep, rfl⟩ := List.exists_cons_of_ne_nil nonempty
    exact cut_start c sep after
  | cons c before ih =>
    have later : ¬ sep <:+: before ++ sep.dropLast := fun inside => fresh (inside.trans (List.suffix_cons c _).isInfix)
    have here : ¬ sep.isPrefixOf (c :: (before ++ sep ++ after)) = true := by
      intro starts
      have size : 0 < sep.length := List.length_pos_iff.mpr nonempty
      have whole : c :: (before ++ sep.dropLast) <+: c :: (before ++ sep ++ after) :=
        (List.prefix_cons_inj c).mpr (by
          rw [List.append_assoc]
          exact (List.prefix_append_right_inj before).mpr
            ((List.dropLast_prefix sep).trans (List.prefix_append sep after)))
      have short : sep.length ≤ (c :: (before ++ sep.dropLast)).length := by
        rw [List.length_cons, List.length_append, List.length_dropLast]
        omega
      exact fresh (List.prefix_of_prefix_length_le (List.isPrefixOf_iff_prefix.mp starts) whole short).isInfix
    rw [List.cons_append, List.cons_append, cut, if_neg here, ih later]
    rfl

theorem splitN_section (nonempty : sep ≠ []) (fresh : ¬ sep <:+: before ++ sep.dropLast) (n : Nat) :
    splitN sep (n + 2) (before ++ sep ++ after) = before :: splitN sep (n + 1) after := by
  rw [splitN, cut_first nonempty fresh]

theorem splitN_intercalate (nonempty : sep ≠ []) {sections : List Str}
    (fresh : ∀ s ∈ sections, ¬ sep <:+: s ++ sep.dropLast)
    (some_ : sections ≠ []) {n : Nat} (room : sections.length ≤ n) :
    splitN sep n (sep.intercalate sections) = sections := by
  induction sections generalizing n with
  | nil => exact absurd rfl some_
  | cons s sections ih =>
    have here := fresh s List.mem_cons_self
    cases sections with
    | nil =>
      obtain ⟨n, rfl⟩ : ∃ m, n = m + 1 := ⟨n - 1, by simp at room; omega⟩
      rw [List.intercalate_singleton, splitN_none fun inside => here (inside.trans (List.prefix_append s _).isInfix)]
    | cons next sections =>
      obtain ⟨n, rfl⟩ : ∃ m, n = m + 2 := ⟨n - 2, by simp at room; omega⟩
      rw [List.intercalate_cons_cons, splitN_section nonempty here,
        ih (fun t member => fresh t (List.mem_cons_of_mem s member)) (List.cons_ne_nil next sections)
          (by simpa using room)]

theorem length_intercalate (nonempty : sep ≠ []) (sections : List Str) :
    sections.length ≤ (sep.intercalate sections).length + 1 := by
  induction sections with
  | nil => simp
  | cons s sections ih =>
    cases sections with
    | nil => simp
    | cons next sections =>
      have size : 0 < sep.length := List.length_pos_iff.mpr nonempty
      rw [List.intercalate_cons_cons, List.length_append, List.length_append, List.length_cons]
      omega

theorem split_intercalate (nonempty : sep ≠ []) {sections : List Str}
    (fresh : ∀ s ∈ sections, ¬ sep <:+: s ++ sep.dropLast)
    (some_ : sections ≠ []) : split sep (sep.intercalate sections) = sections :=
  splitN_intercalate nonempty fresh some_ (length_intercalate nonempty sections)

/-! ### Lines -/

variable {texts : List Str}

theorem flatMap_lines (some_ : texts ≠ []) : texts.flatMap (· ++ ['\n']) = ['\n'].intercalate texts ++ ['\n'] := by
  induction texts with
  | nil => exact absurd rfl some_
  | cons text texts ih =>
    cases texts with
    | nil => simp
    | cons next texts =>
      rw [List.flatMap_cons, ih (List.cons_ne_nil next texts), List.intercalate_cons_cons]
      simp

theorem no_blank_line (unbroken : ∀ text ∈ texts, '\n' ∉ text) (filled : [] ∉ texts) :
    ¬ ['\n', '\n'] <:+: texts.flatMap (· ++ ['\n']) := by
  rintro ⟨x, y, same⟩
  have all := lines_text unbroken []
  rw [List.append_nil, ← same, lines, List.append_assoc, List.cons_append, List.splitOn_append_cons_self,
    List.cons_append,
    List.nil_append, List.splitOn_cons_eq_if_modifyHead, if_pos (beq_self_eq_true '\n')] at all
  have front := congrArg List.dropLast all
  rw [List.dropLast_append_of_ne_nil (List.cons_ne_nil _ _),
    List.dropLast_cons_of_ne_nil (List.splitOn_ne_nil '\n' y)] at front
  have texts_eq : (texts ++ lines []).dropLast = texts := List.dropLast_concat
  rw [texts_eq] at front
  exact filled (front ▸ by simp)

structure Framed (s : Str) : Prop where
  starts : ∃ w, IsWord w ∧ w <+: s
  ends : ∃ w, IsWord w ∧ w <:+ s

theorem Framed.intercalate (framed : ∀ s ∈ texts, Framed s) (some_ : texts ≠ []) : Framed (sep.intercalate texts) := by
  induction texts with
  | nil => exact absurd rfl some_
  | cons s texts ih =>
    cases texts with
    | nil => simpa using framed
    | cons next texts =>
      obtain ⟨-, w, word, ends⟩ := ih (fun t member => framed t (List.mem_cons_of_mem s member))
        (List.cons_ne_nil next texts)
      obtain ⟨⟨v, first, starts⟩, -⟩ := framed s List.mem_cons_self
      rw [List.intercalate_cons_cons]
      refine ⟨⟨v, first, ?_⟩, w, word, ends.trans (List.suffix_append _ _)⟩
      rw [List.append_assoc]
      exact starts.trans (List.prefix_append s _)

theorem Framed.trimSpace (framed : Framed s) : trimSpace (s ++ ['\n']) = s := by
  obtain ⟨⟨_, head, starts⟩, _, tail, ends⟩ := framed
  exact trimSpace_framed head tail (by decide) starts ends

theorem trimmed_last (trimmed : Strings.trimSpace s = s) (nonempty : s ≠ []) : IsWord [s.getLast nonempty] := by
  refine ⟨List.cons_ne_nil _ _, ?_⟩
  intro c member
  obtain rfl := List.mem_singleton.mp member
  have last := List.rdropWhile_last_not isSpace (s.dropWhile isSpace)
  simp only [Strings.trimSpace] at trimmed
  simp only [trimmed] at last
  simpa using last nonempty

end Strings
