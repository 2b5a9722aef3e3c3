import HomelabDaemon.Systemctl
import HomelabDaemon.Strings.Words

/-!
# One question for many units

A tick asks systemctl about all units at once and reads a word a unit; everybody else asks about
one unit and looks at the exit code. A unit that is reloading or refreshing its configuration
counts as active by its exit code only.
-/

namespace HomelabDaemon
open Strings Concurrency Program

namespace ActiveStates

inductive ActiveState where
  | active | reloading | inactive | failed | activating | deactivating | maintenance | refreshing
  deriving DecidableEq

namespace ActiveState

def text : ActiveState → Str
  | active => "active".toList
  | reloading => "reloading".toList
  | inactive => "inactive".toList
  | failed => "failed".toList
  | activating => "activating".toList
  | deactivating => "deactivating".toList
  | maintenance => "maintenance".toList
  | refreshing => "refreshing".toList

/-- What systemd counts as active. -/
def counts : ActiveState → Bool
  | active | reloading | refreshing => true
  | _ => false

theorem text_word (state : ActiveState) : IsWord state.text := by
  cases state <;> decide

theorem text_active (state : ActiveState) : state.text = "active".toList ↔ state = active := by
  cases state <;> decide

end ActiveState

/-- What `systemctl is-active` answers. -/
structure Answers where
  /-- Whether `--quiet unit` exits with 0. -/
  quiet : String → Bool
  /-- What is printed about the units. -/
  stdout : List String → Str

/-- The answers of a systemd whose units are in these states: a word a unit, in order. -/
def answers (state : String → ActiveState) : Answers where
  quiet unit := (state unit).counts
  stdout units := units.flatMap fun unit => (state unit).text ++ ['\n']

def isActive (ctl : Answers) (unit : String) : Bool := ctl.quiet unit

def outputLines (ctl : Answers) (units : List String) : List Str := lines (trimSpace (ctl.stdout units))

/-- Whether a line reads "active". -/
def readsActive (line : Str) : Bool := trimSpace line = "active".toList

def isActiveMultiple (ctl : Answers) (units : List String) : String → Bool :=
  if units = [] then fun _ => false
  else if (outputLines ctl units).length ≠ units.length then
    units.foldl (fun res unit => Function.update res unit (isActive ctl unit)) fun _ => false
  else (units.zip (outputLines ctl units)).foldl
    (fun res line => Function.update res line.1 (readsActive line.2)) fun _ => false

/-- The monitor's call, where the lines that are printed answer its question. -/
theorem value_isActiveMultiple {oracle : (op : Op) → op.Ans} {ctl : Answers} {units : List String}
    (single : ∀ unit, oracle (.ask (.isActive unit)) = ctl.quiet unit)
    (printed : oracle (.ask (.isActiveLines units)) = (outputLines ctl units).map readsActive) :
    (HomelabDaemon.isActiveMultiple units).value oracle = isActiveMultiple ctl units := by
  unfold HomelabDaemon.isActiveMultiple isActiveMultiple
  split
  · rfl
  rw [value_bind, value_perform, printed, List.length_map]
  split
  · rw [value_fold]
    simp only [value_bind, value_perform, single, pure_eq_done, value_done]
    rfl
  · rw [List.zip_map_right, pure_eq_done, value_done, List.foldl_map]
    rfl

/-! ### What the lines say -/

variable (state : String → ActiveState)

theorem outputLines_answers {units : List String} (some_ : units ≠ []) :
    outputLines (answers state) units = units.map fun unit => (state unit).text := by
  obtain ⟨before, last, rfl⟩ := (List.eq_nil_or_concat' units).resolve_left some_
  obtain ⟨first, rest, parts⟩ := List.exists_cons_of_ne_nil some_
  have stdout : (answers state).stdout (before ++ [last]) =
      (before.flatMap fun unit => (state unit).text ++ ['\n']) ++ (state last).text ++ ['\n'] := by
    simp [answers]
  have starts : (state first).text <+: (before.flatMap fun unit => (state unit).text ++ ['\n']) ++
    (state last).text := by
    cases before with
    | nil =>
      obtain ⟨rfl, _⟩ := List.cons.inj parts
      exact List.prefix_refl _
    | cons unit before =>
      obtain ⟨rfl, _⟩ := List.cons.inj parts
      rw [List.flatMap_cons, List.append_assoc, List.append_assoc]
      exact List.prefix_append _ _
  have trimmed := trimSpace_framed (b := ['\n']) (state first).text_word (state last).text_word
    (by decide) starts (List.suffix_append _ _)
  have unbroken : ∀ text ∈ before.map fun unit => (state unit).text, '\n' ∉ text := by
    intro text member
    obtain ⟨unit, _, rfl⟩ := List.mem_map.mp member
    exact (state unit).text_word.unbroken
  have cut := lines_text unbroken (state last).text
  rw [lines_single (state last).text_word.unbroken, List.flatMap_map] at cut
  rw [outputLines, stdout, trimmed, cut, List.map_append]
  rfl

/-- A fold of updates gives each listed unit the last value it is given. -/
theorem foldl_update {α β : Type} [DecidableEq α] (value : α → β) (xs : List α) (start : α → β) (x : α) :
    xs.foldl (fun res x => Function.update res x (value x)) start x = if x ∈ xs then value x else start x := by
  induction xs generalizing start with
  | nil => simp
  | cons y xs ih =>
    rw [List.foldl_cons, ih]
    by_cases later : x ∈ xs
    · simp [later]
    · by_cases same : x = y
      · subst same
        simp [later]
      · simp [later, same]

/-- The batched answer: the units that are exactly active. -/
theorem isActiveMultiple_answers (units : List String) (unit : String) :
    isActiveMultiple (answers state) units unit = decide (unit ∈ units ∧ state unit = .active) := by
  unfold isActiveMultiple
  split
  · rename_i none
    simp [none]
  rename_i some_
  rw [outputLines_answers state some_, List.length_map]
  have zipped : units.zip (units.map fun unit => (state unit).text) = units.map fun unit =>
    (unit, (state unit).text) := by
    rw [← List.map_id units, List.map_map, List.zip_map', List.map_id]
    rfl
  have reads : ∀ unit, readsActive (state unit).text = decide (state unit = .active) := by
    intro unit
    rw [readsActive, trimSpace_word (state unit).text_word]
    exact decide_eq_decide.mpr (state unit).text_active
  simp only [ne_eq, not_true_eq_false, ↓reduceIte, zipped, List.foldl_map, reads]
  rw [foldl_update fun unit => decide (state unit = .active)]
  by_cases member : unit ∈ units <;> simp [member]

/-- One question agrees with a question for each unit when no unit is reloading or refreshing. -/
theorem batched_iff (units : List String) :
    (∀ unit ∈ units, isActiveMultiple (answers state) units unit = isActive (answers state) unit) ↔
    ∀ unit ∈ units, state unit ≠ .reloading ∧ state unit ≠ .refreshing := by
  refine forall_congr' fun unit => forall_congr' fun member => ?_
  rw [isActiveMultiple_answers]
  simp only [member, true_and]
  change decide (state unit = .active) = (state unit).counts ↔ _
  cases state unit <;> decide

/-- A unit that reloads is active by itself and inactive among others. -/
theorem reloading_missed : ¬ ∀ (state : String → ActiveState) (units : List String), ∀ unit ∈ units,
    isActiveMultiple (answers state) units unit = isActive (answers state) unit := by
  intro claim
  have agrees := claim (fun _ => .reloading) ["nginx.service"]
  have never := (batched_iff (fun _ => .reloading) ["nginx.service"]).mp agrees _ List.mem_cons_self
  exact never.1 rfl

end ActiveStates
end HomelabDaemon
