import Mathlib.Order.Bounds.Basic
import Mathlib.Data.List.TakeWhile

/-!
# Searching a clock

A clock's reading is split into wheels, the coarsest first. Each wheel turns when a unit of its
own begins, and every unit of a coarser wheel begins with one of a finer. A search for a reading
that suits every wheel goes on by whole units of the first wheel that does not suit, and begins
again with the first wheel when a coarser unit begins.
-/

namespace Odometer

structure Wheel where
  /-- The wheel suits at this time. -/
  ok : Nat → Bool
  floor : Nat → Nat
  step : Nat → Nat
  /-- After a step: the wheel shows its first value. -/
  wrapped : Nat → Bool
  /-- A unit of the wheel begins. -/
  start : Nat → Prop
  floor_le : ∀ t, floor t ≤ t
  floor_start : ∀ t, start (floor t)
  floor_last : ∀ t u, floor t < u → u ≤ t → ¬ start u
  step_lt : ∀ t, start t → t < step t
  step_start : ∀ t, start t → start (step t)
  step_next : ∀ t u, start t → t < u → u < step t → ¬ start u
  turns : ∀ t, ¬ start (t + 1) → ok (t + 1) = ok t

/-- The first time from `t` on that suits the wheels; `all` are those to begin with again. Gives
up at a time that is late. -/
def search (all : List Wheel) (late : Nat → Bool) : Nat → List Wheel → Bool → Nat → Option Nat
  | fuel, wheels, added, t =>
    match wheels.dropWhile (·.ok t), fuel with
    | [], _ => some t
    | _ :: _, 0 => none
    | w :: rest, fuel + 1 =>
      let u := w.step (if added then t else w.floor t)
      if w.wrapped u then
        if late u then none else search all late fuel all true u
      else search all late fuel (w :: rest) true u

/-- The wheel wraps exactly where a unit of the next coarser wheel begins. -/
structure Gear (outer : Nat → Prop) (w : Wheel) : Prop where
  starts : ∀ t, outer t → w.start t
  wraps : ∀ t, w.start t → (w.wrapped (w.step t) = true ↔ outer (w.step t))

def Train : (Nat → Prop) → List Wheel → Prop
  | _, [] => True
  | outer, w :: rest => Gear outer w ∧ Train w.start rest

/-- The units of the last wheel. -/
def last (outer : Nat → Prop) (wheels : List Wheel) : Nat → Prop := wheels.foldl (fun _ w => w.start) outer

section Train
variable {outer : Nat → Prop} {wheels done rest : List Wheel} {w : Wheel} {t u : Nat}

theorem train_append : Train outer (done ++ rest) ↔ Train outer done ∧ Train (last outer done) rest := by
  induction done generalizing outer with
  | nil => simp [Train, last]
  | cons d done ih =>
    show Gear outer d ∧ Train d.start (done ++ rest) ↔ (Gear outer d ∧ Train d.start done) ∧
      Train (last d.start done) rest
    rw [ih, and_assoc]

theorem finer_start (train : Train outer wheels) (begins : outer t) : ∀ w ∈ wheels, w.start t := by
  induction wheels generalizing outer with
  | nil => simp
  | cons w wheels ih =>
    intro v member
    have here := train.1.starts t begins
    rcases List.mem_cons.mp member with rfl | member
    · exact here
    · exact ih train.2 here v member

theorem last_start (train : Train outer done) : (outer t → last outer done t) ∧ ∀ d ∈ done, d.start t →
    last outer done t := by
  induction done generalizing outer with
  | nil => exact ⟨id, by simp⟩
  | cons d done ih =>
    obtain ⟨own, others⟩ := ih train.2
    refine ⟨fun begins => own (train.1.starts t begins), fun v member begins => ?_⟩
    rcases List.mem_cons.mp member with rfl | member
    · exact own begins
    · exact others v member begins

/-- Without the start of a unit a value stays. -/
theorem steady {p : Nat → Bool} {start : Nat → Prop} (turns : ∀ t, ¬ start (t + 1) → p (t + 1) = p t) (from_ : t ≤ u)
    (quiet : ∀ v, t < v → v ≤ u → ¬ start v) : p u = p t := by
  induction u, from_ using Nat.le_induction with
  | base => rfl
  | succ u from_ ih =>
    rw [turns u (quiet (u + 1) (by omega) (by omega))]
    exact ih fun v after before => quiet v after (by omega)

end Train

section Search
variable {outer : Nat → Prop} {all wheels done rest : List Wheel} {late : Nat → Bool} {w : Wheel}

/-- What the search is for. -/
def Suits (wheels : List Wheel) (t : Nat) : Prop := ∀ w ∈ wheels, w.ok t = true

/-- One step of a wheel that does not suit. -/
theorem step_skips {added : Bool} {t : Nat} (aligned : added = true → w.start t) :
    let u := w.step (if added then t else w.floor t)
    t < u ∧ w.start u ∧ (∀ v, t < v → v < u → ¬ w.start v) ∧
      ∃ base, w.start base ∧ u = w.step base := by
  have begins : w.start (if added then t else w.floor t) := by
    cases added with
    | true => exact aligned rfl
    | false => exact w.floor_start t
  have below : (if added then t else w.floor t) ≤ t := by
    cases added with
    | true => exact Nat.le_refl t
    | false => exact w.floor_le t
  have before : ∀ v, (if added then t else w.floor t) < v → v ≤ t → ¬ w.start v := by
    cases added with
    | true => exact fun v after upto => absurd after (Nat.not_lt.mpr upto)
    | false => exact w.floor_last t
  generalize (if added then t else w.floor t) = base at begins below before
  have later := w.step_lt base begins
  have ends := w.step_start base begins
  refine ⟨?_, ends, fun v after upto => w.step_next base v begins (by omega) upto, base, begins, rfl⟩
  by_contra early
  exact before (w.step base) later (by omega) ends

/-- The result of a search from `t` on. -/
def Correct (all : List Wheel) (late : Nat → Bool) (t : Nat) (result : Option Nat) : Prop :=
  ∀ u, result = some u ↔ IsLeast {v | t ≤ v ∧ late v = false ∧ Suits all v} u

theorem Correct.skip {t u : Nat} {result : Option Nat} (h : Correct all late u result) (from_ : t ≤ u)
    (none_ : ∀ v, t ≤ v → v < u → ¬ Suits all v) : Correct all late t result := by
  intro x
  rw [h x]
  have same : {v | t ≤ v ∧ late v = false ∧ Suits all v} = {v | u ≤ v ∧ late v = false ∧ Suits all v} := by
    ext v
    constructor
    · rintro ⟨after, early, suits⟩
      refine ⟨?_, early, suits⟩
      by_contra before
      exact none_ v after (by omega) suits
    · rintro ⟨after, early, suits⟩
      exact ⟨by omega, early, suits⟩
  rw [same]

theorem Correct.here {t : Nat} (early : late t = false) (suits : Suits all t) : Correct all late t (some t) := by
  have least : IsLeast {v | t ≤ v ∧ late v = false ∧ Suits all v} t :=
    ⟨⟨Nat.le_refl t, early, suits⟩, fun v after => after.1⟩
  intro u
  constructor
  · intro same
    rw [← Option.some.inj same]
    exact least
  · intro other
    rw [least.unique other]

theorem Correct.none {t : Nat} (past : ∀ u, t ≤ u → late u = true) : Correct all late t none := by
  intro u
  constructor
  · intro same
    cases same
  · rintro ⟨⟨after, early, _⟩, _⟩
    rw [past u after] at early
    cases early

/-- The search finds the least time that suits every wheel and is not late, if there is one. -/
theorem search_correct (monotone : ∀ t, late t = true → late (t + 1) = true)
    (years : ∀ t, ¬ outer (t + 1) → late (t + 1) = late t) (all_train : Train outer all) {fuel t : Nat} {added : Bool}
    (split : all = done ++ wheels) (passed : Suits done t)
    (aligned : added = true → ∀ w ∈ wheels, w.ok t = true ∨ w.start t) (early : late t = false)
    (enough : late (t + fuel) = true) : Correct all late t (search all late fuel wheels added t) := by
  have stays : ∀ {t u}, t ≤ u → late t = true → late u = true := by
    intro t u upto
    induction u, upto using Nat.le_induction with
    | base => exact id
    | succ u upto ih => exact fun before => monotone u (ih before)
  induction fuel generalizing t done wheels added with
  | zero =>
    rw [Nat.add_zero, early] at enough
    cases enough
  | succ fuel ih =>
    have parts := List.takeWhile_append_dropWhile (p := fun w : Wheel => w.ok t) (l := wheels)
    have skipped : Suits (wheels.takeWhile (·.ok t)) t := fun w member =>
      List.mem_takeWhile_imp (p := fun w : Wheel => w.ok t) member
    unfold search
    cases found : wheels.dropWhile (·.ok t) with
    | nil =>
      rw [found, List.append_nil] at parts
      have suits : Suits all t := by
        rw [split, ← parts]
        intro w member
        rcases List.mem_append.mp member with old | new
        · exact passed w old
        · exact skipped w new
      exact .here early suits
    | cons w rest =>
      have off : w.ok t = false := by
        have first := List.head?_dropWhile_not (fun w : Wheel => w.ok t) wheels
        rw [found] at first
        simpa using first
      rw [found] at parts
      -- the wheels before `w` suit, and those from `w` on are aligned
      have before : Suits (done ++ wheels.takeWhile (·.ok t)) t := by
        intro d member
        rcases List.mem_append.mp member with old | new
        · exact passed d old
        · exact skipped d new
      rw [← parts, ← List.append_assoc] at split
      generalize done ++ wheels.takeWhile (·.ok t) = coarse at before split
      obtain ⟨coarse_train, gear, finer⟩ := train_append.mp (split ▸ all_train)
      have begins : added = true → w.start t := by
        intro after
        have member : w ∈ wheels := by
          rw [← parts]
          exact List.mem_append_right _ List.mem_cons_self
        rcases aligned after w member with suits | begins
        · rw [off] at suits
          cases suits
        · exact begins
      obtain ⟨later, here, quiet, base, base_start, is⟩ := step_skips begins
      simp only
      generalize w.step (if added then t else w.floor t) = u at later here quiet is
      have none_ : ∀ v, t ≤ v → v < u → ¬ Suits all v := by
        intro v after upto suits
        have same := steady w.turns after fun x from_ to_ => quiet x from_ (by omega)
        have on := suits w (by rw [split]; exact List.mem_append_right _ List.mem_cons_self)
        rw [same, off] at on
        cases on
      have enough' : late (u + fuel) = true := stays (by omega) enough
      have rest_start : ∀ v ∈ w :: rest, v.start u := by
        intro v member
        rcases List.mem_cons.mp member with rfl | member
        · exact here
        · exact finer_start finer here v member
      -- between `t` and `u` no coarser unit begins
      have calm : ∀ d ∈ coarse, ∀ x, t < x → x < u → ¬ d.start x := fun d member x after upto begins =>
        quiet x after upto (gear.starts x ((last_start coarse_train).2 d member begins))
      have wraps := gear.wraps base base_start
      rw [← is] at wraps
      by_cases around : w.wrapped u = true
      · rw [if_pos around]
        by_cases past : late u = true
        · rw [if_pos past]
          exact Correct.skip (.none fun x after => stays after past) (by omega) none_
        · rw [if_neg past]
          refine Correct.skip (ih (List.nil_append all).symm (by simp [Suits]) ?_ (by simpa using past) enough')
            (by omega) none_
          intro _ d member
          rw [split] at member
          rcases List.mem_append.mp member with old | new
          · by_cases begins : d.start u
            · exact .inr begins
            · left
              rw [steady d.turns (Nat.le_of_lt later) ?_]
              · exact before d old
              intro x after upto
              rcases Nat.lt_or_eq_of_le upto with upto | rfl
              · exact calm d old x after upto
              · exact begins
          · exact .inr (rest_start d new)
      · rw [if_neg around]
        have inside : ∀ x, t < x → x ≤ u → ¬ last outer coarse x := by
          intro x after upto begins
          rcases Nat.lt_or_eq_of_le upto with upto | rfl
          · exact quiet x after upto (gear.starts x begins)
          · exact around (wraps.mpr begins)
        refine Correct.skip (ih split ?_ (fun _ v member => .inr (rest_start v member)) ?_ enough') (by omega) none_
        · intro d member
          rw [steady d.turns (Nat.le_of_lt later) fun x after upto begins =>
            inside x after upto ((last_start coarse_train).2 d member begins)]
          exact before d member
        · rw [steady years (Nat.le_of_lt later) fun x after upto begins =>
            inside x after upto ((last_start coarse_train).1 begins)]
          exact early

theorem search_first (monotone : ∀ t, late t = true → late (t + 1) = true)
    (years : ∀ t, ¬ outer (t + 1) → late (t + 1) = late t) (train : Train outer all) {fuel t : Nat}
    (early : late t = false)
    (enough : late (t + fuel) = true) : Correct all late t (search all late fuel all false t) :=
  search_correct monotone years train (List.nil_append all).symm (by simp [Suits]) (by simp) early enough

end Search
end Odometer
