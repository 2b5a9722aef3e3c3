import HomelabDaemon.Backoff
import HomelabDaemon.Concurrency.CheckThenAct

/-!
# Restarts and the breaker

A tick looks at the breaker of a unit before it takes the slot. In between, a restart may count
its failure and free the slot.
-/

namespace HomelabDaemon
open Concurrency Program InFlight

namespace OpenBreaker

/-- Thread `i` has found the breaker closed: what is left of a backoff imposed since then. -/
def imposed (i : Nat) (unit : String) : Story → Option Nat
  | [] => none
  | .act j _ (.breakerIsOpen u) isOpen :: hist =>
    if j = i ∧ u = unit then (if isOpen then none else some 0) else imposed i unit hist
  | .act _ _ (.recordFailure u) d :: hist =>
    if u = unit ∧ d > 0 then (imposed i unit hist).map fun _ => d else imposed i unit hist
  | .act _ _ (.breakerReset u) _ :: hist =>
    if u = unit then (imposed i unit hist).map fun _ => 0 else imposed i unit hist
  | .env (.advance duration) :: hist => (imposed i unit hist).map (· - duration)
  | _ :: hist => imposed i unit hist

/-- A tick takes no slot while such a backoff is running. -/
def timely (hist : Story) (_ : Configuration) : Step → Bool
  | .act i _ (.inFlightLoadOrStore unit) false => (imposed i unit hist).getD 0 == 0
  | _ => true

abbrev Timely (hist : Story) (c : Configuration) (e : Step) : Prop := timely hist c e = true

/-- No restart is spawned under an open breaker. -/
def Forbids (c : Configuration) : Prop :=
  ∀ i who svc ans c', daemon.Step c (.act i who (.goRestart svc) ans) c' →
    (c.world.breaker svc.unit).isOpen c.world.now = false

/-- The last answer about the unit's breaker was that it is closed. -/
def seenClosed (unit : String) : Past Op Op.Ans → Bool
  | [] => false
  | ⟨.breakerIsOpen u, isOpen⟩ :: past => if u = unit then !isOpen else seenClosed unit past
  | _ :: past => seenClosed unit past

def contract : Actor → Contract Op Op.Ans
  | .monitor _ =>
    { allow := fun past op => match op with
        | .inFlightLoadOrStore unit => seenClosed unit past = true
        | _ => True }
  | _ => { allow := fun _ _ => True }

section Tick
variable {ticks : Nat} {past : Past Op Op.Ans} {svc : Service}

theorem check_meets {α : Type} {p : Prog α} (h : p.Uses Op.onCheck) :
    p.Meets (contract (.monitor ticks)) past fun _ _ => True := by
  refine h.meets (fun _ => True) ?_ (fun _ _ _ _ _ _ => trivial) trivial
  intro past op checks _
  cases op <;> trivial

theorem restartDue_meets : (restartDue svc).Meets (contract (.monitor ticks)) past fun _ _ => True := by
  unfold restartDue
  rw [meets_bind]
  refine (check_meets (shouldRestart_uses svc)).mono fun wanted past _ => ?_
  split
  · trivial
  rw [meets_bind, meets_perform]
  refine ⟨trivial, fun isOpen _ => ?_⟩
  split
  · trivial
  rename_i closed
  rw [meets_bind]
  have seen : (checkConstraints svc).Meets (contract (.monitor ticks)) (⟨.breakerIsOpen svc.unit, isOpen⟩ :: past)
      fun _ past => seenClosed svc.unit past = true := by
    refine (checkConstraints_asks svc).meets (fun past => seenClosed svc.unit past = true) ?_ ?_ ?_
    · intro past op asks _
      cases op <;> trivial
    · intro past op ans asks seen _
      cases op <;> first | exact seen | exact asks.elim
    · simp [seenClosed, closed]
  refine seen.mono fun unmet past seen => ?_
  split
  · trivial
  · exact ⟨seen, fun _ _ => trivial⟩

theorem supervise_meets (activeStates : String → Bool) :
    (supervise activeStates svc).Meets (contract (.monitor ticks)) past fun _ _ => True := by
  unfold supervise
  split
  · trivial
  split
  · exact ⟨trivial, fun _ _ => trivial⟩
  rw [meets_bind]
  refine restartDue_meets.mono fun due past _ => ?_
  split
  · exact ⟨trivial, fun _ _ => trivial⟩
  · trivial

theorem monitorLoop_meets (n : Nat) (prevFailures : String → Nat) :
    (monitorLoop n prevFailures).Meets (contract (.monitor ticks)) past fun _ _ => True := by
  induction n generalizing prevFailures past with
  | zero => trivial
  | succ n ih =>
    unfold monitorLoop
    rw [meets_bind, meets_perform]
    refine ⟨trivial, fun ticked _ => ?_⟩
    split
    · trivial
    unfold tick
    rw [meets_bind, meets_bind, meets_perform]
    refine ⟨trivial, fun cfg _ => ?_⟩
    rw [meets_bind]
    refine (check_meets (.fold notifyFailure_onCheck)).mono fun failures past _ => ?_
    rw [meets_bind, meets_perform]
    refine ⟨trivial, fun cfg _ => ?_⟩
    rw [meets_bind]
    refine (check_meets (isActiveMultiple_asks _).onCheck).mono fun activeStates past _ => ?_
    rw [meets_bind, meets_perform]
    refine ⟨trivial, fun cfg _ => ?_⟩
    rw [meets_bind]
    have swept : (each (supervise activeStates) cfg.services).Meets (contract (.monitor ticks))
        (⟨.config, cfg⟩ :: past) fun _ _ => True :=
      meets_each (fun _ => True) (fun svc _ _ _ => supervise_meets activeStates) trivial
    exact swept.mono fun _ past _ => ih failures

end Tick

theorem code_meets (who : Actor) : who.code.Meets (contract who) [] fun _ _ => True := by
  cases who with
  | monitor ticks => exact monitorLoop_meets ticks _
  | boot | restart svc | api request | backup unit => exact meets_of_allowed (fun _ _ => trivial) _ _

/-! ### Runs -/

section Run
variable {ok : Story → Configuration → Step → Prop} {w : World} {ticks : Nat} {hist : Story} {c c' : Configuration}

theorem run_asks (run : daemon.Run ok (started w ticks) hist c) {i n : Nat} {op : Op} {k : op.Ans → Prog Unit}
    (at_ : c.pool[i]? = some ⟨.monitor n, .call op k⟩) : (contract (.monitor n)).allow (past i hist) op := by
  have expected : ∀ {who : Actor} {past op} {ans : op.Ans}, (contract who).expect past op ans := by
    intro who past op ans
    cases who <;> trivial
  exact (run.meets contract code_meets (fun _ _ _ _ => expected) at_).1

theorem isSome_imposed (i : Nat) (unit : String) (hist : Story) :
    (imposed i unit hist).isSome = seenClosed unit (past i hist) := by
  induction hist with
  | nil => rfl
  | cons e hist ih =>
    cases e with
    | act j who op ans =>
      by_cases mine : j = i
      · subst mine
        rw [past_act]
        cases op with
        | breakerIsOpen u =>
          by_cases same : u = unit <;> cases ans <;> simp [imposed, seenClosed, same, ih]
        | recordFailure u =>
          unfold imposed seenClosed
          split <;> simp [ih]
        | breakerReset u =>
          unfold imposed seenClosed
          split <;> simp [ih]
        | _ => exact ih
      · rw [past_act_ne mine]
        cases op with
        | breakerIsOpen u => simp [imposed, mine, ih]
        | recordFailure u =>
          unfold imposed
          split <;> simp [ih]
        | breakerReset u =>
          unfold imposed
          split <;> simp [ih]
        | _ => exact ih
    | env move => cases move <;> simp [imposed, ih]
    | arrive who => exact ih

theorem run_imposed (run : daemon.Run ok (started w ticks) hist c) (i : Nat) (unit : String) :
    ∀ left ∈ imposed i unit hist, (c.world.breaker unit).backoffUntil ≤ c.world.now + left := by
  induction run with
  | start => nofun
  | @step hist c c' e before met next ih =>
    intro left found
    cases next with
    | @act j who op k ans at_ permitted =>
      change ((c.world.effect op ans).breaker unit).backoffUntil ≤ (c.world.effect op ans).now + left
      rw [World.effect_breaker, World.effect_now]
      cases op with
      | breakerIsOpen u =>
        unfold imposed at found
        split at found
        · rename_i mine
          obtain ⟨_, rfl⟩ := mine
          have answered : ans = (c.world.breaker u).isOpen c.world.now := of_decide_eq_true permitted
          cases ans with
          | true => cases found
          | false =>
            have closed : ¬ c.world.now < (c.world.breaker u).backoffUntil := of_decide_eq_false answered.symm
            exact Nat.le_trans (Nat.le_of_not_lt closed) (Nat.le_add_right _ _)
        · exact ih left found
      | recordFailure u =>
        unfold imposed at found
        split at found
        · rename_i fails
          obtain ⟨rfl, positive⟩ := fails
          have answered : ans = ((c.world.breaker u).recordFailure c.world.now).2 := of_decide_eq_true permitted
          obtain ⟨_, _, rfl⟩ := Option.map_eq_some_iff.mp found
          have until_ : ((c.world.breaker u).recordFailure c.world.now).1.backoffUntil = c.world.now + ans := by
            rw [answered] at positive ⊢
            exact if_pos positive
          simp [until_]
        · rename_i none
          have old := ih left found
          by_cases same : u = unit
          · subst same
            have answered : ans = ((c.world.breaker u).recordFailure c.world.now).2 := of_decide_eq_true permitted
            have zero : ¬ ((c.world.breaker u).recordFailure c.world.now).2 > 0 := by
              rw [← answered]
              exact fun positive => none ⟨rfl, positive⟩
            have until_ : ((c.world.breaker u).recordFailure c.world.now).1.backoffUntil =
              (c.world.breaker u).backoffUntil :=
              if_neg zero
            simpa [until_] using old
          · simpa [Ne.symm same] using old
      | breakerReset u =>
        by_cases same : u = unit
        · simp [same]
        · simp only [imposed, if_neg same] at found
          simpa [Ne.symm same] using ih left found
      | _ => exact ih left found
    | @env move permitted =>
      cases move with
      | advance duration =>
        obtain ⟨last, earlier, rfl⟩ := Option.map_eq_some_iff.mp found
        have old := ih last earlier
        calc (c.world.breaker unit).backoffUntil
            _ ≤ c.world.now + last := old
            _ ≤ c.world.now + (duration + (last - duration)) := Nat.add_le_add_left (by omega) _
            _ = c.world.now + duration + (last - duration) := (Nat.add_assoc _ _ _).symm
      | jobEnd u => exact ih left found
    | arrive arrives => exact ih left found

/-- A monitor that has taken a slot has the unit's breaker closed. -/
def Holds (hist : Story) (c : Configuration) : Prop :=
  ∀ i n code unit, c.pool[i]? = some ⟨.monitor n, code⟩ → claimed (past i hist) = some unit →
    (c.world.breaker unit).backoffUntil ≤ c.world.now

theorem no_failure (run : daemon.Run ok (started w ticks) hist c) {i a n : Nat} {code : Prog Unit} {unit : String}
    {who : Actor} {k : Nat → Prog Unit} (owner : c.pool[i]? = some ⟨.monitor n, code⟩)
    (taken : claimed (past i hist) = some unit)
    (at_ : c.pool[a]? = some ⟨who, .call (.recordFailure unit) k⟩) : False := by
  obtain ⟨svc, rfl, rfl⟩ := Attempts.run_counts run at_
  have alive : released (past a hist) = false := (InFlight.run_allowed run at_).1
  have mine : Carrier hist c i svc.unit := ⟨_, owner, taken⟩
  have other : Carrier hist c a svc.unit := ⟨_, at_, by simp [carries, alive]⟩
  obtain rfl := (run_oneCarrier run).unique i a svc.unit mine other
  cases owner.symm.trans at_

theorem holds_act (run : daemon.Run ok (started w ticks) hist c) (holds : Holds hist c) {a : Nat} {who : Actor}
    {op : Op} {ans : op.Ans} (met : Timely hist c (.act a who op ans)) (next : daemon.Step c (.act a who op ans) c') :
    Holds (.act a who op ans :: hist) c' := by
  intro i n code unit found taken
  have world : c'.world = c.world.effect op ans := next.world
  rw [world, World.effect_breaker, World.effect_now]
  rcases next.origin found with ⟨old, idle⟩ | ⟨op', k, ans', old, eq, _⟩ | ⟨outside, _, _⟩
  · have other : a ≠ i := by
      rintro rfl
      simp at idle
    rw [past_act_ne other] at taken
    have closed := holds i n code unit old taken
    cases op with
    | recordFailure u =>
      by_cases same : u = unit
      · subst same
        cases next with
        | act at_ permitted => exact (no_failure run old taken at_).elim
      · simpa [Ne.symm same] using closed
    | breakerReset u =>
      by_cases same : u = unit
      · simp [same]
      · simpa [Ne.symm same] using closed
    | _ => exact closed
  · cases eq
    rw [past_act] at taken
    cases op with
    | inFlightLoadOrStore u =>
      cases ans with
      | true => cases taken
      | false =>
        obtain rfl : u = unit := Option.some.inj taken
        have asked : seenClosed u (past a hist) = true := run_asks run old
        rw [← isSome_imposed] at asked
        obtain ⟨left, found⟩ := Option.isSome_iff_exists.mp asked
        have ended : left = 0 := by
          unfold Timely timely at met
          simpa [found] using met
        simpa [ended] using run_imposed run a u left found
    | _ => cases taken
  · rw [next.past_outside outside, run.past_outside outside] at taken
    cases taken

theorem run_holds (run : daemon.Run Timely (started w ticks) hist c) : Holds hist c := by
  induction run with
  | start =>
    intro i n code unit _ taken
    cases taken
  | @step hist c c' e before met next ih =>
    cases e with
    | act a who op ans => exact holds_act before ih met next
    | env move =>
      cases next
      intro i n code unit found taken
      have closed := ih i n code unit found taken
      cases move with
      | advance duration => exact Nat.le_trans closed (Nat.le_add_right _ _)
      | jobEnd u => exact closed
    | arrive who =>
      intro i n code unit found taken
      rcases next.origin found with ⟨old, _⟩ | ⟨_, _, _, _, eq, _⟩ | ⟨outside, _, _⟩
      · cases next
        exact ih i n code unit old taken
      · cases eq
      · rw [next.past_outside outside, before.past_outside outside] at taken
        cases taken

/-- In every run whose slots are taken in time, an open breaker forbids restarts. -/
theorem run_forbids (run : daemon.Run Timely (started w ticks) hist c) : Forbids c := by
  intro i who svc ans c' next
  cases next with
  | act at_ permitted =>
    have allowed := InFlight.run_allowed run at_
    cases who with
    | monitor n => exact decide_eq_false (Nat.not_lt_of_le (run_holds run i n _ svc.unit at_ allowed))
    | restart s => exact allowed.2.elim
    | _ => exact allowed.elim

end Run

/-! ### Schedules -/

def isSpawn (unit : String) : Op → Bool
  | .goRestart svc => svc.unit == unit
  | _ => false

/-- A tick about to spawn a restart of a unit that has not failed. -/
theorem run_forbids_first : ∃ hist c, daemon.Run Timely (started Backoff.world 1) hist c ∧
    Machine.about c 1 (fun _ op => isSpawn "a.service" op) = true ∧ Forbids c := by
  obtain ⟨hist, c, run, shown⟩ := schedule_run timely Backoff.world 1 [.go 1 {} 8]
    (fun s => Machine.about s.2 1 fun _ op => isSpawn "a.service" op) (by decide)
  exact ⟨hist, c, run, shown, run_forbids run⟩

/-- Between the tick's look at the breaker and its slot, a restart counts its second failure. -/
theorem spawned_open : ¬ ∀ (w : World) (ticks : Nat) (hist : Story) (c : Configuration),
    daemon.Run Machine.anyStep (started w ticks) hist c → Forbids c := by
  intro claim
  obtain ⟨hist, c, run, shown⟩ := schedule_anyRun Backoff.world 3
    (Backoff.attempt 9 2 ++ [.go 2 {} 4] ++ Backoff.attempt 10 3 ++ [.go 3 {} 2, .go 1 {} 7, .go 3 {} 2, .go 1 {} 1])
    (fun s => Machine.about s.2 1 (fun _ op => isSpawn "a.service" op) &&
      (s.2.world.breaker "a.service").isOpen s.2.world.now) (by decide)
  obtain ⟨about, opened⟩ := Bool.and_eq_true_iff.mp shown
  obtain ⟨who, op, k, at_, test⟩ := Machine.about_next about
  cases op with
  | goRestart svc =>
    have named : svc.unit = "a.service" := by simpa [isSpawn] using test
    have closed := claim Backoff.world 3 hist c run 1 who svc () _ (.act at_ rfl)
    rw [named, opened] at closed
    cases closed
  | _ => cases test

end OpenBreaker
end HomelabDaemon
