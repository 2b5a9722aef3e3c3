import HomelabDaemon.System

/-!
# Slots in flight

A tick takes the slot of a unit before it spawns a restart; the restart frees it when it ends.
So a taken slot has one carrier: the monitor between the two, or the restart.
-/

namespace HomelabDaemon
open Concurrency Program

namespace InFlight

/-- The slot that a thread's last operation took. -/
def claimed : Past Op Op.Ans → Option String
  | ⟨.inFlightLoadOrStore unit, loaded⟩ :: _ => if loaded then none else some unit
  | _ => none

def isDelete : Op → Bool
  | .inFlightDelete _ => true
  | _ => false

/-- Whether the thread has freed its slot. -/
def released (past : Past Op Op.Ans) : Bool := past.any fun act => isDelete act.1

/-- A tick spawns the restart right after it took the slot, and a restart frees the slot of its
unit last. Nobody else touches slots. -/
def contract : Actor → Contract Op Op.Ans
  | .monitor _ =>
    { allow := fun past op => match op with
        | .goRestart svc => claimed past = some svc.unit
        | .inFlightDelete _ => False
        | _ => claimed past = none }
  | .restart svc =>
    { allow := fun past op => released past = false ∧ match op with
        | .inFlightDelete unit => unit = svc.unit
        | .goRestart _ | .inFlightLoadOrStore _ => False
        | _ => True }
  | _ =>
    { allow := fun _ op => match op with
        | .goRestart _ | .inFlightLoadOrStore _ | .inFlightDelete _ => False
        | _ => True }

def NoClaim (past : Past Op Op.Ans) : Prop := claimed past = none

section Tick
variable {ticks : Nat} {past : Past Op Op.Ans}

theorem check_meets {α : Type} {p : Prog α} (h : p.Uses Op.onCheck) (noClaim : NoClaim past) :
    p.Meets (contract (.monitor ticks)) past fun _ => NoClaim := by
  refine h.meets NoClaim ?_ ?_ noClaim
  · intro past op checks noClaim
    cases op <;> first | exact noClaim | exact checks.elim
  · intro past op ans checks _ _
    cases op <;> first | rfl | exact checks.elim

/-- When a restart is due, the last operation took its slot. -/
theorem restartDue_meets (svc : Service) (noClaim : NoClaim past) :
    (restartDue svc).Meets (contract (.monitor ticks)) past fun due past =>
      if due then claimed past = some svc.unit else NoClaim past := by
  unfold restartDue
  rw [meets_bind]
  refine (check_meets (shouldRestart_uses svc) noClaim).mono fun wanted past noClaim => ?_
  split
  · exact noClaim
  rw [meets_bind, meets_perform]
  refine ⟨noClaim, fun isOpen _ => ?_⟩
  split
  · rfl
  rw [meets_bind]
  refine (check_meets (checkConstraints_asks svc).onCheck ?_).mono fun unmet past noClaim => ?_
  · rfl
  split
  · exact noClaim
  refine ⟨noClaim, fun loaded _ => ?_⟩
  cases loaded <;> rfl

theorem supervise_meets (activeStates : String → Bool) (svc : Service) (noClaim : NoClaim past) :
    (supervise activeStates svc).Meets (contract (.monitor ticks)) past fun _ => NoClaim := by
  unfold supervise
  split
  · exact noClaim
  split
  · exact ⟨noClaim, fun _ _ => rfl⟩
  rw [meets_bind]
  refine (restartDue_meets svc noClaim).mono fun due past claim => ?_
  split
  · rename_i isDue
    rw [if_pos isDue] at claim
    exact ⟨claim, fun _ _ => rfl⟩
  · rename_i notDue
    rw [if_neg notDue] at claim
    exact claim

theorem monitorLoop_meets (n : Nat) (prevFailures : String → Nat) (noClaim : NoClaim past) :
    (monitorLoop n prevFailures).Meets (contract (.monitor ticks)) past fun _ => NoClaim := by
  induction n generalizing prevFailures past with
  | zero => exact noClaim
  | succ n ih =>
    unfold monitorLoop
    rw [meets_bind, meets_perform]
    refine ⟨noClaim, fun ticked _ => ?_⟩
    split
    · rfl
    unfold tick
    rw [meets_bind, meets_bind, meets_perform]
    refine ⟨rfl, fun cfg _ => ?_⟩
    rw [meets_bind]
    refine (check_meets (.fold notifyFailure_onCheck) ?_).mono fun failures past noClaim => ?_
    · rfl
    rw [meets_bind, meets_perform]
    refine ⟨noClaim, fun cfg _ => ?_⟩
    rw [meets_bind]
    refine (check_meets (isActiveMultiple_asks _).onCheck ?_).mono fun activeStates past noClaim => ?_
    · rfl
    rw [meets_bind, meets_perform]
    refine ⟨noClaim, fun cfg _ => ?_⟩
    rw [meets_bind]
    have swept : (each (supervise activeStates) cfg.services).Meets (contract (.monitor ticks))
        (⟨.config, cfg⟩ :: past) fun _ => NoClaim :=
      meets_each NoClaim (fun svc _ _ noClaim => supervise_meets activeStates svc noClaim) rfl
    exact swept.mono fun _ past noClaim => ih failures noClaim

end Tick

/-! ### The other actors -/

/-- The monitor ends without a slot, a restart has freed its own. -/
def ends : Actor → Past Op Op.Ans → Prop
  | .monitor _, past => NoClaim past
  | .restart _, past => released past = true
  | _, _ => True

theorem restartGoroutine_meets (svc : Service) :
    (restartGoroutine svc).Meets (contract (.restart svc)) [] fun _ => ends (.restart svc) := by
  unfold restartGoroutine
  rw [meets_bind]
  have kept : (restart svc).Meets (contract (.restart svc)) [] fun _ past => released past = false := by
    refine (restart_built svc).within.meets (fun past => released past = false) ?_ ?_ rfl
    · intro past op member fresh
      refine ⟨fresh, ?_⟩
      cases op <;> first | trivial | (rcases member with member | member <;> exact member.elim)
    · intro past op ans member fresh _
      have quiet : isDelete op = false := by
        cases op <;> first | rfl | (rcases member with member | member <;> exact member.elim)
      simpa [released, quiet] using fresh
  refine kept.mono fun _ past fresh => ?_
  exact ⟨⟨fresh, rfl⟩, fun _ _ => rfl⟩

theorem code_meets (who : Actor) : who.code.Meets (contract who) [] fun _ => ends who := by
  cases who with
  | monitor ticks => exact monitorLoop_meets ticks _ rfl
  | restart svc => exact restartGoroutine_meets svc
  | boot =>
    refine startup_built.within.meets (fun _ => True) ?_ (fun _ _ _ _ _ _ => trivial) trivial
    intro past op member _
    cases op <;> first | trivial | (rcases member with member | member <;> exact member.elim)
  | api request =>
    have built : OnRequest (Actor.api request).code := foreground_built (by simp [Actor.background])
    refine built.within.meets (fun _ => True) ?_ (fun _ _ _ _ _ _ => trivial) trivial
    intro past op member _
    cases op <;> first | trivial | (rcases member with member | member <;> exact member.elim)
  | backup unit =>
    have built : OnRequest (Actor.backup unit).code := foreground_built (by simp [Actor.background])
    refine built.within.meets (fun _ => True) ?_ (fun _ _ _ _ _ _ => trivial) trivial
    intro past op member _
    cases op <;> first | trivial | (rcases member with member | member <;> exact member.elim)

/-- The slot that a thread of the actor carries after its past. -/
def carries (who : Actor) (past : Past Op Op.Ans) : Option String :=
  match who with
  | .monitor _ => claimed past
  | .restart svc => if released past then none else some svc.unit
  | _ => none

def Carrier (hist : Story) (c : Configuration) (i : Nat) (unit : String) : Prop :=
  ∃ th, c.pool[i]? = some th ∧ carries th.who (past i hist) = some unit

structure OneCarrier (hist : Story) (c : Configuration) : Prop where
  taken : ∀ i unit, Carrier hist c i unit → unit ∈ c.world.inFlight
  unique : ∀ i j unit, Carrier hist c i unit → Carrier hist c j unit → i = j

section Run
variable {ok : Story → Configuration → Step → Prop} {w : World} {ticks : Nat} {hist : Story} {c c' : Configuration}

/-- Every thread keeps to its contract for the rest of its code. -/
theorem run_meets (run : daemon.Run ok (started w ticks) hist c) {i : Nat} {th : Thread Op Op.Ans Actor}
    (at_ : c.pool[i]? = some th) : th.code.Meets (contract th.who) (past i hist) fun _ => ends th.who := by
  have expected : ∀ {who : Actor} {past op} {ans : op.Ans}, (contract who).expect past op ans := by
    intro who past op ans
    cases who <;> trivial
  exact run.meets_end contract ends code_meets (fun _ _ _ _ => expected) at_

theorem run_allowed (run : daemon.Run ok (started w ticks) hist c) {i : Nat} {who : Actor} {op : Op}
    {k : op.Ans → Prog Unit} (at_ : c.pool[i]? = some ⟨who, .call op k⟩) :
    (contract who).allow (past i hist) op :=
  (run_meets run at_).1

theorem carries_step {who : Actor} {op : Op} {ans : op.Ans} {past : Past Op Op.Ans} {unit : String}
    (allowed : (contract who).allow past op) (h : carries who (⟨op, ans⟩ :: past) = some unit) :
    (∃ ticks, who = .monitor ticks ∧ (⟨op, ans⟩ : Act Op Op.Ans) = ⟨.inFlightLoadOrStore unit, false⟩) ∨
    (∃ svc, who = .restart svc ∧ carries who past = some unit ∧ ∀ u, op ≠ .inFlightDelete u) := by
  cases who with
  | monitor ticks =>
    cases op with
    | inFlightLoadOrStore u =>
      cases ans with
      | true => cases h
      | false =>
        obtain rfl := Option.some.inj h
        exact .inl ⟨ticks, rfl, rfl⟩
    | _ => cases h
  | restart svc =>
    refine .inr ⟨svc, rfl, ?_, ?_⟩
    · have fresh : released past = false := allowed.1
      have kept : ¬ released (⟨op, ans⟩ :: past) = true := by
        intro freed
        simp [carries, freed] at h
      simpa [carries, fresh, kept] using h
    · rintro u rfl
      simp [carries, released, isDelete] at h
  | _ => cases h

/-- Where a carrier after a thread's step comes from: it took the slot, it carried it before, or
it is the restart that the monitor spawned for it. -/
theorem carrier_act (run : daemon.Run ok (started w ticks) hist c) {a : Nat} {who : Actor} {op : Op}
    {k : op.Ans → Prog Unit} {ans : op.Ans} (at_ : c.pool[a]? = some ⟨who, .call op k⟩)
    (next : daemon.Step c (.act a who op ans) c') {j : Nat} {unit : String}
    (h : Carrier (.act a who op ans :: hist) c' j unit) :
    (j = a ∧ (⟨op, ans⟩ : Act Op Op.Ans) = ⟨.inFlightLoadOrStore unit, false⟩) ∨
    (Carrier hist c j unit ∧ (j = a → ∃ svc, who = .restart svc ∧ ∀ u, op ≠ .inFlightDelete u)) ∨
    (∃ svc, op = .goRestart svc ∧ j = c.pool.length ∧ Carrier hist c a unit) := by
  obtain ⟨th, found, holds⟩ := h
  have allowed := run_allowed run at_
  rcases next.origin found with ⟨old, quiet⟩ | ⟨op', k', ans', old, eq, _⟩ | ⟨outside, fresh, starts⟩
  · have other : a ≠ j := by
      rintro rfl
      simp [past] at quiet
    rw [past_act_ne other] at holds
    exact .inr (.inl ⟨⟨th, old, holds⟩, fun same => absurd same.symm other⟩)
  · cases eq
    rw [past_act] at holds
    rcases carries_step allowed holds with ⟨_, _, took⟩ | ⟨svc, actor, kept, noDelete⟩
    · exact .inl ⟨rfl, took⟩
    · exact .inr (.inl ⟨⟨_, old, kept⟩, fun _ => ⟨svc, actor, noDelete⟩⟩)
  · rw [next.past_outside outside, run.past_outside outside] at holds
    cases op with
    | goRestart svc =>
      have named := List.mem_singleton.mp starts
      rw [named] at holds
      obtain rfl : svc.unit = unit := Option.some.inj holds
      refine .inr (.inr ⟨svc, rfl, ?_, ?_⟩)
      · have bound := (List.getElem?_eq_some_iff.mp found).1
        cases next
        simp only [List.length_append, List.length_set, List.length_map] at bound
        have one : (daemon.forks (.goRestart svc)).length = 1 := rfl
        omega
      · refine ⟨_, at_, ?_⟩
        cases who with
        | monitor n => exact allowed
        | restart s => exact allowed.2.elim
        | _ => exact allowed.elim
    | goRunBackup u =>
      have named := List.mem_singleton.mp starts
      rw [named] at holds
      cases holds
    | _ => cases starts

theorem oneCarrier_act (run : daemon.Run ok (started w ticks) hist c) (one : OneCarrier hist c) {a : Nat}
    {who : Actor} {op : Op} {k : op.Ans → Prog Unit} {ans : op.Ans} (at_ : c.pool[a]? = some ⟨who, .call op k⟩)
    (permitted : c.world.permits op ans = true) (next : daemon.Step c (.act a who op ans) c') :
    OneCarrier (.act a who op ans :: hist) c' := by
  have allowed := run_allowed run at_
  have world : c'.world = c.world.effect op ans := by
    cases next
    rfl
  have free : ∀ {unit : String}, (⟨op, ans⟩ : Act Op Op.Ans) = ⟨.inFlightLoadOrStore unit, false⟩ →
      unit ∉ c.world.inFlight := by
    intro unit took
    cases took
    have same : false = decide (unit ∈ c.world.inFlight) := of_decide_eq_true permitted
    exact of_decide_eq_false same.symm
  -- a spawned restart took over from the monitor, which is no carrier any more
  have replaced : ∀ {j svc unit}, op = .goRestart svc → Carrier hist c a unit → Carrier hist c j unit →
      (j = a → ∃ svc, who = .restart svc ∧ ∀ u, op ≠ .inFlightDelete u) → False := by
    rintro j svc unit rfl mine other kept
    obtain ⟨s, rfl, _⟩ := kept (one.unique j a unit other mine)
    exact allowed.2
  constructor
  · intro j unit carrier
    rw [world, World.effect_inFlight]
    rcases carrier_act run at_ next carrier with ⟨_, took⟩ | ⟨old, kept⟩ | ⟨svc, rfl, _, old⟩
    · cases took
      exact Finset.mem_insert_self _ _
    · have inside := one.taken j unit old
      cases op with
      | inFlightLoadOrStore u => exact Finset.mem_insert_of_mem inside
      | inFlightDelete u =>
        refine Finset.mem_erase.mpr ⟨?_, inside⟩
        rintro rfl
        cases who with
        | restart svc =>
          obtain ⟨fresh, rfl⟩ := allowed
          have mine : Carrier hist c a svc.unit := ⟨_, at_, by simp [carries, fresh]⟩
          obtain ⟨_, _, noDelete⟩ := kept (one.unique j a _ old mine)
          exact noDelete _ rfl
        | _ => exact allowed.elim
      | _ => exact inside
    · exact one.taken a unit old
  · intro j l unit first second
    rcases carrier_act run at_ next first with ⟨mine, took⟩ | ⟨old, kept⟩ | ⟨svc, spawned, at', old⟩ <;>
      rcases carrier_act run at_ next second with ⟨mine', took'⟩ | ⟨old', kept'⟩ | ⟨svc', spawned', at'', old'⟩
    · exact mine.trans mine'.symm
    · exact absurd (one.taken l unit old') (free took)
    · exact absurd (one.taken a unit old') (free took)
    · exact absurd (one.taken j unit old) (free took')
    · exact one.unique j l unit old old'
    · exact (replaced spawned' old' old kept).elim
    · exact absurd (one.taken a unit old) (free took')
    · exact (replaced spawned old old' kept').elim
    · exact at'.trans at''.symm

theorem run_oneCarrier (run : daemon.Run ok (started w ticks) hist c) : OneCarrier hist c := by
  induction run with
  | start =>
    have none : ∀ i unit, ¬ Carrier [] (started w ticks) i unit := by
      rintro i unit ⟨th, found, holds⟩
      obtain ⟨who, member, rfl⟩ := List.mem_map.mp (List.mem_of_getElem? found)
      rcases List.mem_cons.mp member with rfl | member
      · cases holds
      · obtain rfl := List.mem_singleton.mp member
        cases holds
    exact ⟨fun i unit h => absurd h (none i unit), fun i _ unit h => absurd h (none i unit)⟩
  | @step hist c c' e before _ next ih =>
    have step := next
    cases next with
    | act at_ permitted => exact oneCarrier_act before ih at_ permitted step
    | @env move permitted =>
      refine ⟨fun i unit carrier => ?_, ih.unique⟩
      have inside := ih.taken i unit carrier
      cases move <;> exact inside
    | @arrive who arrives =>
      have old : ∀ i unit, Carrier (.arrive who :: hist) ⟨c.world, c.pool ++ [daemon.spawn who]⟩ i unit →
          Carrier hist c i unit := by
        rintro i unit ⟨⟨who', code⟩, found, holds⟩
        rcases step.origin found with ⟨old, _⟩ | ⟨_, _, _, _, eq, _⟩ | ⟨_, _, rfl, _⟩
        · exact ⟨_, old, holds⟩
        · cases eq
        · cases who <;> cases arrives <;> cases holds
      exact ⟨fun i unit h => ih.taken i unit (old i unit h),
        fun i j unit first second => ih.unique i j unit (old i unit first) (old j unit second)⟩

theorem restart_unique (run : daemon.Run ok (started w ticks) hist c) {i j : Nat} {svc svc' : Service}
    {code code' : Prog Unit} (first : c.pool[i]? = some ⟨.restart svc, code⟩)
    (second : c.pool[j]? = some ⟨.restart svc', code'⟩) (same : svc.unit = svc'.unit)
    (alive : released (past i hist) = false) (alive' : released (past j hist) = false) : i = j := by
  refine (run_oneCarrier run).unique i j svc.unit ⟨_, first, ?_⟩ ⟨_, second, ?_⟩
  · simp [carries, alive]
  · simp [carries, alive', same]

/-! ### Every slot has a carrier -/

/-- A carrier stays one, unless it frees the slot or hands it to the restart it spawns. -/
theorem carrier_stays (run : daemon.Run ok (started w ticks) hist c) {a : Nat} {who : Actor} {op : Op}
    {k : op.Ans → Prog Unit} {ans : op.Ans} (at_ : c.pool[a]? = some ⟨who, .call op k⟩)
    (next : daemon.Step c (.act a who op ans) c') {j : Nat} {unit : String} (h : Carrier hist c j unit) :
    Carrier (.act a who op ans :: hist) c' j unit ∨
    (j = a ∧ op = .inFlightDelete unit) ∨ (∃ svc, op = .goRestart svc ∧ svc.unit = unit) := by
  obtain ⟨th, found, holds⟩ := h
  obtain ⟨code, found'⟩ := next.keeps found
  by_cases acts : a = j
  swap
  · refine .inl ⟨_, found', ?_⟩
    rwa [past_act_ne acts]
  subst acts
  obtain rfl : th = ⟨who, .call op k⟩ := by
    rw [at_] at found
    exact (Option.some.inj found).symm
  have allowed := run_allowed run at_
  cases who with
  | monitor ticks =>
    have claim : claimed (past a hist) = some unit := holds
    cases op with
    | goRestart svc =>
      have own : claimed (past a hist) = some svc.unit := allowed
      rw [claim] at own
      exact .inr (.inr ⟨svc, rfl, (Option.some.inj own).symm⟩)
    | inFlightDelete u => exact allowed.elim
    | _ =>
      have none : claimed (past a hist) = none := allowed
      rw [claim] at none
      cases none
  | restart svc =>
    have fresh : released (past a hist) = false := allowed.1
    obtain rfl : svc.unit = unit := by simpa [carries, fresh] using holds
    by_cases frees : isDelete op = true
    · cases op with
      | inFlightDelete u =>
        obtain rfl : u = svc.unit := allowed.2
        exact .inr (.inl ⟨rfl, rfl⟩)
      | _ => cases frees
    · refine .inl ⟨_, found', ?_⟩
      rw [past_act]
      have kept : released (⟨op, ans⟩ :: past a hist) = false := by
        simpa [released, frees] using fresh
      simp [carries, kept]
  | _ => cases holds

def Carried (hist : Story) (c : Configuration) : Prop := ∀ unit ∈ c.world.inFlight, ∃ i, Carrier hist c i unit

theorem carrier_spawned (run : daemon.Run ok (started w ticks) hist c) {a : Nat} {who : Actor} {svc : Service}
    (next : daemon.Step c (.act a who (.goRestart svc) ()) c') :
    Carrier (.act a who (.goRestart svc) () :: hist) c' c.pool.length svc.unit := by
  have quiet : past c.pool.length (.act a who (.goRestart svc) () :: hist) = [] := by
    rw [next.past_outside (Nat.le_refl _), run.past_outside (Nat.le_refl _)]
  refine ⟨daemon.spawn (.restart svc), ?_, ?_⟩
  · cases next
    simp [daemon, forks]
  · rw [quiet]
    rfl

theorem carried_act (run : daemon.Run ok (started w ticks) hist c) (carried : Carried hist c) {a : Nat}
    {who : Actor} {op : Op} {k : op.Ans → Prog Unit} {ans : op.Ans} (at_ : c.pool[a]? = some ⟨who, .call op k⟩)
    (permitted : c.world.permits op ans = true) (next : daemon.Step c (.act a who op ans) c') :
    Carried (.act a who op ans :: hist) c' := by
  have allowed := run_allowed run at_
  have world : c'.world = c.world.effect op ans := by
    cases next
    rfl
  have stays : ∀ unit ∈ c.world.inFlight, op ≠ .inFlightDelete unit →
      ∃ i, Carrier (.act a who op ans :: hist) c' i unit := by
    intro unit inside kept
    obtain ⟨j, carrier⟩ := carried unit inside
    rcases carrier_stays run at_ next carrier with stays | ⟨_, frees⟩ | ⟨svc, rfl, rfl⟩
    · exact ⟨j, stays⟩
    · exact absurd frees kept
    · exact ⟨_, carrier_spawned run next⟩
  intro unit inside
  rw [world, World.effect_inFlight] at inside
  cases op with
  | inFlightDelete u =>
    obtain ⟨other, inside⟩ := Finset.mem_erase.mp inside
    exact stays unit inside fun same => other (Op.inFlightDelete.inj same).symm
  | inFlightLoadOrStore u =>
    have loaded : ans = decide (u ∈ c.world.inFlight) := of_decide_eq_true permitted
    rcases Finset.mem_insert.mp inside with rfl | inside
    · by_cases present : unit ∈ c.world.inFlight
      · exact stays unit present (by simp)
      · rw [decide_eq_false present] at loaded
        subst loaded
        obtain ⟨code, found⟩ := next.keeps at_
        refine ⟨a, _, found, ?_⟩
        rw [past_act]
        cases who with
        | monitor ticks => rfl
        | restart svc => exact allowed.2.elim
        | _ => exact allowed.elim
    · exact stays unit inside (by simp)
  | _ => exact stays unit inside (by simp)

theorem run_carried (run : daemon.Run ok (started w ticks) hist c) : Carried hist c := by
  induction run with
  | start =>
    intro unit inside
    exact absurd inside (Finset.notMem_empty unit)
  | @step hist c c' e before _ next ih =>
    have step := next
    cases next with
    | act at_ permitted => exact carried_act before ih at_ permitted step
    | @env move permitted =>
      intro unit inside
      have inside : unit ∈ c.world.inFlight := by cases move <;> exact inside
      exact ih unit inside
    | @arrive who arrives =>
      intro unit inside
      obtain ⟨i, th, found, holds⟩ := ih unit inside
      refine ⟨i, th, ?_, holds⟩
      rw [List.getElem?_append_left (List.getElem?_eq_some_iff.mp found).1]
      exact found

/-! ### Slots and goroutines -/

def running : Prog Unit → Bool
  | .done _ => false
  | .call _ _ => true

/-- Thread `i` is a restart goroutine of the unit that has not ended. -/
def Alive (c : Configuration) (i : Nat) (unit : String) : Prop :=
  ∃ (svc : Service) (code : Prog Unit), c.pool[i]? = some ⟨.restart svc, code⟩ ∧ svc.unit = unit ∧ running code = true

/-- The monitor's next operation spawns a restart goroutine of the unit. -/
def Spawning (c : Configuration) (unit : String) : Prop :=
  ∃ (i ticks : Nat) (svc : Service) (k : (Op.goRestart svc).Ans → Prog Unit),
    c.pool[i]? = some ⟨.monitor ticks, .call (.goRestart svc) k⟩ ∧ svc.unit = unit

structure Slots (c : Configuration) : Prop where
  unique : ∀ i j unit, Alive c i unit → Alive c j unit → i = j
  occupied : ∀ unit, unit ∈ c.world.inFlight ↔ (∃ i, Alive c i unit) ∨ Spawning c unit

theorem Alive.carrier (run : daemon.Run ok (started w ticks) hist c) {i : Nat} {unit : String}
    (alive : Alive c i unit) : Carrier hist c i unit := by
  obtain ⟨svc, code, at_, rfl, runs⟩ := alive
  cases code with
  | done u => cases runs
  | call op k =>
    have fresh : released (past i hist) = false := (run_allowed run at_).1
    exact ⟨_, at_, by simp [carries, fresh]⟩

theorem Carrier.holder (run : daemon.Run ok (started w ticks) hist c) {i : Nat} {unit : String}
    (carrier : Carrier hist c i unit) : Alive c i unit ∨ Spawning c unit := by
  obtain ⟨⟨who, code⟩, at_, holds⟩ := carrier
  have meets := run_meets run at_
  cases who with
  | monitor ticks =>
    have claim : claimed (past i hist) = some unit := holds
    have no : claimed (past i hist) ≠ none := by simp [claim]
    refine .inr ?_
    cases code with
    | done u => exact absurd meets no
    | call op k =>
      cases op with
      | goRestart svc =>
        have own : claimed (past i hist) = some svc.unit := meets.1
        rw [claim] at own
        exact ⟨i, ticks, svc, k, at_, (Option.some.inj own).symm⟩
      | inFlightDelete u => exact meets.1.elim
      | _ => exact absurd meets.1 no
  | restart svc =>
    refine .inl ⟨svc, code, at_, ?_, ?_⟩
    · by_cases freed : released (past i hist) = true
      · simp [carries, freed] at holds
      · simpa [carries, freed] using holds
    · cases code with
      | done u =>
        have freed : released (past i hist) = true := meets
        simp [carries, freed] at holds
      | call op k => rfl
  | _ => cases holds

/-- At most one restart goroutine of a unit is alive, and the slot of a unit is occupied exactly
while one is or the monitor is about to spawn it. -/
theorem run_slots (run : daemon.Run ok (started w ticks) hist c) : Slots c := by
  have one := run_oneCarrier run
  constructor
  case unique => exact fun i j unit first second => one.unique i j unit (first.carrier run) (second.carrier run)
  case occupied =>
    intro unit
    constructor
    · intro inside
      obtain ⟨i, carrier⟩ := run_carried run unit inside
      exact (Carrier.holder run carrier).imp_left fun alive => ⟨i, alive⟩
    · rintro (⟨i, alive⟩ | ⟨i, ticks, svc, k, at_, rfl⟩)
      · exact one.taken i unit (alive.carrier run)
      · exact one.taken i svc.unit ⟨_, at_, run_allowed run at_⟩

end Run

def world : World := { cfg := { services := [{ unit := "a.service", enabled := true, restart := "always" }] } }

def alive (c : Configuration) (unit : String) : Bool :=
  c.pool.any fun th => match th.who with
    | .restart svc => svc.unit == unit && running th.code
    | _ => false

theorem Alive.found {c : Configuration} {i : Nat} {unit : String} (h : Alive c i unit) : alive c unit = true := by
  obtain ⟨svc, code, at_, rfl, runs⟩ := h
  exact List.any_eq_true.mpr ⟨_, List.mem_of_getElem? at_, by simp [runs]⟩

theorem run_slots_spawned : ∃ hist c, daemon.Run Machine.anyStep (started world 1) hist c ∧
    alive c "a.service" = true ∧ Slots c := by
  obtain ⟨hist, c, run, shown⟩ := schedule_anyRun world 1 [.go 1 {} 9]
    (fun s => alive s.2 "a.service") (by decide)
  exact ⟨hist, c, run, shown, run_slots run⟩

/-- Between the two statements of the monitor the slot is taken and no goroutine has it. -/
theorem slot_before_goroutine : ¬ ∀ (w : World) (ticks : Nat) (hist : Story) (c : Configuration),
    daemon.Run Machine.anyStep (started w ticks) hist c →
    ∀ unit, unit ∈ c.world.inFlight ↔ ∃ i, Alive c i unit := by
  intro claim
  obtain ⟨hist, c, run, shown⟩ := schedule_anyRun world 1 [.go 1 {} 8]
    (fun s => decide ("a.service" ∈ s.2.world.inFlight) && !alive s.2 "a.service") (by decide)
  simp only [Bool.and_eq_true, decide_eq_true_eq, Bool.not_eq_true'] at shown
  obtain ⟨i, present⟩ := (claim world 1 hist c run "a.service").mp shown.1
  rw [present.found] at shown
  cases shown.2

end InFlight
end HomelabDaemon
