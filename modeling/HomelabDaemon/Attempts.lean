import HomelabDaemon.InFlight

/-!
# Attempts

What a restart of the monitor does to its unit: one start, and one verdict about it.
-/

namespace HomelabDaemon
open Concurrency Program InFlight

namespace Attempts

def isStart (unit : String) : Op → Bool
  | .mark (.startUnit u) => u == unit
  | _ => false

def isFailure (unit : String) : Op → Bool
  | .recordFailure u => u == unit
  | _ => false

/-- The thread has begun to start the unit. -/
def began (unit : String) (past : Past Op Op.Ans) : Bool := past.any fun act => isStart unit act.1

/-- The thread has counted a failure of the unit. -/
def counted (unit : String) (past : Past Op Op.Ans) : Bool := past.any fun act => isFailure unit act.1

/-- The settle time is just over. -/
def settled : Past Op Op.Ans → Bool
  | ⟨.ask (.sleep .settle _), _⟩ :: _ => true
  | _ => false

/-- Neither started nor counted. -/
def Waiting (svc : Service) (past : Past Op Op.Ans) : Prop :=
  began svc.unit past = false ∧ counted svc.unit past = false

/-- Started, and not yet judged. -/
def Trying (svc : Service) (past : Past Op Op.Ans) : Prop :=
  began svc.unit past = true ∧ counted svc.unit past = false

/-- A restart starts its unit once and counts at most one failure after that. Of a service that
flaps, it finds the unit inactive at the settle check; so it resets nothing and leaves no
attempt without its failure. -/
def contract (flaps : Service → Prop) : Actor → Contract Op Op.Ans
  | .restart svc =>
    { allow := fun past op => match op with
        | .mark (.startUnit u) => u = svc.unit ∧ Waiting svc past
        | .recordFailure u => u = svc.unit ∧ Trying svc past
        | .breakerReset u => u = svc.unit ∧ ¬ flaps svc
        | .inFlightDelete _ => flaps svc → began svc.unit past = true → counted svc.unit past = true
        | _ => True
      expect := fun past op ans => flaps svc → match op, ans with
        | .ask (.isActive u), active => settled past = true → u = svc.unit → active = false
        | .ask (.sleep .settle _), fired => fired = true
        | _, _ => True }
  | .boot | .backup _ =>
    { allow := fun _ op => match op with
        | .recordFailure _ | .breakerReset _ => False
        | _ => True }
  | _ =>
    { allow := fun _ op => match op with
        | .recordFailure _ => False
        | _ => True }

section Restart
variable {flaps : Service → Prop} {svc : Service} {past : Past Op Op.Ans}

def Judged (flaps : Service → Prop) (svc : Service) (past : Past Op Op.Ans) : Prop :=
  flaps svc → began svc.unit past = true → counted svc.unit past = true

theorem asks_meets {α : Type} {p : Prog α} (h : AsksOnly p) (waiting : Waiting svc past) :
    p.Meets (contract flaps (.restart svc)) past fun _ => Waiting svc := by
  refine h.meets (Waiting svc) ?_ ?_ waiting
  · intro past op asks _
    cases op <;> trivial
  · intro past op ans asks waiting _
    cases op <;> first | exact waiting | exact asks.elim

theorem startUnit_meets (waiting : Waiting svc past) :
    (startUnit svc.unit).Meets (contract flaps (.restart svc)) past fun _ => Trying svc := by
  have begun : ∀ ans, began svc.unit (⟨.mark (.startUnit svc.unit), ans⟩ :: past) = true := by
    intro ans
    simp [began, isStart]
  exact ⟨⟨rfl, waiting⟩, fun _ _ => ⟨trivial, fun _ _ => ⟨trivial, fun _ _ => ⟨trivial, fun _ _ =>
    ⟨trivial, fun _ _ => ⟨begun _, waiting.2⟩⟩⟩⟩⟩⟩

theorem failed_meets (trying : Trying svc past) :
    (failed svc).Meets (contract flaps (.restart svc)) past fun _ => Judged flaps svc := by
  refine ⟨⟨rfl, trying⟩, fun d _ => ?_⟩
  intro _ _
  simp [counted, isFailure]

theorem judge_meets (trying : Trying svc past) :
    (judge svc).Meets (contract flaps (.restart svc)) past fun _ => Judged flaps svc := by
  unfold judge
  rw [meets_bind, meets_perform]
  refine ⟨trivial, fun fired ended => ?_⟩
  split
  · rename_i cancelled
    intro same _
    have : fired = true := ended same
    simp [this] at cancelled
  rw [meets_bind, meets_perform]
  refine ⟨trivial, fun active seen => ?_⟩
  split
  · exact failed_meets trying
  · rename_i stayed
    refine ⟨⟨rfl, fun same => ?_⟩, fun _ _ same => ?_⟩
    · have : active = false := seen same rfl rfl
      simp [this] at stayed
    · have : active = false := seen same rfl rfl
      simp [this] at stayed

theorem restart_meets (waiting : Waiting svc past) :
    (restart svc).Meets (contract flaps (.restart svc)) past fun _ => Judged flaps svc := by
  have early : ∀ {past}, Waiting svc past → Judged flaps svc past := by
    intro past waiting _ begun
    rw [waiting.1] at begun
    cases begun
  unfold restart
  rw [meets_bind]
  refine (asks_meets (inactiveDependency_asks svc) waiting).mono fun inactive past waiting => ?_
  split
  · exact early waiting
  rw [meets_bind]
  refine (asks_meets (delay_asks _ _) waiting).mono fun fired past waiting => ?_
  split
  · exact early waiting
  rw [meets_bind]
  refine (asks_meets (inactiveDependency_asks svc) waiting).mono fun inactive past waiting => ?_
  split
  · exact early waiting
  rw [meets_bind]
  refine (startUnit_meets waiting).mono fun error past trying => ?_
  split
  · exact failed_meets trying
  · exact judge_meets trying

end Restart

theorem code_meets (flaps : Service → Prop) (who : Actor) : who.code.Meets (contract flaps who) [] fun _ _ => True := by
  cases who with
  | restart svc =>
    change (restart svc >>= fun _ => perform (Op.inFlightDelete svc.unit)).Meets _ _ _
    rw [meets_bind]
    have fresh : Waiting svc [] := ⟨rfl, rfl⟩
    exact (restart_meets fresh).mono fun _ past judged => ⟨judged, fun _ _ => trivial⟩
  | monitor ticks =>
    refine (monitorLoop_uses ticks _).meets (fun _ => True) ?_ (fun _ _ _ _ _ _ => trivial) trivial
    intro past op member _
    cases op <;> trivial
  | boot =>
    refine startup_built.within.meets (fun _ => True) ?_ (fun _ _ _ _ _ _ => trivial) trivial
    intro past op member _
    cases op <;> first | trivial | (rcases member with member | member <;> exact member.elim)
  | backup unit =>
    refine (Uses.bind (runBackup_built unit).within fun _ => .done _).meets (fun _ => True) ?_
      (fun _ _ _ _ _ _ => trivial) trivial
    intro past op member _
    cases op <;> first | trivial | (rcases member with member | member <;> exact member.elim)
  | api request =>
    refine (Uses.bind (handle_built request).within fun _ => .done _).meets (fun _ => True) ?_
      (fun _ _ _ _ _ _ => trivial) trivial
    intro past op member _
    cases op <;> first | trivial | (rcases member with member | member <;> exact member.elim)

section Run
variable {ok : Story → Configuration → Step → Prop} {w : World} {ticks : Nat} {hist : Story} {c : Configuration}
variable {i : Nat} {who : Actor} {svc : Service} {u : String}

theorem run_allowed (run : daemon.Run ok (started w ticks) hist c) {op : Op} {k : op.Ans → Prog Unit}
    (at_ : c.pool[i]? = some ⟨who, .call op k⟩) : (contract (fun _ => False) who).allow (past i hist) op := by
  have expected : ∀ {who : Actor} {past op} {ans : op.Ans}, (contract (fun _ => False) who).expect past op ans := by
    intro who past op ans
    cases who <;> first | trivial | exact fun absurd => absurd.elim
  exact (run.meets (contract fun _ => False) (code_meets _) (fun _ _ _ _ => expected) at_).1

/-- In any run a restart begins to start its own unit only, and only once. -/
theorem run_begins (run : daemon.Run ok (started w ticks) hist c) {k : Unit → Prog Unit}
    (at_ : c.pool[i]? = some ⟨.restart svc, .call (.mark (.startUnit u)) k⟩) :
    u = svc.unit ∧ began svc.unit (past i hist) = false := by
  obtain ⟨named, fresh, _⟩ := run_allowed run at_
  exact ⟨named, fresh⟩

/-- In any run only a restart counts failures, and only of its own unit. -/
theorem run_counts (run : daemon.Run ok (started w ticks) hist c) {k : Nat → Prog Unit}
    (at_ : c.pool[i]? = some ⟨who, .call (.recordFailure u) k⟩) : ∃ svc, who = .restart svc ∧ u = svc.unit := by
  have allowed := run_allowed run at_
  cases who with
  | restart svc => exact ⟨svc, rfl, allowed.1⟩
  | _ => exact allowed.elim

end Run

end Attempts
end HomelabDaemon
