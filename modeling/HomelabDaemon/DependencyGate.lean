import HomelabDaemon.System

/-!
# Dependencies of an automatic start

Boot and the monitor's restarts look at the dependencies of a service right before they start
it. A restart that finds one inactive ends there, and nobody counts it as a failure.
-/

namespace HomelabDaemon
open Concurrency Program

namespace DependencyGate

/-- The dependency was seen active, and since then the thread has only looked at dependencies. -/
def observed (dep : String) : Past Op Op.Ans → Bool
  | ⟨.ask (.isActive unit), active⟩ :: past => (unit == dep && active) || observed dep past
  | _ => false

/-- Every dependency of the service was seen active right before. -/
def Gated (svc : Service) (past : Past Op Op.Ans) : Prop := ∀ dep ∈ svc.dependsOn, observed dep past = true

def isStart : Op → Bool
  | .mark (.startUnit _) => true
  | _ => false

/-- The thread has started a unit. -/
def begun (past : Past Op Op.Ans) : Bool := past.any fun act => isStart act.1

/-- Before any start, a dependency was seen inactive. -/
def Abandoned (svc : Service) (past : Past Op Op.Ans) : Prop :=
  begun past = false ∧ ∃ dep ∈ svc.dependsOn, (⟨.ask (.isActive dep), false⟩ : Act Op Op.Ans) ∈ past

/-- The services that boot has still to look after, the one of this round first. -/
def ahead : Past Op Op.Ans → List Service
  | [] => []
  | ⟨.ask (.sortByOrder _), ordered⟩ :: _ => ordered.list
  | ⟨.mark (.next _), _⟩ :: past => (ahead past).tail
  | _ :: past => ahead past

/-- Boot starts the unit of its round, gated. A restart starts its unit, gated, unless it is
abandoned, and touches no breaker before. -/
def contract : Actor → Contract Op Op.Ans
  | .boot =>
    { allow := fun past op => match op with
        | .mark (.startUnit unit) => ∃ svc, (ahead past).head? = some svc ∧ unit = svc.unit ∧ Gated svc past
        | _ => True }
  | .restart svc =>
    { allow := fun past op => match op with
        | .mark (.startUnit unit) => unit = svc.unit ∧ Gated svc past ∧ ¬ Abandoned svc past
        | .recordFailure _ | .breakerReset _ => begun past = true
        | .setUserStopped _ _ | .setAllUserStopped _ _ => False
        | _ => True }
  | _ => { allow := fun _ _ => True }

/-- The questions of one round. -/
def isProbe : Op → Prop
  | .ask (.isActive _) | .ask (.isMounted _) | .ask (.sleep _ _) | .ask .afterDeadline | .ask .ctxErr => True
  | _ => False

theorem waitActive_probes (unit : String) (timeout : Nat) : (waitActive unit timeout).Uses isProbe := by
  unfold waitActive
  generalize timeout / 3 + 2 = polls
  induction polls with
  | zero => exact .done _
  | succ polls ih =>
    refine .bind (.perform trivial) fun active => ?_
    split
    · exact .done _
    refine .bind (.perform trivial) fun late => ?_
    split
    · exact .done _
    refine .bind (.perform trivial) fun fired => ?_
    split
    · exact ih
    · exact .done _

theorem inactiveDependency_probes (svc : Service) : (inactiveDependency svc).Uses isProbe :=
  .firstSome fun _ => .bind (.perform trivial) fun _ => .done _

theorem bootChecks_probes (svc : Service) : (bootChecks svc).Uses isProbe := by
  refine .bind (.firstSome fun dep => waitActive_probes dep 120) fun waiting => ?_
  split
  · exact .done _
  refine .bind (inactiveDependency_probes svc) fun inactive => ?_
  split
  · exact .done _
  · exact .firstSome fun _ => .bind (.perform trivial) fun _ => .done _

theorem delay_probes (why : Wait) (seconds : Int) : (delay why seconds).Uses isProbe := by
  unfold delay
  split
  · exact .perform trivial
  · exact .done _

/-- An answer about a dependency. -/
abbrev look (dep : String) (active : Bool) : Act Op Op.Ans := ⟨.ask (.isActive dep), active⟩

/-- None of these dependencies was seen inactive. -/
def Unharmed (deps : List String) (past : Past Op Op.Ans) : Prop := ∀ dep ∈ deps, look dep false ∉ past

section Gate
variable {C : Contract Op Op.Ans} {past : Past Op Op.Ans} {svc : Service} {watched : List String}

theorem Unharmed.active (h : Unharmed watched past) (dep : String) : Unharmed watched (look dep true :: past) := by
  intro d member
  rw [List.mem_cons, not_or]
  refine ⟨fun same => ?_, h d member⟩
  cases same

/-- The loop over the dependencies keeps what questions keep. When it finds none inactive, it
has seen all of them active, and nothing else since. -/
theorem inactiveDependency_meets (I : Past Op Op.Ans → Prop)
    (asks : ∀ past dep, I past → C.allow past (.ask (.isActive dep)))
    (keeps : ∀ past dep active, I past → I (look dep active :: past)) (start : I past)
    (unharmed : Unharmed watched past) :
    (inactiveDependency svc).Meets C past fun inactive past =>
      I past ∧ (inactive = none → Gated svc past ∧ Unharmed watched past) := by
  have loop : ∀ deps past, I past → Unharmed watched past →
      (firstSome (fun dep => isActive dep >>= fun active => return if active then none else some dep) deps).Meets C past
      fun inactive past' => I past' ∧ (inactive = none → (∀ d, observed d past = true → observed d past' = true) ∧
        (∀ d ∈ deps, observed d past' = true) ∧ Unharmed watched past') := by
    intro deps
    induction deps with
    | nil => exact fun past start unharmed =>
        ⟨start, fun _ => ⟨fun _ h => h, fun _ member => absurd member List.not_mem_nil, unharmed⟩⟩
    | cons dep deps ih =>
      intro past start unharmed
      rw [firstSome, meets_bind, meets_bind, meets_perform]
      refine ⟨asks past dep start, fun active _ => ?_⟩
      cases active with
      | false => exact ⟨keeps past dep false start, fun found => by cases found⟩
      | true =>
        refine (ih _ (keeps past dep true start) (unharmed.active dep)).mono fun inactive past' h =>
          ⟨h.1, fun none_ => ?_⟩
        obtain ⟨kept, rest, harmless⟩ := h.2 none_
        refine ⟨fun d seen => kept d (by simp [observed, seen]), fun d member => ?_, harmless⟩
        rcases List.mem_cons.mp member with rfl | member
        · exact kept d (by simp [observed])
        · exact rest d member
  exact (loop svc.dependsOn past start unharmed).mono fun inactive past h => ⟨h.1, fun none_ => (h.2 none_).2⟩

end Gate

/-! ### Boot -/

section Boot
variable {past : Past Op Op.Ans} {svc : Service} {rest : List Service}

/-- The round of the service, and the rounds to come. -/
def Round (svc : Service) (rest : List Service) (past : Past Op Op.Ans) : Prop := ahead past = svc :: rest

theorem Round.cons {op : Op} {ans : op.Ans} (h : Round svc rest past) (probe : isProbe op) :
    Round svc rest (⟨op, ans⟩ :: past) := by
  cases op with
  | ask q => cases q <;> first | exact h | exact probe.elim
  | _ => exact probe.elim

theorem probes_meet {α : Type} {p : Prog α} (h : p.Uses isProbe) (round : Round svc rest past) :
    p.Meets (contract .boot) past fun _ => Round svc rest := by
  refine h.meets (Round svc rest) ?_ (fun _ _ _ probe round _ => round.cons probe) round
  intro past op probe _
  cases op <;> trivial

theorem startUnit_meets (round : Round svc rest past) (gated : Gated svc past) :
    (startUnit svc.unit).Meets (contract .boot) past fun _ => Round svc rest :=
  ⟨⟨svc, by rw [show ahead past = svc :: rest from round]; rfl, rfl, gated⟩, fun _ _ => ⟨trivial, fun _ _ =>
    ⟨trivial, fun _ _ => ⟨trivial, fun _ _ => ⟨trivial, fun _ _ => round⟩⟩⟩⟩⟩

theorem bootService_meets (round : Round svc rest past) :
    (bootService svc).Meets (contract .boot) past fun r past => r = none → ahead past = rest := by
  have finish : ∀ {past}, Round svc rest past → (mark (.next svc) >>= fun _ => return none : Prog (Option Unit)).Meets
      (contract .boot) past fun r past => r = none → ahead past = rest := by
    intro past round
    refine ⟨trivial, fun _ _ _ => ?_⟩
    change (ahead past).tail = rest
    rw [show ahead past = svc :: rest from round]
    rfl
  unfold bootService
  rw [meets_bind, meets_perform]
  refine ⟨trivial, fun cancelled _ => ?_⟩
  split
  · exact fun absurd => nomatch absurd
  rw [meets_bind]
  refine (probes_meet (bootChecks_probes svc)
    (round.cons (show isProbe (.ask .ctxErr) from trivial))).mono fun error past round => ?_
  split
  · exact finish round
  rw [meets_bind]
  refine (probes_meet (delay_probes _ _) round).mono fun fired past round => ?_
  split
  · exact fun absurd => nomatch absurd
  rw [meets_bind]
  have looked : (inactiveDependency svc).Meets (contract .boot) past fun inactive past =>
      Round svc rest past ∧ (inactive = none → Gated svc past ∧ Unharmed [] past) :=
    inactiveDependency_meets _ (fun _ _ _ => trivial) (fun _ _ _ round => round.cons trivial) round nofun
  refine looked.mono fun inactive past h => ?_
  rw [meets_bind]
  split
  · exact finish h.1
  · rename_i active
    rw [meets_bind]
    exact (startUnit_meets h.1 (h.2 (by simpa using active)).1).mono fun _ past round => finish round

theorem rounds_meet (services : List Service) (ready : ahead past = services) :
    (firstSome bootService services).Meets (contract .boot) past fun _ _ => True := by
  induction services generalizing past with
  | nil => trivial
  | cons svc services ih =>
    rw [firstSome, meets_bind]
    refine (bootService_meets ready).mono fun r past finished => ?_
    cases r with
    | some c => trivial
    | none => exact ih (finished rfl)

theorem startup_meets : startup.Meets (contract .boot) [] fun _ _ => True := by
  have free : ∀ {α : Type} {p : Prog α} {verbs : Verb → Prop} {plain : Op → Prop} {past : Past Op Op.Ans},
      BuiltFrom verbs plain p → ¬ verbs .start → (∀ unit, ¬ plain (.mark (.startUnit unit))) →
      p.Meets (contract .boot) past fun _ _ => True := by
    intro α p verbs plain past built noVerb noMark
    refine built.within.meets (fun _ => True) ?_ (fun _ _ _ _ _ _ => trivial) trivial
    intro past op member _
    cases op with
    | mark m =>
      cases m with
      | startUnit unit =>
        rcases member with member | member
        · exact absurd member (noMark unit)
        · exact absurd member noVerb
      | _ => trivial
    | _ => trivial
  unfold startup
  rw [meets_bind]
  refine (free verifyRunningServices_built (by simp) fun _ h => h).mono fun _ past _ => ?_
  rw [meets_bind, meets_perform]
  refine ⟨trivial, fun isFirst _ => ?_⟩
  split
  · unfold boot
    rw [meets_bind, meets_perform]
    refine ⟨trivial, fun cfg _ => ?_⟩
    have listed : (bootable cfg.services).Uses fun op => ∃ unit, op = .isUserStopped unit := by
      refine .fold fun enabled svc => ?_
      split
      · exact .done _
      · exact .bind (.perform ⟨_, rfl⟩) fun _ => .done _
    rw [meets_bind]
    refine (listed.meets (fun _ => True) ?_ (fun _ _ _ _ _ _ => trivial) trivial).mono fun enabled past _ => ?_
    · rintro _ _ ⟨unit, rfl⟩ _
      trivial
    rw [meets_bind, meets_perform]
    refine ⟨trivial, fun ordered _ => ?_⟩
    rw [meets_bind]
    exact (rounds_meet ordered.list rfl).mono fun _ _ _ => trivial
  · trivial

end Boot

/-! ### Restarts -/

section Restart
variable {past : Past Op Op.Ans} {svc : Service}

def Unbegun (past : Past Op Op.Ans) : Prop := begun past = false

theorem counted_meets {op : Op} {ans : op.Ans} (begins : begun past = true) : begun (⟨op, ans⟩ :: past) = true := by
  unfold begun at begins ⊢
  rw [List.any_cons, begins, Bool.or_true]

theorem failed_meets (begins : begun past = true) : (failed svc).Meets (contract (.restart svc)) past fun _ _ => True :=
  ⟨begins, fun _ _ => trivial⟩

theorem restart_meets : (restart svc).Meets (contract (.restart svc)) [] fun _ _ => True := by
  have looked : ∀ {past}, Unbegun past → Unharmed svc.dependsOn past →
      (inactiveDependency svc).Meets (contract (.restart svc)) past fun inactive past =>
        Unbegun past ∧ (inactive = none → Gated svc past ∧ Unharmed svc.dependsOn past) := fun unbegun unharmed =>
    inactiveDependency_meets _ (fun _ _ _ => trivial) (fun _ _ _ unbegun => unbegun) unbegun unharmed
  unfold restart
  rw [meets_bind]
  refine (looked (show Unbegun [] from rfl) fun _ _ => List.not_mem_nil).mono fun inactive past first => ?_
  split
  · trivial
  rename_i active
  obtain ⟨unbegun, found⟩ := first
  obtain ⟨_, unharmed⟩ := found (by simpa using active)
  have waited : (delay .restartDelay svc.restartDelay).Meets (contract (.restart svc)) past fun _ past =>
      Unbegun past ∧ Unharmed svc.dependsOn past := by
    unfold delay
    split
    · refine ⟨trivial, fun fired _ => ⟨unbegun, fun dep member => ?_⟩⟩
      rw [List.mem_cons, not_or]
      exact ⟨nofun, unharmed dep member⟩
    · exact ⟨unbegun, unharmed⟩
  rw [meets_bind]
  refine waited.mono fun fired past kept => ?_
  split
  · trivial
  rw [meets_bind]
  refine (looked kept.1 kept.2).mono fun inactive past second => ?_
  split
  · trivial
  rename_i active
  obtain ⟨gated, unharmed⟩ := second.2 (by simpa using active)
  have allowed : (contract (.restart svc)).allow past (.mark (.startUnit svc.unit)) :=
    ⟨rfl, gated, fun ⟨_, dep, member, seen⟩ => unharmed dep member seen⟩
  have started : (startUnit svc.unit).Meets (contract (.restart svc)) past fun _ past => begun past = true :=
    ⟨allowed, fun _ _ => ⟨trivial, fun _ _ => ⟨trivial, fun _ _ => ⟨trivial, fun _ _ => ⟨trivial, fun _ _ => rfl⟩⟩⟩⟩⟩
  rw [meets_bind]
  refine started.mono fun error past begins => ?_
  split
  · exact failed_meets begins
  unfold judge
  rw [meets_bind, meets_perform]
  refine ⟨trivial, fun fired _ => ?_⟩
  split
  · trivial
  rw [meets_bind, meets_perform]
  refine ⟨trivial, fun active _ => ?_⟩
  split
  · exact failed_meets (counted_meets (counted_meets begins))
  · exact ⟨counted_meets (counted_meets begins), fun _ _ => trivial⟩

end Restart

theorem code_meets (who : Actor) : who.code.Meets (contract who) [] fun _ _ => True := by
  cases who with
  | boot => exact startup_meets
  | restart svc =>
    change (restartGoroutine svc).Meets _ _ _
    unfold restartGoroutine
    rw [meets_bind]
    exact restart_meets.mono fun _ _ _ => ⟨trivial, fun _ _ => trivial⟩
  | monitor ticks => exact meets_of_allowed (fun _ _ => trivial) _ _
  | api request => exact meets_of_allowed (fun _ _ => trivial) _ _
  | backup unit => exact meets_of_allowed (fun _ _ => trivial) _ _

/-- Every start of boot and of a restart is gated. A restart changes neither the breaker nor a
user-stopped flag before its start, and an abandoned one starts nothing. -/
structure Gates (hist : Story) (c : Configuration) : Prop where
  boot : ∀ i unit ans c', daemon.Step c (.act i .boot (.mark (.startUnit unit)) ans) c' →
    ∃ svc, (ahead (past i hist)).head? = some svc ∧ unit = svc.unit ∧ Gated svc (past i hist)
  restart : ∀ i svc unit ans c', daemon.Step c (.act i (.restart svc) (.mark (.startUnit unit)) ans) c' →
    unit = svc.unit ∧ Gated svc (past i hist)
  ends : ∀ i svc unit ans c', Abandoned svc (past i hist) →
    ¬ daemon.Step c (.act i (.restart svc) (.mark (.startUnit unit)) ans) c'
  keeps : ∀ i svc op ans c', begun (past i hist) = false → daemon.Step c (.act i (.restart svc) op ans) c' →
    c'.world.breaker = c.world.breaker ∧ c'.world.userStopped = c.world.userStopped

section Run
variable {ok : Story → Configuration → Step → Prop} {w : World} {ticks : Nat} {hist : Story} {c c' : Configuration}

theorem run_allowed (run : daemon.Run ok (started w ticks) hist c) {i : Nat} {who : Actor} {op : Op} {ans : op.Ans}
    (next : daemon.Step c (.act i who op ans) c') :
    (contract who).allow (past i hist) op ∧ c'.world = c.world.effect op ans := by
  have expected : ∀ {who : Actor} {past op} {ans : op.Ans}, (contract who).expect past op ans := by
    intro who past op ans
    cases who <;> trivial
  cases next with
  | act at_ permitted => exact ⟨(run.meets contract code_meets (fun _ _ _ _ => expected) at_).1, rfl⟩

/-- In every run, whatever the dependencies do. -/
theorem run_gates (run : daemon.Run ok (started w ticks) hist c) : Gates hist c := by
  constructor
  case boot => exact fun i unit ans c' next => (run_allowed run next).1
  case restart =>
    intro i svc unit ans c' next
    obtain ⟨⟨same, gated, _⟩, _⟩ := run_allowed run next
    exact ⟨same, gated⟩
  case ends =>
    intro i svc unit ans c' abandoned next
    obtain ⟨⟨_, _, going⟩, _⟩ := run_allowed run next
    exact going abandoned
  case keeps =>
    intro i svc op ans c' unbegun next
    obtain ⟨allowed, world⟩ := run_allowed run next
    rw [world]
    cases op with
    | recordFailure unit | breakerReset unit => exact absurd (show begun _ = true from allowed) (by simp [unbegun])
    | setUserStopped unit stopped | setAllUserStopped units stopped => exact allowed.elim
    | spawn verb unit => cases verb <;> exact ⟨rfl, rfl⟩
    | createTemp | writeTemp | renameTemp | removeTemp => cases ans <;> exact ⟨rfl, rfl⟩
    | _ => exact ⟨rfl, rfl⟩

end Run

/-! ### A gated boot and an abandoned restart -/

def services : List Service :=
  [{ unit := "web.service", enabled := true, dependsOn := ["db.service"], bootDelay := 5 },
    { unit := "job.service", enabled := true, dependsOn := ["nfs.service"], restart := "always" }]

def world : World := { cfg := { services := services }, userStopped := {"job.service"} }

/-- Boot is about to start a unit, and a restart has made one check and nothing else. -/
theorem run_gates_both : ∃ hist c, daemon.Run Machine.anyStep (started world 1) hist c ∧
    Machine.about c 0 (fun _ op => isStart op) = true ∧ (past 2 hist).length = 1 ∧ begun (past 2 hist) = false ∧
    Gates hist c := by
  obtain ⟨hist, c, run, shown⟩ := schedule_anyRun world 1
    [.go 1 {} 10, .go 2 {} 1, .go 0 { active := ["db.service"], firstStart := true } 13]
    (fun s => Machine.about s.2 0 (fun _ op => isStart op) && begun (past 2 s.1) == false &&
      (past 2 s.1).length == 1) (by decide)
  simp only [Bool.and_eq_true, beq_iff_eq] at shown
  exact ⟨hist, c, run, shown.1.1, shown.2, shown.1.2, run_gates run⟩

end DependencyGate
end HomelabDaemon
