import HomelabDaemon.Background
import HomelabDaemon.Attempts

/-!
# The ordered boot

Boot starts services in their order and after their delays. The monitor knows nothing of this;
the order holds in the runs in which it spawns no restart out of turn.
-/

namespace HomelabDaemon
open Concurrency Program Background

namespace BootOrder

/-- The services that boot has to start. -/
def awaited (cfg : Config) (userStopped : Finset String) : List Service :=
  cfg.services.filter fun s => s.enabled && !decide (s.unit ∈ userStopped)

/-- Boot is done with the service. -/
def handled (svc : Service) (hist : Story) : Bool :=
  hist.any fun e => match e with
    | .act _ _ (.mark (.next s)) _ => s == svc
    | _ => false

/-- Somebody has started the unit. -/
def begun (unit : String) (hist : Story) : Bool :=
  hist.any fun e => match e with
    | .act _ _ (.mark (.startUnit u)) _ => u == unit
    | _ => false

/-- Boot is done with all that come before the service. -/
def turn (cfg : Config) (userStopped : Finset String) (svc : Service) (hist : Story) : Bool :=
  decide (svc.unit ∈ userStopped) ||
    (awaited cfg userStopped).all fun a => !decide (a.order < svc.order) || handled a hist

/-- The delay of the service that boot is looking after has passed. -/
def slept (seconds : Int) : Past Op Op.Ans → Bool
  | [] => false
  | ⟨.mark (.next _), _⟩ :: _ => false
  | ⟨.ask (.sleep .bootDelay s), fired⟩ :: past => (s == seconds && fired) || slept seconds past
  | _ :: past => slept seconds past

/-- A start comes in turn; if it is the first of its unit, after the boot delay. -/
def InOrder (w : World) (hist : Story) : Step → Prop
  | .act i _ (.mark (.startUnit unit)) _ => ∀ svc ∈ w.cfg.services, svc.enabled = true → svc.unit = unit →
      turn w.cfg w.userStopped svc hist = true ∧
      (0 < svc.bootDelay → begun unit hist = false → slept svc.bootDelay (past i hist) = true)
  | _ => True

/-- A tick spawns a restart of a service only in turn and, if boot would delay it, only after its
first start. Nothing arrives. -/
def Patient (w : World) (hist : Story) (_ : Configuration) (e : Step) : Prop :=
  Undisturbed e ∧ match e with
    | .act _ _ (.goRestart svc) _ => turn w.cfg w.userStopped svc hist = true ∧
        (0 < svc.bootDelay → begun svc.unit hist = true)
    | _ => True

/-- Enabled entries of one unit agree on what boot does with it. -/
def Coherent (cfg : Config) : Prop :=
  ∀ s ∈ cfg.services, ∀ t ∈ cfg.services, s.enabled = true → t.enabled = true → s.unit = t.unit →
    s.order = t.order ∧ s.bootDelay = t.bootDelay

instance (cfg : Config) : Decidable (Coherent cfg) := inferInstanceAs (Decidable (∀ s ∈ cfg.services, _))

theorem handled_cons {svc : Service} {hist : Story} (e : Step) (h : handled svc hist = true) :
    handled svc (e :: hist) = true := by
  unfold handled
  rw [List.any_cons, show hist.any _ = true from h, Bool.or_true]

theorem begun_cons {unit : String} {hist : Story} (e : Step) (h : begun unit hist = true) :
    begun unit (e :: hist) = true := by
  unfold begun
  rw [List.any_cons, show hist.any _ = true from h, Bool.or_true]

theorem turn_iff {cfg : Config} {userStopped : Finset String} {svc : Service} {hist : Story} :
    turn cfg userStopped svc hist = true ↔ svc.unit ∈ userStopped ∨
      ∀ a ∈ awaited cfg userStopped, a.order < svc.order → handled a hist = true := by
  simp only [turn, Bool.or_eq_true, decide_eq_true_eq, List.all_eq_true, Bool.not_eq_true', decide_eq_false_iff_not]
  refine or_congr_right (forall_congr' fun a => forall_congr' fun _ => ?_)
  exact Decidable.imp_iff_not_or.symm

theorem turn_cons {cfg : Config} {userStopped : Finset String} {svc : Service} {hist : Story} (e : Step)
    (h : turn cfg userStopped svc hist = true) : turn cfg userStopped svc (e :: hist) = true := by
  rw [turn_iff] at h ⊢
  rcases h with stopped | before
  · exact .inl stopped
  · exact .inr fun a member lower => handled_cons e (before a member lower)

/-! ### What the threads do -/

/-- Boot starts an awaited service when it is done with all before it and the delay has passed.
The monitor spawns restarts of enabled services, and starts nothing itself. -/
def contract (cfg : Config) (userStopped : Finset String) : Actor → Contract Op Op.Ans
  | .boot =>
    { allow := fun past op => match op with
        | .mark (.startUnit unit) => ∃ svc ∈ awaited cfg userStopped, svc.unit = unit ∧
            (∀ a ∈ awaited cfg userStopped, a.order < svc.order → ⟨.mark (.next a), ()⟩ ∈ past) ∧
            (0 < svc.bootDelay → slept svc.bootDelay past = true)
        | .goRestart _ => False
        | _ => True
      expect := fun _ op ans => match op, ans with
        | .config, read => read = cfg
        | .isUserStopped unit, stopped => stopped = decide (unit ∈ userStopped)
        | _, _ => True }
  | .monitor _ =>
    { allow := fun _ op => match op with
        | .mark (.startUnit _) => False
        | .goRestart svc => svc ∈ cfg.services ∧ svc.enabled = true
        | _ => True
      expect := fun _ op ans => match op, ans with
        | .config, read => read = cfg
        | _, _ => True }
  | .restart _ =>
    { allow := fun _ op => match op with
        | .goRestart _ => False
        | _ => True }
  | _ => { allow := fun _ _ => True }

section Boot
variable {cfg : Config} {userStopped : Finset String} {past : Past Op Op.Ans}

/-- Boot is done with these services. -/
def Done (services : List Service) (past : Past Op Op.Ans) : Prop :=
  ∀ a ∈ services, (⟨.mark (.next a), ()⟩ : Act Op Op.Ans) ∈ past

theorem Done.cons {services : List Service} (act : Act Op Op.Ans) (h : Done services past) :
    Done services (act :: past) := fun a member => List.mem_cons_of_mem _ (h a member)

theorem asks_meet {α : Type} {p : Prog α} (h : AsksOnly p) {services : List Service} (done : Done services past) :
    p.Meets (contract cfg userStopped .boot) past fun _ => Done services := by
  refine h.meets (Done services) ?_ (fun _ _ _ _ done _ => done.cons _) done
  intro past op asks _
  cases op <;> trivial

theorem bootable_meets (services enabled : List Service) :
    (fold (fun enabled svc => if !svc.enabled then return enabled else do
      let stopped ← isUserStopped svc.unit
      return if stopped then enabled else enabled ++ [svc]) enabled services).Meets (contract cfg userStopped .boot)
      past fun built _ => built = enabled ++ services.filter fun s => s.enabled && !decide (s.unit ∈ userStopped) := by
  induction services generalizing enabled past with
  | nil => exact (List.append_nil enabled).symm
  | cons svc services ih =>
    rw [fold, meets_bind]
    by_cases on : svc.enabled = true
    · simp only [on, Bool.not_true, Bool.false_eq_true, ↓reduceIte]
      rw [meets_bind, meets_perform]
      refine ⟨trivial, fun stopped answered => ?_⟩
      obtain rfl : stopped = decide (svc.unit ∈ userStopped) := answered
      by_cases stopped : svc.unit ∈ userStopped
      · simpa [on, stopped] using ih enabled
      · simpa [on, stopped] using ih (enabled ++ [svc])
    · simpa [on] using ih enabled

theorem delay_meets {seconds : Int} {services : List Service} (done : Done services past) :
    (delay .bootDelay seconds).Meets (contract cfg userStopped .boot) past fun fired past =>
      fired = true → Done services past ∧ (0 < seconds → slept seconds past = true) := by
  unfold delay
  split
  · refine ⟨trivial, fun fired _ passed => ⟨done.cons _, fun _ => ?_⟩⟩
    obtain rfl : fired = true := passed
    simp [slept]
  · rename_i short
    exact fun _ => ⟨done, fun positive => absurd positive short⟩

/-- Boot may start the service. -/
def Ready (svc : Service) (services : List Service) (past : Past Op Op.Ans) : Prop :=
  Done services past ∧ (0 < svc.bootDelay → slept svc.bootDelay past = true)

theorem ready_asks {α : Type} {p : Prog α} (h : AsksOnly p) {svc : Service} {services : List Service}
    (ready : Ready svc services past) :
    p.Meets (contract cfg userStopped .boot) past fun _ => Ready svc services := by
  refine h.meets (Ready svc services) ?_ ?_ ready
  · intro past op asks _
    cases op <;> trivial
  · intro past op ans asks ready _
    refine ⟨ready.1.cons _, fun positive => ?_⟩
    have already := ready.2 positive
    cases op with
    | ask q =>
      cases q with
      | sleep why seconds =>
        cases why with
        | bootDelay => simp [slept, already]
        | _ => exact already
      | _ => exact already
    | _ => exact asks.elim

variable {svc : Service} {before : List Service}

theorem startUnit_meets (member : svc ∈ awaited cfg userStopped)
    (first : ∀ a ∈ awaited cfg userStopped, a.order < svc.order → a ∈ before) (ready : Ready svc before past) :
    (startUnit svc.unit).Meets (contract cfg userStopped .boot) past fun _ => Done before := by
  have allowed : (contract cfg userStopped .boot).allow past (.mark (.startUnit svc.unit)) :=
    ⟨svc, member, rfl, fun a awaits lower => ready.1 a (first a awaits lower), ready.2⟩
  exact ⟨allowed, fun _ _ => ⟨trivial, fun _ _ => ⟨trivial, fun _ _ => ⟨trivial, fun _ _ => ⟨trivial, fun _ _ =>
    ((((ready.1.cons _).cons _).cons _).cons _).cons _⟩⟩⟩⟩⟩

theorem bootService_meets (member : svc ∈ awaited cfg userStopped)
    (first : ∀ a ∈ awaited cfg userStopped, a.order < svc.order → a ∈ before) (done : Done before past) :
    (bootService svc).Meets (contract cfg userStopped .boot) past fun r past =>
      r = none → Done (before ++ [svc]) past := by
  have finish : ∀ {past}, Done before past → (mark (.next svc) >>= fun _ => return none : Prog (Option Unit)).Meets
      (contract cfg userStopped .boot) past fun r past => r = none → Done (before ++ [svc]) past := by
    intro past done
    refine ⟨trivial, fun _ _ _ a present => ?_⟩
    rcases List.mem_append.mp present with old | new
    · exact List.mem_cons_of_mem _ (done a old)
    · rw [List.mem_singleton.mp new]
      exact List.mem_cons_self
  unfold bootService
  rw [meets_bind, meets_perform]
  refine ⟨trivial, fun cancelled _ => ?_⟩
  split
  · exact fun absurd => nomatch absurd
  rw [meets_bind]
  refine (asks_meet (bootChecks_asks svc) (done.cons _)).mono fun error past done => ?_
  split
  · exact finish done
  rw [meets_bind]
  refine (delay_meets done).mono fun fired past passed => ?_
  split
  · exact fun absurd => nomatch absurd
  rename_i elapsed
  rw [meets_bind]
  have ready : Ready svc before past := passed (by simpa using elapsed)
  refine (ready_asks (inactiveDependency_asks svc) ready).mono fun inactive past ready => ?_
  rw [meets_bind]
  split
  · exact finish ready.1
  · rw [meets_bind]
    exact (startUnit_meets member first ready).mono fun _ past done => finish done

/-- The induction over the sorted list: boot is done with what is before the service. -/
theorem rounds_meet (rest : List Service) (sorted : (before ++ rest).Pairwise fun a b => a.order ≤ b.order)
    (perm : (before ++ rest).Perm (awaited cfg userStopped)) (done : Done before past) :
    (firstSome bootService rest).Meets (contract cfg userStopped .boot) past fun _ _ => True := by
  induction rest generalizing before past with
  | nil => trivial
  | cons svc rest ih =>
    have member : svc ∈ awaited cfg userStopped := perm.mem_iff.mp (by simp)
    have first : ∀ a ∈ awaited cfg userStopped, a.order < svc.order → a ∈ before := by
      intro a awaits lower
      rcases List.mem_append.mp (perm.mem_iff.mpr awaits) with earlier | later
      · exact earlier
      · have behind := (List.pairwise_append.mp sorted).2.1
        rcases List.mem_cons.mp later with rfl | later
        · omega
        · have above := (List.pairwise_cons.mp behind).1 a later
          omega
    rw [firstSome, meets_bind]
    refine (bootService_meets member first done).mono fun r past finished => ?_
    cases r with
    | some c => trivial
    | none =>
      have split : before ++ svc :: rest = (before ++ [svc]) ++ rest := by simp
      rw [split] at sorted perm
      exact ih sorted perm (finished rfl)

theorem startup_meets : startup.Meets (contract cfg userStopped .boot) [] fun _ _ => True := by
  unfold startup
  rw [meets_bind]
  have verified : verifyRunningServices.Meets (contract cfg userStopped .boot) [] fun _ _ => True := by
    refine verifyRunningServices_built.within.meets (fun _ => True) ?_ (fun _ _ _ _ _ _ => trivial) trivial
    intro past op member _
    cases op with
    | mark m => cases m <;> first | trivial | (rcases member with member | member <;> contradiction)
    | goRestart svc => rcases member with member | member <;> exact member
    | _ => trivial
  refine verified.mono fun _ past _ => ?_
  rw [meets_bind, meets_perform]
  refine ⟨trivial, fun isFirst _ => ?_⟩
  split
  · unfold boot
    rw [meets_bind, meets_perform]
    refine ⟨trivial, fun read same => ?_⟩
    obtain rfl : read = cfg := same
    rw [meets_bind]
    refine (bootable_meets read.services []).mono fun enabled past built => ?_
    rw [meets_bind, meets_perform]
    refine ⟨trivial, fun ordered _ => ?_⟩
    rw [meets_bind]
    have perm : ([] ++ ordered.list).Perm (awaited read userStopped) := by
      have same : enabled = awaited read userStopped := built.trans (List.nil_append _)
      exact same ▸ ordered.perm
    have none : Done [] (⟨.ask (.sortByOrder enabled), ordered⟩ :: past) := fun _ member => nomatch member
    have sorted : ([] ++ ordered.list).Pairwise fun a b : Service => a.order ≤ b.order := ordered.sorted
    exact (rounds_meet ordered.list sorted perm none).mono fun _ _ _ => trivial
  · trivial

end Boot

section Monitor
variable {cfg : Config} {userStopped : Finset String} {past : Past Op Op.Ans}

/-- What the monitor must not do. -/
def Foreign (cfg : Config) : Op → Prop
  | .mark (.startUnit _) => True
  | .goRestart svc => ¬ (svc ∈ cfg.services ∧ svc.enabled = true)
  | _ => False

def Reads (cfg : Config) : (op : Op) → op.Ans → Prop
  | .config, read => read = cfg
  | _, _ => True

theorem monitorLoop_foreign (n : Nat) (prevFailures : String → Nat) :
    ¬ (monitorLoop n prevFailures).Reaches (Reads cfg) (Foreign cfg) := by
  have silent : ∀ q, ¬ Foreign cfg (.ask q) := fun _ h => h
  intro h
  rcases monitorLoop_reaches silent h with h | ⟨_, h⟩ | ⟨_, rfl, svc, member, _, h⟩
  · exact h
  · exact h
  rcases supervise_reaches silent h with h | h | h | h | ⟨looked, _, h⟩
  iterate 4 exact h
  exact h ⟨member, (Bool.and_eq_true_iff.mp looked).1⟩

theorem code_meets (cfg : Config) (userStopped : Finset String) (who : Actor) :
    who.code.Meets (contract cfg userStopped who) [] fun _ _ => True := by
  cases who with
  | boot => exact startup_meets
  | monitor ticks =>
    have off : ¬ (monitor ticks).Reaches (Reads cfg) (Foreign cfg) := monitorLoop_foreign ticks _
    refine meets_of_not_reaches off ?_ ?_
    · intro past op home
      cases op with
      | mark m => cases m <;> first | trivial | exact home trivial
      | goRestart svc => exact Classical.not_not.mp home
      | _ => trivial
    · intro past op ans expected
      cases op <;> exact expected
  | restart svc =>
    have spawnsNone : (restartGoroutine svc).Uses fun op => ∀ s, op ≠ .goRestart s := by
      refine .bind ((restart_built svc).within.mono fun op member s => ?_) fun _ => .perform (by simp)
      rintro rfl
      rcases member with member | member <;> exact member
    refine spawnsNone.meets (fun _ => True) ?_ (fun _ _ _ _ _ _ => trivial) trivial
    intro past op none _
    cases op <;> first | trivial | exact none _ rfl
  | api request | backup unit =>
    refine (code_built _).within.meets (fun _ => True) (fun _ _ _ _ => trivial)
      (fun _ _ _ _ _ _ => trivial) trivial

end Monitor

/-! ### Runs -/

section Run
variable {w : World} {ticks : Nat} {hist : Story} {c c' : Configuration} {e : Step}

theorem run_quiet (run : daemon.Run (Patient w) (started w ticks) hist c) :
    (∀ (i : Nat) th, c.pool[i]? = some th → th.who.background = true) ∧
    c.world.cfg = w.cfg ∧ c.world.userStopped = w.userStopped := by
  have quiet := Background.run_quiet (fun _ _ _ patient => patient.1) run
  exact ⟨quiet.pool, quiet.cfg, quiet.userStopped⟩

theorem run_allowed (run : daemon.Run (Patient w) (started w ticks) hist c) {i : Nat} {who : Actor} {op : Op}
    {k : op.Ans → Prog Unit} (at_ : c.pool[i]? = some ⟨who, .call op k⟩) :
    (contract w.cfg w.userStopped who).allow (past i hist) op := by
  refine (run.meets (contract w.cfg w.userStopped) (code_meets w.cfg w.userStopped) ?_ at_).1
  intro hist c i who op k ans before _ at_ permitted
  obtain ⟨pool, cfg, stops⟩ := run_quiet before
  have background : who.background = true := pool i _ at_
  have read : ∀ {read : Config}, c.world.permits .config read = true → read = w.cfg := by
    intro read permitted
    exact (of_decide_eq_true permitted).trans cfg
  cases who with
  | boot =>
    cases op with
    | config => exact read permitted
    | isUserStopped unit =>
      have answered : ans = decide (unit ∈ c.world.userStopped) := of_decide_eq_true permitted
      rw [stops] at answered
      exact answered
    | _ => trivial
  | monitor ticks =>
    cases op with
    | config => exact read permitted
    | _ => trivial
  | restart svc => trivial
  | api request | backup unit => cases background

/-- A restart was spawned in turn, for a service whose first start had not to be delayed. -/
def Vouched (w : World) (hist : Story) (svc : Service) : Prop :=
  svc ∈ w.cfg.services ∧ svc.enabled = true ∧ turn w.cfg w.userStopped svc hist = true ∧
  (0 < svc.bootDelay → begun svc.unit hist = true)

theorem Vouched.cons {svc : Service} (e : Step) (h : Vouched w hist svc) : Vouched w (e :: hist) svc :=
  ⟨h.1, h.2.1, turn_cons e h.2.2.1, fun delayed => begun_cons e (h.2.2.2 delayed)⟩

theorem run_vouched (run : daemon.Run (Patient w) (started w ticks) hist c) {j : Nat} {svc : Service}
    {code : Prog Unit} (found : c.pool[j]? = some ⟨.restart svc, code⟩) : Vouched w hist svc := by
  induction run generalizing j svc code with
  | start =>
    obtain ⟨who, member, same⟩ := List.mem_map.mp (List.mem_of_getElem? found)
    obtain rfl : who = .restart svc := congrArg Thread.who same
    simp at member
  | @step hist c c' e before met next ih =>
    rcases next.origin found with ⟨old, _⟩ | ⟨op, k, ans, old, _, _⟩ | ⟨_, _, starts⟩
    · exact (ih old).cons e
    · exact (ih old).cons e
    · cases next with
      | @act i who op k ans at_ permitted =>
        cases op with
        | goRestart s =>
          obtain rfl := Actor.restart.inj (List.mem_singleton.mp starts)
          have allowed := run_allowed before at_
          have background := (run_quiet before).1 i _ at_
          cases who with
          | monitor n => exact Vouched.cons _ ⟨allowed.1, allowed.2, met.2.1, met.2.2⟩
          | boot | restart s => exact allowed.elim
          | api request | backup unit => cases background
        | goRunBackup unit => cases List.mem_singleton.mp starts
        | _ => cases starts
      | env permitted => exact starts.elim
      | arrive arrives => exact met.1.elim

theorem mem_awaited {svc : Service} : svc ∈ awaited w.cfg w.userStopped ↔
    svc ∈ w.cfg.services ∧ svc.enabled = true ∧ svc.unit ∉ w.userStopped := by
  simp [awaited]

theorem handled_of_past {i : Nat} {svc : Service} (h : (⟨.mark (.next svc), ()⟩ : Act Op Op.Ans) ∈ past i hist) :
    handled svc hist = true := by
  obtain ⟨who, member⟩ := mem_past h
  exact List.any_eq_true.mpr ⟨_, member, beq_self_eq_true svc⟩

/-- The turn and the delay of a service are those of any enabled entry of its unit. -/
theorem turn_of_coherent (coherent : Coherent w.cfg) {svc s : Service} (member : svc ∈ w.cfg.services)
    (member' : s ∈ w.cfg.services) (on : svc.enabled = true) (on' : s.enabled = true) (same : svc.unit = s.unit)
    (h : turn w.cfg w.userStopped s hist = true) : turn w.cfg w.userStopped svc hist = true := by
  obtain ⟨order, _⟩ := coherent svc member s member' on on' same
  rw [turn_iff] at h ⊢
  rw [same, order]
  exact h

/-- The ordered boot is not overtaken in a run in which every tick is patient. -/
theorem boot_inOrder (coherent : Coherent w.cfg) (run : daemon.Run (Patient w) (started w ticks) hist c)
    (next : daemon.Step c e c') : InOrder w hist e := by
  cases next with
  | env permitted => trivial
  | arrive arrives => trivial
  | @act i who op k ans at_ permitted =>
    cases op with
    | mark m =>
      cases m with
      | startUnit unit =>
        intro svc member on named
        have background := (run_quiet run).1 i _ at_
        have allowed := run_allowed run at_
        cases who with
        | boot =>
          obtain ⟨s, awaits, named', before, delayed⟩ := allowed
          obtain ⟨member', on', _⟩ := mem_awaited.mp awaits
          have same : svc.unit = s.unit := named.trans named'.symm
          obtain ⟨_, delay⟩ := coherent svc member s member' on on' same
          refine ⟨turn_of_coherent coherent member member' on on' same ?_, fun positive _ => ?_⟩
          · exact turn_iff.mpr (.inr fun a awaited lower => handled_of_past (before a awaited lower))
          · rw [delay] at positive ⊢
            exact delayed positive
        | restart s =>
          obtain ⟨named', _⟩ := Attempts.run_begins run at_
          obtain ⟨member', on', inTurn, started⟩ := run_vouched run at_
          have same : svc.unit = s.unit := named.trans named'
          obtain ⟨_, delay⟩ := coherent svc member s member' on on' same
          refine ⟨turn_of_coherent coherent member member' on on' same inTurn, fun positive fresh => ?_⟩
          rw [delay] at positive
          rw [named', started positive] at fresh
          cases fresh
        | monitor n => exact allowed.elim
        | api request | backup u => cases background
      | _ => trivial
    | _ => trivial

end Run

/-! ### Schedules -/

def isStart (unit : String) (_ : Actor) : Op → Bool
  | .mark (.startUnit u) => u == unit
  | _ => false

def first (bootDelay : Int) : Service := { unit := "a.service", enabled := true, order := 1, bootDelay := bootDelay }

def second : Service := { unit := "b.service", enabled := true, order := 2, restart := "always" }

def world (bootDelay : Int) : World := { cfg := { version := 1, services := [first bootDelay, second] } }

/-- No restart is spawned at all. -/
def noRestart (_ : Story) (_ : Configuration) : Step → Bool
  | .act _ _ (.goRestart _) _ => false
  | .arrive _ => false
  | _ => true

/-- Boot is about to start the second service. -/
theorem boot_inOrder_second : ∃ hist c, Machine.about c 0 (isStart "b.service") = true ∧
    daemon.Run (Patient (world 0)) (started (world 0) 1) hist c ∧ ∀ e c', daemon.Step c e c' →
    InOrder (world 0) hist e := by
  obtain ⟨hist, c, run, shown⟩ := schedule_run noRestart (world 0) 1
    [.go 0 { firstStart := true, exit := .killed "timeout" } 16] (fun s => Machine.about s.2 0 (isStart "b.service"))
    (by decide)
  have patient : daemon.Run (Patient (world 0)) (started (world 0) 1) hist c := by
    refine run.weaken fun _ _ e met => ?_
    cases e with
    | act i who op ans => cases op <;> first | exact ⟨trivial, trivial⟩ | cases met
    | env move => exact ⟨trivial, trivial⟩
    | arrive who => cases met
  exact ⟨hist, c, shown, patient, fun e c' => boot_inOrder (by decide) patient⟩

/-- A first start after a kernel boot, with every unit inactive. -/
def firstBoot (_ : Story) (_ : Configuration) : Step → Bool
  | .act _ _ (.ask .firstStartAfterBoot) first => first
  | .act _ _ (.ask (.isActive _)) active => !active
  | .act _ _ (.ask (.isActiveLines _)) lines => lines.all (!·)
  | .arrive _ => false
  | _ => true

/-- The monitor restarts the second service while boot delays the first one. -/
theorem boot_overtaken : ¬ ∀ (w : World) (ticks : Nat) (hist : Story) (c c' : Configuration) (e : Step),
    Coherent w.cfg → daemon.Run (fun h c e => firstBoot h c e = true) (started w ticks) hist c →
    daemon.Step c e c' → InOrder w hist e := by
  intro claim
  obtain ⟨hist, c, run, shown⟩ := schedule_run firstBoot (world 600) 1
    [.go 0 { firstStart := true } 9, .go 1 {} 10]
    (fun s => Machine.about s.2 2 (isStart "b.service") && !handled (first 600) s.1) (by decide)
  obtain ⟨atStart, unhandled⟩ := Bool.and_eq_true_iff.mp shown
  obtain ⟨who, op, k, at_, test⟩ := Machine.about_next atStart
  cases op with
  | mark m =>
    cases m with
    | startUnit unit =>
      obtain rfl : unit = "b.service" := eq_of_beq test
      have inOrder := claim (world 600) 1 hist c _ (.act 2 who _ ()) (by decide) run (.act at_ rfl)
      obtain ⟨inTurn, _⟩ := inOrder second (List.mem_cons_of_mem _ List.mem_cons_self) rfl rfl
      rcases turn_iff.mp inTurn with stopped | before
      · exact Finset.notMem_empty _ stopped
      · have done : handled (first 600) hist = true := before (first 600) List.mem_cons_self (by decide)
        rw [done] at unhandled
        cases unhandled
    | _ => cases test
  | _ => cases test

end BootOrder
end HomelabDaemon
