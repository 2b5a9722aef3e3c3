import HomelabDaemon.System
import HomelabDaemon.Concurrency.CheckThenAct

/-!
# Safe unmount

The handler asks which services on a mountpoint are active, and unmounts. Units become active and
inactive at any time; what systemd says of them is true when it says so.
-/

namespace HomelabDaemon
open Concurrency Program Machine

namespace SafeUnmount

/-- The units are named in full. -/
structure Node where
  world : World
  active : Finset String

inductive Move where
  | daemon (move : Env)
  | activate (unit : String)
  | deactivate (unit : String)

namespace Node

def permits (n : Node) : (op : Op) → op.Ans → Bool
  | .ask (.isActive unit), active => decide (active = decide (withServiceSuffix unit ∈ n.active))
  | .ask (.isActiveLines units), lines =>
    decide (lines = units.map fun unit => decide (withServiceSuffix unit ∈ n.active))
  | op, ans => n.world.permits op ans

def effect (n : Node) (op : Op) (ans : op.Ans) : Node := { n with world := n.world.effect op ans }

def envPermits (n : Node) : Move → Bool
  | .daemon move => n.world.envPermits move
  | .activate _ | .deactivate _ => true

def envEffect (n : Node) : Move → Node
  | .daemon move => { n with world := n.world.envEffect move }
  | .activate unit => { n with active := insert unit n.active }
  | .deactivate unit => { n with active := n.active.erase unit }

end Node

def node : Machine Op Op.Ans Node Actor Move where
  permits := Node.permits
  effect := Node.effect
  code := Actor.code
  forks := forks
  arrives := Actor.arrives
  envPermits := Node.envPermits
  envEffect := Node.envEffect

abbrev Place := Conf Op Op.Ans Node Actor
abbrev Happening := Event Op Op.Ans Actor Move
abbrev Chronicle := History Op Op.Ans Actor Move

def booted (w : World) (active : Finset String) (ticks : Nat) : Place :=
  node.init { world := (started w ticks).world, active := active } [.boot, .monitor ticks]

variable (resolve : String → Option String)

/-- The service requires the mount that `umount` finds. -/
def Depends (mountpoint : String) (svc : Service) : Prop :=
  ∃ mnt ∈ svc.requiresMounts, resolve mnt = resolve mountpoint

/-- The handler runs `umount` under no active service that requires the mount. -/
def Safe (_ : Chronicle) (c : Place) : Happening → Prop
  | .act _ (.api (.unmount _)) (.ask (.umount mountpoint)) _ =>
    ∀ svc ∈ c.world.world.cfg.services, Depends resolve mountpoint svc → withServiceSuffix svc.unit ∉ c.world.active
  | _ => True

/-- The unit has become active since thread `i` asked about it. -/
def risen (i : Nat) (unit : String) : Chronicle → Bool
  | [] => false
  | .act j _ (.ask (.isActive u)) _ :: hist => if j = i ∧ withServiceSuffix u = unit then false else risen i unit hist
  | .env (.activate u) :: hist => u == unit || risen i unit hist
  | .env (.deactivate u) :: hist => u != unit && risen i unit hist
  | _ :: hist => risen i unit hist

/-- Each service that requires the mount spells it as the request does, was there when the handler
read the configuration, and has not become active since the handler asked. -/
def Careful (hist : Chronicle) (c : Place) : Happening → Prop
  | .act i (.api (.unmount _)) (.ask (.umount mountpoint)) _ =>
    ∀ svc ∈ c.world.world.cfg.services, Depends resolve mountpoint svc →
      mountpoint ∈ svc.requiresMounts ∧ (∀ cfg, ⟨.config, cfg⟩ ∈ past i hist → svc ∈ cfg.services) ∧
      risen i (withServiceSuffix svc.unit) hist = false
  | _ => True

/-! ### The handler asks first -/

def Asked (unit : String) (past : Past Op Op.Ans) : Prop := ∃ active, ⟨.ask (.isActive unit), active⟩ ∈ past

/-- No unit was found active. -/
def NoneActive (past : Past Op Op.Ans) : Prop := ∀ unit, (⟨.ask (.isActive unit), true⟩ : Act Op Op.Ans) ∉ past

/-- What has been asked before an unmount. -/
structure Checked (mountpoint : String) (past : Past Op Op.Ans) : Prop where
  none : NoneActive past
  asked : ∃ cfg, ⟨.config, cfg⟩ ∈ past ∧ ∀ svc ∈ cfg.services, mountpoint ∈ svc.requiresMounts → Asked svc.unit past

def contract : Actor → Contract Op Op.Ans
  | .api (.unmount _) =>
    { allow := fun past op => match op with
        | .ask (.umount mountpoint) => Checked mountpoint past
        | _ => True }
  | _ => { allow := fun _ _ => True }

section Handler
variable {body : Option String} {past : Past Op Op.Ans} {mountpoint : String}

theorem activeDependents_meets (services : List Service) (activeDeps : List String)
    (before : activeDeps = [] → NoneActive past) :
    (fold (fun activeDeps svc =>
      if mountpoint ∈ svc.requiresMounts then do
        let active ← isActive svc.unit
        return if active then activeDeps ++ [svc.unit] else activeDeps
      else return activeDeps) activeDeps services).Meets (contract (.api (.unmount body))) past fun activeDeps' past' =>
      (activeDeps' = [] → NoneActive past') ∧ past <:+ past' ∧
        ∀ svc ∈ services, mountpoint ∈ svc.requiresMounts → Asked svc.unit past' := by
  induction services generalizing activeDeps past with
  | nil => exact ⟨before, List.suffix_refl _, nofun⟩
  | cons s services ih =>
    rw [fold, meets_bind]
    split
    · rename_i requires
      refine ⟨trivial, fun active _ => ?_⟩
      have now : (if active then activeDeps ++ [s.unit] else activeDeps) = [] →
          NoneActive (⟨.ask (.isActive s.unit), active⟩ :: past) := by
        cases active with
        | true => simp
        | false =>
          intro none unit member
          rcases List.mem_cons.mp member with same | old
          · cases same
          · exact before none unit old
      refine (ih _ now).mono fun activeDeps' past' found => ?_
      obtain ⟨none, grown, asked⟩ := found
      refine ⟨none, (List.suffix_cons _ _).trans grown, fun svc member => ?_⟩
      rcases List.mem_cons.mp member with rfl | member
      · exact fun _ => ⟨active, grown.subset List.mem_cons_self⟩
      · exact asked svc member
    · rename_i spared
      refine (ih _ before).mono fun activeDeps' past' found => ?_
      obtain ⟨none, grown, asked⟩ := found
      refine ⟨none, grown, fun svc member => ?_⟩
      rcases List.mem_cons.mp member with rfl | member
      · exact fun requires => absurd requires spared
      · exact asked svc member

theorem handleUnmount_meets : (handleUnmount body).Meets (contract (.api (.unmount body))) [] fun _ _ => True := by
  cases body with
  | none => trivial
  | some mountpoint =>
    unfold handleUnmount
    rw [meets_bind, meets_perform]
    refine ⟨trivial, fun cfg _ => ?_⟩
    rw [meets_bind]
    have fresh : NoneActive [⟨.config, cfg⟩] := by
      intro unit member
      cases List.mem_singleton.mp member
    refine (activeDependents_meets cfg.services [] fun _ => fresh).mono fun activeDeps past found => ?_
    obtain ⟨none, grown, asked⟩ := found
    split
    · trivial
    rename_i idle
    have empty : activeDeps = [] := by simpa using idle
    rw [meets_bind, meets_perform]
    refine ⟨⟨none empty, cfg, grown.subset List.mem_cons_self, asked⟩, fun error _ => ?_⟩
    cases error <;> trivial

end Handler

theorem code_meets (who : Actor) : who.code.Meets (contract who) [] fun _ _ => True := by
  cases who with
  | api request =>
    cases request with
    | unmount body =>
      change (handleUnmount body >>= fun _ => return ()).Meets _ _ _
      rw [meets_bind]
      exact handleUnmount_meets.mono fun _ _ _ => trivial
    | _ => exact meets_of_allowed (fun _ _ => trivial) _ _
  | _ => exact meets_of_allowed (fun _ _ => trivial) _ _

/-! ### Runs -/

section Run
variable {resolve : String → Option String} {ok : Chronicle → Place → Happening → Prop}
variable {w : World} {active : Finset String} {ticks : Nat} {hist : Chronicle} {c c' : Place} {e : Happening}

theorem run_allowed (run : node.Run ok (booted w active ticks) hist c) {i : Nat} {who : Actor} {op : Op}
    {k : op.Ans → Prog Unit} (at_ : c.pool[i]? = some ⟨who, .call op k⟩) : (contract who).allow (past i hist) op := by
  have expected : ∀ {who : Actor} {past op} {ans : op.Ans}, (contract who).expect past op ans := by
    intro who past op ans
    cases who with
    | api request => cases request <;> trivial
    | _ => trivial
  exact (run.meets contract code_meets (fun _ _ _ _ => expected) at_).1

theorem NoneActive.tail {act : Act Op Op.Ans} {past : Past Op Op.Ans} (none : NoneActive (act :: past)) :
    NoneActive past :=
  fun unit member => none unit (List.mem_cons_of_mem _ member)

/-- An operation that asks no unit leaves `risen` to the units. -/
theorem risen_act {i j : Nat} {who : Actor} {op : Op} {ans : op.Ans} {unit : String}
    (other : ∀ u, op = .ask (.isActive u) → ¬ (j = i ∧ withServiceSuffix u = unit)) :
    risen i unit (.act j who op ans :: hist) = risen i unit hist := by
  cases op with
  | ask q =>
    cases q with
    | isActive u => exact if_neg (other u rfl)
    | _ => rfl
  | _ => rfl

/-- A unit that was found inactive is inactive until it rises. -/
theorem run_asked (run : node.Run ok (booted w active ticks) hist c) {i : Nat} {unit : String}
    (asked : ∃ u, withServiceSuffix u = unit ∧ Asked u (past i hist)) (none : NoneActive (past i hist))
    (calm : risen i unit hist = false) : unit ∉ c.world.active := by
  induction run with
  | start =>
    obtain ⟨_, _, _, member⟩ := asked
    cases member
  | @step hist c c' e before met next ih =>
    cases next with
    | @act j who op k ans at_ permitted =>
      show unit ∉ c.world.active
      by_cases asks : j = i ∧ ∃ u, op = .ask (.isActive u) ∧ withServiceSuffix u = unit
      · obtain ⟨rfl, u, rfl, rfl⟩ := asks
        have answered : ans = decide (withServiceSuffix u ∈ c.world.active) := of_decide_eq_true permitted
        rw [past_act] at none
        cases ans with
        | true => exact absurd List.mem_cons_self (none u)
        | false => exact of_decide_eq_false answered.symm
      · rw [risen_act fun u same both => asks ⟨both.1, u, same, both.2⟩] at calm
        obtain ⟨u, named, answer, member⟩ := asked
        by_cases mine : j = i
        · subst mine
          rw [past_act] at none member
          refine ih ⟨u, named, answer, ?_⟩ none.tail calm
          rcases List.mem_cons.mp member with same | old
          · exact absurd ⟨rfl, u, (congrArg Sigma.fst same).symm, named⟩ asks
          · exact old
        · rw [past_act_ne mine] at none member
          exact ih ⟨u, named, answer, member⟩ none calm
    | @env move permitted =>
      cases move with
      | daemon move => exact ih asked none calm
      | activate u =>
        obtain ⟨other, calm⟩ : u ≠ unit ∧ risen i unit hist = false := by simpa [risen] using calm
        show unit ∉ insert u c.world.active
        simp [Ne.symm other, ih asked none calm]
      | deactivate u =>
        show unit ∉ c.world.active.erase u
        by_cases same : u = unit
        · simp [same]
        · have calm : risen i unit hist = false := by simpa [risen, same] using calm
          simp [ih asked none calm]
    | arrive arrives => exact ih asked none calm

/-- In every run whose unmounts are careful they are safe. -/
theorem careful_run_safe (run : node.Run (Careful resolve) (booted w active ticks) hist c) :
    node.Run (Safe resolve) (booted w active ticks) hist c := by
  induction run with
  | start => exact .start
  | @step hist c c' e before met next ih =>
    refine ih.step ?_ next
    unfold Safe
    split
    · cases next with
      | act at_ permitted =>
        obtain ⟨none, cfg, read, asked⟩ := run_allowed before at_
        intro svc member depends
        obtain ⟨spelled, there, calm⟩ := met svc member depends
        exact run_asked before ⟨svc.unit, rfl, asked svc (there cfg read) spelled⟩ none calm
    · trivial

end Run

/-! ### Schedules -/

/-- Trailing slashes do not matter. -/
def slashless (path : String) : Option String := some (trimSuffix path "/")

def world : World :=
  { cfg := { version := 1, services := [{ unit := "a.service", enabled := true, requiresMounts := ["/data"] }] } }

def Node.answer (o : Outside) (n : Node) : (op : Op) → op.Ans
  | .ask (.isActive unit) => decide (withServiceSuffix unit ∈ n.active)
  | .ask (.isActiveLines units) => units.map fun unit => decide (withServiceSuffix unit ∈ n.active)
  | op => o.answer n.world op

theorem node_schedule (check : Chronicle → Place → Happening → Bool) (active : Finset String)
    (moves : List (Machine.Move Actor Move Outside)) (shows : Chronicle × Place → Bool)
    (h : (play node Node.answer check ([], booted world active 0) moves).any shows = true) :
    ∃ hist c, node.Run (fun h c e => check h c e = true) (booted world active 0) hist c ∧ shows (hist, c) = true :=
  play_any _ _ _ h

/-- A check that is enough for `Careful`. -/
def cautious (hist : Chronicle) (c : Place) : Happening → Bool
  | .act i _ (.ask (.umount mountpoint)) _ =>
    (c.world.world.cfg.services.all fun svc => mountpoint ∈ svc.requiresMounts && !risen i
    (withServiceSuffix svc.unit) hist) &&
      (past i hist).all fun act => match act with
        | ⟨.config, cfg⟩ => cfg = c.world.world.cfg
        | _ => true
  | _ => true

theorem cautious_careful {hist : Chronicle} {c : Place} {e : Happening} (h : cautious hist c e = true) :
    Careful resolve hist c e := by
  unfold Careful
  split
  · obtain ⟨spelled, read⟩ := Bool.and_eq_true_iff.mp h
    intro svc member _
    have calm := List.all_eq_true.mp spelled svc member
    simp only [Bool.and_eq_true, decide_eq_true_eq, Bool.not_eq_true'] at calm
    refine ⟨calm.1, fun cfg looked => ?_, calm.2⟩
    have same : cfg = c.world.world.cfg := by simpa using List.all_eq_true.mp read _ looked
    exact same ▸ member
  · trivial

def isUmount (mountpoint : String) : Actor → Op → Bool
  | .api (.unmount _), .ask (.umount m) => m == mountpoint
  | _, _ => false

/-- The mount is named as the service names it, and the service is not active. -/
theorem run_safe_inactive : ∃ hist c, node.Run (Careful slashless) (booted world ∅ 0) hist c ∧
    node.Run (Safe slashless) (booted world ∅ 0) hist c ∧
    (hist.any fun e => match e with
      | .act _ who op _ => isUmount "/data" who op
      | _ => false) = true := by
  obtain ⟨hist, c, run, shown⟩ := node_schedule cautious ∅ [.arrive (.api (.unmount (some "/data"))), .go 2 {} 3]
    (fun s => s.1.any fun e => match e with
      | .act _ who op _ => isUmount "/data" who op
      | _ => false) (by decide)
  have careful : node.Run (Careful slashless) (booted world ∅ 0) hist c := run.weaken fun _ _ _ =>
    cautious_careful slashless
  exact ⟨hist, c, careful, careful_run_safe careful, shown⟩

/-- A slash at the end hides an active service from the check, and nothing from `umount`. -/
theorem unmounts_active : ¬ ∀ (resolve : String → Option String) (w : World) (active : Finset String) (ticks : Nat)
    (hist : Chronicle) (c : Place), node.Run anyStep (booted w active ticks) hist c →
      node.Run (Safe resolve) (booted w active ticks) hist c := by
  intro claim
  obtain ⟨hist, c, run, shown⟩ := node_schedule (fun _ _ _ => true) {"a.service"}
    [.arrive (.api (.unmount (some "/data/"))), .go 2 {} 1]
    (fun s => about s.2 2 (isUmount "/data/") && decide (s.2.world.world.cfg = world.cfg) &&
      decide ("a.service" ∈ s.2.world.active)) (by decide)
  simp only [Bool.and_eq_true, decide_eq_true_eq] at shown
  obtain ⟨⟨atUmount, cfg⟩, active⟩ := shown
  obtain ⟨who, op, k, at_, test⟩ := about_next atUmount
  have any : node.Run anyStep (booted world {"a.service"} 0) hist c := run.weaken fun _ _ _ _ => trivial
  cases who with
  | api request =>
    cases request with
    | unmount body =>
      cases op with
      | ask q =>
        cases q with
        | umount mountpoint =>
          obtain rfl : mountpoint = "/data/" := by simpa [isUmount] using test
          have permitted : node.permits c.world (.ask (.umount "/data/")) none = true := rfl
          cases claim slashless world {"a.service"} 0 _ _ (any.step trivial (.act at_ permitted)) with
          | @step _ before _ _ _ met next =>
            have same : c.world = before.world := next.world
            have safe : ∀ svc ∈ before.world.world.cfg.services, Depends slashless "/data/" svc →
                withServiceSuffix svc.unit ∉ before.world.active := met
            rw [← same, cfg] at safe
            exact safe _ List.mem_cons_self ⟨"/data", List.mem_cons_self, by decide⟩ active
        | _ => cases test
      | _ => cases test
    | _ => cases test
  | _ => cases test

end SafeUnmount
end HomelabDaemon
