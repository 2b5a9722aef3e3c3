import HomelabDaemon.BootOrder
import HomelabDaemon.Restore

/-!
# A boot that nothing disturbs

Boot while no other actor interferes, every start succeeds and its context is not cancelled. It
starts each enabled service that is not user-stopped once, in order.
-/

namespace HomelabDaemon
open Concurrency Program Machine

namespace BootComplete
open BootOrder Restore

/-- A site where a started unit stays active and no wait is cut short. -/
def calm : Machine Op Op.Ans Site Actor Env :=
  { site (fun _ => true) with
    permits := fun s op ans => match op, ans with
      | .ask .ctxErr, cancelled => !cancelled
      | .ask (.sleep _ _), fired => fired
      | op, ans => s.permits op ans }

abbrev Trace := List (Act Op Op.Ans)

/-- The unit that an operation starts, with what is active at that moment. -/
def startOf (s : Site) : Op → List (String × Finset String)
  | .mark (.startUnit unit) => [(unit, s.active)]
  | _ => []

/-- The units that are started, in order. -/
def starts : Site → Trace → List (String × Finset String)
  | _, [] => []
  | s, act :: rest => startOf s act.1 ++ starts (calm.effect s act.1 act.2) rest

/-- The services that boot has to start. -/
abbrev due (s : Site) : List Service := awaited s.world.cfg s.world.userStopped

/-- Every due service can be started in its turn. -/
structure Startable (s : Site) : Prop where
  distinct : (s.world.cfg.services.map (·.unit)).Nodup
  dependencies : ∀ svc ∈ due s, ∀ dep ∈ svc.dependsOn,
    withServiceSuffix dep ∈ s.active ∨ ∃ a ∈ due s, SameUnit a.unit dep ∧ a.order < svc.order
  mounts : ∀ svc ∈ due s, ∀ mnt ∈ svc.requiresMounts, s.mounted mnt = true
  /-- Nobody is in the middle of an operation on its unit. -/
  unlocked : ∀ svc ∈ due s, svc.unit ∉ s.world.locks

/-- The service is started, with its dependencies active. -/
def StartedAs (svc : Service) (start : String × Finset String) : Prop :=
  start.1 = svc.unit ∧ ∀ dep ∈ svc.dependsOn, withServiceSuffix dep ∈ start.2

/-- What is started are the due services, once each and in their order. -/
structure Complete (s : Site) (trace : Trace) : Prop where
  ordered : ∃ order : List Service, order.Perm (due s) ∧ (order.Pairwise fun a b => a.order ≤ b.order) ∧
    List.Forall₂ StartedAs order (starts s trace)
  once : ∀ svc ∈ due s, ((starts s trace).map Prod.fst).count svc.unit = 1
  only : ∀ start ∈ starts s trace, ∃ svc ∈ due s, svc.unit = start.1

section Traces
variable {α : Type} {s s' : Site} {trace : Trace} {res : α}

theorem starts_append {p : Prog α} (ran : calm.Alone p s trace res s') (rest : Trace) :
    starts s (trace ++ rest) = starts s trace ++ starts s' rest := by
  induction p generalizing s trace with
  | done a =>
    obtain ⟨rfl, _, rfl⟩ := ran
    rfl
  | call op k ih =>
    obtain ⟨ans, later, rfl, _, ran⟩ := ran
    rw [List.cons_append, starts, starts, ih ans ran, List.append_assoc]

/-- Alone the program runs in one way, ends with the result and has started these units. -/
def Brings (p : Prog α) (s : Site) (res : α) (s' : Site) (units : List (String × Finset String)) : Prop :=
  ∃ trace, calm.Surely p s trace res s' ∧ starts s trace = units

/-- The program ends with the result and has started and changed nothing. -/
abbrev Looks (p : Prog α) (s : Site) (res : α) : Prop := Brings p s res s []

namespace Brings

theorem done (a : α) (s : Site) : Looks (.done a : Prog α) s a := ⟨[], .done a s, rfl⟩

theorem perform {op : Op} {ans : op.Ans} (permitted : calm.permits s op ans = true)
    (sure : ∀ ans', calm.permits s op ans' = true → ans' = ans) :
    Brings (perform op) s ans (calm.effect s op ans) (startOf s op) :=
  ⟨_, .perform permitted sure, List.append_nil _⟩

theorem bind {β : Type} {p : Prog α} {f : α → Prog β} {mid : Site} {b : β} {first rest : List (String × Finset String)}
    (h : Brings p s res mid first) (h' : Brings (f res) mid b s' rest) : Brings (p >>= f) s b s' (first ++ rest) := by
  obtain ⟨trace, ran, rfl⟩ := h
  obtain ⟨trace', ran', rfl⟩ := h'
  exact ⟨trace ++ trace', ran.bind ran', starts_append ran.runs trace'⟩

theorem firstSome {β γ : Type} {body : β → Prog (Option γ)} {xs : List β}
    (each : ∀ x ∈ xs, Looks (body x) s none) : Looks (Program.firstSome body xs) s none := by
  induction xs with
  | nil => exact done none s
  | cons x xs ih =>
    exact bind (each x List.mem_cons_self) (ih fun y member => each y (List.mem_cons_of_mem x member))

end Brings

end Traces

/-! ### One service -/

section Service
variable {s : Site} {svc : Service}

theorem isActive_looks {dep : String} (active : withServiceSuffix dep ∈ s.active) : Looks (isActive dep) s true := by
  have permitted : ∀ ans, calm.permits s (.ask (.isActive dep)) ans = true ↔ ans = true := by
    intro ans
    change decide (ans = decide (withServiceSuffix dep ∈ s.active)) = true ↔ _
    simp [active]
  exact .perform ((permitted true).mpr rfl) fun ans permits => (permitted ans).mp permits

theorem waitActive_looks {dep : String} (active : withServiceSuffix dep ∈ s.active) (timeout : Nat) :
    Looks (waitActive dep timeout) s none := (isActive_looks active).bind (.done none s)

theorem inactiveDependency_looks (active : ∀ dep ∈ svc.dependsOn, withServiceSuffix dep ∈ s.active) :
    Looks (inactiveDependency svc) s none :=
  .firstSome fun dep member => (isActive_looks (active dep member)).bind (.done none s)

theorem checkConstraints_looks (mounted : ∀ mnt ∈ svc.requiresMounts, s.mounted mnt = true) :
    Looks (checkConstraints svc) s none := by
  refine .firstSome fun mnt member => ?_
  have permitted : ∀ ans, calm.permits s (.ask (.isMounted mnt)) ans = true ↔ ans = true := by
    intro ans
    change decide (ans = s.mounted mnt) = true ↔ _
    simp [mounted mnt member]
  have looked : Looks (isMounted mnt) s true :=
    .perform ((permitted true).mpr rfl) fun ans permits => (permitted ans).mp permits
  exact looked.bind (.done none s)

theorem bootChecks_looks (active : ∀ dep ∈ svc.dependsOn, withServiceSuffix dep ∈ s.active)
    (mounted : ∀ mnt ∈ svc.requiresMounts, s.mounted mnt = true) : Looks (bootChecks svc) s none := by
  have waited : Looks (firstSome (waitActive · 120) svc.dependsOn) s none :=
    .firstSome fun dep member => waitActive_looks (active dep member) 120
  exact waited.bind ((inactiveDependency_looks active).bind (checkConstraints_looks mounted))

theorem delay_looks (seconds : Int) : Looks (delay .bootDelay seconds) s true := by
  unfold delay
  split
  · exact .perform rfl fun ans fired => fired
  · exact .done true s

/-- The site after a start. -/
def started (unit : String) (s : Site) : Site where
  world := { s.world with jobs := insert unit s.world.jobs }
  mounted := s.mounted
  active := insert (withServiceSuffix unit) s.active

theorem startUnit_brings {unit : String} (unlocked : unit ∉ s.world.locks) :
    Brings (startUnit unit) s none (started unit s) [(unit, s.active)] := by
  have freed : (insert unit s.world.locks).erase unit = s.world.locks := Finset.erase_insert unlocked
  have same : started unit s = { started unit s with
      world := { (started unit s).world with locks := (insert unit s.world.locks).erase unit } } := by
    rw [freed]
    rfl
  rw [same]
  have marked : Brings (mark (.startUnit unit)) s () s [(unit, s.active)] := .perform rfl fun _ _ => rfl
  have locked : Brings (lockUnit unit) s () (calm.effect s (.lockUnit unit) ()) [] :=
    .perform (decide_eq_true unlocked) fun _ _ => rfl
  have spawned : ∀ s, Brings (perform (.spawn .start unit)) s () (calm.effect s (.spawn .start unit) ()) [] :=
    fun s => .perform rfl fun _ _ => rfl
  have ended : ∀ s, Brings (perform (.wait .start unit)) s Exit.ok (calm.effect s (.wait .start unit) Exit.ok) [] :=
    fun s => .perform rfl fun exit permits => of_decide_eq_true permits
  have unlocks : ∀ s, Brings (unlockUnit unit) s () (calm.effect s (.unlockUnit unit) ()) [] :=
    fun s => .perform rfl fun _ _ => rfl
  have client : ∀ s, Brings (systemctl .start unit) s Exit.ok
      (calm.effect (calm.effect s (.spawn .start unit) ()) (.wait .start unit) Exit.ok) [] :=
    fun s => (spawned s).bind (ended _)
  exact marked.bind (locked.bind ((client _).bind ((unlocks _).bind (.done none _))))

theorem bootService_brings (active : ∀ dep ∈ svc.dependsOn, withServiceSuffix dep ∈ s.active)
    (mounted : ∀ mnt ∈ svc.requiresMounts, s.mounted mnt = true) (unlocked : svc.unit ∉ s.world.locks) :
    Brings (bootService svc) s none (started svc.unit s) [(svc.unit, s.active)] := by
  have reported : Looks (ask .ctxErr) s false := .perform rfl fun cancelled permits => by simpa [calm] using permits
  have marked : Looks (mark (.next svc)) (started svc.unit s) () := .perform rfl fun _ _ => rfl
  have finished : Looks (mark (.next svc) >>= fun _ => return none : Prog (Option Unit)) (started svc.unit s) none :=
    marked.bind (.done none _)
  have launched : Brings (startUnit svc.unit >>= fun _ => return () : Prog Unit) s () (started svc.unit s)
      [(svc.unit, s.active)] := (startUnit_brings unlocked).bind (.done () _)
  exact reported.bind ((bootChecks_looks active mounted).bind ((delay_looks svc.bootDelay).bind
    ((inactiveDependency_looks active).bind (launched.bind finished))))

end Service

section Boot
variable {s s₀ : Site} {before rest : List Service}

theorem bootable_looks (services enabled : List Service) :
    Looks (fold (fun enabled svc => if !svc.enabled then return enabled else do
      let stopped ← isUserStopped svc.unit
      return if stopped then enabled else enabled ++ [svc]) enabled services) s
      (enabled ++ services.filter fun a => a.enabled && !decide (a.unit ∈ s.world.userStopped)) := by
  induction services generalizing enabled with
  | nil =>
    rw [List.filter_nil, List.append_nil]
    exact .done enabled s
  | cons svc services ih =>
    have asked : Looks (isUserStopped svc.unit) s (decide (svc.unit ∈ s.world.userStopped)) :=
      .perform (decide_eq_true rfl) fun stopped permits => of_decide_eq_true permits
    have round : Looks (if !svc.enabled then return enabled else do
        let stopped ← isUserStopped svc.unit
        return if stopped then enabled else enabled ++ [svc]) s
        (enabled ++ [svc].filter fun a => a.enabled && !decide (a.unit ∈ s.world.userStopped)) := by
      cases on : svc.enabled with
      | false => simpa [on] using Brings.done enabled s
      | true =>
        rw [Bool.not_true, if_neg Bool.false_ne_true]
        refine asked.bind ?_
        by_cases stopped : svc.unit ∈ s.world.userStopped
        · simpa [on, stopped] using Brings.done enabled s
        · simpa [on, stopped] using Brings.done (enabled ++ [svc]) s
    rw [← List.singleton_append, List.filter_append, ← List.append_assoc]
    exact round.bind (ih _)

/-- The services before have been started, and nothing else has happened. -/
structure After (s₀ : Site) (before : List Service) (s : Site) : Prop where
  kept : s₀.active ⊆ s.active
  active : ∀ a ∈ before, withServiceSuffix a.unit ∈ s.active
  mounted : s.mounted = s₀.mounted
  locks : s.world.locks = s₀.world.locks

theorem After.snoc {svc : Service} (h : After s₀ before s) : After s₀ (before ++ [svc]) (started svc.unit s) where
  kept := fun u member => Finset.mem_insert_of_mem (h.kept member)
  active := by
    intro a member
    rcases List.mem_append.mp member with member | member
    · exact Finset.mem_insert_of_mem (h.active a member)
    · rw [List.mem_singleton.mp member]
      exact Finset.mem_insert_self _ _
  mounted := h.mounted
  locks := h.locks

/-- The induction over the sorted list: what comes before a service is active. -/
theorem rounds_bring (startable : Startable s₀) (sorted : (before ++ rest).Pairwise fun a b => a.order ≤ b.order)
    (perm : (before ++ rest).Perm (due s₀)) (after : After s₀ before s) :
    ∃ s' units, Brings (firstSome bootService rest) s none s' units ∧ List.Forall₂ StartedAs rest units := by
  induction rest generalizing before s with
  | nil => exact ⟨s, [], .done none s, .nil⟩
  | cons svc rest ih =>
    have isDue : svc ∈ due s₀ := perm.mem_iff.mp (by simp)
    have active : ∀ dep ∈ svc.dependsOn, withServiceSuffix dep ∈ s.active := by
      intro dep member
      rcases startable.dependencies svc isDue dep member with already | ⟨a, due, same, lower⟩
      · exact after.kept already
      · rw [← same]
        refine after.active a ?_
        rcases List.mem_append.mp (perm.mem_iff.mpr due) with earlier | later
        · exact earlier
        · have behind := (List.pairwise_append.mp sorted).2.1
          rcases List.mem_cons.mp later with rfl | later
          · omega
          · have above := (List.pairwise_cons.mp behind).1 a later
            omega
    have mounted : ∀ mnt ∈ svc.requiresMounts, s.mounted mnt = true := by
      rw [after.mounted]
      exact startable.mounts svc isDue
    have unlocked : svc.unit ∉ s.world.locks := by
      rw [after.locks]
      exact startable.unlocked svc isDue
    have split : before ++ svc :: rest = (before ++ [svc]) ++ rest := by simp
    rw [split] at sorted perm
    obtain ⟨s', units, brought, order⟩ := ih sorted perm after.snoc
    exact ⟨s', _, (bootService_brings active mounted unlocked).bind brought, .cons ⟨rfl, active⟩ order⟩

theorem complete_of_ordered (startable : Startable s) {trace : Trace} {order : List Service} (perm : order.Perm (due s))
    (sorted : order.Pairwise fun a b => a.order ≤ b.order) (units : List.Forall₂ StartedAs order (starts s trace)) :
    Complete s trace := by
  have names : (starts s trace).map Prod.fst = order.map (·.unit) := by
    generalize starts s trace = started at units
    clear perm sorted
    induction units with
    | nil => rfl
    | cons first _ ih => rw [List.map_cons, List.map_cons, first.1, ih]
  have distinct : (order.map (·.unit)).Nodup := by
    rw [(perm.map _).nodup_iff]
    exact startable.distinct.sublist ((List.filter_sublist).map _)
  refine ⟨⟨order, perm, sorted, units⟩, fun svc isDue => ?_, fun start member => ?_⟩
  · rw [names]
    exact List.count_eq_one_of_mem distinct (List.mem_map_of_mem (perm.mem_iff.mpr isDue))
  · have named : start.1 ∈ order.map (·.unit) := names ▸ List.mem_map_of_mem member
    obtain ⟨svc, isDue, same⟩ := List.mem_map.mp named
    exact ⟨svc, perm.mem_iff.mp isDue, same⟩

/-- An undisturbed boot ends, and has started everything that is due. -/
theorem boot_complete (startable : Startable s) : (∃ trace s', calm.Alone boot s trace () s') ∧
    ∀ trace s', calm.Alone boot s trace () s' → Complete s trace := by
  have read : Looks readConfig s s.world.cfg := .perform (decide_eq_true rfl) fun cfg permits =>
    of_decide_eq_true permits
  have begins : Looks (readConfig >>= fun cfg => bootable cfg.services) s (due s) :=
    read.bind (bootable_looks s.world.cfg.services [])
  have rounds : ∀ ordered : Sorted (due s), ∃ s' units,
      Brings (firstSome bootService ordered.list >>= fun _ => return ()) s () s' units ∧
      List.Forall₂ StartedAs ordered.list units := by
    intro ordered
    have sorted : ([] ++ ordered.list).Pairwise fun a b : Service => a.order ≤ b.order := ordered.sorted
    obtain ⟨s', units, brought, order⟩ := rounds_bring startable sorted ordered.perm ⟨Finset.Subset.refl _, nofun, rfl,
      rfl⟩
    have ended : Brings (firstSome bootService ordered.list >>= fun _ => return ()) s () s' (units ++ []) :=
      brought.bind (.done () s')
    rw [List.append_nil] at ended
    exact ⟨s', units, ended, order⟩
  have text : boot = (readConfig >>= fun cfg => bootable cfg.services) >>= fun enabled =>
      ask (.sortByOrder enabled) >>= fun ordered => firstSome bootService ordered.list >>= fun _ => return () := rfl
  rw [text]
  obtain ⟨first, begun, quiet⟩ := begins
  constructor
  · obtain ⟨s', units, ⟨trace, ran, _⟩, _⟩ := rounds (inOrder (due s))
    exact ⟨_, s', alone_bind.mpr ⟨first, _, _, s, rfl, begun.runs, inOrder (due s), trace, rfl, rfl, ran.runs⟩⟩
  · intro trace s' alone
    obtain ⟨first', _, enabled, mid, rfl, began, ordered, rest, rfl, _, ran⟩ := alone_bind.mp alone
    obtain ⟨rfl, rfl, rfl⟩ := begun.only began
    obtain ⟨_, units, ⟨_, sure, shows⟩, order⟩ := rounds ordered
    obtain ⟨rfl, _, _⟩ := sure.only ran
    refine complete_of_ordered startable ordered.perm ordered.sorted ?_
    rw [starts_append begun.runs, quiet]
    exact shows ▸ order

end Boot

/-! ### Two services and a database -/

/-- The second service waits for the first and for a database, and is delayed. -/
def services : List Service :=
  [{ unit := "web.service", enabled := true, order := 2, bootDelay := 5, dependsOn := ["app.service", "db"] },
    { unit := "app.service", enabled := true, order := 1, requiresMounts := ["/pool"] },
    { unit := "old.service" }]

def stopped : Site where
  world := { cfg := { services := services } }
  mounted := fun path => path == "/pool"
  active := {"db.service"}

theorem boot_complete_two : (∃ trace s', calm.Alone boot stopped trace () s') ∧
    ∀ trace s', calm.Alone boot stopped trace () s' → Complete stopped trace :=
  boot_complete ⟨by decide, by decide, by decide, by decide⟩

end BootComplete
end HomelabDaemon
