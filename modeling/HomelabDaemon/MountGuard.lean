import HomelabDaemon.System

/-!
# Mount constraints

The five paths that start a service, and when the mounts it requires have been seen after the
last wait before systemctl is called.
-/

namespace HomelabDaemon
open Concurrency Program

namespace MountGuard

/-- The mount was seen, with no wait since. -/
def seen (mnt : String) : Past Op Op.Ans → Bool
  | [] => false
  | ⟨.ask (.isMounted path), mounted⟩ :: past => (path == mnt && mounted) || seen mnt past
  | ⟨.ask (.sleep _ _), _⟩ :: _ => false
  | _ :: past => seen mnt past

/-- The constraints of the service were checked, with no wait since. -/
def Guarded (svc : Service) (past : Past Op Op.Ans) : Prop := ∀ mnt ∈ svc.requiresMounts, seen mnt past = true

/-- A client that starts the service is guarded, while the configuration stays. -/
def contract (cfg : Config) (svc : Service) : Contract Op Op.Ans where
  allow past op := match op with
    | .spawn .stop _ => True
    | .spawn _ unit => SameUnit unit svc.unit → Guarded svc past
    | _ => True
  expect _ op ans := match op, ans with
    | .config, read => read = cfg
    | _, _ => True

inductive Path where
  | boot
  | monitor
  | start (name : String)
  | startAll
  | restart (name : String)

namespace Path

/-- The services that come down the path. -/
def takes (svc : Service) : Path → Prop
  | boot | startAll => svc.enabled = true
  | monitor => svc.enabled = true ∧ svc.restart ∈ ["always", "unless-stopped", "on-failure"]
  | start name | restart name => svc.unit = withServiceSuffix name

instance (svc : Service) (path : Path) : Decidable (path.takes svc) := by
  cases path <;> unfold takes <;> infer_instance

/-- What is done about the service on the path; that of the monitor begins in the tick and goes
on in the goroutine it spawns. -/
def code (svc : Service) : Path → Prog Unit
  | boot => bootService svc >>= fun _ => return ()
  | monitor => restartDue svc >>= fun due => if due then HomelabDaemon.restart svc else return ()
  | start name => handleStart name >>= fun _ => return ()
  | startAll => startOne 0 svc.unit >>= fun _ => return ()
  | restart name => handleRestart name >>= fun _ => return ()

/-- The mounts that `constraintsOf` looks at. -/
def checked (cfg : Config) (name : String) : List String :=
  match cfg.services.find? (·.unit == name) with
  | none => []
  | some svc => svc.requiresMounts

def holdsWhen (cfg : Config) (svc : Service) : Path → Prop
  | boot => svc.requiresMounts = [] ∨ svc.bootDelay ≤ 0
  | monitor => svc.requiresMounts = [] ∨ svc.restartDelay ≤ 0
  | start name => svc.requiresMounts ⊆ checked cfg name
  | startAll => svc.requiresMounts ⊆ checked cfg svc.unit
  | restart _ => svc.requiresMounts = []

end Path

/-- Every start of the service down the path is guarded. -/
def Guards (cfg : Config) (svc : Service) (path : Path) : Prop :=
  (path.code svc).Meets (contract cfg svc) [] fun _ _ => True

variable {cfg : Config} {svc : Service} {past : Past Op Op.Ans}

theorem guarded_of_nil (none : svc.requiresMounts = []) : Guarded svc past := by
  intro mnt member
  rw [none] at member
  cases member

/-- An operation that is no wait. -/
def wakeful : Op → Prop
  | .ask (.sleep _ _) => False
  | _ => True

theorem seen_cons {op : Op} {ans : op.Ans} {mnt : String} (awake : wakeful op) (h : seen mnt past = true) :
    seen mnt (⟨op, ans⟩ :: past) = true := by
  cases op with
  | ask q =>
    cases q with
    | isMounted path => simp [seen, h]
    | sleep why seconds => exact awake.elim
    | _ => exact h
  | _ => exact h

theorem Guarded.cons {op : Op} {ans : op.Ans} (awake : wakeful op) (h : Guarded svc past) :
    Guarded svc (⟨op, ans⟩ :: past) := fun mnt member => seen_cons awake (h mnt member)

def isProbe : Op → Prop
  | .ask (.isActive _) => True
  | _ => False

theorem inactiveDependency_probes (s : Service) : (inactiveDependency s).Uses isProbe :=
  .firstSome fun _ => .bind (.perform trivial) fun _ => .done _

theorem probes_meet {α : Type} {p : Prog α} (h : p.Uses isProbe) (guarded : Guarded svc past) :
    p.Meets (contract cfg svc) past fun _ => Guarded svc := by
  refine h.meets (Guarded svc) ?_ ?_ guarded
  · intro past op probes _
    cases op <;> trivial
  · intro past op ans probes guarded _
    refine guarded.cons ?_
    cases op with
    | ask q => cases q <;> trivial
    | _ => trivial

theorem asks_meet {α : Type} {p : Prog α} (h : AsksOnly p) :
    p.Meets (contract cfg svc) past fun _ _ => True := by
  refine h.meets (fun _ => True) ?_ (fun _ _ _ _ _ _ => trivial) trivial
  intro past op asks _
  cases op <;> trivial

theorem checkConstraints_meets (s : Service) :
    (checkConstraints s).Meets (contract cfg svc) past fun unmet past =>
      unmet = none → ∀ mnt ∈ s.requiresMounts, seen mnt past = true := by
  have stronger : ∀ mounts : List String, ∀ past : Past Op Op.Ans,
      (firstSome (fun mnt => isMounted mnt >>= fun mounted =>
        return if mounted then none else some ("mount " ++ quoted mnt ++ " not mounted")) mounts).Meets
      (contract cfg svc) past fun unmet past' => unmet = none →
        (∀ mnt, seen mnt past = true → seen mnt past' = true) ∧ ∀ mnt ∈ mounts, seen mnt past' = true := by
    intro mounts
    induction mounts with
    | nil => exact fun past _ => ⟨fun _ h => h, fun _ member => absurd member List.not_mem_nil⟩
    | cons path mounts ih =>
      intro past
      rw [firstSome, meets_bind, meets_bind, meets_perform]
      refine ⟨trivial, fun mounted _ => ?_⟩
      cases mounted with
      | false => exact fun absurd => by cases absurd
      | true =>
        refine (ih _).mono fun unmet past' found met => ?_
        obtain ⟨kept, rest⟩ := found met
        refine ⟨fun mnt h => kept mnt (seen_cons trivial h), fun mnt member => ?_⟩
        rcases List.mem_cons.mp member with rfl | member
        · exact kept mnt (by simp [seen])
        · exact rest mnt member
  exact (stronger s.requiresMounts past).mono fun _ _ found met => (found met).2

theorem startUnit_meets {unit : String} (guarded : Guarded svc past) :
    (startUnit unit).Meets (contract cfg svc) past fun _ _ => True := by
  have later : Guarded svc (⟨.lockUnit unit, ()⟩ :: ⟨.mark (.startUnit unit), ()⟩ :: past) :=
    Guarded.cons trivial (Guarded.cons trivial guarded)
  exact ⟨trivial, fun _ _ => ⟨trivial, fun _ _ => ⟨fun _ => later, fun _ _ => ⟨trivial, fun _ _ =>
    ⟨trivial, fun _ _ => trivial⟩⟩⟩⟩⟩

/-- A delay keeps the guard only where there is nothing to wait or nothing to guard. -/
theorem delay_meets {why : Wait} {seconds : Int} (short : svc.requiresMounts = [] ∨ seconds ≤ 0)
    (guarded : Guarded svc past) : (delay why seconds).Meets (contract cfg svc) past fun _ => Guarded svc := by
  unfold delay
  split
  · rename_i positive
    rcases short with none | short
    · exact ⟨trivial, fun _ _ => guarded_of_nil none⟩
    · omega
  · exact guarded

theorem boot_guards (short : svc.requiresMounts = [] ∨ svc.bootDelay ≤ 0) : Guards cfg svc .boot := by
  change (bootService svc >>= _).Meets _ _ _
  rw [meets_bind]
  unfold bootService
  rw [meets_bind, meets_perform]
  refine ⟨trivial, fun cancelled _ => ?_⟩
  split
  · trivial
  have checks : (bootChecks svc).Meets (contract cfg svc) [⟨.ask .ctxErr, cancelled⟩] fun error past =>
      error = none → Guarded svc past := by
    unfold bootChecks
    rw [meets_bind]
    refine (asks_meet (.firstSome fun dep => waitActive_asks dep 120)).mono fun waiting past _ => ?_
    split
    · rename_i missing
      intro met
      simp [met] at missing
    rw [meets_bind]
    refine (asks_meet (inactiveDependency_asks svc)).mono fun inactive past _ => ?_
    split
    · rename_i missing
      intro met
      simp [met] at missing
    · exact checkConstraints_meets svc
  rw [meets_bind]
  refine checks.mono fun error past guarded => ?_
  split
  · rw [meets_bind, meets_perform]
    exact ⟨trivial, fun _ _ => trivial⟩
  rename_i met
  rw [meets_bind]
  refine (delay_meets short (guarded (by simpa using met))).mono fun fired past guarded => ?_
  split
  · trivial
  rw [meets_bind]
  refine (probes_meet (inactiveDependency_probes svc) guarded).mono fun inactive past guarded => ?_
  have skip : ((mark (.next svc)).bind fun _ => Program.done none : Prog (Option Unit)).Meets
      (contract cfg svc) past fun _ _ => True := ⟨trivial, fun _ _ => trivial⟩
  rw [meets_bind]
  split
  · exact skip
  rw [meets_bind]
  exact (startUnit_meets guarded).mono fun _ _ _ => ⟨trivial, fun _ _ => trivial⟩

theorem restart_meets (short : svc.requiresMounts = [] ∨ svc.restartDelay ≤ 0) (guarded : Guarded svc past) :
    (restart svc).Meets (contract cfg svc) past fun _ _ => True := by
  have counts : ∀ past, (failed svc).Meets (contract cfg svc) past fun _ _ => True :=
    fun _ => ⟨trivial, fun _ _ => trivial⟩
  unfold restart
  rw [meets_bind]
  refine (probes_meet (inactiveDependency_probes svc) guarded).mono fun inactive past guarded => ?_
  split
  · trivial
  rw [meets_bind]
  refine (delay_meets short guarded).mono fun fired past guarded => ?_
  split
  · trivial
  rw [meets_bind]
  refine (probes_meet (inactiveDependency_probes svc) guarded).mono fun inactive past guarded => ?_
  split
  · trivial
  rw [meets_bind]
  refine (startUnit_meets guarded).mono fun error past _ => ?_
  split
  · exact counts past
  unfold judge
  rw [meets_bind, meets_perform]
  refine ⟨trivial, fun fired _ => ?_⟩
  split
  · trivial
  rw [meets_bind, meets_perform]
  refine ⟨trivial, fun active _ => ?_⟩
  split
  · exact counts _
  · exact ⟨trivial, fun _ _ => trivial⟩

theorem monitor_guards (short : svc.requiresMounts = [] ∨ svc.restartDelay ≤ 0) : Guards cfg svc .monitor := by
  have wanted : ∀ past, (shouldRestart svc).Meets (contract cfg svc) past fun _ _ => True := by
    intro past
    refine (shouldRestart_uses svc).meets (fun _ => True) ?_ (fun _ _ _ _ _ _ => trivial) trivial
    intro past op checks _
    cases op <;> trivial
  have due : (restartDue svc).Meets (contract cfg svc) [] fun due past => due = true → Guarded svc past := by
    unfold restartDue
    rw [meets_bind]
    refine (wanted []).mono fun want past _ => ?_
    split
    · exact fun absurd => nomatch absurd
    rw [meets_bind, meets_perform]
    refine ⟨trivial, fun isOpen _ => ?_⟩
    split
    · exact fun absurd => nomatch absurd
    rw [meets_bind]
    refine (checkConstraints_meets svc).mono fun unmet past guarded => ?_
    split
    · exact fun absurd => nomatch absurd
    rename_i met
    refine ⟨trivial, fun loaded _ _ => ?_⟩
    exact Guarded.cons trivial (guarded (by simpa using met))
  change (restartDue svc >>= _).Meets _ _ _
  rw [meets_bind]
  refine due.mono fun isDue past guarded => ?_
  split
  · rename_i yes
    exact restart_meets short (guarded yes)
  · trivial

/-- The look-up by name, after which the mounts of the entry have been seen. -/
theorem constraintsOf_meets (name : String) :
    (constraintsOf name).Meets (contract cfg svc) past fun unmet past =>
      unmet = none → ∀ mnt ∈ Path.checked cfg name, seen mnt past = true := by
  unfold constraintsOf
  rw [meets_bind, meets_perform]
  refine ⟨trivial, fun read same => ?_⟩
  obtain rfl : read = cfg := same
  unfold Path.checked
  cases read.services.find? (·.unit == name) with
  | none => exact fun _ _ member => nomatch member
  | some s => exact checkConstraints_meets s

theorem start_guards {name : String} (covered : svc.requiresMounts ⊆ Path.checked cfg name) :
    Guards cfg svc (.start name) := by
  change (handleStart name >>= _).Meets _ _ _
  rw [meets_bind]
  unfold handleStart
  rw [meets_bind, meets_perform]
  refine ⟨trivial, fun read _ => ?_⟩
  split
  · trivial
  rw [meets_bind, meets_perform]
  refine ⟨trivial, fun _ _ => ?_⟩
  rw [meets_bind]
  refine (constraintsOf_meets name).mono fun unmet past found => ?_
  cases unmet with
  | some error => trivial
  | none =>
    have guarded : Guarded svc past := fun mnt member => found rfl mnt (covered member)
    change (startUnit name >>= _).Meets _ _ _
    rw [meets_bind]
    exact (startUnit_meets guarded).mono fun _ _ _ => trivial

theorem startAll_guards (covered : svc.requiresMounts ⊆ Path.checked cfg svc.unit) : Guards cfg svc .startAll := by
  change (startOne 0 svc.unit >>= _).Meets _ _ _
  rw [meets_bind]
  unfold startOne
  rw [meets_bind]
  refine (constraintsOf_meets svc.unit).mono fun unmet past found => ?_
  split
  · trivial
  rename_i met
  have guarded : Guarded svc past := fun mnt member => found (by simpa using met) mnt (covered member)
  rw [meets_bind]
  exact (startUnit_meets guarded).mono fun _ _ _ => trivial

theorem restart_guards {name : String} (none : svc.requiresMounts = []) : Guards cfg svc (.restart name) := by
  have guarded : ∀ past, Guarded svc past := fun _ => guarded_of_nil none
  change (handleRestart name >>= _).Meets _ _ _
  rw [meets_bind]
  unfold handleRestart
  rw [meets_bind, meets_perform]
  refine ⟨trivial, fun read _ => ?_⟩
  split
  · trivial
  rw [meets_bind, meets_perform]
  refine ⟨trivial, fun _ _ => ?_⟩
  rw [meets_bind]
  have called : (restartUnit name).Meets (contract cfg svc)
      [⟨.setUserStopped name false, ()⟩, ⟨.config, read⟩] fun _ _ => True :=
    ⟨fun _ => guarded _, fun _ _ => ⟨trivial, fun _ _ => trivial⟩⟩
  refine called.mono fun error past _ => ?_
  cases error with
  | some message => trivial
  | none =>
    change (ite _ _ _ >>= _ : Prog Response).Meets _ _ _
    rw [meets_bind]
    split
    · exact ⟨trivial, fun _ _ => trivial⟩
    · trivial

/-! ### Unguarded paths -/

theorem nil_of_guarded (guarded : Guarded svc past) (unseen : ∀ mnt, seen mnt past = false) :
    svc.requiresMounts = [] := by
  apply List.eq_nil_iff_forall_not_mem.mpr
  intro mnt member
  have sight := guarded mnt member
  rw [unseen mnt] at sight
  cases sight

theorem seen_probes {acts : Past Op Op.Ans} (probes : ∀ act ∈ acts, isProbe act.1) (mnt : String) :
    seen mnt (acts ++ past) = seen mnt past := by
  induction acts with
  | nil => rfl
  | cons act acts ih =>
    have rest := ih fun a member => probes a (List.mem_cons_of_mem _ member)
    have first := probes act List.mem_cons_self
    obtain ⟨op, ans⟩ := act
    cases op with
    | ask q => cases q <;> first | exact rest | exact first.elim
    | _ => exact first.elim

/-- Dependencies active, the listed mounts there, nothing stopped and nothing in the way. -/
def sunny (cfg : Config) (svc : Service) (mounted : List String) : (op : Op) → op.Ans :=
  Outside.answer { active := svc.dependsOn, mounted := mounted } { cfg := cfg }

section Sunny
variable {mounted : List String}

theorem sunny_expected (mounted : List String) (past : Past Op Op.Ans) (op : Op) :
    (contract cfg svc).expect past op (sunny cfg svc mounted op) := by
  cases op <;> trivial

def active (dep : String) : Act Op Op.Ans := ⟨.ask (.isActive dep), true⟩

theorem follow_inactiveDependency : (inactiveDependency svc).follow (sunny cfg svc mounted) past =
    (none, (svc.dependsOn.map active).reverse ++ past) := by
  apply follow_firstSome
  intro dep member past
  have answer : sunny cfg svc mounted (.ask (.isActive dep)) = true := decide_eq_true member
  change (if sunny cfg svc mounted (.ask (.isActive dep)) then none else some dep, _) = _
  rw [answer]
  rfl

theorem seen_active (mnt : String) : seen mnt ((svc.dependsOn.map active).reverse ++ past) = seen mnt past := by
  apply seen_probes
  intro act member
  obtain ⟨dep, _, rfl⟩ := List.mem_map.mp (List.mem_reverse.mp member)
  trivial

theorem follow_checkConstraints {s : Service} (there : s.requiresMounts ⊆ mounted) :
    (checkConstraints s).follow (sunny cfg svc mounted) past =
      (none, (s.requiresMounts.map fun mnt => ⟨.ask (.isMounted mnt), true⟩).reverse ++ past) := by
  apply follow_firstSome
  intro mnt member past
  have answer : sunny cfg svc mounted (.ask (.isMounted mnt)) = true := decide_eq_true (there member)
  change (if sunny cfg svc mounted (.ask (.isMounted mnt)) then none else _, _) = _
  rw [answer]
  rfl

theorem follow_bootChecks (there : svc.requiresMounts ⊆ mounted) :
    ((bootChecks svc).follow (sunny cfg svc mounted) past).1 = none := by
  have waits : (firstSome (waitActive · 120) svc.dependsOn).follow (sunny cfg svc mounted) past =
      (none, (svc.dependsOn.map active).reverse ++ past) := by
    apply follow_firstSome
    intro dep member past
    have answer : sunny cfg svc mounted (.ask (.isActive dep)) = true := decide_eq_true member
    change (if sunny cfg svc mounted (.ask (.isActive dep)) then _ else _ : Prog _).follow _ _ = _
    rw [answer]
    rfl
  unfold bootChecks
  rw [follow_bind, waits]
  change ((_ >>= _ : Prog _).follow _ _).1 = _
  rw [follow_bind, follow_inactiveDependency]
  change ((checkConstraints svc).follow _ _).1 = _
  rw [follow_checkConstraints there]

theorem startUnit_guarded {unit : String} {post : Option String → Past Op Op.Ans → Prop}
    (h : (startUnit unit).Meets (contract cfg svc) past post) (same : SameUnit unit svc.unit) : Guarded svc past :=
  ((h.2 () trivial).2 () trivial).1 same

theorem boot_needs (long : 0 < svc.bootDelay) (h : Guards cfg svc .boot) : svc.requiresMounts = [] := by
  change (bootService svc >>= _).Meets _ _ _ at h
  rw [meets_bind] at h
  unfold bootService at h
  rw [meets_bind, meets_perform] at h
  have started := h.2 false trivial
  simp only [Bool.false_eq_true, ↓reduceIte] at started
  rw [meets_bind] at started
  have checked := started.follow (sunny_expected svc.requiresMounts)
  rw [follow_bootChecks (List.Subset.refl _)] at checked
  simp only [Option.isSome_none, Bool.false_eq_true, ↓reduceIte] at checked
  rw [delay, if_pos long, meets_bind, meets_perform] at checked
  have slept := checked.2 true trivial
  simp only [Bool.not_true, Bool.false_eq_true, ↓reduceIte] at slept
  rw [meets_bind] at slept
  have probed := slept.follow (sunny_expected svc.requiresMounts)
  rw [follow_inactiveDependency] at probed
  simp only [Option.isSome_none, Bool.false_eq_true, ↓reduceIte] at probed
  rw [meets_bind, meets_bind] at probed
  exact nil_of_guarded (startUnit_guarded probed rfl) fun mnt => seen_active mnt

theorem follow_shouldRestart (policy : svc.restart ∈ ["always", "unless-stopped", "on-failure"]) :
    ((shouldRestart svc).follow (sunny cfg svc mounted) past).1 = true := by
  unfold shouldRestart
  split
  · rfl
  rename_i always
  split
  · rfl
  rename_i unlessStopped
  have last : svc.restart = "on-failure" := by
    rcases List.mem_cons.mp policy with same | policy
    · exact absurd same always
    rcases List.mem_cons.mp policy with same | policy
    · exact absurd same unlessStopped
    · exact List.mem_singleton.mp policy
  rw [if_pos last]
  rfl

theorem monitor_needs (policy : svc.restart ∈ ["always", "unless-stopped", "on-failure"])
    (long : 0 < svc.restartDelay) (h : Guards cfg svc .monitor) : svc.requiresMounts = [] := by
  change (restartDue svc >>= _).Meets _ _ _ at h
  rw [meets_bind] at h
  unfold restartDue at h
  rw [meets_bind] at h
  have wanted := h.follow (sunny_expected svc.requiresMounts)
  rw [follow_shouldRestart policy] at wanted
  simp only [Bool.not_true, Bool.false_eq_true, ↓reduceIte] at wanted
  rw [meets_bind, meets_perform] at wanted
  have closed := wanted.2 false trivial
  simp only [Bool.false_eq_true, ↓reduceIte] at closed
  rw [meets_bind] at closed
  have checked := closed.follow (sunny_expected svc.requiresMounts)
  rw [follow_checkConstraints (List.Subset.refl _)] at checked
  simp only [Option.isSome_none, Bool.false_eq_true, ↓reduceIte] at checked
  have due := checked.2 false trivial
  change (restart svc).Meets _ _ _ at due
  unfold restart at due
  rw [meets_bind] at due
  have probed := due.follow (sunny_expected svc.requiresMounts)
  rw [follow_inactiveDependency] at probed
  simp only [Option.isSome_none, Bool.false_eq_true, ↓reduceIte] at probed
  rw [delay, if_pos long, meets_bind, meets_perform] at probed
  have slept := probed.2 true trivial
  simp only [Bool.not_true, Bool.false_eq_true, ↓reduceIte] at slept
  rw [meets_bind] at slept
  have again := slept.follow (sunny_expected svc.requiresMounts)
  rw [follow_inactiveDependency] at again
  simp only [Option.isSome_none, Bool.false_eq_true, ↓reduceIte] at again
  rw [meets_bind] at again
  exact nil_of_guarded (startUnit_guarded again rfl) fun mnt => seen_active mnt

theorem seen_mounts {mounts : List String} {mnt : String} (blind : seen mnt past = false)
    (sight : seen mnt ((mounts.map fun m => (⟨.ask (.isMounted m), true⟩ : Act Op Op.Ans)).reverse ++ past) = true) :
    mnt ∈ mounts := by
  rw [← List.map_reverse] at sight
  apply List.mem_reverse.mp
  generalize mounts.reverse = mounts at sight
  induction mounts with
  | nil =>
    rw [show seen mnt past = true from sight] at blind
    cases blind
  | cons m mounts ih =>
    rcases Bool.or_eq_true_iff.mp sight with same | rest
    · rw [Bool.and_true] at same
      rw [eq_of_beq same]
      exact List.mem_cons_self
    · exact List.mem_cons_of_mem _ (ih rest)

/-- When the look-up by name finds no mount missing, it has seen the mounts of its entry only. -/
theorem follow_constraintsOf (cfg : Config) (svc : Service) (name : String) (blind : ∀ mnt, seen mnt past = false) :
    ∃ past', (constraintsOf name).follow (sunny cfg svc (Path.checked cfg name)) past = (none, past') ∧
      ∀ mnt, seen mnt past' = true → mnt ∈ Path.checked cfg name := by
  unfold constraintsOf
  rw [follow_bind]
  change ∃ past', (match cfg.services.find? (·.unit == name) with
    | none => return none
    | some svc => checkConstraints svc : Prog _).follow _ (⟨.config, cfg⟩ :: past) = _ ∧ _
  have still : ∀ mnt, seen mnt (⟨.config, cfg⟩ :: past) = false := blind
  unfold Path.checked
  cases cfg.services.find? (·.unit == name) with
  | none =>
    refine ⟨_, rfl, fun mnt sight => ?_⟩
    rw [still mnt] at sight
    cases sight
  | some s => exact ⟨_, follow_checkConstraints (List.Subset.refl _), fun mnt => seen_mounts (still mnt)⟩

theorem managed {name : String} (member : svc ∈ cfg.services) (named : svc.unit = withServiceSuffix name) :
    isManaged cfg name = true := List.any_eq_true.mpr ⟨svc, member, beq_iff_eq.mpr named⟩

theorem sameUnit {name : String} (named : svc.unit = withServiceSuffix name) : SameUnit name svc.unit := by
  unfold SameUnit
  rw [named, withServiceSuffix_of_suffix (withServiceSuffix_suffix name)]

theorem start_needs {name : String} (member : svc ∈ cfg.services) (named : svc.unit = withServiceSuffix name)
    (h : Guards cfg svc (.start name)) : svc.requiresMounts ⊆ Path.checked cfg name := by
  change (handleStart name >>= _).Meets _ _ _ at h
  rw [meets_bind] at h
  unfold handleStart at h
  rw [meets_bind, meets_perform] at h
  have accepted := h.2 cfg rfl
  simp only [managed member named, Bool.not_true, Bool.false_eq_true, ↓reduceIte] at accepted
  have cleared := accepted.2 () trivial
  change ((constraintsOf name) >>= _).Meets _ _ _ at cleared
  rw [meets_bind] at cleared
  have blind : ∀ mnt, seen mnt [⟨.setUserStopped name false, ()⟩, ⟨.config, cfg⟩] = false := fun _ => rfl
  obtain ⟨past, followed, sights⟩ := follow_constraintsOf cfg svc name blind
  have checked := cleared.follow (sunny_expected (Path.checked cfg name))
  rw [followed] at checked
  change (startUnit name >>= _).Meets _ _ _ at checked
  rw [meets_bind] at checked
  exact fun mnt required => sights mnt (startUnit_guarded checked (sameUnit named) mnt required)

theorem startAll_needs (h : Guards cfg svc .startAll) : svc.requiresMounts ⊆ Path.checked cfg svc.unit := by
  change (startOne 0 svc.unit >>= _).Meets _ _ _ at h
  rw [meets_bind] at h
  unfold startOne at h
  rw [meets_bind] at h
  have blind : ∀ mnt, seen mnt [] = false := fun _ => rfl
  obtain ⟨past, followed, sights⟩ := follow_constraintsOf cfg svc svc.unit blind
  have checked := h.follow (sunny_expected (Path.checked cfg svc.unit))
  rw [followed] at checked
  simp only [Option.isSome_none, Bool.false_eq_true, ↓reduceIte] at checked
  rw [meets_bind] at checked
  exact fun mnt required => sights mnt (startUnit_guarded checked rfl mnt required)

theorem restart_needs {name : String} (member : svc ∈ cfg.services) (named : svc.unit = withServiceSuffix name)
    (h : Guards cfg svc (.restart name)) : svc.requiresMounts = [] := by
  change (handleRestart name >>= _).Meets _ _ _ at h
  rw [meets_bind] at h
  unfold handleRestart at h
  rw [meets_bind, meets_perform] at h
  have accepted := h.2 cfg rfl
  simp only [managed member named, Bool.not_true, Bool.false_eq_true, ↓reduceIte] at accepted
  have cleared := accepted.2 () trivial
  exact nil_of_guarded (cleared.1 (sameUnit named)) fun _ => rfl

end Sunny

/-- On which paths every start of a service follows a check of its mounts with no wait between. -/
theorem guards_iff {path : Path} (member : svc ∈ cfg.services) (taken : path.takes svc) :
    Guards cfg svc path ↔ path.holdsWhen cfg svc := by
  cases path with
  | boot =>
    refine ⟨fun h => ?_, boot_guards⟩
    by_cases long : 0 < svc.bootDelay
    · exact .inl (boot_needs long h)
    · exact .inr (by omega)
  | monitor =>
    refine ⟨fun h => ?_, monitor_guards⟩
    by_cases long : 0 < svc.restartDelay
    · exact .inl (monitor_needs taken.2 long h)
    · exact .inr (by omega)
  | start name => exact ⟨start_needs member taken, start_guards⟩
  | startAll => exact ⟨startAll_needs, startAll_guards⟩
  | restart name => exact ⟨restart_needs member taken, restart_guards⟩

/-! ### A service on a pool -/

def service : Service := { unit := "a.service", enabled := true, requiresMounts := ["/pool"], bootDelay := 5 }

/-- The start request of the service is guarded, if its name is spelled out. -/
theorem guards_iff_start : Guards { services := [service] } service (.start "a.service") :=
  (guards_iff List.mem_cons_self (by decide)).mpr fun _ required => required

/-- A restart request never looks at the mounts. -/
theorem restart_unguarded : ¬ ∀ (cfg : Config) (svc : Service) (path : Path), svc ∈ cfg.services →
    path.takes svc → Guards cfg svc path := by
  intro claim
  have guards := claim { services := [service] } service (.restart "a.service") List.mem_cons_self (by decide)
  have none : service.requiresMounts = [] := restart_needs List.mem_cons_self (by decide) guards
  cases none

end MountGuard
end HomelabDaemon
