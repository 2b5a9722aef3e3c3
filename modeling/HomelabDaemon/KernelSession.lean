import HomelabDaemon.System

/-!
# One boot for each kernel session

The boot id goes into the state file before boot begins. A process that ends in between leaves the
rest of the boot undone for the session.
-/

namespace HomelabDaemon
open Concurrency Program

namespace KernelSession

abbrev asksFirstStart : Op := .ask .firstStartAfterBoot

/-- A life of the daemon: the boot goroutine, and the boot id that the state has in memory. -/
structure Process where
  session : Nat
  bootID : Option Nat
  past : Past Op Op.Ans
  code : Prog Unit

/-- The host: the boot id of the kernel, that in state.json, and the lives of the daemon. -/
structure Host where
  session : Nat
  disk : Option Nat
  running : Option Process := none
  ended : List Process := []

def Process.next (p : Process) (op : Op) (ans : op.Ans) (code : Prog Unit) : Process :=
  { p with past := ⟨op, ans⟩ :: p.past, code := code }

inductive Step : Host → Host → Prop where
  /-- The state is loaded from the file. -/
  | start {h : Host} (idle : h.running = none) :
    Step h { h with running := some { session := h.session, bootID := h.disk, past := [], code := startup } }
  | act {h : Host} {p : Process} {op : Op} {k : op.Ans → Prog Unit} (runs : h.running = some p)
      (at_ : p.code = .call op k)
    (other : op ≠ asksFirstStart) (ans : op.Ans) : Step h { h with running := some (p.next op ans (k ans)) }
  /-- `IsFirstStartAfterBoot` compares, stamps and persists. -/
  | isFirst {h : Host} {p : Process} {k : Bool → Prog Unit} (runs : h.running = some p)
    (at_ : p.code = .call asksFirstStart k) (first : Bool) (answer : first = decide (p.bootID ≠ some h.session)) :
    Step h { h with
      disk := some h.session
      running := some { p.next asksFirstStart first (k first) with bootID := some h.session } }
  /-- Another method of the state persists it. -/
  | persist {h : Host} {p : Process} (runs : h.running = some p) : Step h { h with disk := p.bootID }
  /-- The process crashes or is restarted. -/
  | ends {h : Host} {p : Process} (runs : h.running = some p) : Step h { h with running := none, ended := p :: h.ended }
  | reboot {h : Host} :
    Step h { h with session := h.session + 1, running := none, ended := h.running.toList ++ h.ended }

/-- A kernel that the daemon has not run under yet. -/
structure Fresh (h : Host) : Prop where
  idle : h.running = none
  none_ended : h.ended = []
  older : ∀ id, h.disk = some id → id < h.session

inductive Run (h : Host) : Host → Prop where
  | refl : Run h h
  | step {now next : Host} (before : Run h now) (step : Step now next) : Run h next

/-- The context was cancelled under the boot. -/
def Cancelled (past : Past Op Op.Ans) : Prop :=
  (⟨.ask .ctxErr, true⟩ : Act Op Op.Ans) ∈ past ∨
    ∃ why seconds, (⟨.ask (.sleep why seconds), false⟩ : Act Op Op.Ans) ∈ past

/-- `IsFirstStartAfterBoot` has answered. -/
def Told (p : Process) (first : Bool) : Prop := (⟨asksFirstStart, first⟩ : Act Op Op.Ans) ∈ p.past

/-- `boot` has run to its end. -/
def RanBoot (p : Process) : Prop := (∃ before, boot.Path before () p.past) ∧ ¬ Cancelled p.past

/-- Between two pasts every enabled service that is not user-stopped, and whose dependencies and
mounts boot finds satisfied, is started. -/
def Attempts (before past : Past Op Op.Ans) (cfg : Config) : Prop :=
  ∀ svc ∈ cfg.services, svc.enabled = true → ¬ Within before past (isUserStopped svc.unit) true →
    (∀ error, ¬ Within before past (bootChecks svc) (some error)) →
    (∀ dep, ¬ Within before past (inactiveDependency svc) (some dep)) →
    ∃ error, Within before past (startUnit svc.unit) error

section Boot
variable {before past : Past Op Op.Ans} {svc : Service}

theorem Cancelled.mono {later : Past Op Op.Ans} (h : Cancelled past) (grown : past <:+ later) : Cancelled later := by
  rcases h with done | ⟨why, seconds, broken⟩
  · exact .inl (grown.subset done)
  · exact .inr ⟨why, seconds, grown.subset broken⟩

theorem bootable_attempts {services acc enabled : List Service}
    (h : (fold (fun enabled svc => if !svc.enabled then return enabled else do
      let stopped ← isUserStopped svc.unit
      return if stopped then enabled else enabled ++ [svc]) acc services).Path before enabled past) :
    (∀ svc ∈ acc, svc ∈ enabled) ∧
      ∀ svc ∈ services, svc.enabled = true → svc ∈ enabled ∨ Within before past (isUserStopped svc.unit) true := by
  induction services generalizing acc before with
  | nil =>
    obtain ⟨rfl, _⟩ := h
    exact ⟨fun svc member => member, fun svc member => (nomatch member)⟩
  | cons svc services ih =>
    obtain ⟨acc', mid, one, rest⟩ := path_bind.mp h
    obtain ⟨kept, others⟩ := ih rest
    have grown := one.suffix
    have later : ∀ s ∈ services, s.enabled = true → s ∈ enabled ∨ Within before past (isUserStopped s.unit) true := by
      intro s member on
      rcases others s member on with inside | stopped
      · exact .inl inside
      · exact .inr (stopped.widen grown (List.suffix_refl _))
    dsimp only at one
    split at one
    · rename_i off
      obtain ⟨rfl, _⟩ := one
      refine ⟨kept, fun s member on => ?_⟩
      rcases List.mem_cons.mp member with rfl | member
      · rw [on] at off
        cases off
      · exact later s member on
    · obtain ⟨stopped, mid', read, same⟩ := path_bind.mp one
      obtain ⟨rfl, rfl⟩ := same
      cases stopped with
      | true =>
        refine ⟨kept, fun s member on => ?_⟩
        rcases List.mem_cons.mp member with rfl | member
        · exact .inr (read.within.widen (List.suffix_refl _) rest.suffix)
        · exact later s member on
      | false =>
        refine ⟨fun s member => kept s (List.mem_append_left _ member), fun s member on => ?_⟩
        rcases List.mem_cons.mp member with rfl | member
        · exact .inl (kept s (List.mem_append_right _ (List.mem_singleton_self _)))
        · exact later s member on

theorem bootService_attempts (h : (bootService svc).Path before none past) :
    (∃ error, Within before past (bootChecks svc) (some error)) ∨
      (∃ dep, Within before past (inactiveDependency svc) (some dep)) ∨
      ∃ error, Within before past (startUnit svc.unit) error := by
  unfold bootService at h
  obtain ⟨cancelled, afterErr, asked, h⟩ := path_bind.mp h
  split at h
  · exact nomatch h.1
  obtain ⟨error, afterChecks, checks, h⟩ := path_bind.mp h
  have begun := asked.suffix
  split at h
  · rename_i failed
    obtain ⟨e, rfl⟩ := Option.isSome_iff_exists.mp failed
    exact .inl ⟨e, checks.within.widen begun h.suffix⟩
  obtain ⟨fired, afterDelay, slept, h⟩ := path_bind.mp h
  split at h
  · exact nomatch h.1
  obtain ⟨inactive, afterDeps, deps, h⟩ := path_bind.mp h
  have ready := (begun.trans checks.suffix).trans slept.suffix
  obtain ⟨_, afterStart, starts, goesOn⟩ := path_bind.mp h
  cases inactive with
  | some dep => exact .inr (.inl ⟨dep, deps.within.widen ready (starts.suffix.trans goesOn.suffix)⟩)
  | none =>
    obtain ⟨error, afterUnit, unit, rest⟩ := path_bind.mp starts
    exact .inr (.inr ⟨error, unit.within.widen (ready.trans deps.suffix) (rest.suffix.trans goesOn.suffix)⟩)

theorem bootService_cancelled (h : (bootService svc).Path before (some ()) past) : Cancelled past := by
  unfold bootService at h
  obtain ⟨cancelled, afterErr, asked, h⟩ := path_bind.mp h
  split at h
  · rename_i ended
    subst ended
    obtain ⟨_, rfl⟩ := h
    obtain rfl := path_perform.mp asked
    exact .inl List.mem_cons_self
  obtain ⟨error, afterChecks, checks, h⟩ := path_bind.mp h
  split at h
  · obtain ⟨_, _, _, ends_⟩ := path_bind.mp h
    exact nomatch ends_.1
  obtain ⟨fired, afterDelay, slept, h⟩ := path_bind.mp h
  split at h
  · rename_i broken
    obtain rfl : fired = false := by simpa using broken
    obtain ⟨_, rfl⟩ := h
    unfold delay at slept
    split at slept
    · obtain rfl := path_perform.mp slept
      exact .inr ⟨_, _, List.mem_cons_self⟩
    · exact nomatch slept.1
  obtain ⟨_, _, _, h⟩ := path_bind.mp h
  obtain ⟨_, _, _, h⟩ := path_bind.mp h
  obtain ⟨_, _, _, h⟩ := path_bind.mp h
  exact nomatch h.1

/-- A boot that ends by itself attempts what it has to. -/
theorem boot_attempts (h : boot.Path before () past) (calm : ¬ Cancelled past) :
    ∃ cfg, (⟨.config, cfg⟩ : Act Op Op.Ans) ∈ past ∧ Attempts before past cfg := by
  obtain ⟨cfg, afterRead, read, h⟩ := path_bind.mp h
  obtain ⟨enabled, afterFilter, filter, h⟩ := path_bind.mp h
  obtain ⟨ordered, afterSort, sort, h⟩ := path_bind.mp h
  obtain ⟨r, mid, rounds, h⟩ := path_bind.mp h
  obtain ⟨_, rfl⟩ := h
  have readGrown := read.suffix
  have filterGrown := filter.suffix
  have sortGrown := sort.suffix
  have roundsGrown := rounds.suffix
  obtain ⟨all, stopped⟩ := path_firstSome rounds
  have done : r = none := by
    cases r with
    | none => rfl
    | some u =>
      obtain ⟨svc, _, start, stop, _, path, ends_⟩ := stopped u rfl
      exact absurd ((bootService_cancelled path).mono ends_) calm
  refine ⟨cfg, ?_, fun svc member on awake satisfied active => ?_⟩
  · obtain rfl := path_perform.mp read
    exact ((filterGrown.trans sortGrown).trans roundsGrown).subset List.mem_cons_self
  · rcases (bootable_attempts filter).2 svc member on with inside | asleep
    · have round := all done svc (ordered.perm.mem_iff.mpr inside)
      obtain ⟨start, stop, begins, path, ends_⟩ := round
      have since := ((readGrown.trans filterGrown).trans sortGrown).trans begins
      rcases bootService_attempts path with ⟨e, unmet⟩ | ⟨dep, unmet⟩ | ⟨e, starts⟩
      · exact absurd (unmet.widen since ends_) (satisfied e)
      · exact absurd (unmet.widen since ends_) (active dep)
      · exact ⟨e, starts.widen since ends_⟩
    · exact absurd (asleep.widen readGrown (sortGrown.trans roundsGrown)) awake

end Boot

/-! ### One question -/

section Question
variable {svc : Service} {unit : String}

/-- Not the question for the first start. -/
def Other (op : Op) : Prop := op ≠ asksFirstStart

theorem ask_other {q : Query} (other : q ≠ .firstStartAfterBoot) : (ask q).Uses Other :=
  .perform fun same => other (Op.ask.inj same)

theorem checkConstraints_other : (checkConstraints svc).Uses Other := by
  refine .firstSome fun mnt => .bind (ask_other ?_) fun _ => .done _
  simp

theorem inactiveDependency_other : (inactiveDependency svc).Uses Other := by
  refine .firstSome fun dep => .bind (ask_other ?_) fun _ => .done _
  simp

theorem pollActive_other (polls : Nat) : (pollActive unit polls).Uses Other := by
  induction polls with
  | zero => exact .done _
  | succ polls ih =>
    refine .bind (ask_other (by simp)) fun active => ?_
    split
    · exact .done _
    refine .bind (ask_other (by simp)) fun late => ?_
    split
    · exact .done _
    refine .bind (ask_other (by simp)) fun fired => ?_
    split
    · exact ih
    · exact .done _

theorem bootChecks_other : (bootChecks svc).Uses Other := by
  refine .bind (.firstSome fun dep => pollActive_other _) fun waiting => ?_
  split
  · exact .done _
  refine .bind inactiveDependency_other fun inactive => ?_
  split
  · exact .done _
  · exact checkConstraints_other

theorem startUnit_other : (startUnit unit).Uses Other := by
  refine .bind (.perform ?_) fun _ => .bind (.perform ?_) fun _ =>
    .bind (.bind (.perform ?_) fun _ => .perform ?_) fun _ =>
    .bind (.perform ?_) fun _ => .done _
  all_goals exact fun same => nomatch same

theorem stopUnit_other : (stopUnit unit).Uses Other := by
  refine .bind (.perform ?_) fun _ => .bind (.bind (.perform ?_) fun _ => .perform ?_) fun exit => .bind ?_ fun _ =>
    .bind (.perform ?_) fun _ => .bind (.perform ?_) fun _ => .done _
  rotate_left 3
  · split
    · refine .bind (ask_other (by simp)) fun state => ?_
      split
      · exact .bind (ask_other (by simp)) fun _ => .done _
      · exact .done _
    · exact .done _
  all_goals exact fun same => nomatch same

theorem verifyRunningServices_other : verifyRunningServices.Uses Other := by
  refine .bind (.perform fun same => nomatch same) fun cfg => .fold fun stopped svc => ?_
  unfold verifyService
  split
  · exact .done _
  refine .bind (ask_other (by simp)) fun active => ?_
  split
  · exact .done _
  refine .bind checkConstraints_other fun unmet => ?_
  split
  · exact .done _
  · exact .bind stopUnit_other fun _ => .done _

theorem bootService_other : (bootService svc).Uses Other := by
  refine .bind (ask_other (by simp)) fun cancelled => ?_
  split
  · exact .done _
  refine .bind bootChecks_other fun error => ?_
  split
  · exact .bind (.perform fun same => nomatch same) fun _ => .done _
  refine .bind ?_ fun fired => ?_
  · unfold delay
    split
    · exact ask_other (by simp)
    · exact .done _
  split
  · exact .done _
  refine .bind inactiveDependency_other fun inactive => .bind ?_ fun _ =>
    .bind (.perform fun same => nomatch same) fun _ => .done _
  split
  · exact .done _
  · exact .bind startUnit_other fun _ => .done _

theorem boot_other : boot.Uses Other := by
  refine .bind (.perform fun same => nomatch same) fun cfg => .bind (.fold fun enabled svc => ?_) fun enabled =>
    .bind (ask_other (by simp)) fun ordered => .bind (.firstSome fun svc => bootService_other) fun _ => .done _
  split
  · exact .done _
  · exact .bind (.perform fun same => nomatch same) fun _ => .done _

/-- The question is asked once. -/
def once : Contract Op Op.Ans where
  allow past op := op = asksFirstStart → ∀ act ∈ past, act.1 ≠ asksFirstStart

theorem startup_once : startup.Meets once [] fun _ _ => True := by
  unfold startup
  rw [meets_bind]
  have verified : verifyRunningServices.Meets once [] fun _ past => ∀ act ∈ past, act.1 ≠ asksFirstStart := by
    refine verifyRunningServices_other.meets (fun past => ∀ act ∈ past, act.1 ≠ asksFirstStart) ?_ ?_ fun _ none_ =>
      nomatch none_
    · intro past op other _ same
      exact absurd same other
    · intro past op ans other before _ act member
      rcases List.mem_cons.mp member with rfl | member
      · exact other
      · exact before act member
  refine verified.mono fun _ past unasked => ?_
  rw [meets_bind, meets_perform]
  refine ⟨fun _ => unasked, fun isFirst _ => ?_⟩
  split
  · refine boot_other.meets (fun _ => True) ?_ (fun _ _ _ _ _ _ => trivial) trivial
    intro past op other _ same
    exact absurd same other
  · trivial

end Question

/-! ### Runs -/

section Runs
variable {h s : Host} {p : Process}

/-- In the kernel session one of the processes has run its boot to the end. -/
def Booted (session : Nat) (processes : List Process) : Prop := ∃ q ∈ processes, q.session = session ∧ RanBoot q

/-- In the kernel session one of the processes was told that it is the first. -/
def Claimed (session : Nat) (processes : List Process) : Prop := ∃ q ∈ processes, q.session = session ∧ Told q true

/-- What holds of a running process. -/
structure Sound (kernel : Nat) (ended : List Process) (p : Process) : Prop where
  session : p.session = kernel
  leads : Leads startup [] p.code p.past
  older : ∀ id, p.bootID = some id → id ≤ kernel
  known : p.bootID = some kernel → Claimed kernel (p :: ended)
  stamped : Claimed kernel (p :: ended) → p.bootID = some kernel
  first : Told p true → ¬ Claimed kernel ended
  later : Told p false → Claimed kernel ended

/-- The kernel session's boot id is in the file exactly when a process was told that it is the first. -/
structure Kept (s : Host) : Prop where
  older : ∀ id, s.disk = some id → id ≤ s.session
  stamp : s.disk = some s.session ↔ Claimed s.session (s.running.toList ++ s.ended)
  running : ∀ p, s.running = some p → Sound s.session s.ended p
  ended : ∀ q ∈ s.ended, q.session ≤ s.session

/-- The process has not ended between its stamp and the end of its boot. -/
def Unbroken (p : Process) : Prop := Told p true → RanBoot p

/-- The last that the process has done is to be told that it comes after another. -/
def Skipped (p : Process) : Prop := p.past.head? = some ⟨asksFirstStart, false⟩

theorem kept_fresh (fresh : Fresh h) : Kept h where
  older id at_ := Nat.le_of_lt (fresh.older id at_)
  stamp := by
    refine iff_of_false (fun at_ => absurd (fresh.older _ at_) (Nat.lt_irrefl _)) ?_
    rintro ⟨q, member, _⟩
    rw [fresh.idle, fresh.none_ended] at member
    cases member
  running p runs := by
    rw [fresh.idle] at runs
    cases runs
  ended q member := by
    rw [fresh.none_ended] at member
    cases member

/-- A process that is about to ask has not been told yet. -/
theorem untold {k : Bool → Prog Unit} (sound : Sound s.session s.ended p) (at_ : p.code = .call asksFirstStart k)
    (first : Bool) :
    ¬ Told p first := by
  intro told
  have asks : once.allow p.past asksFirstStart := by
    have meets := sound.leads.meets (fun _ _ _ => trivial) startup_once
    rw [at_] at meets
    exact meets.1
  exact asks rfl _ told rfl

theorem claimed_cons {session : Nat} {processes : List Process} :
    Claimed session (p :: processes) ↔ (p.session = session ∧ Told p true) ∨ Claimed session processes :=
  List.exists_mem_cons_iff (fun q : Process => q.session = session ∧ Told q true) p processes

/-- Whoever asks and finds the stamp comes after one that was told that it is the first. -/
theorem claimed_of_stamp {k : Bool → Prog Unit} (kept : Kept s) (runs : s.running = some p)
    (at_ : p.code = .call asksFirstStart k) (stamp : p.bootID = some s.session) : Claimed s.session s.ended := by
  have sound := kept.running p runs
  rcases claimed_cons.mp (sound.known stamp) with own | others
  · exact absurd own.2 (untold sound at_ true)
  · exact others

theorem told_next {op : Op} {ans : op.Ans} {code : Prog Unit} {first : Bool} (other : op ≠ asksFirstStart) :
    Told (p.next op ans code) first ↔ Told p first := by
  unfold Told Process.next
  rw [List.mem_cons]
  refine or_iff_right fun same => other ?_
  exact (congrArg Sigma.fst same).symm

theorem claimed_next {op : Op} {ans : op.Ans} {code : Prog Unit} {session : Nat} {processes : List Process}
    (other : op ≠ asksFirstStart) : Claimed session (p.next op ans code :: processes) ↔
    Claimed session (p :: processes) := by
  rw [claimed_cons, claimed_cons, told_next other]
  rfl

/-- A process that acts stays sound; the others do not change. -/
theorem sound_act {op : Op} {ans : op.Ans} {k : op.Ans → Prog Unit} (sound : Sound s.session s.ended p)
    (at_ : p.code = .call op k) (other : op ≠ asksFirstStart) : Sound s.session s.ended (p.next op ans (k ans)) := by
  have leads := sound.leads
  rw [at_] at leads
  exact {
    session := sound.session, leads := leads.step ans, older := sound.older
    known := fun stamp => (claimed_next other).mpr (sound.known stamp)
    stamped := fun claimed => sound.stamped ((claimed_next other).mp claimed)
    first := fun told => sound.first ((told_next other).mp told)
    later := fun told => sound.later ((told_next other).mp told) }

theorem kept_step {next : Host} (kept : Kept s) (step : Step s next) : Kept next := by
  cases step with
  | start idle =>
    have stamp := kept.stamp
    rw [idle] at stamp
    have untold : ∀ {code : Prog Unit}, Claimed s.session
        ({ session := s.session, bootID := s.disk, past := [], code := code } :: s.ended) ↔ Claimed s.session s.ended :=
      claimed_cons.trans (or_iff_right fun own => nomatch own.2)
    refine { older := kept.older, stamp := stamp.trans untold.symm, running := ?_, ended := kept.ended }
    intro p runs
    obtain rfl := Option.some.inj runs
    exact {
      session := rfl, leads := .start, older := kept.older
      known := fun at_ => untold.mpr (stamp.mp at_)
      stamped := fun claimed => stamp.mpr (untold.mp claimed)
      first := fun told => nomatch told
      later := fun told => nomatch told }
  | @act p op k runs at_ other ans =>
    have stamp := kept.stamp
    rw [runs] at stamp
    refine { older := kept.older, stamp := stamp.trans (claimed_next other).symm, running := ?_, ended := kept.ended }
    intro p' runs'
    obtain rfl := Option.some.inj runs'
    exact sound_act (kept.running p runs) at_ other
  | @isFirst p k runs at_ first answer =>
    have sound := kept.running p runs
    have leads := sound.leads
    rw [at_] at leads
    have others : first = false → Claimed s.session s.ended := by
      intro isLater
      exact claimed_of_stamp kept runs at_ (by simpa [isLater] using answer)
    have claimed : ∀ p' : Process, p'.session = p.session → p'.past = ⟨asksFirstStart, first⟩ :: p.past →
        Claimed s.session (p' :: s.ended) := by
      intro p' session past
      rw [claimed_cons]
      cases first with
      | true =>
        refine .inl ⟨session.trans sound.session, ?_⟩
        unfold Told
        rw [past]
        exact List.mem_cons_self
      | false => exact .inr (others rfl)
    refine { older := ?_, stamp := iff_of_true rfl (claimed _ rfl rfl), running := ?_, ended := kept.ended }
    · intro id same
      obtain rfl := Option.some.inj same
      exact Nat.le_refl _
    · intro p' runs'
      obtain rfl := Option.some.inj runs'
      have further : Leads startup [] (k first) (⟨asksFirstStart, first⟩ :: p.past) := .step first leads
      refine {
        session := sound.session, leads := further, older := ?_, known := ?_, stamped := fun _ => rfl, first :=
          ?_, later := ?_ }
      · intro id same
        obtain rfl := Option.some.inj same
        exact Nat.le_refl _
      · intro _
        exact claimed _ rfl rfl
      · intro told others
        rcases List.mem_cons.mp told with same | told
        · have isFirst : true = first := eq_of_heq (Sigma.mk.inj same).2
          have unstamped : p.bootID ≠ some s.session := by simpa [← isFirst] using answer
          exact unstamped (sound.stamped (claimed_cons.mpr (.inr others)))
        · exact absurd told (untold sound at_ true)
      · intro told
        rcases List.mem_cons.mp told with same | told
        · have isLater : false = first := eq_of_heq (Sigma.mk.inj same).2
          exact others isLater.symm
        · exact absurd told (untold sound at_ false)
  | @persist p runs =>
    have sound := kept.running p runs
    refine { older := sound.older, stamp := ?_, running := kept.running, ended := kept.ended }
    rw [runs]
    exact ⟨sound.known, sound.stamped⟩
  | @ends p runs =>
    have stamp := kept.stamp
    rw [runs] at stamp
    refine { older := kept.older, stamp := stamp, running := fun p' runs' => (nomatch runs'), ended := ?_ }
    intro q member
    rcases List.mem_cons.mp member with rfl | member
    · exact Nat.le_of_eq (kept.running q runs).session
    · exact kept.ended q member
  | reboot =>
    have ended : ∀ q ∈ s.running.toList ++ s.ended, q.session ≤ s.session := by
      intro q member
      rcases List.mem_append.mp member with running | member
      · exact Nat.le_of_eq (kept.running q (Option.mem_toList.mp running)).session
      · exact kept.ended q member
    refine { older := ?_, stamp := ?_, running := fun p' runs' => (nomatch runs'), ended := ?_ }
    · intro id at_
      exact Nat.le_succ_of_le (kept.older id at_)
    · -- Neither the file nor a process knows the new session.
      refine iff_of_false (fun at_ => Nat.not_succ_le_self _ (kept.older _ at_)) ?_
      rintro ⟨q, member, session, _⟩
      have old := ended q member
      rw [session] at old
      exact Nat.not_succ_le_self _ old
    · intro q member
      exact Nat.le_succ_of_le (ended q member)

theorem run_kept (fresh : Fresh h) (run : Run h s) : Kept s := by
  induction run with
  | refl => exact kept_fresh fresh
  | step before step ih => exact kept_step ih step

theorem Claimed.booted {session : Nat} {processes : List Process} (claimed : Claimed session processes)
    (unbroken : ∀ q ∈ processes, q.session = session → Unbroken q) : Booted session processes := by
  obtain ⟨q, member, same, told⟩ := claimed
  exact ⟨q, member, same, unbroken q member same told⟩

/-- A boot goroutine that has ended was told that it is the first, and has gone through boot, or that it is not. -/
theorem told_of_done (kept : Kept s) (runs : s.running = some p) (done : p.code = .done ()) :
    (Told p true ∧ ∃ before, boot.Path before () p.past) ∨ (Told p false ∧ Skipped p) := by
  have leads := (kept.running p runs).leads
  rw [done] at leads
  have path : startup.Path [] () p.past := leads.path ⟨rfl, rfl⟩
  obtain ⟨_, verified, _, rest⟩ := path_bind.mp path
  obtain ⟨first, asked, ask, rest⟩ := path_bind.mp rest
  obtain rfl := path_perform.mp ask
  cases first with
  | true => exact .inl ⟨rest.suffix.subset List.mem_cons_self, _, rest⟩
  | false =>
    obtain ⟨_, same⟩ := rest
    unfold Told Skipped
    rw [same]
    exact .inr ⟨List.mem_cons_self, rfl⟩

/-- A boot goroutine that has ended by itself has booted, or comes after one that has. -/
theorem booted_of_done (kept : Kept s) (runs : s.running = some p) (done : p.code = .done ())
    (calm : ¬ Cancelled p.past)
    (unbroken : ∀ q ∈ s.ended, q.session = s.session → Unbroken q) : Booted s.session (p :: s.ended) := by
  have sound := kept.running p runs
  rcases told_of_done kept runs done with ⟨_, ran⟩ | ⟨told, _⟩
  · exact ⟨p, List.mem_cons_self, sound.session, ran, calm⟩
  · obtain ⟨q, member, booted⟩ := (sound.later told).booted unbroken
    exact ⟨q, List.mem_cons_of_mem _ member, booted⟩

/-- Whoever is not the first of the kernel session comes after a boot that has ended, and behind every boot goroutine
that has ended all services are attempted. -/
def BootsOnce (s : Host) (p : Process) : Prop :=
  (∀ k, p.code = .call asksFirstStart k → p.bootID = some s.session → Booted s.session s.ended) ∧
  (p.code = .done () → ¬ Cancelled p.past → ∃ q ∈ p :: s.ended, q.session = s.session ∧ RanBoot q ∧
    ∃ before cfg, boot.Path before () q.past ∧ (⟨.config, cfg⟩ : Act Op Op.Ans) ∈ q.past ∧ Attempts before q.past cfg)

/-- Behind one that was told that it is the first, and has ended, no process is told so, or boots. -/
def BootsNoMore (s : Host) (p : Process) : Prop :=
  Claimed s.session s.ended → ¬ Told p true ∧ (∀ k, p.code = .call asksFirstStart k → p.bootID = some s.session) ∧
    (p.code = .done () → Skipped p)

theorem boots_once (kept : Kept s) (runs : s.running = some p)
    (unbroken : ∀ q ∈ s.ended, q.session = s.session → Unbroken q) :
    BootsOnce s p := by
  refine ⟨fun k at_ stamp => (claimed_of_stamp kept runs at_ stamp).booted unbroken, fun done calm => ?_⟩
  obtain ⟨q, member, session, ⟨before, path⟩, whole⟩ := booted_of_done kept runs done calm unbroken
  obtain ⟨cfg, read, attempts⟩ := boot_attempts path whole
  exact ⟨q, member, session, ⟨⟨before, path⟩, whole⟩, before, cfg, path, read, attempts⟩

theorem boots_no_more (kept : Kept s) (runs : s.running = some p) : BootsNoMore s p := by
  intro claimed
  have sound := kept.running p runs
  have untold : ¬ Told p true := fun told => sound.first told claimed
  refine ⟨untold, fun _ _ => sound.stamped (claimed_cons.mpr (.inr claimed)), fun done => ?_⟩
  rcases told_of_done kept runs done with ⟨told, _⟩ | ⟨_, skipped⟩
  · exact absurd told untold
  · exact skipped

/-- Only a boot of the current kernel session that was cut short leaves services unattempted in it; then nobody boots
until the next kernel session. -/
theorem booted_before (fresh : Fresh h) (run : Run h s) (runs : s.running = some p) :
    ((∀ q ∈ s.ended, q.session = s.session → Unbroken q) → BootsOnce s p) ∧ BootsNoMore s p :=
  have kept := run_kept fresh run
  ⟨boots_once kept runs, boots_no_more kept runs⟩

/-! ### A life that is cut short -/

/-- The running process acts, as the world outside answers. -/
def Host.go (o : Outside) (w : World) (s : Host) : Host :=
  match s.running with
  | none => s
  | some p => match p.code with
    | .done _ => s
    | .call (.ask .firstStartAfterBoot) k =>
      let first := decide (p.bootID ≠ some s.session)
      { s with
        disk := some s.session
        running := some { p.next asksFirstStart first (k first) with bootID := some s.session } }
    | .call op k => { s with running := some (p.next op (o.answer w op) (k (o.answer w op))) }

def Host.goes (o : Outside) (w : World) : Nat → Host → Host
  | 0, s => s
  | n + 1, s => (s.go o w).goes o w n

theorem go_run (o : Outside) (w : World) (run : Run h s) : Run h (s.go o w) := by
  unfold Host.go
  split
  · exact run
  rename_i p runs
  split
  · exact run
  · rename_i k at_
    exact .step run (.isFirst runs at_ _ rfl)
  · rename_i op k other at_
    refine .step run (.act runs at_ ?_ _)
    intro same
    subst same
    exact other k rfl HEq.rfl

theorem goes_run (o : Outside) (w : World) (n : Nat) (run : Run h s) : Run h (s.goes o w n) := by
  induction n generalizing s with
  | zero => exact run
  | succ n ih => exact ih (go_run o w run)

def fires : Act Op Op.Ans → Bool
  | ⟨.ask .ctxErr, cancelled⟩ => !cancelled
  | ⟨.ask (.sleep _ _), fired⟩ => fired
  | _ => true

theorem not_cancelled {past : Past Op Op.Ans} (h : past.all fires = true) : ¬ Cancelled past := by
  rw [List.all_eq_true] at h
  rintro (cancelled | ⟨why, seconds, broken⟩)
  · exact nomatch h _ cancelled
  · exact nomatch h _ broken

/-- The next life of the daemon. -/
def Host.restarted (s : Host) : Host :=
  { s with
    running := some { session := s.session, bootID := s.disk, past := [], code := startup }
    ended := s.running.toList ++ s.ended }

theorem restarted_run (run : Run h s) : Run h s.restarted := by
  unfold Host.restarted
  cases runs : s.running with
  | none => exact .step run (.start runs)
  | some p => exact .step (.step run (.ends runs)) (.start rfl)

def sorts : Act Op Op.Ans → Bool
  | ⟨.ask (.sortByOrder _), _⟩ => true
  | _ => false

theorem RanBoot.sorted (h : RanBoot p) : p.past.any sorts = true := by
  obtain ⟨⟨before, path⟩, _⟩ := h
  obtain ⟨cfg, _, _, path⟩ := path_bind.mp path
  obtain ⟨enabled, _, _, path⟩ := path_bind.mp path
  obtain ⟨ordered, _, sort, path⟩ := path_bind.mp path
  obtain rfl := path_perform.mp sort
  exact List.any_eq_true.mpr ⟨_, path.suffix.subset List.mem_cons_self, rfl⟩

end Runs

def service : Service := { unit := "a.service", enabled := true, restart := "no" }

def world : World := { cfg := { version := 1, services := [service] } }

def host : Host := { session := 1, disk := some 0 }

theorem host_fresh : Fresh host where
  idle := rfl
  none_ended := rfl
  older id at_ := by
    obtain rfl := Option.some.inj at_
    decide

/-- The daemon is restarted behind its boot. -/
theorem booted_before_restarted : ∃ s p, s.running = some p ∧ p.code = .done () ∧ s.ended.length = 1 ∧ Run host s ∧
    BootsOnce s p ∧ Skipped p := by
  have first : Run host (host.restarted.goes {} world 13) := goes_run _ _ _ (restarted_run .refl)
  have booted := booted_of_done (run_kept host_fresh first) rfl rfl (not_cancelled (by decide)) fun _ member =>
    nomatch member
  obtain ⟨q, member, session, whole⟩ := booted
  obtain rfl := List.mem_singleton.mp member
  have second : Run host ((host.restarted.goes {} world 13).restarted.goes {} world 3) :=
    goes_run _ _ _ (restarted_run first)
  obtain ⟨once_, noMore⟩ := booted_before host_fresh second rfl
  have unbroken : ∀ q' ∈ ((host.restarted.goes {} world 13).restarted.goes {} world 3).ended,
      q'.session = ((host.restarted.goes {} world 13).restarted.goes {} world 3).session → Unbroken q' := by
    intro q' member _ _
    obtain rfl := List.mem_singleton.mp member
    exact whole
  have claimed := (run_kept host_fresh first).stamp.mp rfl
  exact ⟨_, _, rfl, rfl, rfl, second, once_ unbroken, (noMore claimed).2.2 rfl⟩

/-- The daemon crashes behind its stamp, and the next process does not boot. -/
theorem boot_cut_short : ¬ ∀ (h s : Host) (p : Process), Fresh h → Run h s → s.running = some p → BootsOnce s p := by
  intro claim
  have run : Run host ((host.restarted.goes {} world 3).restarted.goes {} world 3) :=
    goes_run _ _ _ (restarted_run (goes_run _ _ _ (restarted_run .refl)))
  obtain ⟨q, member, _, booted, _⟩ := (claim host _ _ host_fresh run rfl).2 rfl (not_cancelled (by decide))
  have sorted := booted.sorted
  rcases List.mem_cons.mp member with rfl | member
  · revert sorted
    decide
  · obtain rfl := List.mem_singleton.mp member
    revert sorted
    decide

end KernelSession
end HomelabDaemon
