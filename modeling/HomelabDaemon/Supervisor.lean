import HomelabDaemon.Systemctl

/-!
# Boot and monitor

The goroutines that start services on their own: the ordered boot, the monitor loop and the
restarts that its ticks spawn. A loop over `cfg.Services` reads the list once.
-/

namespace HomelabDaemon
open Concurrency Program

/-- The enabled services that are not user-stopped. -/
def bootable (services : List Service) : Prog (List Service) :=
  fold (fun enabled svc =>
    if !svc.enabled then return enabled else do
      let stopped ← isUserStopped svc.unit
      return if stopped then enabled else enabled ++ [svc]) [] services

/-- What boot asks before the delay: dependencies waited for and still active, mounts present. -/
def bootChecks (svc : Service) : Prog (Option String) := do
  let waiting ← firstSome (waitActive · 120) svc.dependsOn
  if waiting.isSome then return waiting else do
    let inactive ← inactiveDependency svc
    if inactive.isSome then return inactive else checkConstraints svc

/-- Waits `seconds`, when positive. False: the context was cancelled. -/
def delay (why : Wait) (seconds : Int) : Prog Bool :=
  if seconds > 0 then ask (.sleep why seconds) else return true

/-- One round of boot's loop; `some ()` makes boot return. -/
def bootService (svc : Service) : Prog (Option Unit) := do
  let cancelled ← ask .ctxErr
  if cancelled then return some () else do
    let error ← bootChecks svc
    if error.isSome then do
      mark (.next svc)
      return none
    else do
      let fired ← delay .bootDelay svc.bootDelay
      if !fired then return some () else do
        let inactive ← inactiveDependency svc
        (if inactive.isSome then pure () else do
          let _ ← startUnit svc.unit
          return ())
        mark (.next svc)
        return none

/-- The ordered startup sequence. -/
def boot : Prog Unit := do
  let cfg ← readConfig
  let enabled ← bootable cfg.services
  let ordered ← ask (.sortByOrder enabled)
  let _ ← firstSome bootService ordered.list
  return ()

/-- The boot goroutine of `main`, after the pools are mounted. -/
def startup : Prog Unit := do
  let _ ← verifyRunningServices
  let first ← ask .firstStartAfterBoot
  if first then boot else return ()

/-- The start did not hold: count it. -/
def failed (svc : Service) : Prog Unit := do
  let _ ← perform (Op.recordFailure svc.unit)
  return ()

/-- After a start that returned no error: wait 10 s, then judge it. -/
def judge (svc : Service) : Prog Unit := do
  let fired ← ask (.sleep .settle 10)
  if !fired then return () else do
    let active ← isActive svc.unit
    if !active then failed svc else perform (Op.breakerReset svc.unit)

def restart (svc : Service) : Prog Unit := do
  let inactive ← inactiveDependency svc
  if inactive.isSome then return () else do
    let fired ← delay .restartDelay svc.restartDelay
    if !fired then return () else do
      let inactive ← inactiveDependency svc
      if inactive.isSome then return () else do
        let error ← startUnit svc.unit
        if error.isSome then failed svc else judge svc

/-- The goroutine that a tick spawns. -/
def restartGoroutine (svc : Service) : Prog Unit := do
  restart svc
  perform (Op.inFlightDelete svc.unit)

/-! ### Monitor -/

def exitedWithFailure (unit : String) : Prog Bool := do
  let line ← ask (.execMainStatus unit)
  return match line with
    | none => false
    | some line => line ≠ "ExecMainStatus=0" ∧ line ≠ "ExecMainStatus="

def shouldRestart (svc : Service) : Prog Bool :=
  if svc.restart = "always" then return true
  else if svc.restart = "unless-stopped" then do
    let stopped ← isUserStopped svc.unit
    return !stopped
  else if svc.restart = "on-failure" then do
    let stopped ← isUserStopped svc.unit
    if stopped then return false else exitedWithFailure svc.unit
  else return false

/-- Whether a tick looks after the service. -/
def Service.supervised (svc : Service) : Bool :=
  svc.enabled && !(svc.restart == "" || svc.restart == "no")

/-- The conditions of a tick for a restart, in their order. -/
def restartDue (svc : Service) : Prog Bool := do
  let wanted ← shouldRestart svc
  if !wanted then return false else do
    let isOpen ← perform (Op.breakerIsOpen svc.unit)
    if isOpen then return false else do
      let unmet ← checkConstraints svc
      if unmet.isSome then return false else do
        let loaded ← perform (Op.inFlightLoadOrStore svc.unit)
        return !loaded

/-- The last loop's body of a tick. -/
def supervise (activeStates : String → Bool) (svc : Service) : Prog Unit :=
  if !svc.supervised then return ()
  else if activeStates svc.unit then perform (Op.breakerReset svc.unit)
  else do
    let due ← restartDue svc
    if due then perform (Op.goRestart svc) else return ()

/-- The failure counts of the last tick, updated; a count that rose is mailed. -/
def notifyFailure (prevFailures : String → Nat) (svc : Service) : Prog (String → Nat) :=
  if !svc.enabled then return prevFailures else do
    let b ← perform (Op.breakerState svc.unit)
    (if b.consecutive > prevFailures svc.unit ∧ b.consecutive > 0 then do
      let enabled ← ask .notifyEnabled
      if enabled then do
        let name := trimSuffix (trimPrefix svc.unit "podman-") ".service"
        let mail ← ask (.serviceFailed svc.unit name (toString b.consecutive ++ " consecutive failures"))
        let _ ← ask (.sendWithCooldown "service-failure" mail.1 mail.2)
        return ()
      else return ()
    else pure ())
    return Function.update prevFailures svc.unit b.consecutive

/-- One tick of the monitor. -/
def tick (prevFailures : String → Nat) : Prog (String → Nat) := do
  let cfg ← readConfig
  let failures ← fold notifyFailure prevFailures cfg.services
  let cfg ← readConfig
  let activeStates ← isActiveMultiple ((cfg.services.filter (·.supervised)).map (·.unit))
  let cfg ← readConfig
  each (supervise activeStates) cfg.services
  return failures

/-- The first `n` rounds of the monitor loop. -/
def monitorLoop : Nat → (String → Nat) → Prog Unit
  | 0, _ => return ()
  | n + 1, prevFailures => do
    let ticked ← ask .tick
    if !ticked then return () else do
      let failures ← tick prevFailures
      monitorLoop n failures

def monitor (n : Nat) : Prog Unit := monitorLoop n fun _ => 0

theorem bootChecks_asks (svc : Service) : AsksOnly (bootChecks svc) := by
  refine .bind (.firstSome fun dep => waitActive_asks dep 120) fun waiting => ?_
  split
  · exact .done _
  · refine .bind (inactiveDependency_asks svc) fun inactive => ?_
    split
    · exact .done _
    · exact checkConstraints_asks svc

theorem delay_asks (why : Wait) (seconds : Int) : AsksOnly (delay why seconds) := by
  unfold delay
  split
  · exact ask_asks _
  · exact .done _

theorem exitedWithFailure_asks (unit : String) : AsksOnly (exitedWithFailure unit) :=
  .bind (ask_asks _) fun _ => .done _

/-- Reads without a question of policy: the mails of a tick need no more. -/
def Op.onLook : Op → Prop
  | .ask _ | .breakerState _ => True
  | _ => False

theorem notifyFailure_uses (prevFailures : String → Nat) (svc : Service) :
    (notifyFailure prevFailures svc).Uses Op.onLook := by
  unfold notifyFailure
  split
  · exact .done _
  refine .bind (.perform trivial) fun b => .bind ?_ fun _ => .done _
  split
  · refine .bind (.perform trivial) fun enabled => ?_
    split
    · exact .bind (.perform trivial) fun _ => .bind (.perform trivial) fun _ => .done _
    · exact .done _
  · exact .done _

/-- The plain operations of boot. -/
def Op.onBoot : Op → Prop
  | .ask _ | .config | .isUserStopped _ | .mark (.next _) => True
  | _ => False

/-- Code of the boot goroutine. -/
abbrev OnBoot {α : Type} (p : Prog α) : Prop := BuiltFrom (· ≠ .restart) Op.onBoot p

theorem AsksOnly.onBoot {α : Type} {p : Prog α} (h : AsksOnly p) : OnBoot p := h.built fun _ => trivial

theorem bootable_built (services : List Service) : OnBoot (bootable services) := by
  refine .fold fun enabled svc => ?_
  split
  · exact .done _
  · exact .bind (.single (.op trivial)) fun _ => .done _

theorem bootService_built (svc : Service) : OnBoot (bootService svc) := by
  refine .bind (.single (.op trivial)) fun cancelled => ?_
  split
  · exact .done _
  refine .bind (bootChecks_asks svc).onBoot fun error => ?_
  split
  · exact .bind (.single (.op trivial)) fun _ => .done _
  refine .bind (delay_asks _ _).onBoot fun fired => ?_
  split
  · exact .done _
  refine .bind (inactiveDependency_asks svc).onBoot fun inactive => .bind ?_ fun _ =>
    .bind (.single (.op trivial)) fun _ => .done _
  split
  · exact .done _
  · exact .bind (.block (.start svc.unit (by simp))) fun _ => .done _

theorem startup_built : OnBoot startup := by
  refine .bind (verifyRunningServices_built.widen (by simp) fun op looks => ?_) fun _ =>
    .bind (.single (.op trivial)) fun first => ?_
  · cases op <;> trivial
  split
  · exact .bind (.single (.op trivial)) fun cfg => .bind (bootable_built cfg.services) fun _ =>
      .bind (.single (.op trivial)) fun _ =>
      .bind (.firstSome bootService_built) fun _ => .done _
  · exact .done _

/-- The plain operations of a restart, before it frees its slot. -/
def Op.onRestart : Op → Prop
  | .ask _ | .recordFailure _ | .breakerReset _ => True
  | _ => False

abbrev OnRestart {α : Type} (p : Prog α) : Prop := BuiltFrom (· = .start) Op.onRestart p

theorem AsksOnly.onRestart {α : Type} {p : Prog α} (h : AsksOnly p) : OnRestart p := h.built fun _ => trivial

theorem failed_built (svc : Service) : OnRestart (failed svc) := .bind (.single (.op trivial)) fun _ => .done _

theorem judge_built (svc : Service) : OnRestart (judge svc) := by
  refine .bind (.single (.op trivial)) fun fired => ?_
  split
  · exact .done _
  refine .bind (.single (.op trivial)) fun active => ?_
  split
  · exact failed_built svc
  · exact .single (.op trivial)

theorem restart_built (svc : Service) : OnRestart (restart svc) := by
  refine .bind (inactiveDependency_asks svc).onRestart fun inactive => ?_
  split
  · exact .done _
  refine .bind (delay_asks _ _).onRestart fun fired => ?_
  split
  · exact .done _
  refine .bind (inactiveDependency_asks svc).onRestart fun inactive => ?_
  split
  · exact .done _
  refine .bind (.block (.start svc.unit rfl)) fun error => ?_
  split
  · exact failed_built svc
  · exact judge_built svc

/-- The operations of a tick, without those that take a slot and spawn a restart. -/
def Op.onCheck : Op → Prop
  | .ask _ | .config | .isUserStopped _ | .breakerState _ | .breakerIsOpen _ | .breakerReset _ => True
  | _ => False

def Op.onTick : Op → Prop
  | .inFlightLoadOrStore _ | .goRestart _ => True
  | op => op.onCheck

theorem onCheck_onTick {α : Type} {p : Prog α} (h : p.Uses Op.onCheck) : p.Uses Op.onTick := by
  refine h.mono fun op checks => ?_
  cases op <;> trivial

theorem AsksOnly.onCheck {α : Type} {p : Prog α} (h : AsksOnly p) : p.Uses Op.onCheck := by
  refine h.mono fun op asks => ?_
  cases op <;> trivial

theorem shouldRestart_uses (svc : Service) : (shouldRestart svc).Uses Op.onCheck := by
  unfold shouldRestart
  split
  · exact .done _
  split
  · exact .bind (.perform trivial) fun _ => .done _
  split
  · refine .bind (.perform trivial) fun stopped => ?_
    split
    · exact .done _
    · exact (exitedWithFailure_asks _).onCheck
  · exact .done _

theorem notifyFailure_onCheck (prevFailures : String → Nat) (svc : Service) :
    (notifyFailure prevFailures svc).Uses Op.onCheck := by
  refine (notifyFailure_uses prevFailures svc).mono fun op looks => ?_
  cases op <;> trivial

theorem supervise_uses (activeStates : String → Bool) (svc : Service) :
    (supervise activeStates svc).Uses Op.onTick := by
  unfold supervise
  split
  · exact .done _
  split
  · exact .perform trivial
  refine .bind (.bind (onCheck_onTick (shouldRestart_uses svc)) fun wanted => ?_) fun due => ?_
  · split
    · exact .done _
    refine .bind (.perform trivial) fun isOpen => ?_
    split
    · exact .done _
    refine .bind (onCheck_onTick (checkConstraints_asks svc).onCheck) fun unmet => ?_
    split
    · exact .done _
    exact .bind (.perform trivial) fun _ => .done _
  · split
    · exact .perform trivial
    · exact .done _

theorem monitorLoop_uses (n : Nat) (prevFailures : String → Nat) : (monitorLoop n prevFailures).Uses Op.onTick := by
  induction n generalizing prevFailures with
  | zero => exact .done _
  | succ n ih =>
    refine .bind (.perform trivial) fun ticked => ?_
    split
    · exact .done _
    exact .bind (.bind (.perform trivial) fun _ =>
      .bind (.fold fun prev svc => onCheck_onTick (notifyFailure_onCheck prev svc)) fun _ =>
      .bind (.perform trivial) fun _ => .bind (onCheck_onTick (isActiveMultiple_asks _).onCheck) fun activeStates =>
      .bind (.perform trivial) fun _ => .bind (.each (supervise_uses activeStates)) fun _ => .done _) ih

section Reaches
variable {may : (op : Op) → op.Ans → Prop} {target : Op → Prop} {svc : Service}
variable (silent : ∀ q, ¬ target (.ask q))
include silent

theorem bootService_reaches (h : (bootService svc).Reaches may target) :
    (startUnit svc.unit).Reaches may target ∨ target (.mark (.next svc)) := by
  unfold bootService at h
  rcases (reaches_bind _ _).mp h with h | ⟨cancelled, _, h⟩
  · exact absurd h ((ask_asks _).quiet silent)
  split at h
  · exact h.elim
  rcases (reaches_bind _ _).mp h with h | ⟨error, _, h⟩
  · exact absurd h ((bootChecks_asks svc).quiet silent)
  split at h
  · rcases (reaches_bind _ _).mp h with h | ⟨_, _, h⟩
    · exact .inr ((reaches_perform _).mp h)
    · exact h.elim
  rcases (reaches_bind _ _).mp h with h | ⟨fired, _, h⟩
  · exact absurd h ((delay_asks _ _).quiet silent)
  split at h
  · exact h.elim
  rcases (reaches_bind _ _).mp h with h | ⟨inactive, _, h⟩
  · exact absurd h ((inactiveDependency_asks svc).quiet silent)
  rcases (reaches_bind _ _).mp h with h | ⟨_, _, h⟩
  · split at h
    · exact h.elim
    · rcases (reaches_bind _ _).mp h with h | ⟨_, _, h⟩
      · exact .inl h
      · exact h.elim
  · rcases (reaches_bind _ _).mp h with h | ⟨_, _, h⟩
    · exact .inr ((reaches_perform _).mp h)
    · exact h.elim

theorem restart_reaches (h : (restart svc).Reaches may target) :
    (startUnit svc.unit).Reaches may target ∨ target (.recordFailure svc.unit) ∨
    target (.breakerReset svc.unit) := by
  have counted : (failed svc).Reaches may target → target (.recordFailure svc.unit) := by
    intro h
    rcases (reaches_bind _ _).mp h with h | ⟨_, _, h⟩
    · exact (reaches_perform _).mp h
    · exact h.elim
  unfold restart at h
  rcases (reaches_bind _ _).mp h with h | ⟨inactive, _, h⟩
  · exact absurd h ((inactiveDependency_asks svc).quiet silent)
  split at h
  · exact h.elim
  rcases (reaches_bind _ _).mp h with h | ⟨fired, _, h⟩
  · exact absurd h ((delay_asks _ _).quiet silent)
  split at h
  · exact h.elim
  rcases (reaches_bind _ _).mp h with h | ⟨inactive, _, h⟩
  · exact absurd h ((inactiveDependency_asks svc).quiet silent)
  split at h
  · exact h.elim
  rcases (reaches_bind _ _).mp h with h | ⟨error, _, h⟩
  · exact .inl h
  split at h
  · exact .inr (.inl (counted h))
  unfold judge at h
  rcases (reaches_bind _ _).mp h with h | ⟨fired, _, h⟩
  · exact absurd h ((ask_asks _).quiet silent)
  split at h
  · exact h.elim
  rcases (reaches_bind _ _).mp h with h | ⟨active, _, h⟩
  · exact absurd h ((ask_asks _).quiet silent)
  split at h
  · exact .inr (.inl (counted h))
  · exact .inr (.inr ((reaches_perform _).mp h))

theorem shouldRestart_reaches (h : (shouldRestart svc).Reaches may target) :
    target (.isUserStopped svc.unit) := by
  unfold shouldRestart at h
  split at h
  · exact h.elim
  split at h
  · rcases (reaches_bind _ _).mp h with h | ⟨_, _, h⟩
    · exact (reaches_perform _).mp h
    · exact h.elim
  split at h
  · rcases (reaches_bind _ _).mp h with h | ⟨_, _, h⟩
    · exact (reaches_perform _).mp h
    · split at h
      · exact h.elim
      · exact absurd h ((exitedWithFailure_asks _).quiet silent)
  · exact h.elim

/-- A tick resets the breaker of a service, or asks what stands for a restart and spawns it. -/
theorem supervise_reaches {activeStates : String → Bool} (h : (supervise activeStates svc).Reaches may target) :
    target (.breakerReset svc.unit) ∨ target (.isUserStopped svc.unit) ∨ target (.breakerIsOpen svc.unit) ∨
    target (.inFlightLoadOrStore svc.unit) ∨
    (svc.supervised = true ∧ (shouldRestart svc).Returns may true ∧ target (.goRestart svc)) := by
  unfold supervise at h
  split at h
  · exact h.elim
  rename_i looked
  split at h
  · exact .inl ((reaches_perform _).mp h)
  rcases (reaches_bind _ _).mp h with h | ⟨due, returned, h⟩
  · unfold restartDue at h
    rcases (reaches_bind _ _).mp h with h | ⟨wanted, _, h⟩
    · exact .inr (.inl (shouldRestart_reaches silent h))
    split at h
    · exact h.elim
    rcases (reaches_bind _ _).mp h with h | ⟨isOpen, _, h⟩
    · exact .inr (.inr (.inl ((reaches_perform _).mp h)))
    split at h
    · exact h.elim
    rcases (reaches_bind _ _).mp h with h | ⟨unmet, _, h⟩
    · exact absurd h ((checkConstraints_asks svc).quiet silent)
    split at h
    · exact h.elim
    rcases (reaches_bind _ _).mp h with h | ⟨loaded, _, h⟩
    · exact .inr (.inr (.inr (.inl ((reaches_perform _).mp h))))
    · exact h.elim
  split at h
  · rename_i isDue
    subst isDue
    have acts := (reaches_perform _).mp h
    refine .inr (.inr (.inr (.inr ⟨by simpa using looked, ?_, acts⟩)))
    unfold restartDue at returned
    obtain ⟨wanted, first, returned⟩ := (returns_bind _ _ _).mp returned
    split at returned
    · cases returned
    · cases wanted with
      | true => exact first
      | false => contradiction
  · exact h.elim

/-- Boot gets to the target while it verifies, while it builds its list, or in a round of its loop. -/
theorem startup_reaches (h : startup.Reaches may target) :
    verifyRunningServices.Reaches may target ∨ target .config ∨
    ∃ cfg, may .config cfg ∧ ((bootable cfg.services).Reaches may target ∨
      ∃ enabled, (bootable cfg.services).Returns may enabled ∧ ∃ s ∈ enabled, (bootService s).Reaches may target) := by
  rcases (reaches_bind _ _).mp h with h | ⟨_, _, h⟩
  · exact .inl h
  rcases (reaches_bind _ _).mp h with h | ⟨first, _, h⟩
  · exact absurd h ((ask_asks _).quiet silent)
  split at h
  · unfold boot at h
    rcases (reaches_bind _ _).mp h with h | ⟨cfg, ⟨_, answered, rfl⟩, h⟩
    · exact .inr (.inl ((reaches_perform _).mp h))
    refine .inr (.inr ⟨_, answered, ?_⟩)
    rcases (reaches_bind _ _).mp h with h | ⟨enabled, built, h⟩
    · exact .inl h
    rcases (reaches_bind _ _).mp h with h | ⟨ordered, _, h⟩
    · exact absurd h ((ask_asks _).quiet silent)
    rcases (reaches_bind _ _).mp h with h | ⟨_, _, h⟩
    · obtain ⟨s, member, h⟩ := reaches_firstSome h
      exact .inr ⟨enabled, built, s, ordered.perm.mem_iff.mp member, h⟩
    · exact h.elim
  · exact h.elim

/-- The monitor gets to the target with its reads, or while it looks after a service. -/
theorem monitorLoop_reaches {n : Nat} {prevFailures : String → Nat}
    (h : (monitorLoop n prevFailures).Reaches may target) :
    target .config ∨ (∃ unit, target (.breakerState unit)) ∨
    ∃ cfg, may .config cfg ∧ ∃ s ∈ cfg.services, ∃ activeStates, (supervise activeStates s).Reaches may target := by
  induction n generalizing prevFailures with
  | zero => exact h.elim
  | succ n ih =>
    rcases (reaches_bind _ _).mp h with h | ⟨ticked, _, h⟩
    · exact absurd h ((ask_asks _).quiet silent)
    split at h
    · exact h.elim
    rcases (reaches_bind _ _).mp h with h | ⟨failures, _, h⟩
    · unfold tick at h
      rcases (reaches_bind _ _).mp h with h | ⟨_, _, h⟩
      · exact .inl ((reaches_perform _).mp h)
      rcases (reaches_bind _ _).mp h with h | ⟨_, _, h⟩
      · by_contra quiet
        refine (Uses.fold notifyFailure_uses).not_reaches ?_ h
        intro op looks acts
        cases op with
        | ask q => exact silent q acts
        | breakerState unit => exact quiet (.inr (.inl ⟨unit, acts⟩))
        | _ => exact looks.elim
      rcases (reaches_bind _ _).mp h with h | ⟨_, _, h⟩
      · exact .inl ((reaches_perform _).mp h)
      rcases (reaches_bind _ _).mp h with h | ⟨activeStates, _, h⟩
      · exact absurd h ((isActiveMultiple_asks _).quiet silent)
      rcases (reaches_bind _ _).mp h with h | ⟨cfg, ⟨_, answered, rfl⟩, h⟩
      · exact .inl ((reaches_perform _).mp h)
      rcases (reaches_bind _ _).mp h with h | ⟨_, _, h⟩
      · obtain ⟨s, member, h⟩ := reaches_each h
        exact .inr (.inr ⟨_, answered, s, member, activeStates, h⟩)
      · exact h.elim
    · exact ih h

end Reaches

end HomelabDaemon
