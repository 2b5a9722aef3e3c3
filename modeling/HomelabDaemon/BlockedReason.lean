import HomelabDaemon.System

/-!
# The reported reason

The API tells why an inactive service is not restarted; the monitor decides that on its own. Both
are taken at one moment here.
-/

namespace HomelabDaemon
open Concurrency Program

namespace BlockedReason

/-- `Duration.Round(time.Second)`, in seconds. -/
def roundSeconds (duration : Nat) : Nat := (duration + second / 2) / second

/-- A duration of whole seconds as `%s` prints it. -/
def durationText (seconds : Nat) : String :=
  let s := toString (seconds % 60) ++ "s"
  if seconds < 60 then s
  else if seconds < 3600 then toString (seconds / 60) ++ "m" ++ s
  else toString (seconds / 3600) ++ "h" ++ toString (seconds / 60 % 60) ++ "m" ++ s

def computeBlockedReason (svc : Service) (activeState : String) (failureCount : Nat) (backoffUntil : Time)
    (userStopped : Bool) (now : Time) : Prog String :=
  if activeState = "active" then return ""
  else if userStopped then return "stopped by user"
  else do
    let unmet ← checkConstraints svc
    match unmet with
    | some error => return error
    | none =>
      return if backoffUntil ≠ 0 ∧ now < backoffUntil then
          "backing off (" ++ toString failureCount ++ " failures), retry in " ++
            durationText (roundSeconds (backoffUntil - now))
        else ""

/-- The daemon's memory, the mount table, and what systemd tells about the last exit. -/
structure Moment where
  world : World
  mounted : String → Bool
  status : Option String

namespace Moment

def answer (m : Moment) : (op : Op) → op.Ans
  | .ask (.isMounted path) => m.mounted path
  | .ask (.execMainStatus _) => m.status
  | op => ({} : Outside).answer m.world op

/-- What the API reports of the service. -/
def reason (m : Moment) (svc : Service) (activeState : String) : String :=
  let b := m.world.breaker svc.unit
  (computeBlockedReason svc activeState b.consecutive b.backoffUntil
    (decide (svc.unit ∈ m.world.userStopped)) m.world.now).value
    m.answer

/-- A tick, which finds the service inactive, performs the operation. -/
def Ticks (m : Moment) (svc : Service) (act : Act Op Op.Ans) : Prop :=
  (supervise (fun _ => false) svc).Performs m.answer act

def Spawns (m : Moment) (svc : Service) : Prop := m.Ticks svc ⟨.goRestart svc, ()⟩

/-- The tick has met the flag, an open breaker or a missing mount. -/
def Skips (m : Moment) (svc : Service) : Prop :=
  m.Ticks svc ⟨.isUserStopped svc.unit, true⟩ ∨ m.Ticks svc ⟨.breakerIsOpen svc.unit, true⟩ ∨
  ∃ path, m.Ticks svc ⟨.ask (.isMounted path), false⟩

/-- The report and the tick agree. -/
structure Agrees (m : Moment) (svc : Service) (activeState : String) : Prop where
  blocked : m.reason svc activeState ≠ "" → ¬ m.Spawns svc
  explained : m.Skips svc → m.reason svc activeState ≠ ""

/-- A user-stopped service that is always restarted, with nothing in the way. -/
structure Overrides (m : Moment) (svc : Service) : Prop where
  policy : svc.restart = "always"
  stopped : svc.unit ∈ m.world.userStopped
  closed : (m.world.breaker svc.unit).isOpen m.world.now = false
  mounts : ∀ path ∈ svc.requiresMounts, m.mounted path = true
  idle : svc.unit ∉ m.world.inFlight

end Moment

section Moment
variable {m : Moment} {svc : Service} {activeState : String} {act : Act Op Op.Ans}

/-- The first mount that is missing. -/
def unmet (m : Moment) (svc : Service) : Option String :=
  svc.requiresMounts.findSome? fun mnt => if m.mounted mnt then none
    else some ("mount " ++ quoted mnt ++ " not mounted")

theorem unmet_eq_none : unmet m svc = none ↔ ∀ path ∈ svc.requiresMounts, m.mounted path = true := by
  unfold unmet
  rw [List.findSome?_eq_none_iff]
  simp

theorem unmet_ne_empty {error : String} (missing : unmet m svc = some error) : error ≠ "" := by
  obtain ⟨mnt, _, found⟩ := List.exists_of_findSome?_eq_some missing
  split at found
  · cases found
  · obtain rfl := Option.some.inj found
    intro empty
    simpa using congrArg String.toList empty

@[simp] theorem value_checkConstraints : (checkConstraints svc).value m.answer = unmet m svc := value_firstSome

theorem performs_checkConstraints (performs : (checkConstraints svc).Performs m.answer act) :
    ∃ mnt ∈ svc.requiresMounts, act = ⟨.ask (.isMounted mnt), m.mounted mnt⟩ := by
  obtain ⟨mnt, member, asks⟩ := performs_firstSome.1 performs
  simp only [isMounted, ask, performs_bind, performs_perform, pure_eq_done, performs_done, or_false] at asks
  exact ⟨mnt, member, asks⟩

theorem reason_eq_empty (inactive : activeState ≠ "active") : m.reason svc activeState = "" ↔
    svc.unit ∉ m.world.userStopped ∧ unmet m svc = none ∧ (m.world.breaker svc.unit).isOpen m.world.now = false := by
  unfold Moment.reason computeBlockedReason
  simp only [if_neg inactive]
  by_cases stopped : svc.unit ∈ m.world.userStopped
  · simp [stopped]
  · simp only [stopped, decide_false, Bool.false_eq_true, ↓reduceIte, value_bind, value_checkConstraints,
      not_false_eq_true,
      true_and]
    cases missing : unmet m svc with
    | some error =>
      have text := unmet_ne_empty missing
      simp [text]
    | none =>
      simp only [pure_eq_done, value_done, UnitBreaker.isOpen, decide_eq_false_iff_not, true_and]
      split
      · rename_i backing
        simp [backing.2]
      · rename_i waiting
        have closed : ¬ m.world.now < (m.world.breaker svc.unit).backoffUntil := by
          intro opened
          exact waiting ⟨Nat.ne_of_gt (Nat.lt_of_le_of_lt (Nat.zero_le _) opened), opened⟩
        simp [closed]

/-- The policy that ignores the flag wants a restart; each other one wants none of a service that is stopped. -/
theorem value_shouldRestart : (svc.restart = "always" → (shouldRestart svc).value m.answer = true) ∧
    ((shouldRestart svc).value m.answer = true → svc.restart = "always" ∨ svc.unit ∉ m.world.userStopped) := by
  have flag : m.answer (.isUserStopped svc.unit) = decide (svc.unit ∈ m.world.userStopped) := rfl
  unfold shouldRestart
  split
  · rename_i always
    exact ⟨fun _ => rfl, fun _ => .inl always⟩
  rename_i other
  refine ⟨fun always => absurd always other, fun wanted => .inr ?_⟩
  split at wanted
  · simpa [flag] using wanted
  split at wanted
  · intro stopped
    simp [flag, stopped] at wanted
  · cases wanted

theorem performs_shouldRestart (performs : (shouldRestart svc).Performs m.answer act) :
    act = ⟨.isUserStopped svc.unit, decide (svc.unit ∈ m.world.userStopped)⟩ ∨
    act = ⟨.ask (.execMainStatus svc.unit), m.status⟩ := by
  have flag : m.answer (.isUserStopped svc.unit) = decide (svc.unit ∈ m.world.userStopped) := rfl
  unfold shouldRestart at performs
  split at performs
  · simp at performs
  split at performs
  · simp only [isUserStopped, performs_bind, performs_perform, pure_eq_done, performs_done, or_false] at performs
    exact .inl performs
  split at performs
  · simp only [isUserStopped, performs_bind, performs_perform] at performs
    rcases performs with asked | performs
    · exact .inl asked
    · split at performs
      · simp at performs
      · simp only [exitedWithFailure, ask, performs_bind, performs_perform, pure_eq_done, performs_done,
          or_false] at performs
        exact .inr performs
  · simp at performs

theorem ticks_iff (supervised : svc.supervised = true) : m.Ticks svc act ↔
    (shouldRestart svc).Performs m.answer act ∨ (shouldRestart svc).value m.answer = true ∧
      (act = ⟨.breakerIsOpen svc.unit, (m.world.breaker svc.unit).isOpen m.world.now⟩ ∨
        (m.world.breaker svc.unit).isOpen m.world.now = false ∧
          ((checkConstraints svc).Performs m.answer act ∨ unmet m svc = none ∧
            (act = ⟨.inFlightLoadOrStore svc.unit, decide (svc.unit ∈ m.world.inFlight)⟩ ∨
              svc.unit ∉ m.world.inFlight ∧ act = ⟨.goRestart svc, ()⟩))) := by
  have isOpen : m.answer (.breakerIsOpen svc.unit) = (m.world.breaker svc.unit).isOpen m.world.now := rfl
  have loaded : m.answer (.inFlightLoadOrStore svc.unit) = decide (svc.unit ∈ m.world.inFlight) := rfl
  have goes : m.answer (.goRestart svc) = () := rfl
  unfold Moment.Ticks supervise restartDue
  cases wanted : (shouldRestart svc).value m.answer with
  | false => simp [supervised, wanted]
  | true =>
    cases opened : (m.world.breaker svc.unit).isOpen m.world.now with
    | true => simp [supervised, wanted, isOpen, opened]
    | false =>
      cases missing : unmet m svc with
      | some error => simp [supervised, wanted, isOpen, opened, missing]
      | none =>
        by_cases flies : svc.unit ∈ m.world.inFlight
        · simp [supervised, wanted, isOpen, opened, missing, loaded, flies]
        · simp [supervised, wanted, isOpen, opened, missing, loaded, flies, goes]

/-! ### Agreement -/

theorem spawns_iff (supervised : svc.supervised = true) : m.Spawns svc ↔
    (shouldRestart svc).value m.answer = true ∧ (m.world.breaker svc.unit).isOpen m.world.now = false ∧
    unmet m svc = none ∧
      svc.unit ∉ m.world.inFlight := by
  have asked : ¬ (shouldRestart svc).Performs m.answer ⟨.goRestart svc, ()⟩ := by
    intro performs
    rcases performs_shouldRestart performs with same | same <;> cases same
  have looked : ¬ (checkConstraints svc).Performs m.answer ⟨.goRestart svc, ()⟩ := by
    intro performs
    obtain ⟨_, _, same⟩ := performs_checkConstraints performs
    cases same
  unfold Moment.Spawns
  rw [ticks_iff supervised]
  simp [asked, looked]

/-- What makes a tick skip the service is among the reasons that the API reports. -/
theorem explained (supervised : svc.supervised = true) (inactive : activeState ≠ "active") (skips : m.Skips svc) :
    m.reason svc activeState ≠ "" := by
  intro silent
  obtain ⟨running, mounted, closed⟩ := (reason_eq_empty inactive).mp silent
  have all := unmet_eq_none.mp mounted
  rcases skips with flag | opened | ⟨path, missing⟩
  · rcases (ticks_iff supervised).mp flag with asks | ⟨_, same | ⟨_, looks | ⟨_, same | ⟨_, same⟩⟩⟩⟩
    · rcases performs_shouldRestart asks with same | same
      · simp [running] at same
      · cases same
    · cases same
    · obtain ⟨_, _, same⟩ := performs_checkConstraints looks
      cases same
    · cases same
    · cases same
  · rcases (ticks_iff supervised).mp opened with asks | ⟨_, same | ⟨_, looks | ⟨_, same | ⟨_, same⟩⟩⟩⟩
    · rcases performs_shouldRestart asks with same | same <;> cases same
    · simp [closed] at same
    · obtain ⟨_, _, same⟩ := performs_checkConstraints looks
      cases same
    · cases same
    · cases same
  · rcases (ticks_iff supervised).mp missing with asks | ⟨_, same | ⟨_, looks | ⟨_, same | ⟨_, same⟩⟩⟩⟩
    · rcases performs_shouldRestart asks with same | same <;> cases same
    · cases same
    · obtain ⟨mnt, member, same⟩ := performs_checkConstraints looks
      simp only [Sigma.mk.injEq, Op.ask.injEq, Query.isMounted.injEq] at same
      obtain ⟨rfl, absent⟩ := same
      simp [all path member] at absent
    · cases same
    · cases same

/-- They disagree on a user-stopped service that is always restarted, and on no other. -/
theorem agrees_iff (m : Moment) (svc : Service) (activeState : String) (enabled : svc.enabled = true)
    (policy : svc.restart ≠ "" ∧ svc.restart ≠ "no") (inactive : activeState ≠ "active") :
    m.Agrees svc activeState ↔ ¬ m.Overrides svc := by
  have supervised : svc.supervised = true := by simp [Service.supervised, enabled, policy]
  obtain ⟨wantsAlways, wants⟩ := @value_shouldRestart m svc
  constructor
  · rintro agrees ⟨always, stopped, closed, mounts, idle⟩
    refine agrees.blocked ?_ ((spawns_iff supervised).mpr ⟨wantsAlways always, closed, unmet_eq_none.mpr mounts, idle⟩)
    intro silent
    exact ((reason_eq_empty inactive).mp silent).1 stopped
  · intro regular
    refine ⟨fun reported spawns => ?_, explained supervised inactive⟩
    obtain ⟨wanted, closed, mounted, idle⟩ := (spawns_iff supervised).mp spawns
    have stopped : svc.unit ∈ m.world.userStopped := by
      by_contra running
      exact reported ((reason_eq_empty inactive).mpr ⟨running, mounted, closed⟩)
    rcases wants wanted with always | running
    · exact regular ⟨always, stopped, closed, unmet_eq_none.mp mounted, idle⟩
    · exact running stopped

end Moment

def jellyfin : Service := { unit := "jellyfin.service", enabled := true, restart := "always" }

def afterStop : Moment where
  world := { cfg := { services := [jellyfin] }, userStopped := {"jellyfin.service"} }
  mounted := fun _ => false
  status := some "ExecMainStatus=0"

def quiet : Moment := { afterStop with world := { cfg := { services := [jellyfin] } } }

theorem agrees_iff_quiet : ¬ quiet.Overrides jellyfin ∧ quiet.Agrees jellyfin "inactive" := by
  have regular : ¬ quiet.Overrides jellyfin := fun overrides => absurd overrides.stopped (by decide)
  exact ⟨regular, (agrees_iff quiet jellyfin "inactive" rfl (by decide) (by decide)).mpr regular⟩

/-- The API reports a stopped service that the monitor restarts. -/
theorem stopped_restarted : jellyfin.enabled = true ∧ jellyfin.restart ≠ "" ∧ jellyfin.restart ≠ "no" ∧
    afterStop.reason jellyfin "inactive" = "stopped by user" ∧ afterStop.Spawns jellyfin ∧
    ¬ afterStop.Agrees jellyfin "inactive" := by
  have reported : afterStop.reason jellyfin "inactive" = "stopped by user" := by decide
  have spawns : afterStop.Spawns jellyfin := by
    rw [spawns_iff (by decide)]
    decide
  refine ⟨rfl, by decide, by decide, reported, spawns, fun agrees => ?_⟩
  exact agrees.blocked (by simp [reported]) spawns

end BlockedReason
end HomelabDaemon
