import HomelabDaemon.Operations

/-!
# Units and mounts

The helpers of `monitor.go` that ask and command systemd. The lock of a unit is keyed by the
name the caller passes; `restartUnit` takes none.
-/

namespace HomelabDaemon
open Concurrency Program

def systemctl (verb : Verb) (unit : String) : Prog Exit := do
  perform (Op.spawn verb unit)
  perform (Op.wait verb unit)

/-- `systemctl start`, under the lock of the unit. -/
def startUnit (unit : String) : Prog (Option String) := do
  mark (.startUnit unit)
  lockUnit unit
  let exit ← systemctl .start unit
  unlockUnit unit
  return exit.error

/-- A stopped unit in the failed state is reset, so that it reads inactive. -/
def clearFailed (unit : String) : Prog Unit := do
  let state ← ask (.activeState unit)
  if state = "failed" then do
    let _ ← ask (.resetFailed unit)
    return ()
  else return ()

def stopUnit (unit : String) : Prog (Option String) := do
  lockUnit unit
  let exit ← systemctl .stop unit
  (if exit = .ok then clearFailed unit else pure ())
  unlockUnit unit
  mark (.stopUnit unit)
  return exit.error

/-- `systemctl restart`, without the lock. -/
def restartUnit (unit : String) : Prog (Option String) := do
  let exit ← systemctl .restart unit
  return exit.error

def checkConstraints (svc : Service) : Prog (Option String) :=
  firstSome (fun mnt => do
    let mounted ← isMounted mnt
    return if mounted then none else some ("mount " ++ quoted mnt ++ " not mounted")) svc.requiresMounts

def inactiveDependency (svc : Service) : Prog (Option String) :=
  firstSome (fun dep => do
    let active ← isActive dep
    return if active then none else some dep) svc.dependsOn

def verifyService (stopped : Nat) (svc : Service) : Prog Nat :=
  if !svc.enabled then return stopped else do
    let active ← isActive svc.unit
    if !active then return stopped else do
      let unmet ← checkConstraints svc
      if unmet.isNone then return stopped else do
        let error ← stopUnit svc.unit
        return if error.isNone then stopped + 1 else stopped

def verifyRunningServices : Prog Nat := do
  let cfg ← readConfig
  fold verifyService 0 cfg.services

/-- One client for all units; one for each when the lines do not match. Of a unit that is
listed twice the last line counts. -/
def isActiveMultiple (units : List String) : Prog (String → Bool) :=
  if units = [] then return fun _ => false else do
    let lines ← ask (.isActiveLines units)
    if lines.length ≠ units.length then
      fold (fun res unit => do
        let active ← isActive unit
        return Function.update res unit active) (fun _ => false) units
    else return (units.zip lines).foldl (fun res line => Function.update res line.1 line.2) fun _ => false

/-- The loop of `waitActive`. Each poll waits 3 s, so the deadline has passed when `polls` are
used up. -/
def pollActive (unit : String) : Nat → Prog (Option String)
  | 0 => return some ("timed out waiting for " ++ unit ++ " to become active")
  | polls + 1 => do
    let active ← isActive unit
    if active then return none else do
      let late ← ask .afterDeadline
      if late then return some ("timed out waiting for " ++ unit ++ " to become active") else do
        let fired ← ask (.sleep .poll 3)
        if fired then pollActive unit polls else return some "context canceled"

def waitActive (unit : String) (timeout : Nat) : Prog (Option String) :=
  pollActive unit (timeout / 3 + 2)

/-! ### What they may do -/

theorem checkConstraints_asks (svc : Service) : AsksOnly (checkConstraints svc) :=
  .firstSome fun _ => .bind (ask_asks _) fun _ => .done _

theorem inactiveDependency_asks (svc : Service) : AsksOnly (inactiveDependency svc) :=
  .firstSome fun _ => .bind (ask_asks _) fun _ => .done _

theorem clearFailed_asks (unit : String) : AsksOnly (clearFailed unit) := by
  refine .bind (ask_asks _) fun state => ?_
  split
  · exact .bind (ask_asks _) fun _ => .done _
  · exact .done _

theorem isActiveMultiple_asks (units : List String) : AsksOnly (isActiveMultiple units) := by
  unfold isActiveMultiple
  split
  · exact .done _
  · refine .bind (ask_asks _) fun lines => ?_
    split
    · exact .fold fun _ _ => .bind (ask_asks _) fun _ => .done _
    · exact .done _

theorem waitActive_asks (unit : String) (timeout : Nat) : AsksOnly (waitActive unit timeout) := by
  unfold waitActive
  generalize timeout / 3 + 2 = polls
  induction polls with
  | zero => exact .done _
  | succ polls ih =>
    refine .bind (ask_asks _) fun active => ?_
    split
    · exact .done _
    · refine .bind (ask_asks _) fun late => ?_
      split
      · exact .done _
      · refine .bind (ask_asks _) fun fired => ?_
        split
        · exact ih
        · exact .done _

/-- The blocks of the daemon's code: an operation on a unit with one of the verbs, or a plain
operation. -/
inductive Block (verbs : Verb → Prop) (plain : Op → Prop) : (α : Type) → Prog α → Prop where
  | start (unit : String) (verb : verbs .start) : Block verbs plain _ (startUnit unit)
  | stop (unit : String) (verb : verbs .stop) : Block verbs plain _ (stopUnit unit)
  | restart (unit : String) (verb : verbs .restart) : Block verbs plain _ (restartUnit unit)
  | op {op : Op} (h : plain op) : Block verbs plain _ (perform op)

abbrev BuiltFrom (verbs : Verb → Prop) (plain : Op → Prop) {α : Type} (p : Prog α) : Prop :=
  Built (Block verbs plain) p

def Op.isPlain : Op → Prop
  | .mark (.startUnit _) | .mark (.stopUnit _) | .lockUnit _ | .unlockUnit _ | .spawn _ _ | .wait _ _ => False
  | _ => True

def Op.looks : Op → Prop
  | .ask _ | .config => True
  | _ => False

def Op.inside (verbs : Verb → Prop) : Op → Prop
  | .mark (.startUnit _) => verbs .start
  | .mark (.stopUnit _) => verbs .stop
  | .spawn verb _ | .wait verb _ => verbs verb
  | .ask _ | .lockUnit _ | .unlockUnit _ => True
  | _ => False

section Blocks
variable {verbs : Verb → Prop} {plain : Op → Prop} {α : Type} {p : Prog α}

theorem BuiltFrom.widen {verbs' : Verb → Prop} {plain' : Op → Prop} (h : BuiltFrom verbs plain p)
    (wider : ∀ verb, verbs verb → verbs' verb) (wide : ∀ op, plain op → plain' op) :
    BuiltFrom verbs' plain' p := by
  refine h.mono fun p block => ?_
  cases block with
  | start unit verb => exact .start unit (wider _ verb)
  | stop unit verb => exact .stop unit (wider _ verb)
  | restart unit verb => exact .restart unit (wider _ verb)
  | op h => exact .op (wide _ h)

theorem AsksOnly.built (h : AsksOnly p) (asks : ∀ q, plain (.ask q)) : BuiltFrom verbs plain p := by
  refine .of_uses h fun op ask => .op ?_
  cases op with
  | ask q => exact asks q
  | _ => exact ask.elim

theorem BuiltFrom.within (h : BuiltFrom verbs plain p) : p.Uses fun op => plain op ∨ op.inside verbs := by
  refine h.uses fun p block => ?_
  cases block with
  | start unit verb =>
    exact .bind (.perform (.inr verb)) fun _ => .bind (.perform (.inr trivial)) fun _ =>
      .bind (.bind (.perform (.inr verb)) fun _ => .perform (.inr verb)) fun _ =>
      .bind (.perform (.inr trivial)) fun _ => .done _
  | stop unit verb =>
    refine .bind (.perform (.inr trivial)) fun _ => .bind (.bind (.perform (.inr verb)) fun _ =>
      .perform (.inr verb)) fun exit => .bind ?_ fun _ => .bind (.perform (.inr trivial)) fun _ =>
      .bind (.perform (.inr verb)) fun _ => .done _
    split
    · refine (clearFailed_asks unit).mono fun op ask => .inr ?_
      cases op with
      | ask q => trivial
      | _ => exact ask.elim
    · exact .done _
  | restart unit verb =>
    exact .bind (.bind (.perform (.inr verb)) fun _ => .perform (.inr verb)) fun _ => .done _
  | op h => exact .perform (.inl h)

end Blocks

theorem verifyService_built (stopped : Nat) (svc : Service) :
    BuiltFrom (· = .stop) Op.looks (verifyService stopped svc) := by
  unfold verifyService
  split
  · exact .done _
  refine .bind (.single (.op trivial)) fun active => ?_
  split
  · exact .done _
  refine .bind ((checkConstraints_asks svc).built fun _ => trivial) fun unmet => ?_
  split
  · exact .done _
  exact .bind (.block (.stop svc.unit rfl)) fun _ => .done _

theorem verifyRunningServices_built : BuiltFrom (· = .stop) Op.looks verifyRunningServices :=
  .bind (.single (.op trivial)) fun _ => .fold verifyService_built

section Reaches
variable {may : (op : Op) → op.Ans → Prop} {target : Op → Prop} {unit : String}

theorem startUnit_reaches (h : (startUnit unit).Reaches may target) :
    target (.mark (.startUnit unit)) ∨ target (.lockUnit unit) ∨ target (.spawn .start unit) ∨
    target (.wait .start unit) ∨ target (.unlockUnit unit) := by
  simp only [startUnit, systemctl, mark, lockUnit, unlockUnit, perform_bind, call_bind, reaches_call,
    pure_eq_done, reaches_done] at h
  tauto

end Reaches

end HomelabDaemon
