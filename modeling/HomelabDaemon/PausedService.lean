import HomelabDaemon.Attempts

/-!
# The paused service of a backup

A backup stops the service it pauses, runs its job and starts the service again. The service is
meant to stay down in between; nobody else is told, and the client of the job may be killed.
-/

namespace HomelabDaemon
open Concurrency Program InFlight Attempts

namespace PausedService

/-- How far a backup that pauses `p` has come. -/
inductive Stage where
  | idle
  | paused (p : String)
  | running (p unit : String)
  | waited (p : String)
  | resumed (p : String)
  | begun (p : String)
  | finished

namespace Stage

def next : Stage → Op → Stage
  | idle, .mark (.stopUnit p) => paused p
  | paused p, .spawn .start unit => running p unit
  | running p _, .wait .start _ => waited p
  | waited p, .mark (.resume _) => resumed p
  | resumed p, .mark (.startUnit _) => begun p
  | begun _, .wait .start _ => finished
  | stage, _ => stage

/-- The service that is paused and whose start has not ended. -/
def held : Stage → Option String
  | paused p | running p _ | waited p | resumed p | begun p => some p
  | idle | finished => none

end Stage

/-- The stage after a thread's past. -/
def stage : Past Op Op.Ans → Stage
  | [] => .idle
  | act :: past => (stage past).next act.1

def isStartEnd : Op → Bool
  | .wait .start _ => true
  | _ => false

/-- The start of a restart has ended. -/
def startEnded (past : Past Op Op.Ans) : Bool := past.any fun act => isStartEnd act.1

/-- A backup pauses once, waits for its own job, and starts the service that it paused. A restart
starts its own service, once. -/
def contract : Actor → Contract Op Op.Ans
  | .backup _ =>
    { allow := fun past op => match op with
        | .mark (.stopUnit _) => stage past = .idle
        | .wait .start u => ∀ p unit, stage past = .running p unit → u = unit
        | .mark (.resume p) => stage past = .waited p
        | .mark (.startUnit u) => ∀ p, stage past = .resumed p → u = p
        | .spawn .start u => ∀ p, stage past = .begun p → u = p
        | _ => True }
  | .restart svc =>
    { allow := fun past op => match op with
        | .mark (.startUnit u) | .spawn .start u => u = svc.unit ∧ startEnded past = false
        | _ => True }
  | _ => { allow := fun _ _ => True }

section Backup
variable {name : String} {backup : Backup} {past : Past Op Op.Ans} {s : Stage}

/-- Neither pauses nor starts nor resumes. -/
def still : Op → Prop
  | .mark _ | .spawn .start _ | .wait .start _ => False
  | _ => True

theorem next_still {op : Op} (h : still op) : s.next op = s := by
  cases op with
  | mark m => exact h.elim
  | spawn verb unit | wait verb unit => cases verb <;> first | exact h.elim | (cases s <;> rfl)
  | _ => cases s <;> rfl

theorem stage_still (op : Op) (ans : op.Ans) (h : still op) : stage (⟨op, ans⟩ :: past) = stage past :=
  next_still h

theorem still_meets {α : Type} {p : Prog α} (h : p.Uses still) (at_ : stage past = s) :
    p.Meets (contract (.backup name)) past fun _ past => stage past = s := by
  refine h.meets (fun past => stage past = s) ?_ ?_ at_
  · intro past op quiet _
    cases op with
    | mark m => exact quiet.elim
    | wait verb unit | spawn verb unit => cases verb <;> first | exact quiet.elim | trivial
    | _ => trivial
  · intro past op ans quiet at_ _
    rw [stage, at_]
    exact next_still quiet

theorem asks_meet {α : Type} {p : Prog α} (h : AsksOnly p) (at_ : stage past = s) :
    p.Meets (contract (.backup name)) past fun _ past => stage past = s := by
  refine still_meets (h.mono fun op asks => ?_) at_
  cases op <;> trivial

/-- The stage before the job: paused, if there is a service to pause. -/
def beforeJob (backup : Backup) : Stage :=
  if backup.pauseService = "" then .idle else .paused backup.pauseService

/-- The stage after the job. -/
def afterJob (backup : Backup) : Stage :=
  if backup.pauseService = "" then .idle else .waited backup.pauseService

theorem stopUnit_meets {p : String} (at_ : stage past = .idle) :
    (stopUnit p).Meets (contract (.backup name)) past fun _ past => stage past = .paused p := by
  unfold stopUnit
  rw [meets_bind, meets_perform]
  refine ⟨trivial, fun _ _ => ?_⟩
  rw [meets_bind]
  have called : (systemctl .stop p).Uses still := .bind (.perform trivial) fun _ => .perform trivial
  have locked : stage (⟨.lockUnit p, ()⟩ :: past) = .idle := (stage_still (.lockUnit p) () trivial).trans at_
  refine (still_meets called locked).mono fun exit past at_ => ?_
  rw [meets_bind]
  have cleared : (if exit = .ok then clearFailed p else pure ()).Meets (contract (.backup name)) past
      fun _ past => stage past = .idle := by
    split
    · exact asks_meet (clearFailed_asks p) at_
    · exact at_
  refine cleared.mono fun _ past at_ => ?_
  rw [meets_bind, meets_perform]
  have unlocked : stage (⟨.unlockUnit p, ()⟩ :: past) = .idle := (stage_still (.unlockUnit p) () trivial).trans at_
  refine ⟨trivial, fun _ _ => ⟨unlocked, fun _ _ => ?_⟩⟩
  change stage (⟨.mark (.stopUnit p), _⟩ :: ⟨.unlockUnit p, ()⟩ :: past) = .paused p
  rw [stage, unlocked]
  rfl

theorem pause_meets (at_ : stage past = .idle) :
    (pause backup).Meets (contract (.backup name)) past fun _ past => stage past = beforeJob backup := by
  unfold pause beforeJob
  split
  · exact at_
  · rw [meets_bind]
    exact (stopUnit_meets at_).mono fun _ _ at_ => at_

/-- A start of the daemon's: a mark, and the client under the lock. -/
theorem startUnit_meets {unit : String} (at_ : stage past = s)
    (begins : ∀ p, s = .resumed p → unit = p) (resumes : ∀ p, s.next (.mark (.startUnit unit)) = .begun p → unit = p)
    (own : ∀ p u, (s.next (.mark (.startUnit unit))).next (.spawn .start unit) = .running p u → unit = u) :
    (startUnit unit).Meets (contract (.backup name)) past fun _ past =>
      stage past = ((s.next (.mark (.startUnit unit))).next (.spawn .start unit)).next (.wait .start unit) := by
  unfold startUnit
  rw [meets_bind, meets_perform]
  refine ⟨fun p same => begins p (at_.symm.trans same), fun _ _ => ?_⟩
  rw [meets_bind, meets_perform]
  refine ⟨trivial, fun _ _ => ?_⟩
  rw [meets_bind]
  have locked : stage (⟨.lockUnit unit, ()⟩ :: ⟨.mark (.startUnit unit), ()⟩ :: past) =
      s.next (.mark (.startUnit unit)) := by
    rw [stage_still (.lockUnit unit) () trivial, stage, at_]
  refine ⟨fun p same => resumes p (locked.symm.trans same), fun _ _ => ?_⟩
  have spawned : stage (⟨.spawn .start unit, ()⟩ :: ⟨.lockUnit unit, ()⟩ :: ⟨.mark (.startUnit unit), ()⟩ :: past) =
      (s.next (.mark (.startUnit unit))).next (.spawn .start unit) := by rw [stage, locked]
  refine ⟨fun p u same => own p u (spawned.symm.trans same), fun exit _ => ?_⟩
  refine ⟨trivial, fun _ _ => ?_⟩
  change stage (⟨.unlockUnit unit, _⟩ :: ⟨.wait .start unit, exit⟩ :: _) = _
  rw [stage_still (.unlockUnit unit) _ trivial, stage, spawned]

theorem runJob_meets (at_ : stage past = beforeJob backup) :
    (runJob backup).Meets (contract (.backup name)) past fun _ past => stage past = afterJob backup := by
  have started : (startUnit backup.unit).Meets (contract (.backup name)) past fun _ past =>
      stage past = afterJob backup := by
    unfold beforeJob at at_
    unfold afterJob
    split at at_
    · rename_i none
      rw [if_pos none]
      exact startUnit_meets at_ (fun _ same => nomatch same) (fun _ same => nomatch same) fun _ _ same => nomatch same
    · rename_i some
      rw [if_neg some]
      refine startUnit_meets at_ (fun _ same => nomatch same) (fun _ same => nomatch same) fun p u same => ?_
      exact (Stage.running.inj same).2
  unfold runJob
  rw [meets_bind]
  refine started.mono fun error past at_ => ?_
  cases error with
  | none =>
    change (ping backup "" >>= fun _ => return none).Meets _ _ _
    rw [meets_bind]
    exact (asks_meet (ping_asks backup "") at_).mono fun _ _ at_ => at_
  | some message =>
    change (ping backup "/fail" >>= fun _ => mailFailure backup.unit message >>= fun _ =>
      return some message).Meets _ _ _
    rw [meets_bind]
    refine (asks_meet (ping_asks backup "/fail") at_).mono fun _ past at_ => ?_
    rw [meets_bind]
    exact (asks_meet (mailFailure_asks backup.unit message) at_).mono fun _ _ at_ => at_

theorem resume_meets (at_ : stage past = afterJob backup) :
    (resume backup).Meets (contract (.backup name)) past fun _ _ => True := by
  unfold resume
  unfold afterJob at at_
  split
  · trivial
  · rename_i some
    rw [if_neg some] at at_
    rw [meets_bind, meets_perform]
    refine ⟨at_, fun _ _ => ?_⟩
    rw [meets_bind]
    have resumed : stage (⟨.mark (.resume backup.pauseService), ()⟩ :: past) = .resumed backup.pauseService := by
      rw [stage, at_]
      rfl
    refine (startUnit_meets resumed (fun p same => Stage.resumed.inj same) (fun p same => Stage.begun.inj same) ?_).mono
      fun _ _ _ => trivial
    exact fun _ _ same => nomatch same

theorem runBackup_meets (unit : String) :
    (runBackup unit).Meets (contract (.backup name)) [] fun _ _ => True := by
  have fresh : stage [] = .idle := rfl
  unfold runBackup
  rw [meets_bind, meets_perform]
  refine ⟨trivial, fun _ _ => ?_⟩
  rw [meets_bind, meets_perform]
  refine ⟨trivial, fun cfg _ => ?_⟩
  rw [meets_bind, meets_perform]
  refine ⟨trivial, fun _ _ => ?_⟩
  split
  · trivial
  rename_i backup _
  rw [meets_bind]
  have recorded : (recordRun unit).Uses still := .bind (.perform trivial) fun _ => .bind (.perform trivial) fun _ =>
    .perform trivial
  have idle : stage [⟨.unlockScheduler, ()⟩, ⟨.config, cfg⟩, ⟨.lockScheduler, ()⟩] = .idle := rfl
  refine (still_meets recorded idle).mono fun _ past idle => ?_
  rw [meets_bind]
  refine (asks_meet (missingMount_asks backup) idle).mono fun missing past at_ => ?_
  split
  · trivial
  rw [meets_bind]
  refine (asks_meet (missingDependency_asks backup) at_).mono fun inactive past at_ => ?_
  split
  · trivial
  rw [meets_bind]
  refine (asks_meet (ping_asks backup "/start") at_).mono fun _ past at_ => ?_
  rw [meets_bind]
  refine (pause_meets at_).mono fun _ past at_ => ?_
  rw [meets_bind]
  refine (runJob_meets at_).mono fun error past at_ => ?_
  rw [meets_bind]
  exact (resume_meets at_).mono fun _ _ _ => trivial

end Backup

section Restart
variable {svc : Service} {past : Past Op Op.Ans}

/-- Does not start a unit. -/
def startless : Op → Prop
  | .mark (.startUnit _) | .spawn .start _ => False
  | _ => True

theorem startless_meets {α : Type} {p : Prog α} (h : p.Uses startless) :
    p.Meets (contract (.restart svc)) past fun _ _ => True := by
  refine h.meets (fun _ => True) ?_ (fun _ _ _ _ _ _ => trivial) trivial
  intro past op quiet _
  cases op with
  | mark m => cases m <;> first | exact quiet.elim | trivial
  | spawn verb unit => cases verb <;> first | exact quiet.elim | trivial
  | _ => trivial

theorem asks_unstarted {α : Type} {p : Prog α} (h : AsksOnly p) (unstarted : startEnded past = false) :
    p.Meets (contract (.restart svc)) past fun _ past => startEnded past = false := by
  refine h.meets (fun past => startEnded past = false) ?_ ?_ unstarted
  · intro past op asks _
    cases op <;> trivial
  · intro past op ans asks unstarted _
    cases op <;> first | exact unstarted | exact asks.elim

theorem restart_meets (unstarted : startEnded past = false) :
    (restart svc).Meets (contract (.restart svc)) past fun _ _ => True := by
  have failed : (failed svc).Uses startless := .bind (.perform trivial) fun _ => .done _
  have judged : (judge svc).Uses startless := by
    refine .bind (.perform trivial) fun fired => ?_
    split
    · exact .done _
    refine .bind (.perform trivial) fun active => ?_
    split
    · exact failed
    · exact .perform trivial
  unfold restart
  rw [meets_bind]
  refine (asks_unstarted (inactiveDependency_asks svc) unstarted).mono fun inactive past unstarted => ?_
  split
  · trivial
  rw [meets_bind]
  refine (asks_unstarted (delay_asks _ _) unstarted).mono fun fired past unstarted => ?_
  split
  · trivial
  rw [meets_bind]
  refine (asks_unstarted (inactiveDependency_asks svc) unstarted).mono fun inactive past unstarted => ?_
  split
  · trivial
  rw [meets_bind]
  have starts : (startUnit svc.unit).Meets (contract (.restart svc)) past fun _ _ => True :=
    ⟨⟨rfl, unstarted⟩, fun _ _ => ⟨trivial, fun _ _ => ⟨⟨rfl, unstarted⟩, fun _ _ => ⟨trivial, fun _ _ =>
      ⟨trivial, fun _ _ => trivial⟩⟩⟩⟩⟩
  refine starts.mono fun error past _ => startless_meets ?_
  split
  · exact failed
  · exact judged

end Restart

theorem code_meets (who : Actor) : who.code.Meets (contract who) [] fun _ _ => True := by
  cases who with
  | backup unit =>
    change (runBackup unit >>= _).Meets _ _ _
    rw [meets_bind]
    exact (runBackup_meets unit).mono fun _ _ _ => trivial
  | restart svc =>
    change (HomelabDaemon.restart svc >>= fun _ => perform (Op.inFlightDelete svc.unit)).Meets _ _ _
    rw [meets_bind]
    exact (restart_meets rfl).mono fun _ _ _ => ⟨trivial, fun _ _ => trivial⟩
  | _ =>
    exact (code_built _).within.meets (fun _ => True) (fun _ _ _ _ => trivial) (fun _ _ _ _ _ _ => trivial) trivial

/-! ### The pause in a history -/

/-- The pause that a thread makes: from the end of its stop to the end of the job it starts. -/
inductive Phase where
  | idle
  | paused (p : String)
  | running (p unit : String)
  | closed

namespace Phase

def act : Phase → Actor → Op → Phase
  | idle, .backup _, .mark (.stopUnit p) => paused p
  | paused p, _, .spawn .start unit => running p unit
  | phase, _, _ => phase

def ended (unit : String) : Phase → Phase
  | running p u => if u = unit then closed else running p u
  | phase => phase

def next (i : Nat) (phase : Phase) : Step → Phase
  | .act j who op _ => if j = i then phase.act who op else phase
  | .env (.jobEnd unit) => phase.ended unit
  | _ => phase

def down : Phase → Option String
  | paused p | running p _ => some p
  | idle | closed => none

end Phase

def phase (i : Nat) : Story → Phase
  | [] => .idle
  | e :: hist => (phase i hist).next i e

/-- Thread `i` has paused the service and its job has not ended. -/
def Down (i : Nat) (p : String) (hist : Story) : Prop := (phase i hist).down = some p

instance (i : Nat) (p : String) (hist : Story) : Decidable (Down i p hist) := inferInstanceAs (Decidable (_ = _))

/-- The monitor, or a backup at its end, calls `startUnit` for the service or spawns its client. -/
def Issues (p : String) (hist : Story) : Step → Prop
  | .act _ (.restart _) (.mark (.startUnit u)) _ | .act _ (.restart _) (.spawn .start u) _ => SameUnit u p
  | .act j (.backup _) (.mark (.startUnit u)) _ => (∃ q, stage (past j hist) = .resumed q) ∧ SameUnit u p
  | .act j (.backup _) (.spawn .start u) _ => (∃ q, stage (past j hist) = .begun q) ∧ SameUnit u p
  | _ => False

/-- The client of a job is not killed while the job runs, no tick spawns a restart of a paused
service, and a service is paused only when no restart of it has its start before it or under way,
and no other pause of it is without the end of its last start. -/
def Considerate (hist : Story) (c : Configuration) : Step → Prop
  | .act i (.backup _) (.wait .start _) exit => (∃ p unit, phase i hist = .running p unit) → exit.isKilled = false
  | .act _ _ (.goRestart svc) _ => ∀ i p, Down i p hist → ¬ SameUnit svc.unit p
  | .act i (.backup _) (.mark (.stopUnit p)) _ =>
    (∀ (j : Nat) svc code, c.pool[j]? = some ⟨.restart svc, code⟩ → SameUnit svc.unit p →
      startEnded (past j hist) = true ∨ released (past j hist) = true) ∧
    ∀ (j : Nat) unit code q, c.pool[j]? = some ⟨.backup unit, code⟩ → (stage (past j hist)).held = some q →
      SameUnit q p → j = i
  | _ => True

/-- After the job was spawned. -/
def Stage.late : Stage → Prop
  | idle | paused _ => False
  | _ => True

theorem Stage.next_late {s : Stage} (op : Op) (h : s.late) : (s.next op).late := by
  unfold Stage.next
  split <;> trivial

theorem Stage.next_held {s : Stage} {op : Op} {p : String} (h : (s.next op).held = some p) :
    s.held = some p ∨ (s = .idle ∧ op = .mark (.stopUnit p)) := by
  unfold Stage.next at h
  split at h
  · obtain rfl := Option.some.inj h
    exact .inr ⟨rfl, rfl⟩
  · exact .inl h
  · exact .inl h
  · exact .inl h
  · exact .inl h
  · cases h
  · exact .inl h

theorem Phase.act_down {ph : Phase} {who : Actor} {op : Op} {p : String} (h : (ph.act who op).down = some p) :
    ph.down = some p ∨ ((∃ n, who = .backup n) ∧ op = .mark (.stopUnit p)) := by
  unfold Phase.act at h
  split at h
  · obtain rfl := Option.some.inj h
    exact .inr ⟨⟨_, rfl⟩, rfl⟩
  · exact .inl h
  · exact .inl h

theorem Phase.ended_down {ph : Phase} {unit p : String} (h : (ph.ended unit).down = some p) : ph.down = some p := by
  unfold Phase.ended at h
  split at h
  · split at h
    · cases h
    · exact h
  · exact h

theorem phase_ne_idle {i : Nat} {e : Step} {hist : Story} (h : phase i (e :: hist) ≠ .idle) :
    phase i hist ≠ .idle ∨ ∃ n op ans, e = .act i (.backup n) op ans := by
  by_contra none
  obtain ⟨idle, other⟩ := not_or.mp none
  apply h
  rw [phase, Classical.not_not.mp idle]
  cases e with
  | act j who op ans =>
    simp only [Phase.next]
    split
    · rename_i mine
      subst mine
      cases who with
      | backup n => exact absurd ⟨n, op, ans, rfl⟩ other
      | _ => rfl
    · rfl
  | env move => cases move <;> rfl
  | arrive who => rfl

theorem down_step {i : Nat} {e : Step} {hist : Story} {p : String} (h : Down i p (e :: hist)) :
    Down i p hist ∨ ∃ n ans, e = .act i (.backup n) (.mark (.stopUnit p)) ans := by
  unfold Down at h
  rw [phase] at h
  cases e with
  | act j who op ans =>
    simp only [Phase.next] at h
    split at h
    · rename_i mine
      subst mine
      rcases Phase.act_down h with old | ⟨⟨n, rfl⟩, rfl⟩
      · exact .inl old
      · exact .inr ⟨n, ans, rfl⟩
    · exact .inl h
  | env move =>
    cases move with
    | advance duration => exact .inl h
    | jobEnd unit => exact .inl (Phase.ended_down h)
  | arrive who => exact .inl h

/-- The phase of a backup follows its stage; while the phase says that the job runs, it does. -/
def Agrees (jobs : Finset String) : Phase → Stage → Prop
  | .idle, s => s = .idle
  | .paused p, s => s = .paused p
  | .running p unit, s => s = .running p unit ∧ unit ∈ jobs
  | .closed, s => s.late

theorem agrees_held {jobs : Finset String} {ph : Phase} {s : Stage} {p : String} (h : Agrees jobs ph s)
    (down : ph.down = some p) : s.held = some p ∧ ∀ q, s ≠ .resumed q ∧ s ≠ .begun q := by
  cases ph with
  | paused q =>
    obtain rfl := Option.some.inj down
    rw [show s = .paused q from h]
    exact ⟨rfl, fun _ => ⟨nofun, nofun⟩⟩
  | running q unit =>
    obtain rfl := Option.some.inj down
    rw [h.1]
    exact ⟨rfl, fun _ => ⟨nofun, nofun⟩⟩
  | idle | closed => cases down

/-- A backup's own step keeps its phase and its stage together. -/
theorem agrees_act {name : String} {w : World} {hist : Past Op Op.Ans} {ph : Phase} {op : Op} {ans : op.Ans}
    (h : Agrees w.jobs ph (stage hist)) (allowed : (contract (.backup name)).allow hist op)
    (alive : ∀ u, op = .wait .start u → (∃ p unit, ph = .running p unit) → u ∉ w.jobs) :
    Agrees (w.effect op ans).jobs (ph.act (.backup name) op) (stage (⟨op, ans⟩ :: hist)) := by
  rw [stage]
  cases ph with
  | idle =>
    rw [show stage hist = .idle from h]
    cases op with
    | mark m => cases m <;> rfl
    | _ => rfl
  | paused p =>
    rw [show stage hist = .paused p from h]
    cases op with
    | spawn verb unit => cases verb <;> first | exact ⟨rfl, Finset.mem_insert_self _ _⟩ | rfl
    | _ => rfl
  | running p unit =>
    obtain ⟨at_, runs⟩ := h
    have still : ∀ {op : Op} {ans : op.Ans}, unit ∈ (w.effect op ans).jobs := by
      intro op ans
      rw [World.effect_jobs]
      split
      · exact Finset.mem_insert_of_mem runs
      · exact runs
    rw [at_]
    cases op with
    | wait verb u =>
      cases verb with
      | start =>
        obtain rfl : u = unit := allowed p unit at_
        exact absurd runs (alive u rfl ⟨p, u, rfl⟩)
      | _ => exact ⟨rfl, still⟩
    | _ => exact ⟨rfl, still⟩
  | closed => exact Stage.next_late op h

theorem agrees_ended {jobs : Finset String} {p unit u : String} {s : Stage} (h : Agrees jobs (.running p unit) s) :
    Agrees (jobs.erase u) ((Phase.running p unit).ended u) s := by
  obtain ⟨at_, runs⟩ := h
  simp only [Phase.ended]
  split
  · rw [at_]
    trivial
  · rename_i other
    exact ⟨at_, Finset.mem_erase.mpr ⟨other, runs⟩⟩

/-! ### Runs -/

structure Kept (hist : Story) (c : Configuration) : Prop where
  owner : ∀ i, phase i hist ≠ .idle → ∃ unit code, c.pool[i]? = some ⟨.backup unit, code⟩
  agrees : ∀ (i : Nat) unit code, c.pool[i]? = some ⟨.backup unit, code⟩ →
    Agrees c.world.jobs (phase i hist) (stage (past i hist))
  alone : ∀ (i j : Nat) unit unit' code code' p q, c.pool[i]? = some ⟨.backup unit, code⟩ →
    c.pool[j]? = some ⟨.backup unit', code'⟩ → (stage (past i hist)).held = some p →
    (stage (past j hist)).held = some q → SameUnit p q → i = j
  calm : ∀ i p, Down i p hist → ∀ (j : Nat) svc code, c.pool[j]? = some ⟨.restart svc, code⟩ →
    SameUnit svc.unit p → startEnded (past j hist) = true ∨ released (past j hist) = true

section Run
variable {w : World} {ticks : Nat} {hist : Story} {c c' : Configuration} {e : Step}

theorem run_allowed {ok : Story → Configuration → Step → Prop} (run : daemon.Run ok (started w ticks) hist c)
    {i : Nat} {who : Actor} {op : Op} {k : op.Ans → Prog Unit} (at_ : c.pool[i]? = some ⟨who, .call op k⟩) :
    (contract who).allow (past i hist) op := by
  have expected : ∀ {who : Actor} {past op} {ans : op.Ans}, (contract who).expect past op ans := by
    intro who past op ans
    cases who <;> trivial
  exact (run.meets contract code_meets (fun _ _ _ _ => expected) at_).1

theorem calm_cons {j : Nat} (h : startEnded (past j hist) = true ∨ released (past j hist) = true) :
    startEnded (past j (e :: hist)) = true ∨ released (past j (e :: hist)) = true := by
  rw [Machine.past_cons]
  unfold startEnded released at *
  rw [List.any_append, List.any_append]
  rcases h with ended | freed
  · exact .inl (by rw [ended, Bool.or_true])
  · exact .inr (by rw [freed, Bool.or_true])

theorem owner_step (kept : Kept hist c) (next : daemon.Step c e c') {i : Nat} (busy : phase i (e :: hist) ≠ .idle) :
    ∃ unit code, c'.pool[i]? = some ⟨.backup unit, code⟩ := by
  have before : ∃ unit code, c.pool[i]? = some ⟨.backup unit, code⟩ := by
    rcases phase_ne_idle busy with old | ⟨n, op, ans, rfl⟩
    · exact kept.owner i old
    · cases next with
      | act at_ permitted => exact ⟨n, _, at_⟩
  obtain ⟨unit, code, found⟩ := before
  obtain ⟨code', found'⟩ := next.keeps found
  exact ⟨unit, code', found'⟩

/-- A thread that is new has done nothing, and nothing is known of it. -/
theorem fresh_idle (run : daemon.Run Considerate (started w ticks) hist c) (kept : Kept hist c)
    (next : daemon.Step c e c') {i : Nat} (outside : c.pool.length ≤ i) :
    phase i (e :: hist) = .idle ∧ past i (e :: hist) = [] := by
  refine ⟨?_, by rw [next.past_outside outside, run.past_outside outside]⟩
  by_contra busy
  have inside : ∀ {unit code}, c.pool[i]? = some ⟨.backup unit, code⟩ → False := by
    intro unit code found
    have bound := (List.getElem?_eq_some_iff.mp found).1
    omega
  rcases phase_ne_idle busy with old | ⟨n, op, ans, rfl⟩
  · obtain ⟨unit, code, found⟩ := kept.owner i old
    exact inside found
  · cases next with
    | act at_ permitted => exact inside at_

theorem agrees_step (run : daemon.Run Considerate (started w ticks) hist c) (kept : Kept hist c)
    (met : Considerate hist c e) (next : daemon.Step c e c') {i : Nat} {unit : String} {code : Prog Unit}
    (found : c'.pool[i]? = some ⟨.backup unit, code⟩) :
    Agrees c'.world.jobs (phase i (e :: hist)) (stage (past i (e :: hist))) := by
  have step := next
  rcases next.origin found with ⟨old, quiet⟩ | ⟨op, k, ans, old, rfl, _⟩ | ⟨outside, _, _⟩
  · have agrees := kept.agrees i unit _ old
    rw [Machine.past_cons, quiet]
    cases next with
    | @act j who op k ans at_ permitted =>
      have other : j ≠ i := by
        rintro rfl
        simp [past] at quiet
      rw [phase, Phase.next, if_neg other]
      have grows : ∀ {u}, u ∈ c.world.jobs → u ∈ (c.world.effect op ans).jobs := by
        intro u member
        rw [World.effect_jobs]
        split
        · exact Finset.mem_insert_of_mem member
        · exact member
      cases h : phase i hist with
      | running p u =>
        rw [h] at agrees
        exact ⟨agrees.1, grows agrees.2⟩
      | _ =>
        rw [h] at agrees
        exact agrees
    | @env move permitted =>
      cases move with
      | advance duration => exact agrees
      | jobEnd u =>
        rw [phase, Phase.next]
        cases h : phase i hist with
        | running p unit =>
          rw [h] at agrees
          exact agrees_ended agrees
        | _ =>
          rw [h] at agrees
          exact agrees
    | arrive arrives => exact agrees
  · cases next with
    | act at_ permitted =>
      rw [phase, Phase.next, if_pos rfl, past_act]
      refine agrees_act (kept.agrees i unit _ old) (run_allowed run old) ?_
      rintro u rfl running
      have alive : ans.isKilled = false := met running
      have ended : (ans.isKilled || decide (u ∉ c.world.jobs)) = true := permitted
      rw [alive, Bool.false_or] at ended
      exact of_decide_eq_true ended
  · obtain ⟨idle, none⟩ := fresh_idle run kept step outside
    rw [idle, none]
    rfl

theorem held_step (run : daemon.Run Considerate (started w ticks) hist c) (kept : Kept hist c)
    (next : daemon.Step c e c') {i : Nat} {unit p : String} {code : Prog Unit}
    (found : c'.pool[i]? = some ⟨.backup unit, code⟩) (held : (stage (past i (e :: hist))).held = some p) :
    ∃ code, c.pool[i]? = some ⟨.backup unit, code⟩ ∧
      ((stage (past i hist)).held = some p ∨ ∃ ans, e = .act i (.backup unit) (.mark (.stopUnit p)) ans) := by
  rcases next.origin found with ⟨old, quiet⟩ | ⟨op, k, ans, old, rfl, _⟩ | ⟨outside, _, _⟩
  · rw [Machine.past_cons, quiet] at held
    exact ⟨_, old, .inl held⟩
  · rw [past_act, stage] at held
    rcases Stage.next_held held with before | ⟨_, rfl⟩
    · exact ⟨_, old, .inl before⟩
    · exact ⟨_, old, .inr ⟨ans, rfl⟩⟩
  · rw [(fresh_idle run kept next outside).2] at held
    cases held

theorem alone_step (run : daemon.Run Considerate (started w ticks) hist c) (kept : Kept hist c)
    (met : Considerate hist c e) (next : daemon.Step c e c') {i j : Nat} {unit unit' p q : String}
    {code code' : Prog Unit} (first : c'.pool[i]? = some ⟨.backup unit, code⟩)
    (second : c'.pool[j]? = some ⟨.backup unit', code'⟩) (holds : (stage (past i (e :: hist))).held = some p)
    (holds' : (stage (past j (e :: hist))).held = some q) (same : SameUnit p q) : i = j := by
  obtain ⟨_, found, held⟩ := held_step run kept next first holds
  obtain ⟨_, found', held'⟩ := held_step run kept next second holds'
  rcases held with held | ⟨_, rfl⟩ <;> rcases held' with held' | ⟨_, stop⟩
  · exact kept.alone i j _ _ _ _ p q found found' held held' same
  · subst stop
    exact met.2 i _ _ p found held same
  · exact (met.2 j _ _ q found' held' same.symm).symm
  · cases stop
    rfl

theorem calm_step (kept : Kept hist c)
    (met : Considerate hist c e) (next : daemon.Step c e c') {i j : Nat} {p : String} {svc : Service}
    {code : Prog Unit} (down : Down i p (e :: hist)) (found : c'.pool[j]? = some ⟨.restart svc, code⟩)
    (same : SameUnit svc.unit p) :
    startEnded (past j (e :: hist)) = true ∨ released (past j (e :: hist)) = true := by
  have calm : ∀ {code}, c.pool[j]? = some ⟨.restart svc, code⟩ →
      startEnded (past j hist) = true ∨ released (past j hist) = true := by
    intro code old
    rcases down_step down with before | ⟨n, ans, rfl⟩
    · exact kept.calm i p before j svc _ old same
    · exact met.1 j svc _ old same
  rcases next.origin found with ⟨old, _⟩ | ⟨_, _, _, old, _, _⟩ | ⟨_, _, starts⟩
  · exact calm_cons (calm old)
  · exact calm_cons (calm old)
  · cases next with
    | @act a who op k ans at_ permitted =>
      cases op with
      | goRestart s =>
        obtain rfl := Actor.restart.inj (List.mem_singleton.mp starts)
        have calm : ∀ i p, Down i p hist → ¬ SameUnit svc.unit p := by
          cases who <;> exact met
        rcases down_step down with before | ⟨n, _, stop⟩
        · exact absurd same (calm i p before)
        · cases stop
      | goRunBackup unit => cases List.mem_singleton.mp starts
      | _ => cases starts
    | env permitted => exact starts.elim
    | arrive arrives =>
      obtain ⟨rfl, _⟩ := starts
      cases arrives

theorem run_kept (run : daemon.Run Considerate (started w ticks) hist c) : Kept hist c := by
  induction run with
  | start =>
    have none : ∀ (i : Nat) unit code, (started w ticks).pool[i]? ≠ some ⟨.backup unit, code⟩ := by
      intro i unit code found
      obtain ⟨who, member, same⟩ := List.mem_map.mp (List.mem_of_getElem? found)
      obtain rfl : who = .backup unit := congrArg Thread.who same
      simp at member
    exact ⟨fun i busy => absurd rfl busy, fun i unit code found => absurd found (none i unit code),
      fun i j unit unit' code code' p q found => absurd found (none i unit code), fun i p down => nomatch down⟩
  | step before met next kept =>
    exact ⟨fun i busy => owner_step kept next busy, fun i unit code found => agrees_step before kept met next found,
      fun i j unit unit' code code' p q first second holds holds' same =>
        alone_step before kept met next first second holds holds' same,
      fun i p down j svc code found same => calm_step kept met next down found same⟩

/-- A restart that is not past its start is not one of a paused service. -/
theorem Kept.no_restart (kept : Kept hist c) (run : daemon.Run Considerate (started w ticks) hist c) {i j : Nat}
    {p u : String} {svc : Service} {op : Op} {k : op.Ans → Prog Unit} (down : Down i p hist)
    (at_ : c.pool[j]? = some ⟨.restart svc, .call op k⟩) (starts : u = svc.unit ∧ startEnded (past j hist) = false) :
    ¬ SameUnit u p := by
  obtain ⟨rfl, unstarted⟩ := starts
  intro same
  have alive : released (past j hist) = false := (InFlight.run_allowed run at_).1
  rcases kept.calm i p down j svc _ at_ same with ended | freed
  · rw [ended] at unstarted
    cases unstarted
  · rw [freed] at alive
    cases alive

/-- While a backup has a service paused, no backup is at the start that ends a pause of it. -/
theorem Kept.no_resume (kept : Kept hist c) {i j : Nat} {p u n : String} {code : Prog Unit} (down : Down i p hist)
    (at_ : c.pool[j]? = some ⟨.backup n, code⟩)
    (resumes : stage (past j hist) = .resumed u ∨ stage (past j hist) = .begun u) :
    ¬ SameUnit u p := by
  intro same
  have held : (stage (past j hist)).held = some u := by
    rcases resumes with at' | at' <;> rw [at'] <;> rfl
  have busy : phase i hist ≠ .idle := by
    intro idle
    rw [Down, idle] at down
    cases down
  obtain ⟨unit, code, found⟩ := kept.owner i busy
  obtain ⟨holds, others⟩ := agrees_held (kept.agrees i unit code found) down
  obtain rfl := kept.alone i j _ _ _ _ p u found at_ holds held same.symm
  rcases resumes with at' | at'
  · exact (others u).1 at'
  · exact (others u).2 at'

/-- In a considerate run nobody starts a service while a backup has it paused. -/
theorem paused_undisturbed (run : daemon.Run Considerate (started w ticks) hist c) (next : daemon.Step c e c')
    {i : Nat} {p : String} (down : Down i p hist) : ¬ Issues p hist e := by
  intro issues
  have kept := run_kept run
  cases next with
  | env permitted => exact issues
  | arrive arrives => exact issues
  | @act j who op k ans at_ permitted =>
    have allowed := run_allowed run at_
    cases op with
    | mark m =>
      cases m with
      | startUnit u =>
        cases who with
        | restart svc => exact kept.no_restart run down at_ allowed issues
        | backup n =>
          obtain ⟨⟨q, resumes⟩, same⟩ := issues
          obtain rfl : u = q := allowed q resumes
          exact kept.no_resume down at_ (.inl resumes) same
        | boot | monitor n | api request => exact issues
      | _ => cases who <;> exact issues
    | spawn verb u =>
      cases verb with
      | start =>
        cases who with
        | restart svc => exact kept.no_restart run down at_ allowed issues
        | backup n =>
          obtain ⟨⟨q, resumes⟩, same⟩ := issues
          obtain rfl : u = q := allowed q resumes
          exact kept.no_resume down at_ (.inr resumes) same
        | boot | monitor n | api request => exact issues
      | _ => cases who <;> exact issues
    | _ => cases who <;> exact issues

end Run

/-! ### Schedules -/

def world : World :=
  { cfg := { version := 1, backups := [{ unit := "job.service", enabled := true, pauseService := "a.service" }] } }

/-- No other pause is under way, and no restart. -/
def lonely (i : Nat) (c : Configuration) : Bool :=
  (List.range c.pool.length).all fun j => match c.pool[j]? with
    | some ⟨.restart _, _⟩ => false
    | some ⟨.backup _, _⟩ => decide (j = i)
    | _ => true

theorem lonely_at {i j : Nat} {c : Configuration} {t : Thread Op Op.Ans Actor} (h : lonely i c = true)
    (at_ : c.pool[j]? = some t) : (∀ svc, t.who ≠ .restart svc) ∧ ∀ unit, t.who = .backup unit → j = i := by
  have inside := (List.getElem?_eq_some_iff.mp at_).1
  have test := List.all_eq_true.mp h j (List.mem_range.mpr inside)
  obtain ⟨who, code⟩ := t
  rw [at_] at test
  cases who with
  | restart svc => cases test
  | backup unit =>
    refine ⟨?_, fun _ _ => of_decide_eq_true test⟩
    intro svc same
    cases same
  | _ =>
    constructor
    · intro svc same
      cases same
    · intro unit same
      cases same

def gentle (_ : Story) (c : Configuration) : Step → Bool
  | .act _ _ (.wait .start _) exit => !exit.isKilled
  | .act _ _ (.goRestart _) _ => false
  | .act i _ (.mark (.stopUnit _)) _ => lonely i c
  | _ => true

theorem considerate_of_gentle {hist : Story} {c : Configuration} {e : Step} (h : gentle hist c e = true) :
    Considerate hist c e := by
  cases e with
  | act i who op ans =>
    cases op with
    | wait verb unit =>
      cases verb with
      | start => cases who <;> first | trivial | exact fun _ => (Bool.not_eq_true' _).mp h
      | _ => cases who <;> trivial
    | goRestart svc => cases h
    | mark m =>
      cases m with
      | stopUnit p =>
        cases who with
        | backup unit =>
          constructor
          · intro j svc code at_
            exact absurd rfl ((lonely_at h at_).1 svc)
          · intro j unit code q at_ _ _
            exact (lonely_at h at_).2 unit rfl
        | _ => trivial
      | _ => cases who <;> trivial
    | _ => cases who <;> trivial
  | env move => trivial
  | arrive who => trivial

/-- The job runs, and its service is down. -/
theorem paused_undisturbed_running : ∃ hist c, Down 2 "a.service" hist ∧
    daemon.Run Considerate (started world 1) hist c ∧ ∀ e c', daemon.Step c e c' → ¬ Issues "a.service" hist e := by
  obtain ⟨hist, c, run, shown⟩ := schedule_run gentle world 1 [.arrive (.backup "job.service"), .go 2 {} 15]
    (fun s => decide (Down 2 "a.service" s.1)) (by decide)
  have considerate : daemon.Run Considerate (started world 1) hist c :=
    run.weaken fun _ _ _ met => considerate_of_gentle met
  have down : Down 2 "a.service" hist := of_decide_eq_true shown
  exact ⟨hist, c, down, considerate, fun e c' next => paused_undisturbed considerate next down⟩

def isResume (unit : String) : Actor → Op → Bool
  | .backup _, .mark (.startUnit u) => u == unit
  | _, _ => false

def Stage.isResumed : Stage → Bool
  | resumed _ => true
  | _ => false

/-- The client of a long job is killed, and the backup resumes the service while the job runs. -/
theorem paused_resumedEarly : ¬ ∀ (w : World) (ticks : Nat) (hist : Story) (c c' : Configuration) (e : Step) (i : Nat)
    (p : String), daemon.Run Machine.anyStep (started w ticks) hist c → daemon.Step c e c' → Down i p hist →
    ¬ Issues p hist e := by
  intro claim
  obtain ⟨hist, c, run, shown⟩ := schedule_anyRun world 1
    [.arrive (.backup "job.service"), .go 2 {} 15, .go 2 { exit := .killed "signal: killed" } 4]
    (fun s => Machine.about s.2 2 (isResume "a.service") && decide (Down 2 "a.service" s.1) &&
      (stage (past 2 s.1)).isResumed) (by decide)
  obtain ⟨shown, resumed⟩ := Bool.and_eq_true_iff.mp shown
  obtain ⟨atStart, down⟩ := Bool.and_eq_true_iff.mp shown
  obtain ⟨who, op, k, at_, test⟩ := Machine.about_next atStart
  cases who with
  | backup unit =>
    cases op with
    | mark m =>
      cases m with
      | startUnit u =>
        obtain rfl : u = "a.service" := eq_of_beq test
        have inResume : ∃ q, stage (past 2 hist) = .resumed q := by
          cases at_ : stage (past 2 hist) with
          | resumed q => exact ⟨q, rfl⟩
          | _ =>
            rw [at_] at resumed
            cases resumed
        exact claim world 1 hist c _ (.act 2 (.backup unit) _ ()) 2 "a.service" run (.act at_ rfl)
          (of_decide_eq_true down) ⟨inResume, rfl⟩
      | _ => cases test
    | _ => cases test
  | _ => cases test

end PausedService
end HomelabDaemon
