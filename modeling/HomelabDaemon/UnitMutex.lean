import HomelabDaemon.Concurrency.Mutex
import HomelabDaemon.System

/-!
# One systemctl client at a time

A start and a stop hold the mutex of the name they were called with; a restart holds none. So
clients of one unit exclude each other as long as its name is spelled in one way and a restart
keeps away from the mutex and from other restarts.
-/

namespace HomelabDaemon
open Concurrency Program

namespace UnitMutex

/-- The systemctl client of a thread: started, and not yet waited for. -/
def client : Past Op Op.Ans → Option (Verb × String)
  | [] => none
  | ⟨.spawn verb unit, _⟩ :: _ => some (verb, unit)
  | ⟨.wait _ _, _⟩ :: _ => none
  | _ :: past => client past

/-- The entries of `unitOpMu`. -/
def unitOpMu : Mutexes daemon String where
  takes
    | .lockUnit unit => some unit
    | _ => none
  frees
    | .unlockUnit unit => some unit
    | _ => none
  taken w unit := unit ∈ w.locks
  take := by
    intro w op ans unit permitted takes
    split at takes
    · obtain rfl := Option.some.inj takes
      exact of_decide_eq_true permitted
    · cases takes
  effect := by
    intro w op ans unit
    change unit ∈ (w.effect op ans).locks ↔ _
    rw [World.effect_locks]
    cases op with
    | lockUnit u => simp [eq_comm]
    | unlockUnit u => simp [and_comm, eq_comm]
    | _ => simp
  env := by
    intro w move unit
    cases move <;> rfl

/-- Neither a mutex nor a client. -/
def Idle (past : Past Op Op.Ans) : Prop := unitOpMu.held past = none ∧ client past = none

/-- Starts and stops run their client under the mutex of the name, restarts under none. -/
def contract : Contract Op Op.Ans where
  allow past
    | .lockUnit _ => Idle past
    | .spawn .restart _ => Idle past
    | .spawn _ unit => unitOpMu.held past = some unit ∧ client past = none
    | .wait verb unit => client past = some (verb, unit)
    | .unlockUnit unit => unitOpMu.held past = some unit ∧ client past = none
    | _ => True

section Past
variable {past : Past Op Op.Ans}

theorem plain_allowed {op : Op} (plain : op.isPlain) : contract.allow past op := by
  cases op <;> trivial

theorem plain_idle {op : Op} (plain : op.isPlain) (idle : Idle past) (ans : op.Ans) : Idle (⟨op, ans⟩ :: past) := by
  cases op <;> first | exact idle | exact plain.elim

theorem startUnit_meets (unit : String) (idle : Idle past) :
    (startUnit unit).Meets contract past fun _ => Idle := by
  obtain ⟨noLock, noClient⟩ := idle
  refine ⟨trivial, fun _ _ => ⟨⟨noLock, noClient⟩, fun _ _ => ⟨⟨rfl, noClient⟩, fun _ _ => ⟨rfl, fun exit _ => ?_⟩⟩⟩⟩
  exact ⟨⟨rfl, rfl⟩, fun _ _ => ⟨rfl, rfl⟩⟩

theorem stopUnit_meets (unit : String) (idle : Idle past) :
    (stopUnit unit).Meets contract past fun _ => Idle := by
  obtain ⟨noLock, noClient⟩ := idle
  -- after the client has ended the mutex is held until the failed state is cleared
  let Held : Past Op Op.Ans → Prop := fun past => unitOpMu.held past = some unit ∧ client past = none
  have unlock : ∀ (exit : Exit) past, Held past → Program.Meets contract (do
      unlockUnit unit
      mark (.stopUnit unit)
      return exit.error : Prog (Option String)) past fun _ => Idle :=
    fun exit past held => ⟨held, fun _ _ => ⟨trivial, fun _ _ => ⟨rfl, held.2⟩⟩⟩
  refine ⟨⟨noLock, noClient⟩, fun _ _ => ⟨⟨rfl, noClient⟩, fun _ _ => ⟨rfl, fun exit _ => ?_⟩⟩⟩
  suffices cleared : Program.Meets contract (if exit = .ok then clearFailed unit else pure () : Prog Unit)
      (⟨.wait .stop unit, exit⟩ :: ⟨.spawn .stop unit, ()⟩ :: ⟨.lockUnit unit, ()⟩ :: past) fun _ => Held from
    (meets_bind (if exit = .ok then clearFailed unit else pure ()) _).mpr
      (cleared.mono fun _ past held => unlock exit past held)
  split
  · refine (clearFailed_asks unit).meets Held ?_ ?_ ⟨rfl, rfl⟩
    · intro past op ask _
      cases op <;> trivial
    · intro past op ans ask held _
      cases op <;> first | exact held | exact ask.elim
  · exact ⟨rfl, rfl⟩

theorem restartUnit_meets (unit : String) (idle : Idle past) :
    (restartUnit unit).Meets contract past fun _ => Idle :=
  ⟨idle, fun _ _ => ⟨rfl, fun _ _ => ⟨idle.1, rfl⟩⟩⟩

end Past

theorem code_meets (who : Actor) : who.code.Meets contract [] fun _ => Idle := by
  refine (code_built who).meets Idle ?_ ⟨rfl, rfl⟩
  intro α p block past idle
  cases block with
  | start unit _ => exact startUnit_meets unit idle
  | stop unit _ => exact stopUnit_meets unit idle
  | restart unit _ => exact restartUnit_meets unit idle
  | op plain => exact ⟨plain_allowed plain, fun ans _ => plain_idle plain idle ans⟩

section Run
variable {ok : Story → Configuration → Step → Prop} {w : World} {ticks : Nat} {hist : Story} {c c' : Configuration}

theorem run_allowed (run : daemon.Run ok (started w ticks) hist c) {i : Nat} {who : Actor} {op : Op}
    {k : op.Ans → Prog Unit} (at_ : c.pool[i]? = some ⟨who, .call op k⟩) : contract.allow (past i hist) op := by
  have meets := run.meets (fun _ => contract) (fun who => (code_meets who).mono fun _ _ _ => trivial)
    (fun _ _ _ _ => trivial) at_
  exact meets.1

theorem allowed_disciplined {past : Past Op Op.Ans} {op : Op} (allowed : contract.allow past op) :
    unitOpMu.Disciplined past op := by
  constructor
  · intro takes
    cases op with
    | lockUnit u => exact allowed.1
    | _ => cases takes
  · intro unit frees
    cases op with
    | unlockUnit u => exact (Option.some.inj frees) ▸ allowed.1
    | _ => cases frees

theorem run_exclusive (run : daemon.Run ok (started w ticks) hist c) : unitOpMu.Exclusive hist c :=
  unitOpMu.run_exclusive (fun run at_ => allowed_disciplined (run_allowed run at_)) run

/-- No second spelling of a locked unit is locked; a restart runs its client only while the
unit's mutex is free, under every spelling, and no other restart of the unit runs. -/
def Serial (hist : Story) (c : Configuration) : Step → Prop
  | .act _ _ (.lockUnit unit) _ => (∀ u ∈ c.world.locks, SameUnit u unit → u = unit) ∧
      ∀ (i : Nat) u, client (past i hist) = some (.restart, u) → ¬ SameUnit u unit
  | .act _ _ (.spawn .restart unit) _ => (∀ u ∈ c.world.locks, ¬ SameUnit u unit) ∧
      ∀ (i : Nat) u, client (past i hist) = some (.restart, u) → ¬ SameUnit u unit
  | _ => True

/-- What keeps clients apart. -/
structure Apart (hist : Story) : Prop where
  locked : ∀ i verb u, client (past i hist) = some (verb, u) → verb ≠ .restart →
    unitOpMu.held (past i hist) = some u
  spelling : ∀ i j u v, unitOpMu.held (past i hist) = some u → unitOpMu.held (past j hist) = some v →
    SameUnit u v → u = v
  unlocked : ∀ i j u v, client (past i hist) = some (.restart, u) → unitOpMu.held (past j hist) = some v →
    ¬ SameUnit u v
  alone : ∀ i j u v, client (past i hist) = some (.restart, u) → client (past j hist) = some (.restart, v) →
    SameUnit u v → i = j

theorem client_step {i j : Nat} {who : Actor} {op : Op} {ans : op.Ans} {verb : Verb} {u : String}
    (h : client (past j (.act i who op ans :: hist)) = some (verb, u)) :
    (j = i ∧ op = .spawn verb u) ∨
    (client (past j hist) = some (verb, u) ∧ (j = i → ∀ v, op ≠ .wait verb v)) := by
  by_cases same : i = j
  · subst same
    rw [past_act] at h
    cases op with
    | spawn verb' u' =>
      obtain ⟨rfl, rfl⟩ := Prod.mk.inj (Option.some.inj h)
      exact .inl ⟨rfl, rfl⟩
    | wait verb' u' => cases h
    | _ => exact .inr ⟨h, fun _ _ => by simp⟩
  · rw [past_act_ne same] at h
    exact .inr ⟨h, fun eq => absurd eq.symm same⟩

theorem held_step {i j : Nat} {who : Actor} {op : Op} {ans : op.Ans} {u : String}
    (h : unitOpMu.held (past j (.act i who op ans :: hist)) = some u) :
    (j = i ∧ op = .lockUnit u) ∨
    (unitOpMu.held (past j hist) = some u ∧ (j = i → ∀ v, op ≠ .lockUnit v ∧ op ≠ .unlockUnit v)) := by
  rcases unitOpMu.held_step h with ⟨rfl, takes⟩ | ⟨old, kept⟩
  · cases op with
    | lockUnit v =>
      obtain rfl := Option.some.inj takes
      exact .inl ⟨rfl, rfl⟩
    | _ => cases takes
  · refine .inr ⟨old, fun same v => ?_⟩
    obtain ⟨noTake, noFree⟩ := kept same
    constructor
    · rintro rfl
      cases noTake
    · rintro rfl
      cases noFree

theorem apart_act (apart : Apart hist) (exclusive : unitOpMu.Exclusive hist c) {i : Nat} {who : Actor} {op : Op}
    {ans : op.Ans} (allowed : contract.allow (past i hist) op) (serial : Serial hist c (.act i who op ans)) :
    Apart (.act i who op ans :: hist) := by
  constructor
  · intro j verb u running noRestart
    rcases client_step running with ⟨rfl, rfl⟩ | ⟨old, _⟩
    · rw [past_act, unitOpMu.held_cons_other rfl rfl]
      cases verb with
      | restart => exact absurd rfl noRestart
      | start | stop => exact allowed.1
    · have holds := apart.locked j verb u old noRestart
      by_cases mine : i = j
      · subst mine
        rw [past_act]
        cases op with
        | lockUnit v => exact absurd (old.symm.trans allowed.2) (by simp)
        | unlockUnit v => exact absurd (old.symm.trans allowed.2) (by simp)
        | _ => exact holds
      · rwa [past_act_ne mine]
  · intro j l u v first second same
    rcases held_step first with ⟨_, rfl⟩ | ⟨old, _⟩ <;> rcases held_step second with ⟨_, lock⟩ | ⟨old', _⟩
    · cases lock
      rfl
    · exact (serial.1 v (exclusive.taken l v old') same.symm).symm
    · subst lock
      exact serial.1 u (exclusive.taken j u old) same
    · exact apart.spelling j l u v old old' same
  · intro j l u v runs holds
    rcases client_step runs with ⟨_, rfl⟩ | ⟨old, _⟩ <;> rcases held_step holds with ⟨_, lock⟩ | ⟨old', _⟩
    · cases lock
    · exact fun same => serial.1 v (exclusive.taken l v old') same.symm
    · subst lock
      exact serial.2 j u old
    · exact apart.unlocked j l u v old old'
  · intro j l u v first second same
    rcases client_step first with ⟨mine, rfl⟩ | ⟨old, _⟩ <;> rcases client_step second with ⟨mine', spawn⟩ | ⟨old', _⟩
    · exact mine.trans mine'.symm
    · exact absurd same.symm (serial.2 l v old')
    · subst spawn
      exact absurd same (serial.2 j u old)
    · exact apart.alone j l u v old old' same

theorem run_apart (run : daemon.Run Serial (started w ticks) hist c) : Apart hist := by
  induction run with
  | start =>
    constructor
    · intro i verb u runs
      cases runs
    · intro i j u v holds
      cases holds
    · intro i j u v runs
      cases runs
    · intro i j u v runs
      cases runs
  | step before serial next ih =>
    cases next with
    | act at_ permitted => exact apart_act ih (run_exclusive before) (run_allowed before at_) serial
    | env permitted | arrive arrives => exact ⟨ih.locked, ih.spelling, ih.unlocked, ih.alone⟩

end Run

/-- Thread `i` has a systemctl client running for the unit, under some spelling. -/
def Running (hist : Story) (i : Nat) (unit : String) : Prop :=
  ∃ verb name, client (past i hist) = some (verb, name) ∧ SameUnit name unit

/-- In a run of serial steps at most one systemctl client runs for a unit at any time. -/
theorem unitClients_exclusive {w : World} {ticks : Nat} {hist : Story} {c : Configuration} {i j : Nat}
    {unit : String} (run : daemon.Run Serial (started w ticks) hist c)
    (first : Running hist i unit) (second : Running hist j unit) : i = j := by
  obtain ⟨verb, u, runs, same⟩ := first
  obtain ⟨verb', v, runs', same'⟩ := second
  have apart := run_apart run
  have both : SameUnit u v := same.trans same'.symm
  by_cases restart : verb = .restart <;> by_cases restart' : verb' = .restart
  · subst restart restart'
    exact apart.alone i j u v runs runs' both
  · subst restart
    exact absurd both (apart.unlocked i j u v runs (apart.locked j verb' v runs' restart'))
  · subst restart'
    exact absurd both.symm (apart.unlocked j i v u runs' (apart.locked i verb u runs restart))
  · have holds := apart.locked i verb u runs restart
    have holds' := apart.locked j verb' v runs' restart'
    obtain rfl := apart.spelling i j u v holds holds' both
    exact (run_exclusive run).unique i j u holds holds'

/-! ### Runs -/

theorem client_mem {past : Past Op Op.Ans} {verb : Verb} {u : String} (h : client past = some (verb, u)) :
    (⟨.spawn verb u, ()⟩ : Act Op Op.Ans) ∈ past := by
  induction past with
  | nil => cases h
  | cons act past ih =>
    obtain ⟨op, ans⟩ := act
    cases op with
    | spawn verb' u' =>
      obtain ⟨rfl, rfl⟩ := Prod.mk.inj (Option.some.inj h)
      exact List.mem_cons_self
    | wait verb' u' => cases h
    | _ => exact List.mem_cons_of_mem _ (ih h)

def isRestart : Step → Bool
  | .act _ _ (.spawn .restart _) _ => true
  | _ => false

/-- A check that is enough for `Serial`: mutexes are taken one after the other, and the first
restart finds none. -/
def oneByOne (hist : Story) (c : Configuration) : Step → Bool
  | .act _ _ (.lockUnit _) _ | .act _ _ (.spawn .restart _) _ => decide (c.world.locks = ∅) && !hist.any isRestart
  | _ => true

theorem oneByOne_serial {hist : Story} {c : Configuration} {e : Step} (h : oneByOne hist c e = true) :
    Serial hist c e := by
  have apart : ∀ unit, (decide (c.world.locks = ∅) && !hist.any isRestart) = true →
      (∀ u, u ∉ c.world.locks) ∧ ∀ (i : Nat) u, client (past i hist) = some (.restart, u) → ¬ SameUnit u unit := by
    intro unit both
    obtain ⟨free, first⟩ := Bool.and_eq_true_iff.mp both
    have empty : c.world.locks = ∅ := of_decide_eq_true free
    constructor
    · simp [empty]
    · intro i u runs
      obtain ⟨who, spawned⟩ := mem_past (client_mem runs)
      have some : hist.any isRestart = true := List.any_eq_true.mpr ⟨_, spawned, rfl⟩
      simp [some] at first
  unfold Serial
  split
  · rename_i unit _
    obtain ⟨free, alone⟩ := apart unit h
    exact ⟨fun u member => absurd member (free u), alone⟩
  · rename_i unit _
    obtain ⟨free, alone⟩ := apart unit h
    exact ⟨fun u member => absurd member (free u), alone⟩
  · trivial

def world : World := { cfg := { version := 1, services := [{ unit := "a.service", enabled := true }] } }

/-- A start, and a restart after it. -/
theorem unitClients_exclusive_restart : ∃ hist c, daemon.Run Serial (started world 0) hist c ∧
    Running hist 3 "a.service" ∧ ∀ i, Running hist i "a.service" → i = 3 := by
  obtain ⟨hist, c, run, shown⟩ := schedule_run oneByOne world 0
    [.arrive (.api (.start "a.service")), .go 2 {} 6, .env (.jobEnd "a.service"), .go 2 {} 2,
      .arrive (.api (.restart "a")), .go 3 {} 3]
    (fun s => client (past 3 s.1) == some (.restart, "a")) (by decide)
  have serial := run.weaken fun _ _ _ met => oneByOne_serial met
  have runs : Running hist 3 "a.service" := ⟨.restart, "a", by simpa using shown, by decide⟩
  exact ⟨hist, c, serial, runs, fun i other => unitClients_exclusive serial other runs⟩

/-- A restart request does not wait for the start that is running. -/
theorem unitClients_overlap : ¬ ∀ (w : World) (ticks : Nat) (hist : Story) (c : Configuration) (i j : Nat)
    (unit : String), daemon.Run Machine.anyStep (started w ticks) hist c → isManaged c.world.cfg unit = true →
    Running hist i unit → Running hist j unit → i = j := by
  intro claim
  obtain ⟨hist, c, run, shown⟩ := schedule_anyRun world 0
    [.arrive (.api (.start "a.service")), .go 2 {} 6, .arrive (.api (.restart "a.service")), .go 3 {} 3]
    (fun s => isManaged s.2.world.cfg "a.service" && client (past 2 s.1) == some (.start, "a.service") &&
      client (past 3 s.1) == some (.restart, "a.service")) (by decide)
  simp only [Bool.and_eq_true, beq_iff_eq] at shown
  obtain ⟨⟨managed, first⟩, second⟩ := shown
  have same := claim _ _ hist c 2 3 "a.service" run managed ⟨_, _, first, rfl⟩ ⟨_, _, second, rfl⟩
  cases same

end UnitMutex
end HomelabDaemon
