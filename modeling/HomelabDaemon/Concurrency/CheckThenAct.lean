import HomelabDaemon.Concurrency.Pool

/-!
# Check, then act

Watched actors look at a guard and act later, perhaps in a thread that they fork. While the
guard stands none of them acts, provided it was never raised under a thread that had passed its
check: one whose code still leads to the action when every answer is as the guard makes it.
-/

namespace Concurrency
variable {Op : Type} {Ans : Op → Type} {World Actor Env : Type}

namespace Machine
variable (M : Machine Op Ans World Actor Env)

/-- The world after an event. -/
def after (w : World) : Event Op Ans Actor Env → World
  | .act _ _ op ans => M.effect w op ans
  | .env move => M.envEffect w move
  | .arrive _ => w

variable {M}

theorem Step.world {c c' : Conf Op Ans World Actor} {e : Event Op Ans Actor Env} (h : M.Step c e c') :
    c'.world = M.after c.world e := by
  cases h <;> rfl

end Machine

/-- A guard with the actors that respect it. -/
structure CheckThenAct (M : Machine Op Ans World Actor Env) where
  guard : World → Prop
  watched : Actor → Prop
  /-- The answers an operation may get while the guard stands. -/
  may : (op : Op) → Ans op → Prop
  /-- The action. Forking a thread that leads to it is one, too. -/
  target : Op → Prop
  answers : ∀ {w op ans}, M.permits w op ans = true → guard w ∨ guard (M.effect w op ans) → may op ans
  hands : ∀ {op who}, who ∈ M.forks op → watched who → (M.code who).Reaches may target → target op
  arrivals : ∀ {who}, M.arrives who = true → watched who → ¬ (M.code who).Reaches may target
  bystanders : ∀ {who}, ¬ watched who →
    ¬ (M.code who).Reaches (fun _ _ => True) fun op => ∃ new ∈ M.forks op, watched new

namespace CheckThenAct
variable {M : Machine Op Ans World Actor Env} (G : CheckThenAct M)
variable {c c' : Conf Op Ans World Actor} {e : Event Op Ans Actor Env} {hist : History Op Ans Actor Env}

/-- The thread has passed its check and not yet acted. -/
def Pending (th : Thread Op Ans Actor) : Prop := G.watched th.who ∧ th.code.Reaches G.may G.target

def Clear (c : Conf Op Ans World Actor) : Prop := ∀ (i : Nat) th, c.pool[i]? = some th → ¬ G.Pending th

/-- The step does not raise the guard under a pending thread. -/
def Careful (_ : History Op Ans Actor Env) (c : Conf Op Ans World Actor) (e : Event Op Ans Actor Env) : Prop :=
  ¬ G.guard c.world → G.guard (M.after c.world e) → G.Clear c

def Bystander (th : Thread Op Ans Actor) : Prop :=
  ¬ G.watched th.who → ¬ th.code.Reaches (fun _ _ => True) fun op => ∃ new ∈ M.forks op, G.watched new

theorem clear_step (clear : G.Clear c) (innocent : ∀ (i : Nat) th, c.pool[i]? = some th → G.Bystander th)
    (guarded : G.guard c.world ∨ G.guard c'.world) (next : M.Step c e c') : G.Clear c' := by
  intro j th found pending
  obtain ⟨watched, reaches⟩ := pending
  rcases next.origin found with ⟨old, _⟩ | ⟨op, k, ans, old, rfl, code⟩ | ⟨_, fresh, starts⟩
  · exact clear j th old ⟨watched, reaches⟩
  · rw [code] at reaches
    have world := next.world
    cases next with
    | act at_ permitted =>
      have may := G.answers permitted guarded
      exact clear j _ old ⟨watched, .inr ⟨ans, may, reaches⟩⟩
  · have code : th.code = M.code th.who := congrArg Thread.code fresh
    rw [code] at reaches
    cases next with
    | @act i who op k ans at_ permitted =>
      have acts := G.hands starts watched reaches
      by_cases inside : G.watched who
      · exact clear i _ at_ ⟨inside, .inl acts⟩
      · exact innocent i _ at_ inside (.inl ⟨th.who, starts, watched⟩)
    | env permitted => exact starts
    | arrive arrives =>
      obtain ⟨rfl, _⟩ := starts
      exact G.arrivals arrives watched reaches

variable {w : World} {actors : List Actor}

theorem run_clear (fresh : ∀ who ∈ actors, G.watched who → ¬ (M.code who).Reaches G.may G.target)
    (run : M.Run G.Careful (M.init w actors) hist c) : G.guard c.world → G.Clear c := by
  induction run with
  | start =>
    intro _ i th found pending
    obtain ⟨who, member, rfl⟩ := List.mem_map.mp (List.mem_of_getElem? found)
    exact fresh who member pending.1 pending.2
  | @step hist c c' e before met next ih =>
    intro guarded
    have innocent : ∀ (i : Nat) th, c.pool[i]? = some th → G.Bystander th := by
      intro i th found
      refine before.threads (fun who p => ¬ G.watched who → ¬ p.Reaches _ _) (fun _ => G.bystanders) ?_ found
      intro who op k ans quiet outside reaches
      exact quiet outside (.inr ⟨ans, trivial, reaches⟩)
    have clear : G.Clear c := by
      by_cases stood : G.guard c.world
      · exact ih stood
      · exact met stood (next.world ▸ guarded)
    exact G.clear_step clear innocent (.inr guarded) next

theorem run_safe (fresh : ∀ who ∈ actors, G.watched who → ¬ (M.code who).Reaches G.may G.target)
    (run : M.Run G.Careful (M.init w actors) hist c) (guarded : G.guard c.world)
    {i : Nat} {who : Actor} {op : Op} {ans : Ans op} (next : M.Step c (.act i who op ans) c')
    (watched : G.watched who) : ¬ G.target op := by
  intro acts
  cases next with
  | act at_ permitted => exact G.run_clear fresh run guarded i _ at_ ⟨watched, .inl acts⟩

end CheckThenAct
end Concurrency
