import HomelabDaemon.Concurrency.Pool

/-!
# Worlds along a history

The world after a history, told by the events alone, and where in a history the operations of a thread stand.
-/

namespace Concurrency

variable {Op : Type} {Ans : Op → Type} {World Actor Env : Type}

/-- What each event keeps holds of a history as soon as it holds of a part. -/
theorem suffix_keeps {P : History Op Ans Actor Env → Prop} {now hist : History Op Ans Actor Env} (part : now <:+ hist)
    (holds : P now) (keeps : ∀ e earlier, e :: earlier <:+ hist → P earlier → P (e :: earlier)) : P hist := by
  obtain ⟨later, rfl⟩ := part
  induction later with
  | nil => exact holds
  | cons e later ih =>
    refine keeps e (later ++ now) List.suffix_rfl (ih fun e' earlier part => ?_)
    exact keeps e' earlier (part.trans (List.suffix_cons e (later ++ now)))

/-- An operation of a thread, with what the thread did before it. -/
theorem past_split {i : Nat} (after : Past Op Ans) {act : Act Op Ans} {rest : Past Op Ans}
    {hist : History Op Ans Actor Env} (h : past i hist = after ++ act :: rest) :
    ∃ later who earlier, hist = later ++ .act i who act.1 act.2 :: earlier ∧ past i earlier = rest := by
  induction hist generalizing after with
  | nil =>
    have nothing : after ++ act :: rest = [] := h.symm
    simp at nothing
  | cons e hist ih =>
    have deeper : ∀ after, past i hist = after ++ act :: rest →
        ∃ later who earlier, e :: hist = later ++ .act i who act.1 act.2 :: earlier ∧ past i earlier = rest := by
      intro after h
      obtain ⟨later, who, earlier, same, before⟩ := ih after h
      exact ⟨e :: later, who, earlier, by rw [same, List.cons_append], before⟩
    cases e with
    | act j who op ans =>
      by_cases own : j = i
      · subst own
        rw [past_act] at h
        cases after with
        | nil =>
          obtain ⟨rfl, rfl⟩ := List.cons.inj h
          exact ⟨[], who, hist, rfl, rfl⟩
        | cons newest after => exact deeper after (List.cons.inj h).2
      · rw [past_act_ne own] at h
        exact deeper after h
    | env move => exact deeper after h
    | arrive who => exact deeper after h

namespace Machine
variable (M : Machine Op Ans World Actor Env)

def replay (start : World) : History Op Ans Actor Env → World
  | [] => start
  | .act _ _ op ans :: hist => M.effect (replay start hist) op ans
  | .env move :: hist => M.envEffect (replay start hist) move
  | .arrive _ :: hist => replay start hist

variable {M} {start : World}

theorem Run.replay {ok : History Op Ans Actor Env → Conf Op Ans World Actor → Event Op Ans Actor Env → Prop}
    {c c₀ : Conf Op Ans World Actor} {hist : History Op Ans Actor Env} (run : M.Run ok c₀ hist c) :
    c.world = M.replay c₀.world hist := by
  induction run with
  | start => rfl
  | step before met next ih =>
    cases next with
    | act at_ permitted => rw [Machine.replay, ← ih]
    | env permitted => rw [Machine.replay, ← ih]
    | arrive arrives => exact ih

/-- A thread has done what leads from its actor's code to its own. -/
theorem Run.leads {ok : History Op Ans Actor Env → Conf Op Ans World Actor → Event Op Ans Actor Env → Prop}
    {actors : List Actor}
    {c : Conf Op Ans World Actor} {hist : History Op Ans Actor Env} (run : M.Run ok (M.init start actors) hist c)
    {j : Nat}
    {th : Thread Op Ans Actor} (found : c.pool[j]? = some th) :
    Program.Leads (M.code th.who) [] th.code (past j hist) := by
  induction run generalizing j th with
  | start =>
    obtain ⟨who, _, rfl⟩ := List.mem_map.mp (List.mem_of_getElem? found)
    exact .start
  | @step hist c c' e before met next ih =>
    rcases next.origin found with ⟨old, other⟩ | ⟨op, k, ans, old, rfl, code⟩ | ⟨outside, fresh, _⟩
    · rw [past_cons, other]
      exact ih old
    · rw [past_act, code]
      exact (ih old).step ans
    · have code : th.code = M.code th.who := congrArg Thread.code fresh
      rw [next.past_outside outside, before.past_outside outside, code]
      exact .start

theorem Run.finished {ok : History Op Ans Actor Env → Conf Op Ans World Actor → Event Op Ans Actor Env → Prop}
    {actors : List Actor}
    {c : Conf Op Ans World Actor} {hist : History Op Ans Actor Env} (run : M.Run ok (M.init start actors) hist c)
    {j : Nat} {who : Actor} (ended : c.pool[j]? = some ⟨who, .done ()⟩) : (M.code who).Path [] () (past j hist) :=
  (run.leads ended).path ⟨rfl, rfl⟩

end Machine
end Concurrency
