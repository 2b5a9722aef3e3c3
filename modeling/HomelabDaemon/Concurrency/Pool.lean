import HomelabDaemon.Concurrency.Logic

/-!
# Interleavings

A machine runs a pool of threads over one world. A step is one operation of one thread, a move
of the environment, or the arrival of a new thread; an operation may also fork threads. Nothing
is assumed about the order of steps. A run keeps its events, the newest first, so that a
property may speak about what happened before.
-/

namespace Concurrency

structure Machine (Op : Type) (Ans : Op → Type) (World Actor Env : Type) where
  /-- Which answers an operation may get in a world. -/
  permits : World → (op : Op) → Ans op → Bool
  effect : World → (op : Op) → Ans op → World
  code : Actor → Program Op Ans Unit
  forks : Op → List Actor
  arrives : Actor → Bool
  envPermits : World → Env → Bool
  envEffect : World → Env → World

structure Thread (Op : Type) (Ans : Op → Type) (Actor : Type) where
  who : Actor
  code : Program Op Ans Unit

structure Conf (Op : Type) (Ans : Op → Type) (World Actor : Type) where
  world : World
  pool : List (Thread Op Ans Actor)

inductive Event (Op : Type) (Ans : Op → Type) (Actor Env : Type) where
  | act (i : Nat) (who : Actor) (op : Op) (ans : Ans op)
  | env (move : Env)
  | arrive (who : Actor)

abbrev History (Op : Type) (Ans : Op → Type) (Actor Env : Type) := List (Event Op Ans Actor Env)

variable {Op : Type} {Ans : Op → Type} {World Actor Env : Type}

/-- The operations of thread `i` in a history. -/
def past (i : Nat) : History Op Ans Actor Env → Past Op Ans
  | [] => []
  | .act j _ op ans :: hist => if j = i then ⟨op, ans⟩ :: past i hist else past i hist
  | .env _ :: hist => past i hist
  | .arrive _ :: hist => past i hist

@[simp] theorem past_nil (i : Nat) : past i ([] : History Op Ans Actor Env) = [] := rfl

@[simp] theorem past_act (i : Nat) (who : Actor) (op : Op) (ans : Ans op) (hist : History Op Ans Actor Env) :
    past i (.act i who op ans :: hist) = ⟨op, ans⟩ :: past i hist := by simp [past]

theorem past_act_ne {i j : Nat} (different : j ≠ i) (who : Actor) (op : Op) (ans : Ans op)
    (hist : History Op Ans Actor Env) : past i (.act j who op ans :: hist) = past i hist := by
  simp [past, different]

@[simp] theorem past_env (i : Nat) (move : Env) (hist : History Op Ans Actor Env) :
    past i (.env move :: hist) = past i hist := rfl

@[simp] theorem past_arrive (i : Nat) (who : Actor) (hist : History Op Ans Actor Env) :
    past i (.arrive who :: hist) = past i hist := rfl

theorem mem_past {i : Nat} {hist : History Op Ans Actor Env} {op : Op} {ans : Ans op}
    (h : (⟨op, ans⟩ : Act Op Ans) ∈ past i hist) : ∃ who, Event.act i who op ans ∈ hist := by
  induction hist with
  | nil => cases h
  | cons e hist ih =>
    cases e with
    | act j who op' ans' =>
      by_cases same : j = i
      · subst same
        rw [past_act] at h
        rcases List.mem_cons.mp h with eq | old
        · cases eq
          exact ⟨who, List.mem_cons_self⟩
        · obtain ⟨who, found⟩ := ih old
          exact ⟨who, List.mem_cons_of_mem _ found⟩
      · rw [past_act_ne same] at h
        obtain ⟨who, found⟩ := ih h
        exact ⟨who, List.mem_cons_of_mem _ found⟩
    | env move | arrive who =>
      obtain ⟨who, found⟩ := ih h
      exact ⟨who, List.mem_cons_of_mem _ found⟩

namespace Machine
variable (M : Machine Op Ans World Actor Env)

def spawn (who : Actor) : Thread Op Ans Actor := ⟨who, M.code who⟩

/-- A world with one fresh thread for each actor. -/
def init (w : World) (actors : List Actor) : Conf Op Ans World Actor := ⟨w, actors.map M.spawn⟩

inductive Step : Conf Op Ans World Actor → Event Op Ans Actor Env → Conf Op Ans World Actor → Prop where
  | act {c : Conf Op Ans World Actor} {i : Nat} {who : Actor} {op : Op} {k : Ans op → Program Op Ans Unit}
      {ans : Ans op} (at_ : c.pool[i]? = some ⟨who, .call op k⟩) (permitted : M.permits c.world op ans = true) :
      Step c (.act i who op ans)
        ⟨M.effect c.world op ans, c.pool.set i ⟨who, k ans⟩ ++ (M.forks op).map M.spawn⟩
  | env {c : Conf Op Ans World Actor} {move : Env} (permitted : M.envPermits c.world move = true) :
      Step c (.env move) ⟨M.envEffect c.world move, c.pool⟩
  | arrive {c : Conf Op Ans World Actor} {who : Actor} (arrives : M.arrives who = true) :
      Step c (.arrive who) ⟨c.world, c.pool ++ [M.spawn who]⟩

/-- The runs from `c₀` all of whose steps satisfy `ok`, with their events. -/
inductive Run (ok : History Op Ans Actor Env → Conf Op Ans World Actor → Event Op Ans Actor Env → Prop)
    (c₀ : Conf Op Ans World Actor) : History Op Ans Actor Env → Conf Op Ans World Actor → Prop where
  | start : Run ok c₀ [] c₀
  | step {hist : History Op Ans Actor Env} {c c' : Conf Op Ans World Actor} {e : Event Op Ans Actor Env}
      (before : Run ok c₀ hist c) (met : ok hist c e) (next : M.Step c e c') : Run ok c₀ (e :: hist) c'

/-- No condition on the steps: every interleaving. -/
def anyStep : History Op Ans Actor Env → Conf Op Ans World Actor → Event Op Ans Actor Env → Prop :=
  fun _ _ _ => True

/-- The actors a step adds to the pool. -/
def Starts : Event Op Ans Actor Env → Actor → Prop
  | .act _ _ op _, who => who ∈ M.forks op
  | .env _, _ => False
  | .arrive new, who => new = who ∧ M.arrives who = true

variable {M}
variable {ok : History Op Ans Actor Env → Conf Op Ans World Actor → Event Op Ans Actor Env → Prop}
variable {c c' c₀ : Conf Op Ans World Actor} {e : Event Op Ans Actor Env} {hist : History Op Ans Actor Env}

theorem Run.weaken {ok' : History Op Ans Actor Env → Conf Op Ans World Actor → Event Op Ans Actor Env → Prop}
    (weaker : ∀ hist c e, ok hist c e → ok' hist c e) (run : M.Run ok c₀ hist c) : M.Run ok' c₀ hist c := by
  induction run with
  | start => exact .start
  | step _ met next ih => exact .step ih (weaker _ _ _ met) next

theorem Run.met (run : M.Run ok c₀ hist c) (member : e ∈ hist) :
    ∃ before c', M.Run ok c₀ before c' ∧ ok before c' e := by
  induction run with
  | start => cases member
  | step before met next ih =>
    rcases List.mem_cons.mp member with rfl | old
    · exact ⟨_, _, before, met⟩
    · exact ih old

/-- A condition that the run so far entails may be added to its steps. -/
theorem Run.reinforce {ok' : History Op Ans Actor Env → Conf Op Ans World Actor → Event Op Ans Actor Env → Prop}
    (entails : ∀ {hist c e}, M.Run ok c₀ hist c → ok hist c e → ok' hist c e) (run : M.Run ok c₀ hist c) :
    M.Run ok' c₀ hist c := by
  induction run with
  | start => exact .start
  | step before met next ih => exact .step ih (entails before met) next

/-- Where the thread at `j` comes from: it did not act, it acted, or the step added it. -/
theorem Step.origin (h : M.Step c e c') {j : Nat} {th : Thread Op Ans Actor} (found : c'.pool[j]? = some th) :
    (c.pool[j]? = some th ∧ past j [e] = []) ∨
    (∃ op k ans, c.pool[j]? = some ⟨th.who, .call op k⟩ ∧ e = .act j th.who op ans ∧ th.code = k ans) ∨
    (c.pool.length ≤ j ∧ th = M.spawn th.who ∧ M.Starts e th.who) := by
  cases h with
  | @act i who op k ans at_ permitted =>
    simp only [List.getElem?_append, List.length_set] at found
    split at found
    · rename_i inside
      by_cases same : i = j
      · subst same
        rw [List.getElem?_set_self inside] at found
        obtain rfl := Option.some.inj found
        exact .inr (.inl ⟨op, k, ans, at_, rfl, rfl⟩)
      · rw [List.getElem?_set_ne same] at found
        exact .inl ⟨found, by simp [past, same]⟩
    · rename_i outside
      obtain ⟨new, member, same⟩ := List.mem_map.mp (List.mem_of_getElem? found)
      subst same
      exact .inr (.inr ⟨Nat.le_of_not_lt outside, rfl, member⟩)
  | env permitted => exact .inl ⟨found, rfl⟩
  | @arrive who arrives =>
    simp only [List.getElem?_append] at found
    split at found
    · exact .inl ⟨found, rfl⟩
    · rename_i outside
      obtain rfl := List.mem_singleton.mp (List.mem_of_getElem? found)
      exact .inr (.inr ⟨Nat.le_of_not_lt outside, rfl, rfl, arrives⟩)

theorem Step.pool_length (h : M.Step c e c') : c.pool.length ≤ c'.pool.length := by
  cases h <;> simp

theorem Step.keeps (h : M.Step c e c') {j : Nat} {th : Thread Op Ans Actor} (found : c.pool[j]? = some th) :
    ∃ code, c'.pool[j]? = some ⟨th.who, code⟩ := by
  have bound : j < c.pool.length := (List.getElem?_eq_some_iff.mp found).1
  cases h with
  | @act i who op k ans at_ permitted =>
    simp only [List.getElem?_append, List.length_set, bound, ↓reduceIte]
    by_cases same : i = j
    · subst same
      rw [List.getElem?_set_self bound]
      rw [at_] at found
      obtain rfl := Option.some.inj found
      exact ⟨_, rfl⟩
    · rw [List.getElem?_set_ne same, found]
      exact ⟨th.code, rfl⟩
  | env permitted => exact ⟨th.code, found⟩
  | arrive arrives =>
    simp only [List.getElem?_append, bound, ↓reduceIte]
    exact ⟨th.code, found⟩

theorem Step.past_outside (h : M.Step c e c') {j : Nat} (outside : c.pool.length ≤ j) :
    past j (e :: hist) = past j hist := by
  cases h with
  | act at_ permitted =>
    have inside := (List.getElem?_eq_some_iff.mp at_).1
    exact past_act_ne (by omega) _ _ _ _
  | env permitted | arrive arrives => rfl

theorem Run.past_outside (run : M.Run ok c₀ hist c) {j : Nat} (outside : c.pool.length ≤ j) :
    past j hist = [] := by
  induction run with
  | start => rfl
  | step before met next ih =>
    have bound := Nat.le_trans next.pool_length outside
    rw [next.past_outside bound, ih bound]

theorem past_cons (j : Nat) (e : Event Op Ans Actor Env) (hist : History Op Ans Actor Env) :
    past j (e :: hist) = past j [e] ++ past j hist := by
  cases e with
  | act i who op ans => by_cases same : i = j <;> simp [past, same]
  | env move | arrive who => rfl

/-- The rule of contracts: code that meets its contract from the start still meets it after
what its thread has done, provided every step's answer was as expected. -/
theorem Run.meets_end {w : World} {actors : List Actor} (C : Actor → Contract Op Ans)
    (ends : Actor → Past Op Ans → Prop) (spawned : ∀ who, (M.code who).Meets (C who) [] fun _ => ends who)
    (expected : ∀ {hist c i who op k ans}, M.Run ok (M.init w actors) hist c →
      ok hist c (.act i who op ans) → c.pool[i]? = some ⟨who, .call op k⟩ →
      M.permits c.world op ans = true → (C who).expect (past i hist) op ans)
    (run : M.Run ok (M.init w actors) hist c) :
    ∀ {j : Nat} {th : Thread Op Ans Actor}, c.pool[j]? = some th →
      th.code.Meets (C th.who) (past j hist) fun _ => ends th.who := by
  induction run with
  | start =>
    intro j th found
    obtain ⟨who, _, rfl⟩ := List.mem_map.mp (List.mem_of_getElem? found)
    exact spawned who
  | @step hist c c' e before met next ih =>
    intro j th found
    rcases next.origin found with ⟨old, other⟩ | ⟨op, k, ans, old, rfl, code⟩ | ⟨outside, fresh, _⟩
    · rw [past_cons, other]
      exact ih old
    · have allowed := ih old
      cases next with
      | act at_ permitted =>
        rw [code, past_act]
        exact allowed.2 ans (expected before met old permitted)
    · rw [next.past_outside outside, before.past_outside outside, fresh]
      exact spawned th.who

theorem Run.meets {w : World} {actors : List Actor} (C : Actor → Contract Op Ans)
    (spawned : ∀ who, (M.code who).Meets (C who) [] fun _ _ => True)
    (expected : ∀ {hist c i who op k ans}, M.Run ok (M.init w actors) hist c →
      ok hist c (.act i who op ans) → c.pool[i]? = some ⟨who, .call op k⟩ →
      M.permits c.world op ans = true → (C who).expect (past i hist) op ans)
    (run : M.Run ok (M.init w actors) hist c) :
    ∀ {j : Nat} {th : Thread Op Ans Actor}, c.pool[j]? = some th →
      th.code.Meets (C th.who) (past j hist) fun _ _ => True :=
  run.meets_end C (fun _ _ => True) spawned expected

/-- A property of fresh code that no answer can destroy holds of every thread at any time. -/
theorem Run.threads {w : World} {actors : List Actor} (P : Actor → Program Op Ans Unit → Prop)
    (spawned : ∀ who, P who (M.code who))
    (next : ∀ who op (k : Ans op → Program Op Ans Unit) ans, P who (.call op k) → P who (k ans))
    (run : M.Run ok (M.init w actors) hist c) {j : Nat} {th : Thread Op Ans Actor}
    (found : c.pool[j]? = some th) : P th.who th.code := by
  induction run generalizing j th with
  | start =>
    obtain ⟨who, _, rfl⟩ := List.mem_map.mp (List.mem_of_getElem? found)
    exact spawned who
  | step before met step ih =>
    rcases step.origin found with ⟨old, _⟩ | ⟨op, k, ans, old, _, code⟩ | ⟨_, fresh, _⟩
    · exact ih old
    · rw [code]
      exact next _ _ _ _ (ih old)
    · rw [fresh]
      exact spawned _

/-- A guard that stands at the start, and that only target operations bring down, stands as long
as no thread leads to a target; and no thread does, as long as the answers are those that the
guard allows. -/
theorem Run.shielded {w : World} {actors : List Actor} (may : (op : Op) → Ans op → Prop) (guard : World → Prop)
    (target : Actor → Op → Prop)
    (answers : ∀ {hist c i who op ans}, ok hist c (.act i who op ans) → guard c.world →
      M.permits c.world op ans = true → may op ans)
    (keeps : ∀ {v who op ans}, guard v → M.permits v op ans = true → ¬ target who op → guard (M.effect v op ans))
    (env : ∀ {v move}, guard v → guard (M.envEffect v move))
    (hands : ∀ {who op new}, ¬ target who op → new ∈ M.forks op → ¬ (M.code new).Reaches may (target new))
    (arrivals : ∀ {hist c who}, ok hist c (.arrive who) → M.arrives who = true →
    ¬ (M.code who).Reaches may (target who))
    (fresh : ∀ who ∈ actors, ¬ (M.code who).Reaches may (target who)) (start : guard w)
    (run : M.Run ok (M.init w actors) hist c) :
    guard c.world ∧ ∀ {j : Nat} {th : Thread Op Ans Actor}, c.pool[j]? = some th →
      ¬ th.code.Reaches may (target th.who) := by
  induction run with
  | start =>
    refine ⟨start, fun found => ?_⟩
    obtain ⟨who, member, rfl⟩ := List.mem_map.mp (List.mem_of_getElem? found)
    exact fresh who member
  | @step hist c c' e before met next ih =>
    obtain ⟨stands, quiet⟩ := ih
    refine ⟨?_, fun {j th} found reaches => ?_⟩
    · cases next with
      | act at_ permitted => exact keeps stands permitted fun acts => quiet at_ (.inl acts)
      | env permitted => exact env stands
      | arrive arrives => exact stands
    · rcases next.origin found with ⟨old, _⟩ | ⟨op, k, ans, old, rfl, code⟩ | ⟨_, new, starts⟩
      · exact quiet old reaches
      · rw [code] at reaches
        cases next with
        | act at_ permitted => exact quiet old (.inr ⟨ans, answers met stands permitted, reaches⟩)
      · have code : th.code = M.code th.who := congrArg Thread.code new
        rw [code] at reaches
        cases next with
        | act at_ permitted => exact hands (fun acts => quiet at_ (.inl acts)) starts reaches
        | env permitted => exact starts
        | arrive arrives =>
          obtain ⟨rfl, _⟩ := starts
          exact arrivals met arrives reaches

/-- Two related worlds that allow the same steps have runs with the same events. -/
theorem Run.transport {check : Event Op Ans Actor Env → Prop} (R : World → World → Prop)
    (act : ∀ {hist c} {i : Nat} {who op} {k : Ans op → Program Op Ans Unit} {ans v},
      M.Run (fun _ _ => check) c₀ hist c → R c.world v →
      c.pool[i]? = some ⟨who, .call op k⟩ → M.permits c.world op ans = true →
      M.permits v op ans = true ∧ R (M.effect c.world op ans) (M.effect v op ans))
    (env : ∀ {w v move}, R w v → M.envPermits w move = true →
      M.envPermits v move = true ∧ R (M.envEffect w move) (M.envEffect v move))
    {v₀ : World} (related : R c₀.world v₀) (run : M.Run (fun _ _ => check) c₀ hist c) :
    ∃ v, M.Run (fun _ _ => check) ⟨v₀, c₀.pool⟩ hist ⟨v, c.pool⟩ ∧ R c.world v := by
  induction run with
  | start => exact ⟨v₀, .start, related⟩
  | step before met next ih =>
    obtain ⟨v, run, related⟩ := ih
    cases next with
    | act at_ permitted =>
      obtain ⟨permitted', related'⟩ := act before related at_ permitted
      exact ⟨_, run.step met (.act at_ permitted'), related'⟩
    | env permitted =>
      obtain ⟨permitted', related'⟩ := env related permitted
      exact ⟨_, run.step met (.env permitted'), related'⟩
    | arrive arrives => exact ⟨v, run.step met (.arrive arrives), related⟩

end Machine
end Concurrency
