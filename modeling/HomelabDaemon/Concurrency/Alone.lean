import HomelabDaemon.Concurrency.Pool

/-!
# Programs without interference, and schedules

`Alone` is the big-step meaning of a program that no other thread disturbs, with the operations
it performed. `Alone.run` embeds it in the interleavings. A schedule plays a run step by step
with the answers an oracle gives; `play_run` turns a successful play into a run.
-/

namespace Concurrency
namespace Machine
variable {Op : Type} {Ans : Op → Type} {World Actor Env Oracle : Type} {α β : Type}
variable (M : Machine Op Ans World Actor Env)

def Alone : Program Op Ans α → World → List (Act Op Ans) → α → World → Prop
  | .done a, w, trace, res, w' => trace = [] ∧ res = a ∧ w' = w
  | .call op k, w, trace, res, w' => ∃ ans rest, trace = ⟨op, ans⟩ :: rest ∧
      M.permits w op ans = true ∧ Alone (k ans) (M.effect w op ans) rest res w'

variable {M}

@[simp] theorem alone_done {a res : α} {w w' : World} {trace : List (Act Op Ans)} :
    M.Alone (.done a) w trace res w' ↔ trace = [] ∧ res = a ∧ w' = w := Iff.rfl

@[simp] theorem alone_call {op : Op} {k : Ans op → Program Op Ans α} {res : α} {w w' : World}
    {trace : List (Act Op Ans)} :
    M.Alone (.call op k) w trace res w' ↔ ∃ ans rest, trace = ⟨op, ans⟩ :: rest ∧
      M.permits w op ans = true ∧ M.Alone (k ans) (M.effect w op ans) rest res w' := Iff.rfl

theorem alone_bind {p : Program Op Ans α} {f : α → Program Op Ans β} {w w' : World} {res : β}
    {trace : List (Act Op Ans)} :
    M.Alone (p >>= f) w trace res w' ↔ ∃ first rest a mid, trace = first ++ rest ∧
      M.Alone p w first a mid ∧ M.Alone (f a) mid rest res w' := by
  induction p generalizing w trace with
  | done a =>
    simp only [Program.done_bind, alone_done]
    constructor
    · intro h
      exact ⟨[], trace, a, w, rfl, ⟨rfl, rfl, rfl⟩, h⟩
    · rintro ⟨_, rest, _, _, rfl, ⟨rfl, rfl, rfl⟩, h⟩
      exact h
  | call op k ih =>
    simp only [Program.call_bind, alone_call, ih]
    constructor
    · rintro ⟨ans, _, rfl, permitted, first, rest, a, mid, rfl, h₁, h₂⟩
      exact ⟨_, rest, a, mid, rfl, ⟨ans, first, rfl, permitted, h₁⟩, h₂⟩
    · rintro ⟨_, rest, a, mid, rfl, ⟨ans, first, rfl, permitted, h₁⟩, h₂⟩
      exact ⟨ans, _, rfl, permitted, first, rest, a, mid, rfl, h₁, h₂⟩

theorem Alone.uses {P : Op → Prop} {p : Program Op Ans α} {w w' : World} {res : α} {trace : List (Act Op Ans)}
    (h : p.Uses P) (alone : M.Alone p w trace res w') : ∀ act ∈ trace, P act.1 := by
  induction p generalizing w trace with
  | done a =>
    obtain ⟨rfl, _⟩ := alone
    exact fun act member => nomatch member
  | call op k ih =>
    obtain ⟨ans, rest, rfl, _, alone⟩ := alone
    intro act member
    rcases List.mem_cons.mp member with rfl | member
    · exact h.1
    · exact ih ans (h.2 ans) alone act member

/-- The one way in which a program alone runs. -/
structure Surely (M : Machine Op Ans World Actor Env) (p : Program Op Ans α) (w : World) (trace : List (Act Op Ans))
    (res : α) (w' : World) : Prop where
  runs : M.Alone p w trace res w'
  only : ∀ {trace' res' v}, M.Alone p w trace' res' v → trace' = trace ∧ res' = res ∧ v = w'

namespace Surely
variable {w w' mid : World} {trace trace' : List (Act Op Ans)}

theorem done (a : α) (w : World) : M.Surely (.done a) w [] a w := ⟨⟨rfl, rfl, rfl⟩, fun h => h⟩

theorem perform {op : Op} {ans : Ans op} (permitted : M.permits w op ans = true)
    (sure : ∀ ans', M.permits w op ans' = true → ans' = ans) :
    M.Surely (.perform op) w [⟨op, ans⟩] ans (M.effect w op ans) := by
  refine ⟨⟨ans, [], rfl, permitted, rfl, rfl, rfl⟩, ?_⟩
  rintro _ _ _ ⟨ans', _, rfl, permitted', rfl, rfl, rfl⟩
  obtain rfl := sure _ permitted'
  exact ⟨rfl, rfl, rfl⟩

theorem bind {p : Program Op Ans α} {f : α → Program Op Ans β} {a : α} {res : β} (first : M.Surely p w trace a mid)
    (rest : M.Surely (f a) mid trace' res w') : M.Surely (p >>= f) w (trace ++ trace') res w' := by
  refine ⟨alone_bind.mpr ⟨trace, trace', a, mid, rfl, first.runs, rest.runs⟩, fun alone => ?_⟩
  obtain ⟨_, _, _, _, rfl, ran, later⟩ := alone_bind.mp alone
  obtain ⟨rfl, rfl, rfl⟩ := first.only ran
  obtain ⟨rfl, rfl, rfl⟩ := rest.only later
  exact ⟨rfl, rfl, rfl⟩

end Surely

/-- The results and worlds that a program alone may end with. -/
def Ends (M : Machine Op Ans World Actor Env) (p : Program Op Ans α) (w : World) (res : α) (w' : World) : Prop :=
  ∃ trace, M.Alone p w trace res w'

@[simp] theorem ends_done {a res : α} {w w' : World} : M.Ends (.done a) w res w' ↔ res = a ∧ w' = w :=
  ⟨fun ⟨_, _, same⟩ => same, fun same => ⟨[], rfl, same⟩⟩

theorem ends_call {op : Op} {k : Ans op → Program Op Ans α} {res : α} {w w' : World} :
    M.Ends (.call op k) w res w' ↔
      ∃ ans, M.permits w op ans = true ∧ M.Ends (k ans) (M.effect w op ans) res w' := by
  constructor
  · rintro ⟨_, ans, rest, _, permitted, alone⟩
    exact ⟨ans, permitted, rest, alone⟩
  · rintro ⟨ans, permitted, rest, alone⟩
    exact ⟨_, ans, rest, rfl, permitted, alone⟩

theorem ends_perform {op : Op} {ans : Ans op} {w w' : World} :
    M.Ends (.perform op) w ans w' ↔ M.permits w op ans = true ∧ w' = M.effect w op ans := by
  unfold Program.perform
  rw [ends_call]
  constructor
  · rintro ⟨ans', permitted, ended⟩
    obtain ⟨rfl, rfl⟩ := ends_done.mp ended
    exact ⟨permitted, rfl⟩
  · rintro ⟨permitted, rfl⟩
    exact ⟨ans, permitted, ends_done.mpr ⟨rfl, rfl⟩⟩

theorem ends_bind {p : Program Op Ans α} {f : α → Program Op Ans β} {w w' : World} {res : β} :
    M.Ends (p >>= f) w res w' ↔ ∃ a mid, M.Ends p w a mid ∧ M.Ends (f a) mid res w' := by
  constructor
  · rintro ⟨trace, alone⟩
    obtain ⟨first, rest, a, mid, _, h₁, h₂⟩ := alone_bind.mp alone
    exact ⟨a, mid, ⟨first, h₁⟩, ⟨rest, h₂⟩⟩
  · rintro ⟨a, mid, ⟨first, h₁⟩, ⟨rest, h₂⟩⟩
    exact ⟨first ++ rest, alone_bind.mpr ⟨first, rest, a, mid, rfl, h₁, h₂⟩⟩

theorem Ends.keeps {β : Type} (view : World → β) {P : Op → Prop}
    (frame : ∀ w op ans, P op → view (M.effect w op ans) = view w)
    {p : Program Op Ans α} {w w' : World} {res : α} (uses : p.Uses P) (ended : M.Ends p w res w') :
    view w' = view w := by
  induction p generalizing w with
  | done a =>
    obtain ⟨_, rfl⟩ := ends_done.mp ended
    rfl
  | call op k ih =>
    obtain ⟨ans, _, ended⟩ := ends_call.mp ended
    rw [ih ans (uses.2 ans) ended, frame w op ans uses.1]

/-- A loop whose body only looks: it ends at the first item that yields a result. -/
theorem Ends.firstSome {γ : Type} {body : β → Program Op Ans (Option γ)} {f : β → Option γ} {xs : List β} {w w' : World}
    {res : Option γ} (each : ∀ {x r v}, M.Ends (body x) w r v → r = f x ∧ v = w)
    (ended : M.Ends (Program.firstSome body xs) w res w') : res = xs.findSome? f ∧ w' = w := by
  induction xs generalizing res w' with
  | nil => exact ends_done.mp ended
  | cons x xs ih =>
    rw [Program.firstSome, ends_bind] at ended
    obtain ⟨r, v, first, rest⟩ := ended
    obtain ⟨rfl, rfl⟩ := each first
    rw [List.findSome?_cons]
    cases found : f x with
    | some c =>
      rw [found] at rest
      exact ends_done.mp rest
    | none =>
      rw [found] at rest
      exact ih rest

section PlayAlone
variable (M) (answer : World → (op : Op) → Ans op)

/-- The program alone, with the answers of the world. -/
def playAlone : Program Op Ans α → World → Option (List (Act Op Ans) × α × World)
  | .done a, w => some ([], a, w)
  | .call op k, w =>
    if M.permits w op (answer w op) then
      (playAlone (k (answer w op)) (M.effect w op (answer w op))).map fun r => (⟨op, answer w op⟩ :: r.1, r.2)
    else none

variable {M answer}

theorem playAlone_alone {p : Program Op Ans α} {w w' : World} {trace : List (Act Op Ans)} {res : α}
    (h : playAlone M answer p w = some (trace, res, w')) : M.Alone p w trace res w' := by
  induction p generalizing w trace with
  | done a =>
    obtain ⟨rfl, rfl, rfl⟩ := Option.some.inj h
    exact ⟨rfl, rfl, rfl⟩
  | call op k ih =>
    unfold playAlone at h
    split at h
    · rename_i permitted
      obtain ⟨⟨rest, r⟩, played, same⟩ := Option.map_eq_some_iff.mp h
      cases same
      exact ⟨_, rest, rfl, permitted, ih _ played⟩
    · cases h

end PlayAlone

/-- One entry of a schedule: thread `i` performs `n` operations, answered by `oracle`. -/
inductive Move (Actor Env Oracle : Type) where
  | go (i : Nat) (oracle : Oracle) (n : Nat)
  | env (move : Env)
  | arrive (who : Actor)

section Play
variable (M) (answer : Oracle → World → (op : Op) → Ans op)
  (check : History Op Ans Actor Env → Conf Op Ans World Actor → Event Op Ans Actor Env → Bool)

/-- A history with the configuration it leads to. -/
abbrev Played (Op : Type) (Ans : Op → Type) (World Actor Env : Type) :=
  History Op Ans Actor Env × Conf Op Ans World Actor

def playOp (i : Nat) (oracle : Oracle) (s : Played Op Ans World Actor Env) :
    Option (Played Op Ans World Actor Env) :=
  match s.2.pool[i]? with
  | some ⟨who, .call op k⟩ =>
    let ans := answer oracle s.2.world op
    let e := Event.act i who op ans
    if M.permits s.2.world op ans && check s.1 s.2 e then
      some (e :: s.1, ⟨M.effect s.2.world op ans, s.2.pool.set i ⟨who, k ans⟩ ++ (M.forks op).map M.spawn⟩)
    else none
  | _ => none

def playOps (i : Nat) (oracle : Oracle) :
    Nat → Played Op Ans World Actor Env → Option (Played Op Ans World Actor Env)
  | 0, s => some s
  | n + 1, s => (playOp M answer check i oracle s).bind (playOps i oracle n)

def playMove (s : Played Op Ans World Actor Env) :
    Move Actor Env Oracle → Option (Played Op Ans World Actor Env)
  | .go i oracle n => playOps M answer check i oracle n s
  | .env move =>
    if M.envPermits s.2.world move && check s.1 s.2 (.env move) then
      some (.env move :: s.1, ⟨M.envEffect s.2.world move, s.2.pool⟩)
    else none
  | .arrive who =>
    if M.arrives who && check s.1 s.2 (.arrive who) then
      some (.arrive who :: s.1, ⟨s.2.world, s.2.pool ++ [M.spawn who]⟩)
    else none

def play : Played Op Ans World Actor Env → List (Move Actor Env Oracle) →
    Option (Played Op Ans World Actor Env)
  | s, [] => some s
  | s, m :: ms => (playMove M answer check s m).bind (play · ms)

variable {M answer check}
variable {c₀ : Conf Op Ans World Actor} {s t : Played Op Ans World Actor Env}

theorem playOp_run {i : Nat} {oracle : Oracle} (before : M.Run (fun h c e => check h c e = true) c₀ s.1 s.2)
    (h : playOp M answer check i oracle s = some t) : M.Run (fun h c e => check h c e = true) c₀ t.1 t.2 := by
  unfold playOp at h
  split at h
  · rename_i who op k at_
    dsimp only at h
    split at h
    · rename_i both
      obtain ⟨permitted, met⟩ := Bool.and_eq_true_iff.mp both
      obtain rfl := Option.some.inj h
      exact before.step met (.act at_ permitted)
    · cases h
  · cases h

theorem playMove_run {m : Move Actor Env Oracle} (before : M.Run (fun h c e => check h c e = true) c₀ s.1 s.2)
    (h : playMove M answer check s m = some t) : M.Run (fun h c e => check h c e = true) c₀ t.1 t.2 := by
  cases m with
  | go i oracle n =>
    simp only [playMove] at h
    induction n generalizing s with
    | zero =>
      obtain rfl := Option.some.inj h
      exact before
    | succ n ih =>
      obtain ⟨mid, first, h⟩ := Option.bind_eq_some_iff.mp h
      exact ih (playOp_run before first) h
  | env move =>
    simp only [playMove] at h
    split at h
    · rename_i both
      obtain ⟨permitted, met⟩ := Bool.and_eq_true_iff.mp both
      obtain rfl := Option.some.inj h
      exact before.step met (.env permitted)
    · cases h
  | arrive who =>
    simp only [playMove] at h
    split at h
    · rename_i both
      obtain ⟨arrives, met⟩ := Bool.and_eq_true_iff.mp both
      obtain rfl := Option.some.inj h
      exact before.step met (.arrive arrives)
    · cases h

theorem play_run {ms : List (Move Actor Env Oracle)} (before : M.Run (fun h c e => check h c e = true) c₀ s.1 s.2)
    (h : play M answer check s ms = some t) : M.Run (fun h c e => check h c e = true) c₀ t.1 t.2 := by
  induction ms generalizing s with
  | nil =>
    obtain rfl := Option.some.inj h
    exact before
  | cons m ms ih =>
    obtain ⟨mid, first, h⟩ := Option.bind_eq_some_iff.mp h
    exact ih (playMove_run before first) h

/-- What a schedule's end shows, some run shows. -/
theorem play_any (c₀ : Conf Op Ans World Actor) (ms : List (Move Actor Env Oracle))
    (shows : Played Op Ans World Actor Env → Bool) (h : (play M answer check ([], c₀) ms).any shows = true) :
    ∃ hist c, M.Run (fun h c e => check h c e = true) c₀ hist c ∧ shows (hist, c) = true := by
  obtain ⟨t, played, shown⟩ := (Option.any_eq_true _ _).mp h
  exact ⟨t.1, t.2, play_run .start played, shown⟩

end Play

/-- Whether thread `i` is about to perform an operation that passes the test. -/
def about (c : Conf Op Ans World Actor) (i : Nat) (test : Actor → Op → Bool) : Bool :=
  match c.pool[i]? with
  | some ⟨who, .call op _⟩ => test who op
  | _ => false

theorem about_next {c : Conf Op Ans World Actor} {i : Nat} {test : Actor → Op → Bool}
    (h : about c i test = true) :
    ∃ who op k, c.pool[i]? = some ⟨who, .call op k⟩ ∧ test who op = true := by
  unfold about at h
  split at h
  · rename_i who op k at_
    exact ⟨who, op, k, at_, h⟩
  · cases h

end Machine
end Concurrency
