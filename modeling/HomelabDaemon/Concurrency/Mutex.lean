import HomelabDaemon.Concurrency.Pool

/-!
# Mutexes

A family of mutexes, one for each key. Code that takes one at a time and frees only what it
holds makes every mutex exclusive: of two threads that hold the same key, both are the same.
-/

namespace Concurrency
variable {Op : Type} {Ans : Op → Type} {World Actor Env Key : Type}

/-- Which operations take and free a key, and which keys are taken in a world. -/
structure Mutexes (M : Machine Op Ans World Actor Env) (Key : Type) where
  takes : Op → Option Key
  frees : Op → Option Key
  taken : World → Key → Prop
  take : ∀ {w op ans key}, M.permits w op ans = true → takes op = some key → ¬ taken w key
  effect : ∀ {w op ans key}, taken (M.effect w op ans) key ↔ takes op = some key ∨ taken w key ∧ frees op ≠ some key
  env : ∀ {w move key}, taken (M.envEffect w move) key ↔ taken w key

namespace Mutexes
variable {M : Machine Op Ans World Actor Env} (X : Mutexes M Key)

/-- The key that a thread holds after its past. -/
def held : Past Op Ans → Option Key
  | [] => none
  | act :: past =>
    match X.takes act.1 with
    | some key => some key
    | none => if (X.frees act.1).isSome then none else held past

theorem held_cons_other {op : Op} {ans : Ans op} {past : Past Op Ans} (noTake : X.takes op = none)
    (noFree : X.frees op = none) : X.held (⟨op, ans⟩ :: past) = X.held past := by
  simp [held, noTake, noFree]

/-- One key at a time, and only what is held is freed. -/
def Disciplined (past : Past Op Ans) (op : Op) : Prop :=
  ((X.takes op).isSome → X.held past = none) ∧ ∀ key, X.frees op = some key → X.held past = some key

structure Exclusive (hist : History Op Ans Actor Env) (c : Conf Op Ans World Actor) : Prop where
  taken : ∀ i key, X.held (past i hist) = some key → X.taken c.world key
  unique : ∀ i j key, X.held (past i hist) = some key → X.held (past j hist) = some key → i = j

variable {ok : History Op Ans Actor Env → Conf Op Ans World Actor → Event Op Ans Actor Env → Prop}
variable {c c' c₀ : Conf Op Ans World Actor} {e : Event Op Ans Actor Env} {hist : History Op Ans Actor Env}

theorem held_step {i j : Nat} {who : Actor} {op : Op} {ans : Ans op} {key : Key}
    (h : X.held (past j (.act i who op ans :: hist)) = some key) :
    (j = i ∧ X.takes op = some key) ∨
    (X.held (past j hist) = some key ∧ (j = i → X.takes op = none ∧ X.frees op = none)) := by
  by_cases same : i = j
  · subst same
    rw [past_act] at h
    unfold held at h
    split at h
    · rename_i key' takes
      exact .inl ⟨rfl, takes.trans h⟩
    · rename_i noTake
      split at h
      · cases h
      · rename_i noFree
        exact .inr ⟨h, fun _ => ⟨noTake, by simpa using noFree⟩⟩
  · rw [past_act_ne same] at h
    exact .inr ⟨h, fun eq => absurd eq.symm same⟩

theorem exclusive_step (h : X.Exclusive hist c) (next : M.Step c e c')
    (disciplined : ∀ i who op ans, e = .act i who op ans → X.Disciplined (past i hist) op) :
    X.Exclusive (e :: hist) c' := by
  cases next with
  | @act i who op k ans at_ permitted =>
    have orderly := disciplined i who op ans rfl
    have stays : ∀ j key, X.held (past j hist) = some key → (j = i → X.frees op = none) →
        X.taken (M.effect c.world op ans) key := by
      intro j key holds kept
      refine X.effect.mpr (.inr ⟨h.taken j key holds, fun frees => ?_⟩)
      have mine := orderly.2 key frees
      have noFree := kept (h.unique j i key holds mine)
      rw [noFree] at frees
      cases frees
    constructor
    · intro j key holds
      rcases X.held_step holds with ⟨_, takes⟩ | ⟨old, kept⟩
      · exact X.effect.mpr (.inl takes)
      · exact stays j key old fun same => (kept same).2
    · intro j l key first second
      rcases X.held_step first with ⟨rfl, takes⟩ | ⟨old, _⟩ <;>
        rcases X.held_step second with ⟨rfl, takes'⟩ | ⟨old', _⟩
      · rfl
      · exact absurd (h.taken l key old') (X.take permitted takes)
      · exact absurd (h.taken j key old) (X.take permitted takes')
      · exact h.unique j l key old old'
  | env permitted => exact ⟨fun j key holds => X.env.mpr (h.taken j key holds), h.unique⟩
  | arrive arrives => exact ⟨h.taken, h.unique⟩

/-- Disciplined code keeps every mutex exclusive in every run. -/
theorem run_exclusive {w : World} {actors : List Actor}
    (disciplined : ∀ {hist c i who op k}, M.Run ok (M.init w actors) hist c →
      c.pool[i]? = some ⟨who, .call op k⟩ → X.Disciplined (past i hist) op)
    (run : M.Run ok (M.init w actors) hist c) : X.Exclusive hist c := by
  induction run with
  | start => exact ⟨fun _ _ holds => (nomatch holds), fun _ _ _ holds => (nomatch holds)⟩
  | step before met next ih =>
    refine X.exclusive_step ih next ?_
    rintro i who op ans rfl
    cases next with
    | act at_ permitted => exact disciplined before at_

/-! ### Progress

Where an operation waits for nothing but a taken key, and no code ends with one, the holder of a
key frees it by its own steps. So nobody waits for somebody who waits.
-/

/-- Code that keeps to the discipline frees what it took before it ends. -/
def contract : Contract Op Ans where
  allow := X.Disciplined

structure Orderly : Prop where
  code : ∀ who, (M.code who).Meets X.contract [] fun _ past => X.held past = none
  waits : ∀ {w op}, (∀ ans, M.permits w op ans = false) → ∃ key, X.takes op = some key ∧ X.taken w key

/-- Every taken key is held by a thread. -/
def Covered (hist : History Op Ans Actor Env) (c : Conf Op Ans World Actor) : Prop :=
  ∀ key, X.taken c.world key → ∃ i, X.held (past i hist) = some key

theorem getElem?_acted {pool new : List (Thread Op Ans Actor)} {i : Nat} {old th : Thread Op Ans Actor}
    (at_ : pool[i]? = some old) : (pool.set i th ++ new)[i]? = some th := by
  have inside := (List.getElem?_eq_some_iff.mp at_).1
  rw [List.getElem?_append_left (by rwa [List.length_set]), List.getElem?_set_self inside]

theorem getElem?_acted_ne {pool new : List (Thread Op Ans Actor)} {i j : Nat} {old th : Thread Op Ans Actor}
    (other : i ≠ j) (at_ : pool[i]? = some old) : (pool.set j th ++ new)[i]? = some old := by
  have inside := (List.getElem?_eq_some_iff.mp at_).1
  rw [List.getElem?_append_left (by rwa [List.length_set]), List.getElem?_set_ne other.symm, at_]

/-- Steps of thread `j`. -/
def Alone (j : Nat) (more : History Op Ans Actor Env) : Prop :=
  ∀ e ∈ more, ∃ who op ans, e = .act j who op ans

theorem held_stays {past : Past Op Ans} {op : Op} {ans : Ans op} {key : Key} (orderly : X.Disciplined past op)
    (holds : X.held past = some key) (kept : X.frees op ≠ some key) : X.held (⟨op, ans⟩ :: past) = some key := by
  have noTake : X.takes op = none := by
    by_contra takes
    have free := orderly.1 (Option.isSome_iff_ne_none.mpr takes)
    rw [holds] at free
    cases free
  have noFree : X.frees op = none := by
    by_contra frees
    obtain ⟨key', is⟩ := Option.ne_none_iff_exists'.mp frees
    have mine := orderly.2 key' is
    rw [holds] at mine
    exact kept (is.trans mine.symm)
  rw [X.held_cons_other noTake noFree, holds]

theorem covered_step (h : X.Covered hist c) (next : M.Step c e c')
    (disciplined : ∀ i who op ans, e = .act i who op ans → X.Disciplined (past i hist) op) :
    X.Covered (e :: hist) c' := by
  cases next with
  | @act i who op k ans at_ permitted =>
    intro key taken
    rcases X.effect.mp taken with takes | ⟨old, kept⟩
    · refine ⟨i, ?_⟩
      rw [past_act]
      simp [held, takes]
    · obtain ⟨j, holds⟩ := h key old
      refine ⟨j, ?_⟩
      by_cases same : i = j
      · subst same
        rw [past_act]
        exact X.held_stays (disciplined i who op ans rfl) holds kept
      · rwa [past_act_ne same]
  | env permitted => exact fun key taken => h key (X.env.mp taken)
  | arrive arrives => exact h

namespace Orderly
variable {X} {w : World} {actors : List Actor} {who : Actor} {code : Program Op Ans Unit} {j : Nat} {key : Key}

theorem meets (h : X.Orderly) (run : M.Run ok (M.init w actors) hist c) (at_ : c.pool[j]? = some ⟨who, code⟩) :
    code.Meets X.contract (past j hist) fun _ past => X.held past = none :=
  run.meets_end (fun _ => X.contract) (fun _ past => X.held past = none) h.code (fun _ _ _ _ => trivial) at_

theorem disciplined (h : X.Orderly) {op : Op} {k : Ans op → Program Op Ans Unit}
    (run : M.Run ok (M.init w actors) hist c) (at_ : c.pool[j]? = some ⟨who, .call op k⟩) :
    X.Disciplined (past j hist) op := (h.meets run at_).1

theorem covered (h : X.Orderly) (fresh : ∀ key, ¬ X.taken w key) (run : M.Run ok (M.init w actors) hist c) :
    X.Covered hist c := by
  induction run with
  | start => exact fun key taken => absurd taken (fresh key)
  | step before met next ih =>
    refine X.covered_step ih next ?_
    rintro i who op ans rfl
    cases next with
    | act at_ permitted => exact h.disciplined before at_

/-- Who holds a key does not wait. -/
theorem holder_goes (h : X.Orderly) {op : Op} {k : Ans op → Program Op Ans Unit}
    (run : M.Run ok (M.init w actors) hist c) (at_ : c.pool[j]? = some ⟨who, .call op k⟩)
    (holds : X.held (past j hist) = some key) : ∃ ans, M.permits c.world op ans = true := by
  by_contra stuck
  obtain ⟨key', takes, _⟩ := h.waits fun ans => eq_false_of_ne_true fun permitted => stuck ⟨ans, permitted⟩
  have free := (h.disciplined run at_).1 (by rw [takes]; rfl)
  rw [holds] at free
  cases free

/-- The holder of a key frees it by steps of its own; the other threads stay as they are. -/
theorem frees (h : X.Orderly) (run : M.Run Machine.anyStep (M.init w actors) hist c)
    (at_ : c.pool[j]? = some ⟨who, code⟩) (holds : X.held (past j hist) = some key) :
    ∃ more c', M.Run Machine.anyStep (M.init w actors) (more ++ hist) c' ∧ Alone j more ∧
      ¬ X.taken c'.world key ∧ ∀ i th, i ≠ j → c.pool[i]? = some th → c'.pool[i]? = some th := by
  induction code generalizing hist c with
  | done a =>
    have free : X.held (past j hist) = none := h.meets run at_
    rw [holds] at free
    cases free
  | call op k ih =>
    have orderly := h.disciplined run at_
    obtain ⟨ans, permitted⟩ := h.holder_goes run at_ holds
    have step := Machine.Step.act at_ permitted
    have first := run.step trivial step
    have mine : ∀ e ∈ ([.act j who op ans] : History Op Ans Actor Env), ∃ who op ans, e = .act j who op ans := by
      intro e member
      exact ⟨who, op, ans, List.mem_singleton.mp member⟩
    by_cases ends : X.frees op = some key
    · refine ⟨_, _, first, mine, ?_, fun i th other found => getElem?_acted_ne other found⟩
      intro taken
      rcases X.effect.mp taken with takes | ⟨_, kept⟩
      · have free := orderly.1 (by rw [takes]; rfl)
        rw [holds] at free
        cases free
      · exact kept ends
    · have still : X.held (past j (.act j who op ans :: hist)) = some key := by
        rw [past_act]
        exact X.held_stays orderly holds ends
      obtain ⟨more, c', rest, alone, free, stay⟩ := ih ans first (getElem?_acted at_) still
      refine ⟨more ++ [.act j who op ans], c', ?_, ?_, free, ?_⟩
      · rwa [List.append_assoc, List.singleton_append]
      · intro e member
        rcases List.mem_append.mp member with later | now
        · exact alone e later
        · exact mine e now
      · exact fun i th other found => stay i th other (getElem?_acted_ne other found)

end Orderly

end Mutexes
end Concurrency
