import HomelabDaemon.Concurrency.Program

/-!
# What a program may do

`Reaches` says that some path of a program gets to an operation, `Returns` that some path ends
with a value; both follow only the answers that `may` admits. `Meets` is the judgement of a
contract: every operation is allowed by what the program did before, as long as the answers are
as expected. All three split at `>>=`, so they are computed along a program's text.
-/

namespace Concurrency

/-- An operation with the answer it got. -/
abbrev Act (Op : Type) (Ans : Op → Type) := (op : Op) × Ans op

/-- A thread's own operations, the newest first. -/
abbrev Past (Op : Type) (Ans : Op → Type) := List (Act Op Ans)

/-- What a thread may do after its past, and which answers it counts on. -/
structure Contract (Op : Type) (Ans : Op → Type) where
  allow : Past Op Ans → Op → Prop
  expect : Past Op Ans → (op : Op) → Ans op → Prop := fun _ _ _ => True

namespace Program
variable {Op : Type} {Ans : Op → Type} {α β γ : Type}
variable {may : (op : Op) → Ans op → Prop} {target : Op → Prop}

def Reaches (may : (op : Op) → Ans op → Prop) (target : Op → Prop) : Program Op Ans α → Prop
  | done _ => False
  | call op k => target op ∨ ∃ ans, may op ans ∧ (k ans).Reaches may target

def Returns (may : (op : Op) → Ans op → Prop) : Program Op Ans α → α → Prop
  | done a, b => a = b
  | call op k, b => ∃ ans, may op ans ∧ (k ans).Returns may b

@[simp] theorem reaches_done (a : α) : (done a : Program Op Ans α).Reaches may target ↔ False := Iff.rfl

@[simp] theorem reaches_call (op : Op) (k : Ans op → Program Op Ans α) :
    (call op k).Reaches may target ↔ target op ∨ ∃ ans, may op ans ∧ (k ans).Reaches may target := Iff.rfl

@[simp] theorem reaches_perform (op : Op) :
    (perform op : Program Op Ans _).Reaches may target ↔ target op := by
  simp [perform]

@[simp] theorem returns_done (a b : α) : (done a : Program Op Ans α).Returns may b ↔ a = b := Iff.rfl

@[simp] theorem returns_call (op : Op) (k : Ans op → Program Op Ans α) (b : α) :
    (call op k).Returns may b ↔ ∃ ans, may op ans ∧ (k ans).Returns may b := Iff.rfl

@[simp] theorem returns_bind (p : Program Op Ans α) (f : α → Program Op Ans β) (b : β) :
    (p >>= f).Returns may b ↔ ∃ a, p.Returns may a ∧ (f a).Returns may b := by
  induction p with
  | done a => simp
  | call op k ih =>
    simp only [call_bind, returns_call, ih]
    exact ⟨fun ⟨ans, m, a, h, r⟩ => ⟨a, ⟨ans, m, h⟩, r⟩, fun ⟨a, ⟨ans, m, h⟩, r⟩ => ⟨ans, m, a, h, r⟩⟩

@[simp] theorem reaches_bind (p : Program Op Ans α) (f : α → Program Op Ans β) :
    (p >>= f).Reaches may target ↔
      p.Reaches may target ∨ ∃ a, p.Returns may a ∧ (f a).Reaches may target := by
  induction p with
  | done a => simp
  | call op k ih =>
    simp only [call_bind, reaches_call, returns_call, ih]
    constructor
    · rintro (h | ⟨ans, m, h | ⟨a, r, h⟩⟩)
      · exact .inl (.inl h)
      · exact .inl (.inr ⟨ans, m, h⟩)
      · exact .inr ⟨a, ⟨ans, m, r⟩, h⟩
    · rintro ((h | ⟨ans, m, h⟩) | ⟨a, ⟨ans, m, r⟩, h⟩)
      · exact .inl h
      · exact .inr ⟨ans, m, .inl h⟩
      · exact .inr ⟨ans, m, .inr ⟨a, r, h⟩⟩

/-- A loop gets to the target only through the body of one of its items. -/
theorem reaches_each {body : β → Program Op Ans Unit} {xs : List β}
    (h : (each body xs).Reaches may target) : ∃ x ∈ xs, (body x).Reaches may target := by
  induction xs with
  | nil => exact h.elim
  | cons x xs ih =>
    rw [each, reaches_bind] at h
    rcases h with h | ⟨_, _, h⟩
    · exact ⟨x, List.mem_cons_self, h⟩
    · obtain ⟨y, member, h⟩ := ih h
      exact ⟨y, List.mem_cons_of_mem _ member, h⟩

theorem reaches_firstSome {body : β → Program Op Ans (Option γ)} {xs : List β}
    (h : (firstSome body xs).Reaches may target) : ∃ x ∈ xs, (body x).Reaches may target := by
  induction xs with
  | nil => exact h.elim
  | cons x xs ih =>
    rw [firstSome, reaches_bind] at h
    rcases h with h | ⟨r, _, h⟩
    · exact ⟨x, List.mem_cons_self, h⟩
    · cases r with
      | some c => exact h.elim
      | none =>
        obtain ⟨y, member, h⟩ := ih h
        exact ⟨y, List.mem_cons_of_mem _ member, h⟩

theorem reaches_fold {body : γ → β → Program Op Ans γ} {acc : γ} {xs : List β}
    (h : (fold body acc xs).Reaches may target) : ∃ acc', ∃ x ∈ xs, (body acc' x).Reaches may target := by
  induction xs generalizing acc with
  | nil => exact h.elim
  | cons x xs ih =>
    rw [fold, reaches_bind] at h
    rcases h with h | ⟨acc', _, h⟩
    · exact ⟨acc, x, List.mem_cons_self, h⟩
    · obtain ⟨acc'', y, member, h⟩ := ih h
      exact ⟨acc'', y, List.mem_cons_of_mem _ member, h⟩

theorem returns_fold (I : γ → Prop) {body : γ → β → Program Op Ans γ} {acc res : γ} {xs : List β}
    (keep : ∀ acc x acc', x ∈ xs → I acc → (body acc x).Returns may acc' → I acc') (start : I acc)
    (h : (fold body acc xs).Returns may res) : I res := by
  induction xs generalizing acc with
  | nil => exact (show acc = res from h) ▸ start
  | cons x xs ih =>
    rw [fold, returns_bind] at h
    obtain ⟨acc', first, h⟩ := h
    exact ih (fun a y a' m => keep a y a' (List.mem_cons_of_mem _ m))
      (keep acc x acc' List.mem_cons_self start first) h

/-- Every operation of the program is in `P`. -/
def Uses (P : Op → Prop) : Program Op Ans α → Prop
  | done _ => True
  | call op k => P op ∧ ∀ ans, (k ans).Uses P

namespace Uses
variable {P Q : Op → Prop}

theorem done (a : α) : (Program.done a : Program Op Ans α).Uses P := trivial

theorem perform {op : Op} (h : P op) : (Program.perform op : Program Op Ans _).Uses P :=
  ⟨h, fun _ => trivial⟩

theorem bind {p : Program Op Ans α} {f : α → Program Op Ans β} (first : p.Uses P)
    (rest : ∀ a, (f a).Uses P) : (p >>= f).Uses P := by
  induction p with
  | done a => exact rest a
  | call op k ih => exact ⟨first.1, fun ans => ih ans (first.2 ans)⟩

theorem each {body : β → Program Op Ans Unit} {xs : List β} (h : ∀ x, (body x).Uses P) :
    (Program.each body xs).Uses P := by
  induction xs with
  | nil => trivial
  | cons x xs ih => exact bind (h x) fun _ => ih

theorem firstSome {body : β → Program Op Ans (Option γ)} {xs : List β} (h : ∀ x, (body x).Uses P) :
    (Program.firstSome body xs).Uses P := by
  induction xs with
  | nil => trivial
  | cons x xs ih =>
    refine bind (h x) fun r => ?_
    cases r with
    | some c => trivial
    | none => exact ih

theorem fold {body : γ → β → Program Op Ans γ} {acc : γ} {xs : List β} (h : ∀ acc x, (body acc x).Uses P) :
    (Program.fold body acc xs).Uses P := by
  induction xs generalizing acc with
  | nil => trivial
  | cons x xs ih => exact bind (h acc x) fun _ => ih

theorem mono {p : Program Op Ans α} (h : p.Uses P) (wider : ∀ op, P op → Q op) : p.Uses Q := by
  induction p with
  | done a => trivial
  | call op k ih => exact ⟨wider op h.1, fun ans => ih ans (h.2 ans)⟩

theorem not_reaches {p : Program Op Ans α} (h : p.Uses P) (off : ∀ op, P op → ¬ target op) :
    ¬ p.Reaches may target := by
  induction p with
  | done a => exact fun reaches => reaches
  | call op k ih =>
    rintro (acts | ⟨ans, _, later⟩)
    · exact off op h.1 acts
    · exact ih ans (h.2 ans) later

end Uses

/-- After `past`, every operation of the program is allowed and every end satisfies `post`. -/
def Meets (C : Contract Op Ans) : Program Op Ans α → Past Op Ans → (α → Past Op Ans → Prop) → Prop
  | done a, past, post => post a past
  | call op k, past, post =>
    C.allow past op ∧ ∀ ans, C.expect past op ans → (k ans).Meets C (⟨op, ans⟩ :: past) post

variable {C : Contract Op Ans} {past : Past Op Ans} {post post' : α → Past Op Ans → Prop}

@[simp] theorem meets_done (a : α) : (done a : Program Op Ans α).Meets C past post ↔ post a past := Iff.rfl

@[simp] theorem meets_call (op : Op) (k : Ans op → Program Op Ans α) :
    (call op k).Meets C past post ↔
      C.allow past op ∧ ∀ ans, C.expect past op ans → (k ans).Meets C (⟨op, ans⟩ :: past) post := Iff.rfl

@[simp] theorem meets_perform (op : Op) {post : Ans op → Past Op Ans → Prop} :
    (perform op : Program Op Ans _).Meets C past post ↔
      C.allow past op ∧ ∀ ans, C.expect past op ans → post ans (⟨op, ans⟩ :: past) := Iff.rfl

@[simp] theorem meets_bind (p : Program Op Ans α) (f : α → Program Op Ans β)
    {post : β → Past Op Ans → Prop} :
    (p >>= f).Meets C past post ↔ p.Meets C past fun a past' => (f a).Meets C past' post := by
  induction p generalizing past with
  | done a => rfl
  | call op k ih => simp only [call_bind, meets_call, ih]

theorem Meets.mono {p : Program Op Ans α} (h : p.Meets C past post)
    (weaken : ∀ a past', post a past' → post' a past') : p.Meets C past post' := by
  induction p generalizing past with
  | done a => exact weaken _ _ h
  | call op k ih => exact ⟨h.1, fun ans expected => ih ans (h.2 ans expected)⟩

theorem meets_of_allowed (allowed : ∀ past op, C.allow past op) (p : Program Op Ans α) (past : Past Op Ans) :
    p.Meets C past fun _ _ => True := by
  induction p generalizing past with
  | done a => trivial
  | call op k ih => exact ⟨allowed past op, fun ans _ => ih ans _⟩

/-- Operations that are always allowed and keep an invariant of the past. -/
theorem Uses.meets {P : Op → Prop} (I : Past Op Ans → Prop) {p : Program Op Ans α} (h : p.Uses P)
    (allowed : ∀ past op, P op → I past → C.allow past op)
    (keep : ∀ past op ans, P op → I past → C.expect past op ans → I (⟨op, ans⟩ :: past)) (start : I past) :
    p.Meets C past fun _ => I := by
  induction p generalizing past with
  | done a => exact start
  | call op k ih =>
    exact ⟨allowed past op h.1 start, fun ans expected => ih ans (h.2 ans) (keep past op ans h.1 start expected)⟩

/-- What a program does not reach it may be forbidden. -/
theorem meets_of_not_reaches {p : Program Op Ans α} (off : ¬ p.Reaches may target)
    (allowed : ∀ past op, ¬ target op → C.allow past op)
    (expected : ∀ past op ans, C.expect past op ans → may op ans) : p.Meets C past fun _ _ => True := by
  induction p generalizing past with
  | done a => trivial
  | call op k ih =>
    refine ⟨allowed past op fun acts => off (.inl acts), fun ans expects => ih ans fun later => ?_⟩
    exact off (.inr ⟨ans, expected past op ans expects, later⟩)

/-- The loop rule: an invariant of the past that each item's body keeps. -/
theorem meets_each (I : Past Op Ans → Prop) {body : β → Program Op Ans Unit} {xs : List β}
    (keep : ∀ x ∈ xs, ∀ past, I past → (body x).Meets C past fun _ => I) (start : I past) :
    (each body xs).Meets C past fun _ => I := by
  induction xs generalizing past with
  | nil => exact start
  | cons x xs ih =>
    rw [each, meets_bind]
    exact (keep x List.mem_cons_self past start).mono fun _ _ h =>
      ih (fun y m => keep y (List.mem_cons_of_mem _ m)) h

/-! ### One path -/

/-- The program's end and its past, when `oracle` answers. -/
def follow (oracle : (op : Op) → Ans op) : Program Op Ans α → Past Op Ans → α × Past Op Ans
  | done a, past => (a, past)
  | call op k, past => (k (oracle op)).follow oracle (⟨op, oracle op⟩ :: past)

variable {oracle : (op : Op) → Ans op}

theorem follow_bind (p : Program Op Ans α) (f : α → Program Op Ans β) :
    (p >>= f).follow oracle past = (f (p.follow oracle past).1).follow oracle (p.follow oracle past).2 := by
  induction p generalizing past with
  | done a => rfl
  | call op k ih => exact ih (oracle op)

theorem follow_firstSome {body : β → Program Op Ans (Option γ)} {xs : List β} (act : β → Act Op Ans)
    (h : ∀ x ∈ xs, ∀ past, (body x).follow oracle past = (none, act x :: past)) :
    (firstSome body xs).follow oracle past = (none, (xs.map act).reverse ++ past) := by
  induction xs generalizing past with
  | nil => rfl
  | cons x xs ih =>
    rw [firstSome, follow_bind, h x List.mem_cons_self]
    rw [ih fun y member => h y (List.mem_cons_of_mem _ member)]
    simp

theorem follow_append (p : Program Op Ans α) (past : Past Op Ans) :
    p.follow oracle past = ((p.follow oracle []).1, (p.follow oracle []).2 ++ past) := by
  induction p generalizing past with
  | done a => rfl
  | call op k ih => rw [follow, follow, ih _ (_ :: past), ih _ [_], List.append_assoc, List.singleton_append]

/-- What the program ends with when the oracle answers. -/
def value (oracle : (op : Op) → Ans op) (p : Program Op Ans α) : α := (p.follow oracle []).1

/-- The program performs the operation when the oracle answers. -/
def Performs (oracle : (op : Op) → Ans op) (p : Program Op Ans α) (act : Act Op Ans) : Prop :=
  act ∈ (p.follow oracle []).2

@[simp] theorem value_done (a : α) : (done a : Program Op Ans α).value oracle = a := rfl

@[simp] theorem value_perform (op : Op) : (perform op : Program Op Ans _).value oracle = oracle op := rfl

@[simp] theorem value_bind (p : Program Op Ans α) (f : α → Program Op Ans β) :
    (p >>= f).value oracle = (f (p.value oracle)).value oracle := by
  unfold value
  rw [follow_bind, follow_append]

@[simp] theorem value_call (op : Op) (k : Ans op → Program Op Ans α) :
    (call op k).value oracle = (k (oracle op)).value oracle :=
  value_bind (perform op) k

@[simp] theorem performs_done (a : α) (act : Act Op Ans) : (done a : Program Op Ans α).Performs oracle act ↔ False := by
  simp [Performs, follow]

@[simp] theorem performs_perform (op : Op) (act : Act Op Ans) :
    (perform op : Program Op Ans _).Performs oracle act ↔ act = ⟨op, oracle op⟩ := by
  simp [Performs, perform, follow]

@[simp] theorem performs_bind (p : Program Op Ans α) (f : α → Program Op Ans β) (act : Act Op Ans) :
    (p >>= f).Performs oracle act ↔ p.Performs oracle act ∨ (f (p.value oracle)).Performs oracle act := by
  unfold Performs value
  rw [follow_bind, follow_append (f _), List.mem_append, or_comm]

@[simp] theorem performs_call (op : Op) (k : Ans op → Program Op Ans α) (act : Act Op Ans) :
    (call op k).Performs oracle act ↔ act = ⟨op, oracle op⟩ ∨ (k (oracle op)).Performs oracle act := by
  rw [← performs_perform]
  exact performs_bind (perform op) k act

/-- A loop whose body is one operation ends at the first item that yields a result. -/
theorem value_firstSome {body : β → Program Op Ans (Option γ)} {xs : List β} :
    (firstSome body xs).value oracle = xs.findSome? fun x => (body x).value oracle := by
  induction xs with
  | nil => rfl
  | cons x xs ih =>
    rw [firstSome, value_bind, List.findSome?_cons]
    cases (body x).value oracle with
    | some c => rfl
    | none => exact ih

theorem value_fold {body : γ → β → Program Op Ans γ} {acc : γ} {xs : List β} :
    (fold body acc xs).value oracle = xs.foldl (fun acc x => (body acc x).value oracle) acc := by
  induction xs generalizing acc with
  | nil => rfl
  | cons x xs ih => rw [fold, value_bind, ih, List.foldl_cons]

/-- What it performs belongs to an item, and one that yields a result is performed. -/
theorem performs_firstSome {body : β → Program Op Ans (Option γ)} {xs : List β} {act : Act Op Ans} :
    ((firstSome body xs).Performs oracle act → ∃ x ∈ xs, (body x).Performs oracle act) ∧
    (((firstSome body xs).value oracle).isSome = true → ∃ x ∈ xs, ((body x).value oracle).isSome = true ∧
      ∀ act, (body x).Performs oracle act → (firstSome body xs).Performs oracle act) := by
  induction xs with
  | nil => exact ⟨fun h => (by simp [firstSome] at h), nofun⟩
  | cons x xs ih =>
    rw [firstSome, value_bind]
    simp only [performs_bind]
    cases found : (body x).value oracle with
    | some c =>
      refine ⟨fun h => ⟨x, List.mem_cons_self, by simpa using h⟩,
        fun _ => ⟨x, List.mem_cons_self, by rw [found]; rfl, ?_⟩⟩
      exact fun act performs => .inl performs
    | none =>
      refine ⟨fun h => ?_, fun some_ => ?_⟩
      · rcases h with first | later
        · exact ⟨x, List.mem_cons_self, first⟩
        · obtain ⟨y, member, performs⟩ := ih.1 later
          exact ⟨y, List.mem_cons_of_mem x member, performs⟩
      · obtain ⟨y, member, yields, performs⟩ := ih.2 some_
        exact ⟨y, List.mem_cons_of_mem x member, yields, fun act acts => .inr (performs act acts)⟩

/-- A judgement about all paths holds of the path that an oracle of expected answers takes. -/
theorem Meets.follow {p : Program Op Ans α} (h : p.Meets C past post)
    (expected : ∀ past op, C.expect past op (oracle op)) :
    post (p.follow oracle past).1 (p.follow oracle past).2 := by
  induction p generalizing past with
  | done a => exact h
  | call op k ih => exact ih _ (h.2 _ (expected past op))

/-! ### Paths -/

/-- The program runs from one past to another and ends with the value. -/
def Path : Program Op Ans α → Past Op Ans → α → Past Op Ans → Prop
  | done a, past, b, past' => a = b ∧ past' = past
  | call op k, past, b, past' => ∃ ans, (k ans).Path (⟨op, ans⟩ :: past) b past'

@[simp] theorem path_done {a b : α} {past past' : Past Op Ans} :
    (done a : Program Op Ans α).Path past b past' ↔ a = b ∧ past' = past := Iff.rfl

@[simp] theorem path_perform {op : Op} {ans : Ans op} {past past' : Past Op Ans} :
    (perform op : Program Op Ans _).Path past ans past' ↔ past' = ⟨op, ans⟩ :: past := by
  constructor
  · rintro ⟨_, rfl, same⟩
    exact same
  · intro same
    exact ⟨ans, rfl, same⟩

theorem path_bind {p : Program Op Ans α} {f : α → Program Op Ans β} {past past' : Past Op Ans} {b : β} :
    (p >>= f).Path past b past' ↔ ∃ a mid, p.Path past a mid ∧ (f a).Path mid b past' := by
  induction p generalizing past with
  | done a => simp
  | call op k ih =>
    simp only [call_bind, Path, ih]
    constructor
    · rintro ⟨ans, a, mid, first, rest⟩
      exact ⟨a, mid, ⟨ans, first⟩, rest⟩
    · rintro ⟨a, mid, ⟨ans, first⟩, rest⟩
      exact ⟨ans, a, mid, first, rest⟩

theorem Path.suffix {p : Program Op Ans α} {past past' : Past Op Ans} {a : α} (h : p.Path past a past') :
    past <:+ past' := by
  induction p generalizing past with
  | done b =>
    obtain ⟨_, rfl⟩ := h
    exact List.suffix_refl _
  | call op k ih =>
    obtain ⟨ans, rest⟩ := h
    exact (List.suffix_cons _ _).trans (ih ans rest)

/-- Acts that the program does not perform are neither added nor lost. -/
theorem Path.filter {test : Act Op Ans → Bool} {p : Program Op Ans α} {past past' : Past Op Ans} {a : α}
    (quiet : p.Uses fun op => ∀ ans, test ⟨op, ans⟩ = false) (h : p.Path past a past') :
    past'.filter test = past.filter test := by
  induction p generalizing past with
  | done b =>
    obtain ⟨_, rfl⟩ := h
    rfl
  | call op k ih =>
    obtain ⟨ans, rest⟩ := h
    rw [ih ans (quiet.2 ans) rest, List.filter_cons, quiet.1 ans]
    rfl

theorem follow_path (p : Program Op Ans α) (past : Past Op Ans) :
    p.Path past (p.follow oracle past).1 (p.follow oracle past).2 := by
  induction p generalizing past with
  | done a => exact ⟨rfl, rfl⟩
  | call op k ih => exact ⟨oracle op, ih _ _⟩

theorem follow_answers {p : Program Op Ans α} {act : Act Op Ans} (member : act ∈ (p.follow oracle past).2) :
    act ∈ past ∨ act.2 = oracle act.1 := by
  induction p generalizing past with
  | done a => exact .inl member
  | call op k ih =>
    rcases ih _ member with new | answered
    · rcases List.mem_cons.mp new with rfl | old
      · exact .inr rfl
      · exact .inl old
    · exact .inr answered

/-- Between two pasts the program has run once, and ended with the value. -/
def Within (before past : Past Op Ans) (p : Program Op Ans α) (a : α) : Prop :=
  ∃ start stop, before <:+ start ∧ p.Path start a stop ∧ stop <:+ past

theorem Path.within {p : Program Op Ans α} {before past : Past Op Ans} {a : α} (h : p.Path before a past) :
    Within before past p a := ⟨before, past, List.suffix_refl _, h, List.suffix_refl _⟩

theorem Within.widen {p : Program Op Ans α} {before start stop past : Past Op Ans} {a : α} (h : Within start stop p a)
    (earlier : before <:+ start) (later : stop <:+ past) : Within before past p a := by
  obtain ⟨first, last, begins, path, ends⟩ := h
  exact ⟨first, last, earlier.trans begins, path, ends.trans later⟩

/-- A loop that returns nothing has run its body on every item; what it returns comes from one. -/
theorem path_firstSome {body : β → Program Op Ans (Option γ)} {xs : List β} {before past : Past Op Ans} {r : Option γ}
    (h : (firstSome body xs).Path before r past) :
    (r = none → ∀ x ∈ xs, Within before past (body x) none) ∧
      ∀ c, r = some c → ∃ x ∈ xs, Within before past (body x) (some c) := by
  induction xs generalizing before with
  | nil =>
    obtain ⟨rfl, rfl⟩ := h
    exact ⟨fun _ x member => (nomatch member), fun c some_ => (nomatch some_)⟩
  | cons x xs ih =>
    obtain ⟨first, mid, one, rest⟩ := path_bind.mp h
    cases first with
    | some c =>
      obtain ⟨rfl, rfl⟩ := rest
      refine ⟨fun none_ => (nomatch none_), fun c' same => ⟨x, List.mem_cons_self, ?_⟩⟩
      rw [← same]
      exact one.within
    | none =>
      obtain ⟨all, found⟩ := ih rest
      have grown := Path.suffix rest
      refine ⟨fun none_ y member => ?_, fun c some_ => ?_⟩
      · rcases List.mem_cons.mp member with rfl | member
        · exact one.within.widen (List.suffix_refl _) grown
        · exact (all none_ y member).widen one.suffix (List.suffix_refl _)
      · obtain ⟨y, member, at_⟩ := found c some_
        exact ⟨y, List.mem_cons_of_mem _ member, at_.widen one.suffix (List.suffix_refl _)⟩

/-- What every pass of a loop keeps true of its accumulator and the past. -/
theorem path_fold {body : γ → β → Program Op Ans γ} {xs : List β} {acc res : γ} {before past : Past Op Ans}
    (I : γ → Past Op Ans → Prop)
    (keeps : ∀ acc x res start stop, x ∈ xs → I acc start → (body acc x).Path start res stop → I res stop)
    (holds : I acc before) (h : (fold body acc xs).Path before res past) : I res past := by
  induction xs generalizing acc before with
  | nil =>
    obtain ⟨rfl, rfl⟩ := h
    exact holds
  | cons x xs ih =>
    obtain ⟨acc', mid, one, rest⟩ := path_bind.mp h
    have passed := keeps acc x acc' before mid List.mem_cons_self holds one
    exact ih (fun acc y res start stop member => keeps acc y res start stop (List.mem_cons_of_mem _ member)) passed rest

theorem path_firstSome_keeps {body : β → Program Op Ans (Option γ)} {xs : List β} {before past : Past Op Ans}
    {r : Option γ} (I : Past Op Ans → Prop) (keeps : ∀ x r start stop, I start → (body x).Path start r stop → I stop)
    (holds : I before) (h : (firstSome body xs).Path before r past) : I past := by
  induction xs generalizing before with
  | nil =>
    obtain ⟨rfl, rfl⟩ := h
    exact holds
  | cons x xs ih =>
    obtain ⟨first, mid, one, rest⟩ := path_bind.mp h
    have passed := keeps x first before mid holds one
    cases first with
    | some c =>
      obtain ⟨rfl, rfl⟩ := rest
      exact passed
    | none => exact ih passed rest

/-- A loop that counts items, with the pasts between which it has dealt with each. -/
theorem path_fold_count {body : Nat → β → Program Op Ans Nat} {xs : List β} {n res : Nat} {before past : Past Op Ans}
    {R : β → Bool → Past Op Ans → Past Op Ans → Prop}
    (one : ∀ n x res start stop, (body n x).Path start res stop → ∃ counted : Bool, res = n + counted.toNat ∧
    R x counted start stop) (h : (fold body n xs).Path before res past) :
    ∃ outs : List (β × Bool), outs.map Prod.fst = xs ∧ res = n + outs.countP (·.2) ∧
      ∀ out ∈ outs, ∃ start stop, stop <:+ past ∧ R out.1 out.2 start stop := by
  induction xs generalizing n before with
  | nil =>
    obtain ⟨rfl, rfl⟩ := h
    exact ⟨[], rfl, rfl, fun _ member => absurd member List.not_mem_nil⟩
  | cons x xs ih =>
    obtain ⟨n', mid, first, rest⟩ := path_bind.mp h
    obtain ⟨counted, rfl, seen⟩ := one n x n' before mid first
    obtain ⟨outs, rfl, total, each⟩ := ih rest
    refine ⟨(x, counted) :: outs, rfl, ?_, fun out member => ?_⟩
    · rw [total, List.countP_cons]
      cases counted with
      | false => simp
      | true =>
        simp
        omega
    · rcases List.mem_cons.mp member with rfl | later
      · exact ⟨before, mid, rest.suffix, seen⟩
      · exact each out later

/-- Along the way the program gets from one past and code to another. -/
inductive Leads (p : Program Op Ans α) (past : Past Op Ans) : Program Op Ans α → Past Op Ans → Prop where
  | start : Leads p past p past
  | step {op : Op} {k : Ans op → Program Op Ans α} {now : Past Op Ans} (ans : Ans op)
      (before : Leads p past (call op k) now) :
      Leads p past (k ans) (⟨op, ans⟩ :: now)

theorem Leads.path {p q : Program Op Ans α} {past now past' : Past Op Ans} {a : α} (h : Leads p past q now)
    (rest : q.Path now a past') : p.Path past a past' := by
  induction h with
  | start => exact rest
  | step ans _ ih => exact ih ⟨ans, rest⟩

/-- The code that is left meets what the whole code meets. -/
theorem Leads.meets {p q : Program Op Ans α} {now : Past Op Ans} (h : Leads p past q now)
    (expected : ∀ past op ans, C.expect past op ans) (meets : p.Meets C past post) : q.Meets C now post := by
  induction h with
  | start => exact meets
  | step ans _ ih => exact ih.2 ans (expected _ _ _)

/-- The program is put together from blocks. -/
inductive Built (block : (α : Type) → Program Op Ans α → Prop) : {α : Type} → Program Op Ans α → Prop where
  | done {α : Type} (a : α) : Built block (done a)
  | block {α : Type} {p : Program Op Ans α} (h : block α p) : Built block p
  | bind {α β : Type} {p : Program Op Ans α} {f : α → Program Op Ans β} (first : Built block p)
      (rest : ∀ a, Built block (f a)) : Built block (p >>= f)

namespace Built
variable {block block' : (α : Type) → Program Op Ans α → Prop} {P : Op → Prop}

theorem single {op : Op} (h : block (Ans op) (perform op)) : Built block (perform op) := .block h

theorem each {body : β → Program Op Ans Unit} {xs : List β} (h : ∀ x, Built block (body x)) :
    Built block (Program.each body xs) := by
  induction xs with
  | nil => exact .done _
  | cons x xs ih => exact .bind (h x) fun _ => ih

theorem firstSome {body : β → Program Op Ans (Option γ)} {xs : List β} (h : ∀ x, Built block (body x)) :
    Built block (Program.firstSome body xs) := by
  induction xs with
  | nil => exact .done _
  | cons x xs ih =>
    refine .bind (h x) fun r => ?_
    cases r with
    | some c => exact .done _
    | none => exact ih

theorem fold {body : γ → β → Program Op Ans γ} {acc : γ} {xs : List β}
    (h : ∀ acc x, Built block (body acc x)) : Built block (Program.fold body acc xs) := by
  induction xs generalizing acc with
  | nil => exact .done _
  | cons x xs ih => exact .bind (h acc x) fun _ => ih

theorem of_uses {p : Program Op Ans α} (h : p.Uses P) (single : ∀ op, P op → block _ (perform op)) :
    Built block p := by
  induction p with
  | done a => exact .done a
  | call op k ih => exact .bind (.single (single op h.1)) fun ans => ih ans (h.2 ans)

theorem mono {p : Program Op Ans α} (h : Built block p)
    (wider : ∀ {α : Type} (p : Program Op Ans α), block α p → block' α p) : Built block' p := by
  induction h with
  | done a => exact .done a
  | block h => exact .block (wider _ h)
  | bind _ _ first rest => exact .bind first rest

theorem uses {p : Program Op Ans α} (h : Built block p)
    (each : ∀ {α : Type} (p : Program Op Ans α), block α p → p.Uses P) : p.Uses P := by
  induction h with
  | done a => exact .done a
  | block h => exact each _ h
  | bind _ _ first rest => exact .bind first rest

/-- What every block keeps true of the past, the whole program keeps. -/
theorem meets (I : Past Op Ans → Prop) {p : Program Op Ans α} (h : Built block p)
    (keep : ∀ {α : Type} (p : Program Op Ans α), block α p → ∀ past, I past → p.Meets C past fun _ => I)
    (start : I past) : p.Meets C past fun _ => I := by
  induction h generalizing past with
  | done a => exact start
  | block h => exact keep _ h past start
  | bind _ _ first rest =>
    rw [meets_bind]
    exact (first start).mono fun a _ kept => rest a kept

end Built

end Program
end Concurrency
