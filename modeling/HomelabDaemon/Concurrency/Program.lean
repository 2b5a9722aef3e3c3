import Mathlib.Tactic.Common

/-!
# Programs as trees of operations

A thread's code is a well-founded tree: it has ended with a value, or it performs one
operation and continues with the answer. What an operation does to a shared world, and which
answers it may get, is not part of the tree; `Pool.lean` and `Alone.lean` say that.
-/

namespace Concurrency

inductive Program (Op : Type) (Ans : Op → Type) (α : Type) where
  | done : α → Program Op Ans α
  | call : (op : Op) → (Ans op → Program Op Ans α) → Program Op Ans α

namespace Program
variable {Op : Type} {Ans : Op → Type} {α β γ : Type}

def bind : Program Op Ans α → (α → Program Op Ans β) → Program Op Ans β
  | done a, f => f a
  | call op k, f => call op fun ans => (k ans).bind f

instance : Monad (Program Op Ans) where
  pure := done
  bind := bind

/-- One operation, returning its answer. -/
def perform (op : Op) : Program Op Ans (Ans op) := call op done

@[simp] theorem pure_eq_done (a : α) : (pure a : Program Op Ans α) = done a := rfl

@[simp] theorem done_bind (a : α) (f : α → Program Op Ans β) : done a >>= f = f a := rfl

@[simp] theorem call_bind (op : Op) (k : Ans op → Program Op Ans α) (f : α → Program Op Ans β) :
    call op k >>= f = call op fun ans => k ans >>= f := rfl

@[simp] theorem perform_bind (op : Op) (f : Ans op → Program Op Ans β) :
    perform op >>= f = call op f := rfl

theorem bind_done (p : Program Op Ans α) : p >>= done = p := by
  induction p with
  | done a => rfl
  | call op k ih => simp only [call_bind, ih]

theorem bind_assoc' (p : Program Op Ans α) (f : α → Program Op Ans β) (g : β → Program Op Ans γ) :
    p >>= f >>= g = p >>= fun a => f a >>= g := by
  induction p with
  | done a => rfl
  | call op k ih => simp only [call_bind, ih]

instance : LawfulMonad (Program Op Ans) :=
  LawfulMonad.mk' _ bind_done (fun _ _ => rfl) bind_assoc'

/-- `for x in xs { body x }`. -/
def each (body : β → Program Op Ans Unit) : List β → Program Op Ans Unit
  | [] => done ()
  | x :: xs => body x >>= fun _ => each body xs

/-- `for x in xs { if body x yields r { return r } }`. -/
def firstSome (body : β → Program Op Ans (Option γ)) : List β → Program Op Ans (Option γ)
  | [] => done none
  | x :: xs => body x >>= fun r => match r with
    | some c => done (some c)
    | none => firstSome body xs

/-- `for x in xs { acc = body acc x }`. -/
def fold (body : γ → β → Program Op Ans γ) : γ → List β → Program Op Ans γ
  | acc, [] => done acc
  | acc, x :: xs => body acc x >>= fun acc' => fold body acc' xs

end Program
end Concurrency
