import Mathlib.Logic.Function.Basic

/-!
# Interaction trees of finite depth

A program that calls its environment is a tree: it has returned, or it has issued a request and
continues with the answer. The request type carries its own answer type, so one program can mix
calls of several kinds. The environment may do anything between two requests of a program, which is
why the programs of a concurrent system are kept as trees and advanced one answer at a time;
against an environment that answers from a state of its own a program can also be run
to its end (`runState`).
-/

/-- Programs that issue requests `q : Q`, answered in `A q`, and return an `α`. -/
inductive Interaction (Q : Type) (A : Q → Type) (α : Type) : Type where
  | ret (a : α) : Interaction Q A α
  | call (q : Q) (k : A q → Interaction Q A α) : Interaction Q A α

namespace Interaction

variable {Q : Type} {A : Q → Type} {α β σ : Type}

def bind : Interaction Q A α → (α → Interaction Q A β) → Interaction Q A β
  | ret a, f => f a
  | call q k, f => call q fun x => (k x).bind f

instance : Monad (Interaction Q A) where
  pure := ret
  bind := bind

def request (q : Q) : Interaction Q A (A q) := call q ret

@[simp] theorem pure_eq (a : α) : (pure a : Interaction Q A α) = ret a := rfl

@[simp] theorem ret_bind (a : α) (f : α → Interaction Q A β) :
    (ret a : Interaction Q A α) >>= f = f a := rfl

@[simp] theorem call_bind (q : Q) (k : A q → Interaction Q A α) (f : α → Interaction Q A β) :
    call q k >>= f = call q fun x => k x >>= f := rfl

/-- Run a program against an environment that answers from a state. -/
def runState (answer : (q : Q) → σ → A q × σ) : Interaction Q A α → σ → α × σ
  | ret a, s => (a, s)
  | call q k, s => runState answer (k (answer q s).1) (answer q s).2

@[simp] theorem runState_ret (answer : (q : Q) → σ → A q × σ) (a : α) (s : σ) :
    runState answer (ret a) s = (a, s) := rfl

@[simp] theorem runState_call (answer : (q : Q) → σ → A q × σ) (q : Q)
    (k : A q → Interaction Q A α) (s : σ) :
    runState answer (call q k) s = runState answer (k (answer q s).1) (answer q s).2 := rfl

end Interaction
