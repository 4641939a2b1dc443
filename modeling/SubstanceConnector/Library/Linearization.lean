import Mathlib.Logic.Function.Basic

/-!
# Linearizable histories

Threads call the operations of an object and see when a call begins and what it returns. The history of their calls is
linearizable if every call can be given a point between its beginning and its return at which it takes effect, so that
the calls in the order of their points are a run of the object that does one operation at a time.

`Explains` carries the points along with the history: a thread is idle, or in a call that has no point yet, or in one
whose result is decided. An implementation keeps it as an invariant, with the phase of a thread read off its program
counter.
-/

namespace Linearization

/-- What is seen of a call. -/
inductive Event (ι Op Res : Type*) where
  | call (i : ι) (op : Op)
  | ret (i : ι) (op : Op) (res : Res)
  deriving DecidableEq

/-- An object that does one operation at a time. -/
structure Object (σ Op Res : Type*) where
  init : σ
  apply : σ → Op → σ × Res

inductive Phase (Op Res : Type*) where
  | idle
  | called (op : Op)
  | decided (op : Op) (res : Res)

variable {ι σ Op Res : Type*} [DecidableEq ι]

/-- Points for the calls of the history, the state of the object after them, and how far each thread is. -/
inductive Explains (O : Object σ Op Res) : List (Event ι Op Res) → σ → (ι → Phase Op Res) → Prop
  | init : Explains O [] O.init fun _ => .idle
  | call {h : List (Event ι Op Res)} {x : σ} {φ : ι → Phase Op Res} {i : ι} {op : Op} (hx : Explains O h x φ)
      (hi : φ i = .idle) : Explains O (h ++ [.call i op]) x (Function.update φ i (.called op))
  | point {h : List (Event ι Op Res)} {x : σ} {φ : ι → Phase Op Res} {i : ι} {op : Op} (hx : Explains O h x φ)
      (hi : φ i = .called op) : Explains O h (O.apply x op).1 (Function.update φ i (.decided op (O.apply x op).2))
  | ret {h : List (Event ι Op Res)} {x : σ} {φ : ι → Phase Op Res} {i : ι} {op : Op} {res : Res}
      (hx : Explains O h x φ) (hi : φ i = .decided op res) :
      Explains O (h ++ [.ret i op res]) x (Function.update φ i .idle)

def Linearizable (O : Object σ Op Res) (h : List (Event ι Op Res)) : Prop := ∃ x φ, Explains O h x φ

namespace Explains
variable {O : Object σ Op Res} {h : List (Event ι Op Res)} {x : σ} {φ : ι → Phase Op Res} {i : ι}

/-- A call with nothing between its beginning and its return. -/
theorem whole (hx : Explains O h x φ) (hi : φ i = .idle) (op : Op) :
    Explains O (h ++ [.call i op, .ret i op (O.apply x op).2]) (O.apply x op).1 φ := by
  have hcall : Explains O (h ++ [.call i op]) x (Function.update φ i (.called op)) := hx.call hi
  have hpoint := hcall.point (Function.update_self ..)
  have hret := hpoint.ret (Function.update_self ..)
  rw [List.append_assoc, Function.update_idem, Function.update_idem, ← hi, Function.update_eq_self] at hret
  exact hret

end Explains

end Linearization
