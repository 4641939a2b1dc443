import Mathlib.Logic.Function.Basic
import Mathlib.Logic.Relation

/-!
# Step systems

A step system is a set of initial states and a labelled step relation. The label of a step says
which party moved and what its environment answered, so a run is determined by its first state and
its labels whenever the relation comes from a partial function (`StepSystem.ofNext`); such a run can
then be executed (`runList`) to exhibit one concrete reachable state.

`Reachable.invariant` is the induction every safety result rests on. `guarded` keeps only the steps
that meet a condition on the state before them, which is how a result about "every run whose steps
all meet the condition" is stated.
-/

/-- Initial states and labelled steps. -/
structure StepSystem (σ : Type*) (α : Type*) where
  init : σ → Prop
  step : σ → α → σ → Prop

namespace StepSystem

variable {σ α : Type*}

/-- The states some finite run ends in. -/
inductive Reachable (S : StepSystem σ α) : σ → Prop
  | init {s : σ} (h : S.init s) : Reachable S s
  | step {s s' : σ} {a : α} (hs : Reachable S s) (h : S.step s a s') : Reachable S s'

/-- A property of the initial states that every step from a reachable state keeps holds of every
reachable state. -/
theorem Reachable.invariant {S : StepSystem σ α} {P : σ → Prop} (hinit : ∀ s, S.init s → P s)
    (hstep : ∀ s a s', S.Reachable s → P s → S.step s a s' → P s') {s : σ} (h : S.Reachable s) :
    P s := by
  induction h with
  | init h => exact hinit _ h
  | step hs h ih => exact hstep _ _ _ hs ih h

/-- The system restricted to the steps that meet `G` in the state before them. -/
def guarded (S : StepSystem σ α) (G : σ → α → Prop) : StepSystem σ α where
  init := S.init
  step s a s' := G s a ∧ S.step s a s'

theorem Reachable.guarded_invariant {S : StepSystem σ α} {G : σ → α → Prop} {P : σ → Prop}
    (hinit : ∀ s, S.init s → P s) (hstep : ∀ s a s', P s → G s a → S.step s a s' → P s') {s : σ}
    (h : (S.guarded G).Reachable s) : P s :=
  Reachable.invariant (S := S.guarded G) hinit (fun s a s' _ hs h => hstep s a s' hs h.1 h.2) h

theorem Reachable.of_guarded {S : StepSystem σ α} {G : σ → α → Prop} {s : σ} (h : (S.guarded G).Reachable s) :
    S.Reachable s := by
  induction h with
  | init h => exact .init h
  | step hs h ih => exact .step ih h.2

/-- The states some finite run from `s` ends in. -/
def Later (S : StepSystem σ α) : σ → σ → Prop := Relation.ReflTransGen fun s s' => ∃ a, S.step s a s'

theorem Later.reachable {S : StepSystem σ α} {s s' : σ} (h : S.Later s s') (hs : S.Reachable s) : S.Reachable s' := by
  induction h with
  | refl => exact hs
  | tail _ hstep ih =>
    obtain ⟨a, hstep⟩ := hstep
    exact .step ih hstep

theorem Later.of_guarded {S : StepSystem σ α} {G : σ → α → Prop} {s s' : σ} (h : (S.guarded G).Later s s') : S.Later s s' := by
  induction h with
  | refl => exact .refl
  | tail _ h ih =>
    obtain ⟨a, h⟩ := h
    exact ih.tail ⟨a, h.2⟩

theorem Later.guarded_invariant {S : StepSystem σ α} {G : σ → α → Prop} {P : σ → Prop}
    (hstep : ∀ s a s', P s → G s a → S.step s a s' → P s') {s s' : σ} (h : (S.guarded G).Later s s') (hs : P s) : P s' := by
  induction h with
  | refl => exact hs
  | tail _ h ih =>
    obtain ⟨a, h⟩ := h
    exact hstep _ a _ ih h.1 h.2

/-! ## Finite runs, with every state on the way -/

/-- A run of `n` steps: the states it passes through and the labels of its steps. -/
structure Trace (S : StepSystem σ α) (n : Nat) where
  state : Nat → σ
  label : Nat → α
  starts : S.init (state 0)
  follows : ∀ k < n, S.step (state k) (label k) (state (k + 1))

theorem Trace.reachable {S : StepSystem σ α} {n : Nat} (x : S.Trace n) {k : Nat} (hk : k ≤ n) :
    S.Reachable (x.state k) := by
  induction k with
  | zero => exact .init x.starts
  | succ k ih => exact .step (ih (by omega)) (x.follows k (by omega))

/-! ## Systems given by a partial function -/

/-- The system whose steps are the successful calls of `next`. -/
def ofNext (init : σ → Prop) (next : σ → α → Option σ) : StepSystem σ α where
  init := init
  step s a s' := next s a = some s'

/-- Execute the labels in order; `none` as soon as one of them is not enabled. -/
def runList (next : σ → α → Option σ) : σ → List α → Option σ
  | s, [] => some s
  | s, a :: as => (next s a).bind fun s' => runList next s' as

theorem later_runList {init : σ → Prop} {next : σ → α → Option σ} {as : List α} {s s' : σ}
    (h : runList next s as = some s') : (ofNext init next).Later s s' := by
  induction as generalizing s with
  | nil =>
    obtain rfl : s = s' := Option.some.inj h
    exact .refl
  | cons a as ih =>
    obtain ⟨t, ht, hrest⟩ := Option.bind_eq_some_iff.mp h
    exact .head ⟨a, ht⟩ (ih hrest)

theorem reachable_runList {init : σ → Prop} {next : σ → α → Option σ} {as : List α} {s s' : σ}
    (hs : (ofNext init next).Reachable s) (h : runList next s as = some s') :
    (ofNext init next).Reachable s' :=
  (later_runList h).reachable hs

theorem runList_append (next : σ → α → Option σ) (s : σ) (as bs : List α) :
    runList next s (as ++ bs) = (runList next s as).bind fun t => runList next t bs := by
  induction as generalizing s with
  | nil => rfl
  | cons a as ih =>
    simp only [List.cons_append, runList, Option.bind_assoc]
    exact congrArg _ (funext fun t => ih t)

/-- The state an execution of the labels is in after `k` of them. -/
def stateAt (next : σ → α → Option σ) (s : σ) (as : List α) (k : Nat) : σ := (runList next s (as.take k)).getD s

theorem runList_take {next : σ → α → Option σ} {s s' : σ} {as : List α} (h : runList next s as = some s') (k : Nat) :
    runList next s (as.take k) = some (stateAt next s as k) := by
  rw [← List.take_append_drop k as, runList_append] at h
  obtain ⟨t, ht, -⟩ := Option.bind_eq_some_iff.mp h
  rw [stateAt, ht]
  rfl

/-- The trace of an execution. -/
def Trace.ofRunList {init : σ → Prop} {next : σ → α → Option σ} {s s' : σ} {as : List α} (a₀ : α) (hs : init s)
    (h : runList next s as = some s') : (ofNext init next).Trace as.length where
  state := stateAt next s as
  label k := as.getD k a₀
  starts := hs
  follows k hk := by
    have hlater := runList_take h (k + 1)
    rw [List.take_succ_eq_append_getElem hk, runList_append, runList_take h k] at hlater
    obtain ⟨t, ht, hstep⟩ := Option.bind_eq_some_iff.mp hlater
    obtain rfl := Option.some.inj ht
    obtain ⟨u, hu, hlast⟩ := Option.bind_eq_some_iff.mp hstep
    obtain rfl := Option.some.inj hlast
    show next _ (as.getD k a₀) = some _
    rw [List.getD_eq_getElem?_getD, List.getElem?_eq_getElem hk]
    exact hu

/-- The partial function of the guarded system. -/
def gate (G : σ → α → Prop) [∀ s a, Decidable (G s a)] (next : σ → α → Option σ) (s : σ) (a : α) : Option σ :=
  if G s a then next s a else none

theorem gate_eq_some {G : σ → α → Prop} [∀ s a, Decidable (G s a)] {next : σ → α → Option σ} {s s' : σ} {a : α} :
    gate G next s a = some s' ↔ G s a ∧ next s a = some s' := by
  rw [gate, Option.ite_none_right_eq_some]

theorem guarded_ofNext (init : σ → Prop) (next : σ → α → Option σ) (G : σ → α → Prop)
    [∀ s a, Decidable (G s a)] : (ofNext init next).guarded G = ofNext init (gate G next) := by
  unfold guarded ofNext
  congr 1
  funext s a s'
  exact propext gate_eq_some.symm

theorem guarded_later_runList {init : σ → Prop} {next : σ → α → Option σ} {G : σ → α → Prop}
    [∀ s a, Decidable (G s a)] {as : List α} {s s' : σ} (h : runList (gate G next) s as = some s') :
    ((ofNext init next).guarded G).Later s s' := by
  rw [guarded_ofNext]
  exact later_runList h

theorem guarded_reachable_runList {init : σ → Prop} {next : σ → α → Option σ} {G : σ → α → Prop}
    [∀ s a, Decidable (G s a)] {as : List α} {s s' : σ} (hs : ((ofNext init next).guarded G).Reachable s)
    (h : runList (gate G next) s as = some s') : ((ofNext init next).guarded G).Reachable s' :=
  (guarded_later_runList h).reachable hs

/-- The trace of an execution whose steps meet the condition. -/
def Trace.ofGuardedRunList {init : σ → Prop} {next : σ → α → Option σ} {G : σ → α → Prop} [∀ s a, Decidable (G s a)]
    {s s' : σ} {as : List α} (a₀ : α) (hs : init s) (h : runList (gate G next) s as = some s') :
    ((ofNext init next).guarded G).Trace as.length where
  state := (Trace.ofRunList a₀ hs h).state
  label := (Trace.ofRunList a₀ hs h).label
  starts := hs
  follows k hk := gate_eq_some.mp ((Trace.ofRunList a₀ hs h).follows k hk)

end StepSystem
