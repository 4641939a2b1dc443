import Mathlib.Logic.Basic

/-!
# What calls keep

Calls that return or raise, over a state that they leave behind either way (`EStateM`). A call keeps a part of the state if
that part is afterwards what it was before; a triple says what holds of the state a call is made in and of the one it leaves.
The rules follow the ways such calls are put together.
-/

namespace StateCalls

variable {ε σ α β γ : Type}

/-- The state a call leaves behind. -/
def after : EStateM.Result ε σ α → σ
  | .ok _ s => s
  | .error _ s => s

/-- The call leaves the part `f` of every state as it is. -/
def Keeps (f : σ → γ) (m : EStateM ε σ α) : Prop := ∀ s, f (after (m s)) = f s

variable {f : σ → γ}

theorem Keeps.of_ok {m : EStateM ε σ α} (hm : Keeps f m) {s s' : σ} {a : α} (h : m s = .ok a s') : f s' = f s := by
  rw [← hm s, h]
  rfl

theorem keeps_pure (a : α) : Keeps f (pure a : EStateM ε σ α) := fun _ => rfl

theorem keeps_throw (e : ε) : Keeps f (throw e : EStateM ε σ α) := fun _ => rfl

theorem keeps_get : Keeps f (get : EStateM ε σ σ) := fun _ => rfl

theorem keeps_modify {g : σ → σ} (h : ∀ s, f (g s) = f s) : Keeps f (modify g : EStateM ε σ PUnit) := h

theorem keeps_ofExcept (outcome : Except ε α) : Keeps f (MonadExcept.ofExcept outcome : EStateM ε σ α) := by
  cases outcome with
  | ok a => exact keeps_pure a
  | error e => exact keeps_throw e

theorem Keeps.ite {c : Prop} [Decidable c] {m m' : EStateM ε σ α} (hm : Keeps f m) (hm' : Keeps f m') :
    Keeps f (if c then m else m') := by
  split
  · exact hm
  · exact hm'

theorem Keeps.bind {m : EStateM ε σ α} {k : α → EStateM ε σ β} (hm : Keeps f m) (hk : ∀ a, Keeps f (k a)) :
    Keeps f (m >>= k) := by
  intro s
  have hs := hm s
  change f (after (EStateM.bind m k s)) = f s
  unfold EStateM.bind
  cases hresult : m s with
  | ok a s' =>
    rw [hresult] at hs
    exact (hk a s').trans hs
  | error e s' =>
    rw [hresult] at hs
    exact hs

theorem Keeps.forM {k : α → EStateM ε σ PUnit} (hk : ∀ a, Keeps f (k a)) (list : List α) : Keeps f (list.forM k) := by
  induction list with
  | nil => exact keeps_pure _
  | cons a list ih => exact (hk a).bind fun _ => ih

/-- A call whose exceptions are caught returns, with the state that it leaves behind. -/
theorem tryCatch_ok (m : EStateM ε σ PUnit) (s : σ) : tryCatch m (fun _ => pure ()) s = .ok () (after (m s)) := by
  change EStateM.tryCatch m (fun _ => pure ()) s = _
  unfold EStateM.tryCatch
  cases m s <;> rfl

/-- Two calls return if the first does and the second returns from where it ends. -/
theorem bind_ok {m : EStateM ε σ α} {k : α → EStateM ε σ β} {b : β} {s s' : σ} (h : (m >>= k) s = .ok b s') :
    ∃ a t, m s = .ok a t ∧ k a t = .ok b s' := by
  change EStateM.bind m k s = .ok b s' at h
  unfold EStateM.bind at h
  cases hresult : m s with
  | ok a t =>
    rw [hresult] at h
    exact ⟨a, t, rfl, h⟩
  | error e t =>
    rw [hresult] at h
    cases h

theorem ofExcept_bind {outcome : Except ε α} {a : α} (h : outcome = .ok a) (k : α → EStateM ε σ β) :
    (MonadExcept.ofExcept outcome >>= k) = k a := by
  subst h
  rfl

theorem forM_cons_of_ok {k : α → EStateM ε σ PUnit} {a : α} {s t : σ} (h : k a s = .ok () t) (list : List α) :
    (a :: list).forM k s = list.forM k t := by
  change EStateM.bind (k a) (fun _ => list.forM k) s = _
  rw [EStateM.bind, h]

theorem forM_cons_of_error {k : α → EStateM ε σ PUnit} {a : α} {s t : σ} {e : ε} (h : k a s = .error e t)
    (list : List α) : (a :: list).forM k s = .error e t := by
  change EStateM.bind (k a) (fun _ => list.forM k) s = _
  rw [EStateM.bind, h]

/-! ## Rules for what calls need and leave -/

/-- From a state with `P` the call returns `a` with a state that has `Q a`, or raises with one that has `E`. -/
def Triple (P : σ → Prop) (m : EStateM ε σ α) (Q : α → σ → Prop) (E : σ → Prop) : Prop :=
  ∀ s, P s → (∀ a s', m s = .ok a s' → Q a s') ∧ ∀ e s', m s = .error e s' → E s'

section triples
variable {P P' : σ → Prop} {Q : α → σ → Prop} {R : β → σ → Prop} {E : σ → Prop}

theorem Triple.bind {m : EStateM ε σ α} {k : α → EStateM ε σ β} (hm : Triple P m Q E) (hk : ∀ a, Triple (Q a) (k a) R E) :
    Triple P (m >>= k) R E := by
  intro s hs
  obtain ⟨hok, herror⟩ := hm s hs
  change (∀ b s', EStateM.bind m k s = .ok b s' → R b s') ∧ ∀ e s', EStateM.bind m k s = .error e s' → E s'
  unfold EStateM.bind
  cases hresult : m s with
  | ok a t => exact hk a t (hok a t hresult)
  | error e t =>
    refine ⟨fun _ _ h => (by cases h), fun e' s' h => ?_⟩
    cases h
    exact herror e t hresult

theorem Triple.after {m : EStateM ε σ α} (hm : Triple P m (fun _ => P') P') {s : σ} (hs : P s) :
    P' (StateCalls.after (m s)) := by
  obtain ⟨hok, herror⟩ := hm s hs
  cases hresult : m s with
  | ok a t => exact hok a t hresult
  | error e t => exact herror e t hresult

theorem triple_pure {a : α} (h : ∀ s, P s → Q a s) : Triple P (pure a : EStateM ε σ α) Q E := by
  refine fun s hs => ⟨fun a' s' hresult => ?_, fun _ _ hresult => (by cases hresult)⟩
  cases hresult
  exact h s hs

theorem triple_throw {e : ε} (h : ∀ s, P s → E s) : Triple P (throw e : EStateM ε σ α) Q E := by
  refine fun s hs => ⟨fun _ _ hresult => (by cases hresult), fun e' s' hresult => ?_⟩
  cases hresult
  exact h s hs

theorem triple_get {Q : σ → σ → Prop} (h : ∀ s, P s → Q s s) : Triple P (get : EStateM ε σ σ) Q E := by
  refine fun s hs => ⟨fun a s' hresult => ?_, fun _ _ hresult => (by cases hresult)⟩
  cases hresult
  exact h s hs

theorem triple_modify {g : σ → σ} {Q : PUnit → σ → Prop} (h : ∀ s, P s → Q ⟨⟩ (g s)) :
    Triple P (modify g : EStateM ε σ PUnit) Q E := by
  refine fun s hs => ⟨fun a s' hresult => ?_, fun _ _ hresult => (by cases hresult)⟩
  cases hresult
  exact h s hs

theorem triple_ofExcept {outcome : Except ε α} (hok : ∀ a s, P s → Q a s) (herror : ∀ s, P s → E s) :
    Triple P (MonadExcept.ofExcept outcome : EStateM ε σ α) Q E := by
  cases outcome with
  | ok a => exact triple_pure (hok a)
  | error e => exact triple_throw herror

/-- The invariant of a loop says what holds with a part of the list still to go. -/
theorem Triple.forM {I : List α → σ → Prop} {k : α → EStateM ε σ PUnit}
    (hk : ∀ a list, Triple (I (a :: list)) (k a) (fun _ => I list) E) (list : List α) :
    Triple (I list) (list.forM k) (fun _ => I []) E := by
  induction list with
  | nil => exact triple_pure fun _ hs => hs
  | cons a list ih => exact (hk a list).bind fun _ => ih

end triples

end StateCalls
