import Mathlib.Algebra.BigOperators.Group.Finset.Basic
import Mathlib.Algebra.BigOperators.Group.Finset.Piecewise
import Mathlib.Algebra.Order.BigOperators.Group.Finset
import Mathlib.Logic.Pairwise

/-!
# Thread pools

A pool of threads is a function from thread names to local states; one thread moving is
`Function.update`. The two rules here are the ones every interleaving argument needs besides
Mathlib's `Function.forall_update_iff`: a symmetric relation between distinct threads survives a
move if the new local state is related to every other thread, and a sum over the pool changes by
what the moving thread contributes.

Where at most one thread has anything at a time, what the pool has is one list (`Gathers`), which is
appended to when a thread with nothing takes something, and loses its first items when they are given away.
-/

namespace ThreadPool

variable {ι τ : Type*} [DecidableEq ι]

/-- Distinct threads stay related when one of them moves to a local state related to the others. -/
theorem pairwise_update {R : τ → τ → Prop} (hsymm : ∀ x y, R x y → R y x) {pool : ι → τ} {i : ι}
    {x : τ} (h : Pairwise fun a b => R (pool a) (pool b)) (hx : ∀ j, j ≠ i → R x (pool j)) :
    Pairwise fun a b => R (Function.update pool i x a) (Function.update pool i x b) := by
  intro a b hab
  by_cases ha : a = i
  · subst ha
    rw [Function.update_self, Function.update_of_ne (Ne.symm hab)]
    exact hx b (Ne.symm hab)
  · rw [Function.update_of_ne ha]
    by_cases hb : b = i
    · subst hb
      rw [Function.update_self]
      exact hsymm _ _ (hx a ha)
    · rw [Function.update_of_ne hb]
      exact h hab

/-- A part of the local states that the move leaves alone. -/
theorem update_part {α : Type*} (part : τ → α) {pool : ι → τ} {i : ι} {x : τ} (h : part x = part (pool i)) (j : ι) :
    part (Function.update pool i x j) = part (pool j) := by
  by_cases hj : j = i
  · rw [hj, Function.update_self, h]
  · rw [Function.update_of_ne hj]

/-! ## One thread at a time -/

section gathers
variable {α : Type*} {pool : ι → List α} {l a b : List α} {i : ι}

omit [DecidableEq ι] in
/-- One thread has the items of the list, and the others have none. -/
def Gathers (pool : ι → List α) (l : List α) : Prop :=
  (∀ j, pool j = []) ∧ l = [] ∨ ∃ j, pool j = l ∧ ∀ k, k ≠ j → pool k = []

omit [DecidableEq ι] in
theorem gathers_nil (h : ∀ j, pool j = []) : Gathers pool [] := .inl ⟨h, rfl⟩

/-- A thread with nothing takes items, if there are any when nobody else has some. -/
theorem Gathers.take (h : Gathers pool l) (hi : pool i = []) (hone : b ≠ [] → ∀ j, pool j = []) :
    Gathers (Function.update pool i b) (l ++ b) := by
  cases b with
  | nil =>
    have hsame : Function.update pool i [] = pool := by
      rw [← hi]
      exact Function.update_eq_self i pool
    rw [hsame, List.append_nil]
    exact h
  | cons x b =>
    have hnone := hone (List.cons_ne_nil x b)
    have hl : l = [] := by
      obtain ⟨-, hl⟩ | ⟨j, hj, -⟩ := h
      · exact hl
      · exact hj.symm.trans (hnone j)
    refine .inr ⟨i, ?_, fun k hk => ?_⟩
    · rw [Function.update_self, hl, List.nil_append]
    · rw [Function.update_of_ne hk]
      exact hnone k

/-- A thread gives its first items away. -/
theorem Gathers.give (h : Gathers pool l) (hi : pool i = a ++ b) :
    ∃ l', l = a ++ l' ∧ Gathers (Function.update pool i b) l' := by
  obtain ⟨hnone, rfl⟩ | ⟨j, hj, hnone⟩ := h
  · obtain ⟨rfl, rfl⟩ := List.append_eq_nil_iff.mp (hi.symm.trans (hnone i))
    refine ⟨[], rfl, gathers_nil fun k => ?_⟩
    by_cases hk : k = i
    · rw [hk, Function.update_self]
    · rw [Function.update_of_ne hk]
      exact hnone k
  · by_cases hji : j = i
    · subst hji
      refine ⟨b, hj.symm.trans hi, .inr ⟨j, Function.update_self .., fun k hk => ?_⟩⟩
      rw [Function.update_of_ne hk]
      exact hnone k hk
    · obtain ⟨rfl, rfl⟩ := List.append_eq_nil_iff.mp (hi.symm.trans (hnone i (Ne.symm hji)))
      refine ⟨l, rfl, .inr ⟨j, ?_, fun k hk => ?_⟩⟩
      · rw [Function.update_of_ne hji, hj]
      · by_cases hki : k = i
        · rw [hki, Function.update_self]
        · rw [Function.update_of_ne hki]
          exact hnone k hk

end gathers

variable [Fintype ι]

/-- What the pool as a whole weighs. -/
def total (weight : τ → Nat) (pool : ι → τ) : Nat := ∑ i, weight (pool i)

/-- If one index changes its summand, the sum changes by that. -/
theorem sum_others {M : Type*} [AddCommMonoid M] {f g : ι → M} {i : ι} (h : ∀ j, j ≠ i → g j = f j) :
    ∑ j, g j + f i = ∑ j, f j + g i := by
  have hrest : ∑ j ∈ Finset.univ.erase i, g j = ∑ j ∈ Finset.univ.erase i, f j :=
    Finset.sum_congr rfl fun j hj => h j (Finset.ne_of_mem_erase hj)
  rw [← Finset.add_sum_erase _ g (Finset.mem_univ i), ← Finset.add_sum_erase _ f (Finset.mem_univ i), hrest, add_right_comm,
    add_comm (g i)]
  exact add_right_comm _ _ _

theorem total_update (weight : τ → Nat) (pool : ι → τ) (i : ι) (x : τ) :
    total weight (Function.update pool i x) + weight (pool i) = total weight pool + weight x := by
  have hsum := sum_others (f := fun j => weight (pool j)) (g := fun j => weight (Function.update pool i x j)) (i := i)
    fun j hj => by rw [Function.update_of_ne hj]
  rw [Function.update_self] at hsum
  exact hsum

omit [DecidableEq ι] in
theorem total_eq_zero {weight : τ → Nat} {pool : ι → τ} (h : ∀ i, weight (pool i) = 0) : total weight pool = 0 :=
  Finset.sum_eq_zero fun i _ => h i

omit [DecidableEq ι] in
theorem weight_le_total (weight : τ → Nat) (pool : ι → τ) (i : ι) : weight (pool i) ≤ total weight pool :=
  Finset.single_le_sum (f := fun j => weight (pool j)) (fun _ _ => Nat.zero_le _) (Finset.mem_univ i)

end ThreadPool
