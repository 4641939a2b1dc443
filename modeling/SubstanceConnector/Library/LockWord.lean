import Mathlib.Logic.Function.Basic

/-!
# A word as a lock

Threads on one word, where a thread that is in its body holds the word at a value of its own (`holding`). A thread enters
its body from a value that no body holds, so that at most one is in its body (`Exclusive`): a step outside the bodies keeps
that (`Exclusive.stays`), and so does a step of the one thread that can be in its body then (`Exclusive.alone`).
-/

namespace LockWord

variable {ι W P : Type*} {holding : P → Option W}

/-- At most one thread is in its body, and the word has the value that it holds. -/
structure Exclusive (holding : P → Option W) (word : W) (pool : ι → P) : Prop where
  held : ∀ i w, holding (pool i) = some w → word = w
  exclusive : ∀ i j, (holding (pool i)).isSome → (holding (pool j)).isSome → i = j

theorem exclusive_of_none {word : W} {pool : ι → P} (h : ∀ i, holding (pool i) = none) : Exclusive holding word pool := by
  refine ⟨fun i w hi => ?_, fun i j hi _ => ?_⟩
  · rw [h i] at hi
    cases hi
  · rw [h i] at hi
    cases hi

/-- Beside a thread in its body no other is. -/
theorem Exclusive.none_of_ne {word : W} {pool : ι → P} (h : Exclusive holding word pool) {i j : ι}
    (hi : (holding (pool i)).isSome) (hji : j ≠ i) : holding (pool j) = none := by
  by_contra hj
  apply hji
  exact h.exclusive j i (Option.isSome_iff_ne_none.mpr hj) hi

/-- At a value that no body holds no thread is in its body. -/
theorem Exclusive.none_of_free {word : W} {pool : ι → P} (h : Exclusive holding word pool)
    (hfree : ∀ i, holding (pool i) ≠ some word) (i : ι) : holding (pool i) = none := by
  cases hi : holding (pool i) with
  | none => rfl
  | some w =>
    apply absurd hi
    rw [← h.held i w hi]
    exact hfree i

variable [DecidableEq ι]

theorem Exclusive.stays {word : W} {pool : ι → P} (h : Exclusive holding word pool) {i : ι} {pc : P}
    (hpc : holding pc = holding (pool i)) : Exclusive holding word (Function.update pool i pc) := by
  have hsame : ∀ j, holding (Function.update pool i pc j) = holding (pool j) := by
    intro j
    by_cases hji : j = i
    · rw [hji, Function.update_self, hpc]
    · rw [Function.update_of_ne hji]
  refine ⟨fun j w hj => h.held j w ((hsame j).symm.trans hj), fun j k hj hk => ?_⟩
  simp only [hsame] at hj hk
  exact h.exclusive j k hj hk

/-- While no other thread is in its body, a thread can enter its own, leave it, or go on in it at another value. -/
theorem Exclusive.alone {word : W} {pool : ι → P} {i : ι} {pc : P} (hothers : ∀ j, j ≠ i → holding (pool j) = none)
    (hpc : ∀ w, holding pc = some w → word = w) : Exclusive holding word (Function.update pool i pc) := by
  have hnone : ∀ j, j ≠ i → holding (Function.update pool i pc j) = none := by
    intro j hji
    rw [Function.update_of_ne hji]
    exact hothers j hji
  have hmine : ∀ j, (holding (Function.update pool i pc j)).isSome → j = i := by
    intro j hj
    by_contra hji
    rw [hnone j hji] at hj
    cases hj
  refine ⟨fun j w hj => ?_, fun j k hj hk => (hmine j hj).trans (hmine k hk).symm⟩
  have hji := hmine j (Option.isSome_iff_exists.mpr ⟨w, hj⟩)
  rw [hji, Function.update_self] at hj
  exact hpc w hj

end LockWord
