import Mathlib.Data.List.Basic
import Mathlib.Data.List.Perm.Basic

/-!
# Removal by swapping with the last entry

An array is swept from its end; an entry that is to go is overwritten by the last one and the array gets shorter. The
entries that have been visited are behind the index throughout, so none is skipped and none visited twice: the entries
that are kept are a permutation of those that were to stay, and the others are removed once each, from the back to the
front (`sweep_kept`, `sweep_removed`).
-/

namespace SwapRemove

variable {α : Type*}

/-- The last entry takes the place of the removed one. -/
def swapRemove (i : Nat) (xs : List α) : List α :=
  match xs.getLast? with
  | none => []
  | some a => (xs.set i a).dropLast

/-- Visit the entries below `i` from the back; what is kept, and what is removed in the order of removal. -/
def sweep (gone : α → Bool) : Nat → List α → List α × List α
  | 0, xs => (xs, [])
  | i + 1, xs =>
    match xs[i]? with
    | none => sweep gone i xs
    | some a =>
      if gone a then
        let r := sweep gone i (swapRemove i xs)
        (r.1, a :: r.2)
      else sweep gone i xs

theorem swapRemove_concat (i : Nat) (xs : List α) (a : α) : swapRemove i (xs ++ [a]) = xs.set i a := by
  unfold swapRemove
  rw [List.getLast?_concat]
  dsimp only
  by_cases hi : i < xs.length
  · rw [List.set_append_left _ _ hi, List.dropLast_concat]
  · have hsame : [a].set (i - xs.length) a = [a] := by cases i - xs.length <;> rfl
    rw [List.set_append_right _ _ (by omega), hsame, List.dropLast_concat, List.set_eq_of_length_le (by omega)]

/-- The entries before the removed one stay, those after it stay up to their order. -/
theorem swapRemove_split {i : Nat} {xs : List α} (hi : i < xs.length) :
    (swapRemove i xs).take i = xs.take i ∧ ((swapRemove i xs).drop i).Perm (xs.drop (i + 1)) := by
  obtain rfl | ⟨ys, a, rfl⟩ := List.eq_nil_or_concat' xs
  · exact absurd hi (Nat.not_lt_zero i)
  rw [List.length_append, List.length_singleton] at hi
  rw [swapRemove_concat]
  by_cases hlast : i = ys.length
  · subst hlast
    rw [List.set_eq_of_length_le (Nat.le_refl _)]
    simp
  · have hin : i < (ys.set i a).length := by
      rw [List.length_set]
      omega
    refine ⟨?_, ?_⟩
    · rw [List.take_set_of_le (Nat.le_refl i), List.take_append_of_le_length (by omega)]
    · rw [List.drop_eq_getElem_cons hin, List.getElem_set_self, List.drop_set_of_lt (Nat.lt_succ_self i),
        List.drop_append_of_le_length (by omega)]
      exact (List.perm_append_singleton a _).symm

theorem length_swapRemove {i : Nat} {xs : List α} (hi : i < xs.length) : (swapRemove i xs).length = xs.length - 1 := by
  obtain rfl | ⟨ys, a, rfl⟩ := List.eq_nil_or_concat' xs
  · exact absurd hi (Nat.not_lt_zero i)
  · rw [swapRemove_concat]
    simp

section sweep
variable {gone gone' : α → Bool}

theorem filter_take_succ (p : α → Bool) {i : Nat} {xs : List α} (hi : i < xs.length) :
    (xs.take (i + 1)).filter p = (xs.take i).filter p ++ if p xs[i] then [xs[i]] else [] := by
  rw [List.take_succ_eq_append_getElem hi, List.filter_append]
  cases hp : p xs[i] with
  | true => simp only [List.filter_cons, hp, List.filter_nil, if_true]
  | false => simp [hp]

theorem sweep_gone {i : Nat} {xs : List α} (hi : i < xs.length) (hgone : gone xs[i] = true) :
    sweep gone (i + 1) xs = ((sweep gone i (swapRemove i xs)).1, xs[i] :: (sweep gone i (swapRemove i xs)).2) := by
  rw [sweep, List.getElem?_eq_getElem hi]
  exact if_pos hgone

theorem sweep_stays {i : Nat} {xs : List α} (hi : i < xs.length) (hstays : gone xs[i] = false) :
    sweep gone (i + 1) xs = sweep gone i xs := by
  rw [sweep, List.getElem?_eq_getElem hi]
  exact if_neg (by simp [hstays])

/-- What is kept: the entries below `i` that were to stay, and all behind them. -/
theorem sweep_kept_perm {i : Nat} {xs : List α} (hi : i ≤ xs.length) :
    (sweep gone i xs).1.Perm ((xs.take i).filter (fun a => !gone a) ++ xs.drop i) := by
  induction i generalizing xs with
  | zero => exact List.Perm.refl _
  | succ i ih =>
    have hlt : i < xs.length := hi
    cases hgone : gone xs[i] with
    | true =>
      obtain ⟨hbefore, hafter⟩ := swapRemove_split hlt
      have hrest := @ih (swapRemove i xs) (by rw [length_swapRemove hlt]; omega)
      rw [hbefore] at hrest
      rw [sweep_gone hlt hgone, filter_take_succ _ hlt, hgone]
      rw [if_neg (by decide), List.append_nil]
      exact hrest.trans (hafter.append_left _)
    | false =>
      have hrest := @ih xs (by omega)
      rw [List.drop_eq_getElem_cons hlt] at hrest
      rw [sweep_stays hlt hgone, filter_take_succ _ hlt, hgone, if_pos (by decide), List.append_assoc]
      exact hrest

theorem sweep_removed_eq {i : Nat} {xs : List α} (hi : i ≤ xs.length) :
    (sweep gone i xs).2 = ((xs.take i).filter gone).reverse := by
  induction i generalizing xs with
  | zero => rfl
  | succ i ih =>
    have hlt : i < xs.length := hi
    cases hgone : gone xs[i] with
    | true =>
      have hrest := @ih (swapRemove i xs) (by rw [length_swapRemove hlt]; omega)
      rw [(swapRemove_split hlt).1] at hrest
      rw [sweep_gone hlt hgone, filter_take_succ _ hlt, if_pos hgone, hrest, List.reverse_concat]
    | false =>
      rw [sweep_stays hlt hgone, filter_take_succ _ hlt, hgone, ih (by omega), if_neg (by decide), List.append_nil]

/-- Only the entries below the index are looked at. -/
theorem sweep_congr {i : Nat} {xs : List α} (hi : i ≤ xs.length) (hsame : ∀ a ∈ xs.take i, gone a = gone' a) :
    sweep gone i xs = sweep gone' i xs := by
  induction i generalizing xs with
  | zero => rfl
  | succ i ih =>
    have hlt : i < xs.length := hi
    rw [List.take_succ_eq_append_getElem hlt] at hsame
    have hbefore : ∀ a ∈ xs.take i, gone a = gone' a := fun a ha => hsame a (List.mem_append_left _ ha)
    have hhere : gone xs[i] = gone' xs[i] := hsame _ (List.mem_append_right _ List.mem_cons_self)
    cases hgone : gone xs[i] with
    | true =>
      have hrest := @ih (swapRemove i xs) (by rw [length_swapRemove hlt]; omega) (by
        rw [(swapRemove_split hlt).1]
        exact hbefore)
      rw [sweep_gone hlt hgone, sweep_gone hlt (hhere ▸ hgone), hrest]
    | false => rw [sweep_stays hlt hgone, sweep_stays hlt (hhere ▸ hgone), ih (by omega) hbefore]

/-- **A whole sweep** keeps the entries that were to stay. -/
theorem sweep_kept (xs : List α) : (sweep gone xs.length xs).1.Perm (xs.filter fun a => !gone a) := by
  simpa using @sweep_kept_perm _ gone _ xs (Nat.le_refl xs.length)

theorem sweep_removed (xs : List α) : (sweep gone xs.length xs).2 = (xs.filter gone).reverse := by
  simpa using @sweep_removed_eq _ gone _ xs (Nat.le_refl xs.length)

end sweep

end SwapRemove
