import Mathlib.Order.Lattice
import Mathlib.Order.RelIso.Basic

/-!
# Three-way comparisons

A comparison that answers -1, 0 or 1 as its first argument is below, at or above its second (`Decides`), by a key in a
linear order (`Compares`). It is antisymmetric, and if the key is injective it makes its arguments a linear order, with
zero exactly on equal arguments.
-/

namespace ThreeWay

variable {α β : Type*} [LinearOrder β]

/-- What an answer says of the two that were compared. -/
inductive Decides (x y : β) : Int → Prop
  | below (h : x < y) : Decides x y (-1)
  | equal (h : x = y) : Decides x y 0
  | above (h : y < x) : Decides x y 1

namespace Decides
variable {x y : β} {r : Int}

theorem neg_iff (h : Decides x y r) : r < 0 ↔ x < y := by
  cases h with
  | below h => exact iff_of_true (by decide) h
  | equal h => exact iff_of_false (by decide) h.not_lt
  | above h => exact iff_of_false (by decide) h.not_gt

theorem zero_iff (h : Decides x y r) : r = 0 ↔ x = y := by
  cases h with
  | below h => exact iff_of_false (by decide) h.ne
  | equal h => exact iff_of_true rfl h
  | above h => exact iff_of_false (by decide) h.ne'

theorem nonpos_iff (h : Decides x y r) : r ≤ 0 ↔ x ≤ y := by
  rw [Int.le_iff_lt_or_eq, h.neg_iff, h.zero_iff, le_iff_lt_or_eq]

theorem swap (h : Decides x y r) : Decides y x (-r) := by
  cases h with
  | below h => exact .above h
  | equal h => exact .equal h.symm
  | above h => exact .below h

/-- There is one answer. -/
theorem unique {r' : Int} (h : Decides x y r) (h' : Decides x y r') : r = r' := by
  cases h with
  | below h =>
    cases h' with
    | below => rfl
    | equal h' => exact absurd h' h.ne
    | above h' => exact absurd h' h.not_gt
  | equal h =>
    cases h' with
    | below h' => exact absurd h h'.ne
    | equal => rfl
    | above h' => exact absurd h h'.ne'
  | above h =>
    cases h' with
    | below h' => exact absurd h h'.not_gt
    | equal h' => exact absurd h' h.ne'
    | above => rfl

/-- What has the same order has the same answer. -/
theorem congr {γ : Type*} [LinearOrder γ] {x' y' : γ} (h : Decides x y r) (hlt : x < y ↔ x' < y') (hgt : y < x ↔ y' < x') :
    Decides x' y' r := by
  cases h with
  | below h => exact .below (hlt.mp h)
  | equal h =>
    refine .equal (le_antisymm ?_ ?_)
    · exact not_lt.mp fun h' => h.not_gt (hgt.mpr h')
    · exact not_lt.mp fun h' => h.not_lt (hlt.mpr h')
  | above h => exact .above (hgt.mp h)

end Decides

/-- The comparison by a key. -/
def Compares (key : α → β) (cmp : α → α → Int) : Prop := ∀ x y, Decides (key x) (key y) (cmp x y)

namespace Compares
variable {key : α → β} {cmp : α → α → Int}

theorem antisymmetric (h : Compares key cmp) (x y : α) : cmp y x = -cmp x y := (h y x).unique (h x y).swap

/-- The key embeds the order of the comparison. -/
def embedding (h : Compares key cmp) (hkey : Function.Injective key) :
    (fun x y => cmp x y < 0) ↪r ((· < ·) : β → β → Prop) :=
  ⟨⟨key, hkey⟩, (h _ _).neg_iff.symm⟩

theorem isStrictTotalOrder (h : Compares key cmp) (hkey : Function.Injective key) :
    IsStrictTotalOrder α fun x y => cmp x y < 0 :=
  (h.embedding hkey).isStrictTotalOrder

theorem isLinearOrder (h : Compares key cmp) (hkey : Function.Injective key) :
    IsLinearOrder α fun x y => cmp x y ≤ 0 := by
  have hembeds : (fun x y => cmp x y ≤ 0) ↪r ((· ≤ ·) : β → β → Prop) := ⟨⟨key, hkey⟩, (h _ _).nonpos_iff.symm⟩
  exact hembeds.isLinearOrder

end Compares

end ThreeWay
