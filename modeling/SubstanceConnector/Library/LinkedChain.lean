import Mathlib.Data.List.Nodup
import Mathlib.Logic.Function.Basic

/-!
# Chains of pointers

The nodes a pointer leads to when every node names its successor. The list is determined by the pointer, so a chain
that ends has no node twice; writes to nodes that are not on it leave it, and writing the new node into the last one
appends (`Linked.concat`). A node is taken out by writing its successor into its predecessor (`Linked.unlink`).
-/

variable {α : Type*}

/-- From `start` the pointers lead through exactly these nodes, and end. -/
def Linked (next : α → Option α) : Option α → List α → Prop
  | start, [] => start = none
  | start, a :: rest => start = some a ∧ Linked next (next a) rest

namespace Linked
variable {next next' : α → Option α} {start : Option α} {xs ys : List α}

theorem head?_eq (h : Linked next start xs) : xs.head? = start := by
  cases xs with
  | nil => exact h.symm
  | cons a rest => exact h.1.symm

theorem congr (h : Linked next start xs) (hsame : ∀ a ∈ xs, next' a = next a) : Linked next' start xs := by
  induction xs generalizing start with
  | nil => exact h
  | cons a rest ih =>
    obtain ⟨hstart, hrest⟩ := h
    refine ⟨hstart, ?_⟩
    rw [hsame a List.mem_cons_self]
    exact ih hrest fun b hb => hsame b (List.mem_cons_of_mem a hb)

/-- There is one list for a pointer. -/
theorem unique (h : Linked next start xs) (h' : Linked next start ys) : xs = ys := by
  induction xs generalizing start ys with
  | nil =>
    have hhead := h'.head?_eq
    rw [show start = none from h] at hhead
    exact (List.head?_eq_none_iff.mp hhead).symm
  | cons a rest ih =>
    obtain ⟨hstart, hrest⟩ := h
    cases ys with
    | nil => exact absurd (hstart.symm.trans h') (by simp)
    | cons b rest' =>
      obtain ⟨hstart', hrest'⟩ := h'
      obtain rfl : a = b := Option.some.inj (hstart.symm.trans hstart')
      rw [ih hrest hrest']

theorem of_append {a : α} (h : Linked next start (xs ++ a :: ys)) : Linked next (some a) (a :: ys) := by
  induction xs generalizing start with
  | nil => exact ⟨rfl, h.2⟩
  | cons b rest ih => exact ih h.2

theorem nodup (h : Linked next start xs) : xs.Nodup := by
  induction xs generalizing start with
  | nil => exact List.nodup_nil
  | cons a rest ih =>
    refine List.nodup_cons.mpr ⟨fun hmem => ?_, ih h.2⟩
    -- a second occurrence leads to a shorter list from the same node
    obtain ⟨before, after, hsplit⟩ := List.append_of_mem hmem
    have hfirst : Linked next (some a) (a :: rest) := ⟨rfl, h.2⟩
    have hsecond : Linked next (some a) (a :: after) := of_append (hsplit ▸ h.2)
    have hlength := congrArg List.length (hfirst.unique hsecond)
    rw [hsplit] at hlength
    simp at hlength
    omega

/-- A node that is not on the chain is appended by writing it into the last one. -/
theorem concat [DecidableEq α] {a b : α} (h : Linked next start xs) (hlast : xs.getLast? = some a) (hb : b ∉ xs) :
    Linked (Function.update (Function.update next b none) a (some b)) start (xs ++ [b]) := by
  induction xs generalizing start with
  | nil => cases hlast
  | cons c rest ih =>
    have hnodup := h.nodup
    obtain ⟨hstart, hrest⟩ := h
    rw [List.mem_cons, not_or] at hb
    refine ⟨hstart, ?_⟩
    cases rest with
    | nil =>
      obtain rfl : c = a := Option.some.inj hlast
      rw [Function.update_self]
      refine ⟨rfl, ?_⟩
      rw [Function.update_of_ne hb.1, Function.update_self]
      rfl
    | cons d rest =>
      have hmem : a ∈ d :: rest := List.mem_of_getLast? hlast
      have hca : c ≠ a := by
        rintro rfl
        exact (List.nodup_cons.mp hnodup).1 hmem
      rw [Function.update_of_ne hca, Function.update_of_ne (Ne.symm hb.1)]
      exact ih hrest hlast hb.2

/-- A node is taken out when its predecessor is made to point to its successor. -/
theorem unlink [DecidableEq α] {a b : α} (h : Linked next start (xs ++ b :: ys)) (hlast : xs.getLast? = some a) :
    Linked (Function.update next a (next b)) start (xs ++ ys) := by
  induction xs generalizing start with
  | nil => cases hlast
  | cons c rest ih =>
    have hnodup := h.nodup
    obtain ⟨hstart, hrest⟩ := h
    rw [List.cons_append, List.nodup_cons] at hnodup
    refine ⟨hstart, ?_⟩
    cases rest with
    | nil =>
      obtain rfl : c = a := Option.some.inj hlast
      rw [Function.update_self]
      apply hrest.2.congr
      rintro d hd
      apply Function.update_of_ne
      rintro rfl
      exact hnodup.1 (List.mem_cons_of_mem b hd)
    | cons d rest =>
      have hmem : a ∈ d :: rest := List.mem_of_getLast? hlast
      have hca : c ≠ a := by
        rintro rfl
        exact hnodup.1 (List.mem_append_left _ hmem)
      rw [Function.update_of_ne hca]
      exact ih hrest hlast

end Linked
