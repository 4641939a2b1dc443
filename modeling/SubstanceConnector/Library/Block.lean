import Mathlib.Data.List.Basic

/-!
# Blocks of memory

A block is the list of its cells; a fresh one holds whatever the memory held before. Filling the
first cells of a block, copying cells into it and storing one cell succeed exactly when they stay
inside it, and each has one lemma that says what every cell holds afterwards.
-/

namespace Block

variable {α : Type}

/-- A block of `n` cells straight from the allocator. -/
def fresh (contents : Nat → α) (n : Nat) : List α := (List.range n).map contents

/-- Write `x` into the first `n` cells. -/
def fill (block : List α) (n : Nat) (x : α) : Option (List α) :=
  if n ≤ block.length then some (List.replicate n x ++ block.drop n) else none

/-- Copy the first `n` cells of another block. -/
def copy (block source : List α) (n : Nat) : Option (List α) :=
  if n ≤ block.length ∧ n ≤ source.length then some (source.take n ++ block.drop n) else none

def store (block : List α) (i : Nat) (x : α) : Option (List α) :=
  if i < block.length then some (block.set i x) else none

/-- Copy the cells of another block from cell `i` on. -/
def copyAt (block : List α) (i : Nat) (source : List α) : Option (List α) :=
  if i + source.length ≤ block.length then some (block.take i ++ source ++ block.drop (i + source.length)) else none

@[simp] theorem length_fresh (contents : Nat → α) (n : Nat) : (fresh contents n).length = n := by
  simp [fresh]

theorem getElem?_fresh (contents : Nat → α) {n k : Nat} (h : k < n) :
    (fresh contents n)[k]? = some (contents k) := by
  simp [fresh, h]

theorem fill_of_le {block : List α} {n : Nat} (x : α) (h : n ≤ block.length) :
    ∃ block', fill block n x = some block' ∧ block'.length = block.length ∧
      ∀ k, block'[k]? = if k < n then some x else block[k]? := by
  refine ⟨List.replicate n x ++ block.drop n, if_pos h, ?_, fun k => ?_⟩
  · simp only [List.length_append, List.length_replicate, List.length_drop]
    omega
  · split <;> rename_i hk
    · rw [List.getElem?_append_left (by simpa using hk), List.getElem?_replicate, if_pos hk]
    · rw [List.getElem?_append_right (by simpa using hk), List.getElem?_drop, List.length_replicate]
      congr 1
      omega

theorem copy_of_le {block source : List α} {n : Nat} (h : n ≤ block.length) (h' : n ≤ source.length) :
    ∃ block', copy block source n = some block' ∧ block'.length = block.length ∧
      ∀ k, block'[k]? = if k < n then source[k]? else block[k]? := by
  have hlen : (source.take n).length = n := List.length_take_of_le h'
  refine ⟨source.take n ++ block.drop n, if_pos ⟨h, h'⟩, ?_, fun k => ?_⟩
  · simp only [List.length_append, hlen, List.length_drop]
    omega
  · split <;> rename_i hk
    · rw [List.getElem?_append_left (by omega), List.getElem?_take, if_pos hk]
    · rw [List.getElem?_append_right (by omega), List.getElem?_drop, hlen]
      congr 1
      omega

theorem store_of_lt {block : List α} {i : Nat} (x : α) (h : i < block.length) :
    ∃ block', store block i x = some block' ∧ block'.length = block.length ∧
      ∀ k, block'[k]? = if k = i then some x else block[k]? := by
  refine ⟨block.set i x, if_pos h, List.length_set, fun k => ?_⟩
  rw [List.getElem?_set]
  simp only [h, if_true, eq_comm]

/-- Behind what is written, the source takes the place of as many cells. -/
theorem copyAt_append (written : List α) {old source : List α} (hold : old.length = source.length) (rest : List α) :
    copyAt (written ++ (old ++ rest)) written.length source = some (written ++ (source ++ rest)) := by
  rw [copyAt, if_pos, List.take_left, ← hold, ← List.length_append, ← List.append_assoc written, List.drop_left,
    List.append_assoc]
  simp only [List.length_append]
  omega

theorem store_append (written : List α) (c x : α) (rest : List α) :
    store (written ++ c :: rest) written.length x = some (written ++ x :: rest) := by
  rw [store, if_pos]
  · simp
  · simp

end Block
