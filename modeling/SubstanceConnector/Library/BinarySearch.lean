import Mathlib.Data.List.Pairwise
import Mathlib.Data.List.TakeDrop

/-!
# Binary search

The search of `bsearch` in a table of any length, by what the comparison of the key with an entry answers. It finds only
entries that compare equal (`mem_of_bsearch`). It finds one if there is one in a table that is `Partitioned` for the key:
first the entries that the key is above, then the equal ones, then those that it is below. In a table that runs the other way
(`Reversed`) every comparison sends the search to the half without the key, and only the entry in the middle can be found.
-/

namespace BinarySearch

variable {α : Type*}

/-- `bsearch`, where `answer` compares the key with an entry. -/
def bsearch (answer : α → Int) (table : List α) : Option α :=
  match h : table[table.length / 2]? with
  | none => none
  | some entry =>
    if answer entry < 0 then bsearch answer (table.take (table.length / 2))
    else if answer entry > 0 then bsearch answer (table.drop (table.length / 2 + 1))
    else some entry
termination_by table.length
decreasing_by
  · have hlt := (List.getElem?_eq_some_iff.mp h).1
    simp only [List.length_take]
    omega
  · have hlt := (List.getElem?_eq_some_iff.mp h).1
    simp only [List.length_drop]
    omega

/-- The entries before the middle, the middle one, and those behind it. -/
theorem split_middle {table : List α} {entry : α} (h : table[table.length / 2]? = some entry) :
    table = table.take (table.length / 2) ++ entry :: table.drop (table.length / 2 + 1) := by
  obtain ⟨hlt, hentry⟩ := List.getElem?_eq_some_iff.mp h
  rw [← hentry, List.getElem_cons_drop, List.take_append_drop]

theorem bsearch_nil (answer : α → Int) : bsearch answer [] = none := by
  rw [bsearch]
  rfl

/-- The step of the loop. -/
theorem bsearch_of_middle {answer : α → Int} {table : List α} {entry : α} (h : table[table.length / 2]? = some entry) :
    bsearch answer table =
      if answer entry < 0 then bsearch answer (table.take (table.length / 2))
      else if answer entry > 0 then bsearch answer (table.drop (table.length / 2 + 1))
      else some entry := by
  rw [bsearch]
  split
  · rename_i hnone
    rw [h] at hnone
    cases hnone
  · rename_i found hfound
    obtain rfl : entry = found := Option.some.inj (h.symm.trans hfound)
    rfl

theorem exists_middle {table : List α} (h : table ≠ []) : ∃ entry, table[table.length / 2]? = some entry := by
  have hpos := List.length_pos_iff.mpr h
  exact ⟨_, List.getElem?_eq_getElem (Nat.div_lt_self hpos (by decide))⟩

/-- What is found is in the table and compares equal. -/
theorem mem_of_bsearch {answer : α → Int} {table : List α} {entry : α} (h : bsearch answer table = some entry) :
    entry ∈ table ∧ answer entry = 0 := by
  induction hn : table.length using Nat.strongRecOn generalizing table with
  | ind n ih =>
    by_cases hnil : table = []
    · rw [hnil, bsearch_nil] at h
      cases h
    · obtain ⟨middle, hmiddle⟩ := exists_middle hnil
      have hlt := (List.getElem?_eq_some_iff.mp hmiddle).1
      rw [bsearch_of_middle hmiddle] at h
      split_ifs at h with hbelow habove
      · have hrest := ih _ (by rw [← hn, List.length_take]; omega) h rfl
        exact ⟨List.mem_of_mem_take hrest.1, hrest.2⟩
      · have hrest := ih _ (by rw [← hn, List.length_drop]; omega) h rfl
        exact ⟨List.mem_of_mem_drop hrest.1, hrest.2⟩
      · obtain rfl := Option.some.inj h
        exact ⟨List.mem_of_getElem? hmiddle, by omega⟩

/-! ## Tables in the order of the search -/

/-- Above the key's entries the key is below, and behind them it stays below. -/
def Partitioned (answer : α → Int) (table : List α) : Prop :=
  table.Pairwise fun x y => (answer x ≤ 0 → answer y ≤ 0) ∧ (answer x < 0 → answer y < 0)

theorem isSome_bsearch {answer : α → Int} {table : List α} (htable : Partitioned answer table) {entry : α}
    (hentry : entry ∈ table) (hequal : answer entry = 0) : (bsearch answer table).isSome := by
  induction hn : table.length using Nat.strongRecOn generalizing table with
  | ind n ih =>
    obtain ⟨middle, hmiddle⟩ := exists_middle (List.ne_nil_of_mem hentry)
    have hlt := (List.getElem?_eq_some_iff.mp hmiddle).1
    have hsplit := split_middle hmiddle
    rw [Partitioned, hsplit, List.pairwise_append, List.pairwise_cons] at htable
    obtain ⟨hbefore, ⟨hbehind, hafter⟩, hacross⟩ := htable
    rw [hsplit, List.mem_append, List.mem_cons] at hentry
    rw [bsearch_of_middle hmiddle]
    split_ifs with hbelow habove
    · -- the key is below the middle, and so below everything behind it
      refine ih _ (by rw [← hn, List.length_take]; omega) hbefore ?_ rfl
      obtain h | rfl | h := hentry
      · exact h
      · omega
      · have := (hbehind entry h).2 hbelow
        omega
    · refine ih _ (by rw [← hn, List.length_drop]; omega) hafter ?_ rfl
      obtain h | rfl | h := hentry
      · have := (hacross entry h middle List.mem_cons_self).1 (Int.le_of_eq hequal)
        omega
      · omega
      · exact h
    · rfl

/-! ## Tables in the opposite order -/

/-- Where the key is not above an entry it is below all the entries before it, and where it is not below one it is above all
the entries behind it. -/
def Reversed (answer : α → Int) (table : List α) : Prop :=
  table.Pairwise fun x y => (answer y ≤ 0 → answer x < 0) ∧ (0 ≤ answer x → 0 < answer y)

theorem bsearch_eq_none {answer : α → Int} {table : List α} (h : ∀ entry ∈ table, answer entry ≠ 0) :
    bsearch answer table = none := by
  cases hfound : bsearch answer table with
  | none => rfl
  | some entry =>
    obtain ⟨hmem, hequal⟩ := mem_of_bsearch hfound
    exact absurd hequal (h entry hmem)

/-- Only the middle of the table is ever found. -/
theorem bsearch_reversed {answer : α → Int} {table : List α} (htable : Reversed answer table) {entry : α} :
    bsearch answer table = some entry ↔ table[table.length / 2]? = some entry ∧ answer entry = 0 := by
  by_cases hnil : table = []
  · subst hnil
    rw [bsearch_nil]
    simp
  · obtain ⟨middle, hmiddle⟩ := exists_middle hnil
    have hsplit := split_middle hmiddle
    rw [Reversed, hsplit, List.pairwise_append, List.pairwise_cons] at htable
    obtain ⟨-, ⟨hbehind, -⟩, hacross⟩ := htable
    rw [bsearch_of_middle hmiddle, hmiddle, Option.some.injEq]
    split_ifs with hbelow habove
    · rw [bsearch_eq_none fun x hx => Int.ne_of_lt ((hacross x hx middle List.mem_cons_self).1 (Int.le_of_lt hbelow))]
      refine iff_of_false (by simp) ?_
      rintro ⟨rfl, hequal⟩
      omega
    · rw [bsearch_eq_none fun x hx => (Int.ne_of_lt ((hbehind x hx).2 (Int.le_of_lt habove))).symm]
      refine iff_of_false (by simp) ?_
      rintro ⟨rfl, hequal⟩
      omega
    · rw [Option.some.injEq]
      refine ⟨?_, And.left⟩
      rintro rfl
      exact ⟨rfl, by omega⟩

end BinarySearch
