import SubstanceConnector.Framework.PythonUuid
import SubstanceConnector.Library.ThreeWay
import SubstanceConnector.Messaging.Dispatch

/-!
# The order of identifiers

`connector_compare_uuid` searches the internal callbacks, and `operator<` of the C++ framework orders the keys of its
callback map. The loop of the one leaves at the first words that differ, and the other compares tuples of the words; both
are the order of the numbers of 128 bits whose digits in base 2^32 the words are (`uuid_order`).
-/

namespace SubstanceConnector.Framework

open Numeral Python ThreeWay

/-! ## The number of an identifier -/

/-- The first word is the most significant one. -/
def number (x : Uuid) : Nat := value (2 ^ 32) ((List.ofFn x.elements).map UInt32.toNat)

theorem number_eq (x : Uuid) : number x = (x.elements 0).toNat * 2 ^ 96 + (x.elements 1).toNat * 2 ^ 64 +
    (x.elements 2).toNat * 2 ^ 32 + (x.elements 3).toNat := by
  simp [number, value, List.ofFn_succ, Nat.ofDigits]
  omega

theorem word_lt (l : List UInt32) : ∀ d ∈ l.map UInt32.toNat, d < 2 ^ 32 := by
  intro d hd
  obtain ⟨word, -, rfl⟩ := List.mem_map.mp hd
  exact word.toNat_lt

/-- A Python identifier is the number of its words. -/
theorem number_words (u : UUID) : number (words u) = u.int := by
  rw [number, ofFn_words, convertUuidToIntegers_eq, value_padded]

/-! ## The loop -/

/-- An early exit is at the first digits that differ. -/
theorem compareWords_decides {xs ys : List UInt32} (hlength : xs.length = ys.length) :
    Decides (value (2 ^ 32) (xs.map UInt32.toNat)) (value (2 ^ 32) (ys.map UInt32.toNat)) (compareWords (xs.zip ys)) := by
  induction xs generalizing ys with
  | nil =>
    obtain rfl := List.length_eq_zero_iff.mp hlength.symm
    exact .equal rfl
  | cons x xs ih =>
    cases ys with
    | nil => cases hlength
    | cons y ys =>
      have hrest : xs.length = ys.length := Nat.succ.inj hlength
      have hdigits : (xs.map UInt32.toNat).length = (ys.map UInt32.toNat).length := by
        rw [List.length_map, List.length_map, hrest]
      rw [List.zip_cons_cons, compareWords, List.map_cons, List.map_cons]
      split_ifs with hlt hgt
      · exact .below (value_cons_lt one_lt_word hdigits (word_lt xs) hlt)
      · exact .above (value_cons_lt one_lt_word hdigits.symm (word_lt ys) hgt)
      · obtain rfl : x = y := UInt32.le_antisymm (UInt32.not_lt.mp hgt) (UInt32.not_lt.mp hlt)
        apply (ih hrest).congr
        · rw [value_cons, value_cons, hdigits, Nat.add_lt_add_iff_left]
        · rw [value_cons, value_cons, hdigits, Nat.add_lt_add_iff_left]

theorem compares_number : Compares number connectorCompareUuid := fun x y => compareWords_decides (by simp)

theorem number_injective : Function.Injective number := by
  intro x y h
  exact connectorCompareUuid_eq_zero.mp ((compares_number x y).zero_iff.mpr h)

/-! ## The tuples -/

theorem tupleLt_iff {xs ys : List UInt32} : tupleLt xs ys = true ↔ compareWords (xs.zip ys) < 0 := by
  induction xs generalizing ys with
  | nil => simp [tupleLt, compareWords]
  | cons x xs ih =>
    cases ys with
    | nil => simp [tupleLt, compareWords]
    | cons y ys =>
      rw [tupleLt, List.zip_cons_cons, compareWords]
      split_ifs with hlt hgt
      · simp [hlt]
      · simp [hlt, hgt]
      · simp [hlt, hgt, ih]

theorem tupleEq_iff {xs ys : List UInt32} : tupleEq xs ys = true ↔ compareWords (xs.zip ys) = 0 := by
  induction xs generalizing ys with
  | nil => simp [tupleEq, compareWords]
  | cons x xs ih =>
    cases ys with
    | nil => simp [tupleEq, compareWords]
    | cons y ys =>
      rw [tupleEq, List.zip_cons_cons, compareWords]
      split_ifs with hlt hgt
      · simp [UInt32.ne_of_lt hlt]
      · simp [(UInt32.ne_of_lt hgt).symm]
      · obtain rfl : x = y := UInt32.le_antisymm (UInt32.not_lt.mp hgt) (UInt32.not_lt.mp hlt)
        simp [ih]

theorem uuidTuple_eq (x : Uuid) : uuidTuple x = List.ofFn x.elements := by
  simp [uuidTuple, List.ofFn_succ]

theorem operatorLt_iff {x y : Uuid} : operatorLt x y = true ↔ connectorCompareUuid x y < 0 := by
  rw [operatorLt, tupleLt_iff, uuidTuple_eq, uuidTuple_eq, connectorCompareUuid]

theorem operatorEq_iff {x y : Uuid} : operatorEq x y = true ↔ connectorCompareUuid x y = 0 := by
  rw [operatorEq, tupleEq_iff, uuidTuple_eq, uuidTuple_eq, connectorCompareUuid]

/-- A map whose keys are ordered by `operator<` holds an identifier once. -/
theorem equivalent_iff {x y : Uuid} : operatorLt x y = false ∧ operatorLt y x = false ↔ x = y := by
  rw [← Bool.not_eq_true, ← Bool.not_eq_true, operatorLt_iff, operatorLt_iff, (compares_number x y).neg_iff,
    (compares_number y x).neg_iff, not_lt, not_lt, and_comm, ← le_antisymm_iff, number_injective.eq_iff]

/-! ## One order -/

/-- The comparison is antisymmetric and makes the identifiers a strict total order, with zero exactly on equal words; the
operators of C++ agree with it, and all are the order of the numbers. -/
theorem uuid_order :
    IsStrictTotalOrder Uuid (fun x y => connectorCompareUuid x y < 0) ∧
      IsLinearOrder Uuid (fun x y => connectorCompareUuid x y ≤ 0) ∧
      ∀ x y : Uuid, connectorCompareUuid y x = -connectorCompareUuid x y ∧
        (connectorCompareUuid x y = 0 ↔ x.elements = y.elements) ∧
        (operatorLt x y = true ↔ connectorCompareUuid x y < 0) ∧
        (operatorEq x y = true ↔ connectorCompareUuid x y = 0) ∧
        Decides (number x) (number y) (connectorCompareUuid x y) ∧
        (operatorLt x y = true ↔ number x < number y) ∧ (operatorEq x y = true ↔ number x = number y) := by
  refine ⟨compares_number.isStrictTotalOrder number_injective, compares_number.isLinearOrder number_injective,
    fun x y => ⟨compares_number.antisymmetric x y, ?_, operatorLt_iff, operatorEq_iff, compares_number x y, ?_, ?_⟩⟩
  · rw [connectorCompareUuid_eq_zero]
    exact Uuid.ext_iff
  · rw [operatorLt_iff, (compares_number x y).neg_iff]
  · rw [operatorEq_iff, (compares_number x y).zero_iff]

end SubstanceConnector.Framework
