import SubstanceConnector.Framework.Uuid

/-!
# Identifiers in Python

`uuid_utils.py` and the conversions of the extension module. Python keeps an identifier as one number below 2^128; its
four words are the digits of that number in base 2^32 (`convertUuidToIntegers_eq`), and the text of the number has the
digits of the words (`str_eq`). So both endpoints agree on the words (`python_uuid`).
-/

namespace SubstanceConnector.Python

open Numeral Framework

inductive PyException where
  | indexError
  | valueError
  deriving DecidableEq

/-- A Python `uuid.UUID`. -/
@[ext] structure UUID where
  int : Nat
  lt : int < 2 ^ 128

/-- `uuid.UUID(int=...)`. -/
def UUID.ofInt (int : Nat) : Except PyException UUID :=
  if h : int < 2 ^ 128 then .ok ⟨int, h⟩ else .error .valueError

/-- `str(uuid)`: the 32 digits in the canonical form. -/
def UUID.str (u : UUID) : List UInt8 := canonicalForm ((padded 16 32 u.int).map digitChar)

def getItem (list : List Nat) (i : Nat) : Except PyException Nat :=
  match list[i]? with
  | some n => .ok n
  | none => .error .indexError

def convertUuidToIntegers (uuidObject : UUID) : List Nat :=
  let uuidInt := uuidObject.int
  [(uuidInt &&& (0xffffffff <<< 96)) >>> 96, (uuidInt &&& (0xffffffff <<< 64)) >>> 64,
    (uuidInt &&& (0xffffffff <<< 32)) >>> 32, uuidInt &&& 0xffffffff]

def convertIntegersToUuid (uuidInts : List Nat) : Except PyException UUID := do
  let uuidInt ← getItem uuidInts 3
  let uuidInt := uuidInt ||| ((← getItem uuidInts 2) <<< 32)
  let uuidInt := uuidInt ||| ((← getItem uuidInts 1) <<< 64)
  let uuidInt := uuidInt ||| ((← getItem uuidInts 0) <<< 96)
  UUID.ofInt uuidInt

/-- `PyLong_AsUnsignedLong`: the largest value stands for an overflow. -/
def pyLongAsUnsignedLong (ulongBits n : Nat) : Nat := if n < 2 ^ ulongBits then n else 2 ^ ulongBits - 1

/-- The loop of `connector_python_assemble_uuid` from element `i` on; it stops where the list does. -/
def assembleLoop (ulongBits : Nat) : List Nat → Nat → Uuid → Uuid
  | [], _, uuid => uuid
  | element :: rest, i, uuid =>
    if i < 4 then
      assembleLoop ulongBits rest (i + 1) (setElement uuid i (UInt32.ofNat (pyLongAsUnsignedLong ulongBits element)))
    else uuid

def connectorPythonAssembleUuid (ulongBits : Nat) (list : List Nat) (uuid : Uuid) : Uuid :=
  assembleLoop ulongBits list 0 uuid

def connectorPythonSplitUuid (uuid : Uuid) (list : List Nat) : List Nat :=
  list ++ (List.ofFn uuid.elements).map UInt32.toNat

/-! ## Words as digits -/

theorem one_lt_word : 1 < 2 ^ 32 := by decide

theorem mask_shift (n k : Nat) : (n &&& (0xffffffff <<< k)) >>> k = n / 2 ^ k % 2 ^ 32 := by
  rw [Nat.shiftRight_and_distrib, Nat.shiftLeft_shiftRight, Nat.shiftRight_eq_div_pow]
  exact Nat.and_two_pow_sub_one_eq_mod _ 32

/-- The words are the digits of the number in base 2^32. -/
theorem convertUuidToIntegers_eq (u : UUID) : convertUuidToIntegers u = padded (2 ^ 32) 4 u.int := by
  have hlt : u.int < (2 ^ 32) ^ 4 := u.lt
  have hlow : u.int &&& 0xffffffff = u.int % 2 ^ 32 := Nat.and_two_pow_sub_one_eq_mod _ 32
  have hwords : convertUuidToIntegers u =
      [u.int / 2 ^ 96 % 2 ^ 32, u.int / 2 ^ 64 % 2 ^ 32, u.int / 2 ^ 32 % 2 ^ 32, u.int % 2 ^ 32] := by
    simp only [convertUuidToIntegers, mask_shift, hlow]
  rw [hwords]
  apply eq_of_value_eq one_lt_word
  · rw [length_padded one_lt_word hlt]
    rfl
  · simp only [List.forall_mem_cons, List.not_mem_nil, IsEmpty.forall_iff, implies_true, and_true]
    omega
  · exact fun d hd => lt_of_mem_padded one_lt_word hd
  · rw [value_padded]
    simp [value, Nat.ofDigits]
    omega

theorem or_shiftLeft {low k : Nat} (hlow : low < 2 ^ k) (high : Nat) : low ||| (high <<< k) = high * 2 ^ k + low := by
  rw [Nat.or_comm, ← Nat.shiftLeft_add_eq_or_of_lt hlow, Nat.shiftLeft_eq]

theorem mul_add_lt {high low k : Nat} (hhigh : high < 2 ^ 32) (hlow : low < 2 ^ k) :
    high * 2 ^ k + low < 2 ^ (32 + k) := by
  calc high * 2 ^ k + low
    _ < (high + 1) * 2 ^ k := by
      rw [Nat.succ_mul]
      exact Nat.add_lt_add_left hlow _
    _ ≤ 2 ^ 32 * 2 ^ k := Nat.mul_le_mul_right _ hhigh
    _ = 2 ^ (32 + k) := (Nat.pow_add ..).symm

theorem convertIntegersToUuid_eq {l : List Nat} (hlength : l.length = 4) (hlt : ∀ n ∈ l, n < 2 ^ 32) :
    convertIntegersToUuid l = UUID.ofInt (value (2 ^ 32) l) := by
  obtain ⟨a, b, c, d, rfl⟩ := List.length_eq_four.mp hlength
  simp only [List.forall_mem_cons, List.not_mem_nil, IsEmpty.forall_iff, implies_true, and_true] at hlt
  obtain ⟨ha, hb, hc, hd⟩ := hlt
  have hvalue : value (2 ^ 32) [a, b, c, d] = a * 2 ^ 96 + (b * 2 ^ 64 + (c * 2 ^ 32 + d)) := by
    simp [value, Nat.ofDigits]
    omega
  have hlow : c * 2 ^ 32 + d < 2 ^ 64 := mul_add_lt hc hd
  have hmiddle : b * 2 ^ 64 + (c * 2 ^ 32 + d) < 2 ^ 96 := mul_add_lt hb hlow
  have hor : d ||| (c <<< 32) ||| (b <<< 64) ||| (a <<< 96) = a * 2 ^ 96 + (b * 2 ^ 64 + (c * 2 ^ 32 + d)) := by
    rw [or_shiftLeft hd c, or_shiftLeft hlow b, or_shiftLeft hmiddle a]
  rw [hvalue, ← hor]
  rfl

theorem UUID.ofInt_int (u : UUID) : UUID.ofInt u.int = .ok u := dif_pos u.lt

theorem convertIntegersToUuid_convertUuidToIntegers (u : UUID) :
    convertIntegersToUuid (convertUuidToIntegers u) = .ok u := by
  have hlt : u.int < (2 ^ 32) ^ 4 := u.lt
  rw [convertUuidToIntegers_eq, convertIntegersToUuid_eq (length_padded one_lt_word hlt)
    (fun n hn => lt_of_mem_padded one_lt_word hn), value_padded, UUID.ofInt_int]

theorem convertUuidToIntegers_convertIntegersToUuid {l : List Nat} (hlength : l.length = 4)
    (hlt : ∀ n ∈ l, n < 2 ^ 32) : ∃ u, convertIntegersToUuid l = .ok u ∧ convertUuidToIntegers u = l := by
  have hvalue : value (2 ^ 32) l < 2 ^ 128 := by
    have hvalue := value_lt one_lt_word hlt
    rw [hlength] at hvalue
    exact hvalue
  refine ⟨⟨value (2 ^ 32) l, hvalue⟩, ?_, ?_⟩
  · rw [convertIntegersToUuid_eq hlength hlt]
    exact dif_pos hvalue
  · rw [convertUuidToIntegers_eq, ← hlength]
    exact padded_value one_lt_word hlt

/-! ## The two endpoints -/

/-- The identifier with the words of a Python one. -/
def words (u : UUID) : Uuid := ⟨fun i => UInt32.ofNat ((convertUuidToIntegers u).getD i 0)⟩

theorem ofFn_words (u : UUID) : (List.ofFn (words u).elements).map UInt32.toNat = convertUuidToIntegers u := by
  have hlt : ∀ n ∈ convertUuidToIntegers u, n < 2 ^ 32 := by
    rw [convertUuidToIntegers_eq]
    exact fun n hn => lt_of_mem_padded one_lt_word hn
  have hlength : (convertUuidToIntegers u).length = 4 := rfl
  obtain ⟨a, b, c, d, hl⟩ := List.length_eq_four.mp hlength
  rw [hl] at hlt
  simp only [List.forall_mem_cons, List.not_mem_nil, IsEmpty.forall_iff, implies_true, and_true] at hlt
  simp [words, hl, List.ofFn_succ]
  omega

/-- The digits of the words are those of the number. -/
theorem uuidDigits_words (u : UUID) : uuidDigits (words u) = padded 16 32 u.int := by
  have hlt : u.int < ((16 ^ 8) ^ 4) := u.lt
  calc uuidDigits (words u)
    _ = ((List.ofFn (words u).elements).map UInt32.toNat).flatMap (padded 16 8) := (List.flatMap_map ..).symm
    _ = (padded (16 ^ 8) 4 u.int).flatMap (padded 16 8) := by
      rw [ofFn_words, convertUuidToIntegers_eq]
      rfl
    _ = padded 16 32 u.int := flatMap_padded (by decide) (by decide) hlt

/-- Both endpoints write the identifier alike. -/
theorem str_eq (u : UUID) : u.str = uuidToString (words u) := by
  rw [uuidToString_eq, uuidDigits_words]
  rfl

theorem assemble_words (u : UUID) {ulongBits : Nat} (hbits : 32 ≤ ulongBits) (uuid : Uuid) :
    connectorPythonAssembleUuid ulongBits (convertUuidToIntegers u) uuid = words u := by
  have hlt : ∀ n ∈ convertUuidToIntegers u, pyLongAsUnsignedLong ulongBits n = n := by
    intro n hn
    rw [convertUuidToIntegers_eq] at hn
    apply if_pos
    exact (lt_of_mem_padded one_lt_word hn).trans_le (Nat.pow_le_pow_right (by decide) hbits)
  have hlength : (convertUuidToIntegers u).length = 4 := rfl
  obtain ⟨a, b, c, d, hl⟩ := List.length_eq_four.mp hlength
  rw [hl] at hlt
  simp only [List.forall_mem_cons, List.not_mem_nil, IsEmpty.forall_iff, implies_true, and_true] at hlt
  obtain ⟨ha, hb, hc, hd⟩ := hlt
  apply Uuid.ext
  funext i
  rw [hl, connectorPythonAssembleUuid]
  simp only [assembleLoop, ha, hb, hc, hd, words, hl]
  fin_cases i <;> rfl

/-- A Python identifier is four words and back, its words are the elements that the other endpoint reads from its
text and the ones the extension module passes on, and every four words are an identifier. -/
theorem python_uuid (unset : Nat → UInt32) :
    (∀ u, (convertUuidToIntegers u).length = 4 ∧ (∀ n ∈ convertUuidToIntegers u, n < 2 ^ 32) ∧
      convertIntegersToUuid (convertUuidToIntegers u) = .ok u ∧
      convertUuidToIntegers u = connectorPythonSplitUuid (uuidFromString unset u.str) [] ∧
      ∀ ulongBits uuid, 32 ≤ ulongBits →
        connectorPythonAssembleUuid ulongBits (convertUuidToIntegers u) uuid = uuidFromString unset u.str) ∧
    ∀ l : List Nat, l.length = 4 → (∀ n ∈ l, n < 2 ^ 32) →
      ∃ u, convertIntegersToUuid l = .ok u ∧ convertUuidToIntegers u = l := by
  have htext : ∀ u : UUID, uuidFromString unset u.str = words u := fun u => by
    rw [str_eq, uuidFromString_uuidToString]
  refine ⟨fun u => ⟨rfl, ?_, convertIntegersToUuid_convertUuidToIntegers u, ?_, fun ulongBits uuid hbits => ?_⟩,
    fun l hlength hlt => convertUuidToIntegers_convertIntegersToUuid hlength hlt⟩
  · rw [convertUuidToIntegers_eq]
    exact fun n hn => lt_of_mem_padded one_lt_word hn
  · rw [htext, connectorPythonSplitUuid, List.nil_append, ofFn_words]
  · rw [htext, assemble_words u hbits]

end SubstanceConnector.Python
