import SubstanceConnector.Library.Numeral
import SubstanceConnector.Base
import Mathlib.Data.List.ReduceOption
import Mathlib.Tactic.FinCases

/-!
# Identifiers as text

`uuid.cpp` of the C++ framework, over what it uses of the standard streams: a formatted output fills up to a width
that the next output forgets, while the base and the fill character stay; an extraction of a number skips white space,
takes an optional sign and prefix, and stops at the first character that is no digit.

The text of an identifier has the canonical form of its 32 digits, and whatever text has these digits first, once its
dashes are taken out, is read as the identifier (`uuid_text`).
-/

namespace SubstanceConnector.Framework

open Numeral

/-! ## Streams -/

/-- Lower-case digits. -/
def digitChar (d : Nat) : UInt8 := UInt8.ofNat (if d < 10 then 48 + d else 87 + d)

def digitValue (c : UInt8) : Option Nat :=
  if 48 ≤ c ∧ c ≤ 57 then some (c.toNat - 48)
  else if 97 ≤ c ∧ c ≤ 102 then some (c.toNat - 87)
  else if 65 ≤ c ∧ c ≤ 70 then some (c.toNat - 55)
  else none

def isSpace (c : UInt8) : Bool := c = 32 ∨ (9 ≤ c ∧ c ≤ 13)

/-- What a `std::stringstream` remembers between outputs. -/
structure OStream where
  text : List UInt8
  base : Nat
  width : Nat
  fill : UInt8

namespace OStream

def fresh : OStream := ⟨[], 10, 0, ' '.toUInt8⟩

def hex (s : OStream) : OStream := { s with base := 16 }

def setw (s : OStream) (width : Nat) : OStream := { s with width }

def setfill (s : OStream) (fill : UInt8) : OStream := { s with fill }

/-- A formatted output: the width holds for one. -/
def put (s : OStream) (field : List UInt8) : OStream :=
  { s with text := s.text ++ (List.replicate (s.width - field.length) s.fill ++ field), width := 0 }

def putChar (s : OStream) (c : UInt8) : OStream := s.put [c]

def putUInt32 (s : OStream) (n : UInt32) : OStream := s.put ((shortest s.base n.toNat).map digitChar)

end OStream

/-- The text after a sign, and whether it was a minus. -/
def skipSign : List UInt8 → Bool × List UInt8
  | c :: rest =>
    if c = '-'.toUInt8 then (true, rest) else if c = '+'.toUInt8 then (false, rest) else (false, c :: rest)
  | [] => (false, [])

/-- The text after the prefix `0x` or `0X`. -/
def skipPrefix : List UInt8 → List UInt8
  | zero :: x :: rest =>
    if zero = '0'.toUInt8 ∧ (x = 'x'.toUInt8 ∨ x = 'X'.toUInt8) then rest else zero :: x :: rest
  | text => text

/-- Extraction of a `uint32_t` in base 16: nothing is stored when there is only white space, and zero when there is no
digit; what does not fit is replaced by the largest value. -/
def extractHex (text : List UInt8) : Option UInt32 :=
  match text.dropWhile isSpace with
  | [] => none
  | text =>
    let (negative, text) := skipSign text
    let digits := ((skipPrefix text).map digitValue).takeWhile Option.isSome
    let n := value 16 digits.reduceOption
    if 2 ^ 32 ≤ n then some (UInt32.ofNat (2 ^ 32 - 1))
    else if negative then some (-UInt32.ofNat n)
    else some (UInt32.ofNat n)

/-! ## The source -/

/-- `uuid_tuple`. -/
def uuidTuple (x : Uuid) : List UInt32 := [x.elements 0, x.elements 1, x.elements 2, x.elements 3]

/-- `operator<` of `std::tuple`. -/
def tupleLt : List UInt32 → List UInt32 → Bool
  | x :: xs, y :: ys => x < y || (!(y < x : Bool) && tupleLt xs ys)
  | _, _ => false

/-- `operator==` of `std::tuple`. -/
def tupleEq : List UInt32 → List UInt32 → Bool
  | x :: xs, y :: ys => x == y && tupleEq xs ys
  | _, _ => true

def operatorLt (x y : Uuid) : Bool := tupleLt (uuidTuple x) (uuidTuple y)

def operatorEq (x y : Uuid) : Bool := tupleEq (uuidTuple x) (uuidTuple y)

def uuidToString (uuid : Uuid) : List UInt8 :=
  let ints := uuid.elements
  let zero := '0'.toUInt8
  let dash := '-'.toUInt8
  let ss := (((OStream.fresh.hex.setw 8).setfill zero).putUInt32 (ints 0)).putChar dash
  let ss := ((ss.setw 4).setfill zero).putUInt32 (ints 1 >>> 16)
  let ss := (((ss.putChar dash).setw 4).setfill zero).putUInt32 (ints 1 &&& 0xFFFF)
  let ss := (((ss.putChar dash).setw 4).setfill zero).putUInt32 (ints 2 >>> 16)
  let ss := (((ss.putChar dash).setw 4).setfill zero).putUInt32 (ints 2 &&& 0xFFFF)
  let ss := ((ss.setw 8).setfill zero).putUInt32 (ints 3)
  ss.text

/-- `uuid.elements[index] = u`. -/
def setElement (uuid : Uuid) (index : Nat) (u : UInt32) : Uuid :=
  ⟨fun i => if i.val = index then u else uuid.elements i⟩

/-- The loop of `uuidFromString`. `unset` is what the uninitialized `u` holds in each round. -/
def uuidFromStringLoop (unset : Nat → UInt32) : List UInt8 → Nat → List UInt8 → Uuid → Uuid
  | [], _, _, uuid => uuid
  | c :: text, currentElementIndex, currentElementString, uuid =>
    if c = '-'.toUInt8 then uuidFromStringLoop unset text currentElementIndex currentElementString uuid
    else
      let currentElementString := currentElementString ++ [c]
      if currentElementString.length = 8 then
        let u := (extractHex currentElementString).getD (unset currentElementIndex)
        let uuid := setElement uuid currentElementIndex u
        let currentElementIndex := currentElementIndex + 1
        if 4 ≤ currentElementIndex then uuid else uuidFromStringLoop unset text currentElementIndex [] uuid
      else uuidFromStringLoop unset text currentElementIndex currentElementString uuid

def uuidFromString (unset : Nat → UInt32) (uuidString : List UInt8) : Uuid :=
  uuidFromStringLoop unset uuidString 0 [] (.ofWords 0 0 0 0)

/-! ## Digits of an identifier -/

/-- The eight digits of each word, with leading zeros. -/
def uuidDigits (u : Uuid) : List Nat := (List.ofFn u.elements).flatMap fun word => padded 16 8 word.toNat

/-- Groups of 8, 4, 4, 4 and 12 characters between dashes. -/
def canonicalForm (digits : List UInt8) : List UInt8 :=
  digits.take 8 ++ '-'.toUInt8 :: (digits.drop 8).take 4 ++ '-'.toUInt8 :: (digits.drop 12).take 4 ++
    '-'.toUInt8 :: (digits.drop 16).take 4 ++ '-'.toUInt8 :: digits.drop 20

theorem digitValue_digitChar {d : Nat} (hd : d < 16) : digitValue (digitChar d) = some d := by
  have hall : ∀ d : Fin 16, digitValue (digitChar d) = some d.val := by decide
  exact hall ⟨d, hd⟩

/-- What is a digit is no dash, white space, sign or `x`. -/
theorem digitValue_eq_some {c : UInt8} {d : Nat} (h : digitValue c = some d) :
    d < 16 ∧ c ≠ '-'.toUInt8 ∧ isSpace c = false ∧ c ≠ '+'.toUInt8 ∧ c ≠ 'x'.toUInt8 ∧ c ≠ 'X'.toUInt8 := by
  have hall : ∀ n : Fin 256, ∀ d ∈ digitValue (UInt8.ofNat n), d < 16 ∧ UInt8.ofNat n ≠ '-'.toUInt8 ∧
      isSpace (UInt8.ofNat n) = false ∧ UInt8.ofNat n ≠ '+'.toUInt8 ∧ UInt8.ofNat n ≠ 'x'.toUInt8 ∧
        UInt8.ofNat n ≠ 'X'.toUInt8 := by decide +kernel
  have hc := hall ⟨c.toNat, c.toNat_lt⟩ d
  rw [UInt8.ofNat_toNat] at hc
  exact hc h

/-! ## Writing -/

/-- After `setw` and `setfill('0')` a number is written with leading zeros. -/
theorem putUInt32_setfill (s : OStream) {width : Nat} {n : UInt32} (hwidth : 0 < width) (hn : n.toNat < 16 ^ width)
    (hbase : s.base = 16) :
    ((s.setw width).setfill '0'.toUInt8).putUInt32 n =
      ⟨s.text ++ (padded 16 width n.toNat).map digitChar, 16, 0, '0'.toUInt8⟩ := by
  have hfill : List.replicate (width - (shortest 16 n.toNat).length) 0 ++ shortest 16 n.toNat =
      padded 16 width n.toNat := fill_shortest (by decide) hwidth hn
  have hzero : '0'.toUInt8 = digitChar 0 := by decide
  rw [← hfill, List.map_append, List.map_replicate]
  simp [OStream.putUInt32, OStream.setw, OStream.setfill, OStream.put, hbase, hzero]

theorem putChar_of_width {s : OStream} (c : UInt8) (hwidth : s.width = 0) :
    s.putChar c = { s with text := s.text ++ [c] } := by
  simp [OStream.putChar, OStream.put, hwidth]

theorem toNat_high (word : UInt32) : (word >>> 16).toNat = word.toNat / 16 ^ 4 := by
  rw [UInt32.toNat_shiftRight, Nat.shiftRight_eq_div_pow]
  rfl

theorem toNat_low (word : UInt32) : (word &&& 0xFFFF).toNat = word.toNat % 16 ^ 4 :=
  (UInt32.toNat_and word 0xFFFF).trans (Nat.and_two_pow_sub_one_eq_mod word.toNat 16)

theorem toNat_lt_pow (word : UInt32) : word.toNat < 16 ^ (4 + 4) := word.toNat_lt

theorem toNat_high_lt (word : UInt32) : (word >>> 16).toNat < 16 ^ 4 := by
  rw [toNat_high, Nat.div_lt_iff_lt_mul (by decide), ← Nat.pow_add]
  exact toNat_lt_pow word

theorem toNat_low_lt (word : UInt32) : (word &&& 0xFFFF).toNat < 16 ^ 4 := by
  rw [toNat_low]
  exact Nat.mod_lt _ (by decide)

/-- The digits of a word are those of its halves. -/
theorem padded_halves (word : UInt32) :
    padded 16 8 word.toNat = padded 16 4 (word >>> 16).toNat ++ padded 16 4 (word &&& 0xFFFF).toNat := by
  rw [toNat_high, toNat_low]
  exact (padded_append (by decide) (toNat_lt_pow word)).symm

theorem length_padded_word (word : UInt32) : (padded 16 8 word.toNat).length = 8 :=
  length_padded (by decide) (toNat_lt_pow word)

theorem uuidDigits_eq (u : Uuid) :
    uuidDigits u = padded 16 8 (u.elements 0).toNat ++ padded 16 8 (u.elements 1).toNat ++
      padded 16 8 (u.elements 2).toNat ++ padded 16 8 (u.elements 3).toNat := by
  simp [uuidDigits, List.ofFn_succ]

theorem length_uuidDigits (u : Uuid) : (uuidDigits u).length = 32 := by
  simp [uuidDigits_eq, length_padded_word]

theorem canonicalForm_append {a b c d e : List UInt8} (ha : a.length = 8) (hb : b.length = 4) (hc : c.length = 4)
    (hd : d.length = 4) :
    canonicalForm (a ++ b ++ c ++ d ++ e) =
      a ++ '-'.toUInt8 :: b ++ '-'.toUInt8 :: c ++ '-'.toUInt8 :: d ++ '-'.toUInt8 :: e := by
  have hdrop : ∀ (text : List UInt8) (k : Nat), text.length ≤ k → text.drop k = [] := fun text k =>
    List.drop_eq_nil_of_le
  simp [canonicalForm, List.drop_append, ha, hb, hc, hd, hdrop]

theorem uuidToString_eq (u : Uuid) : uuidToString u = canonicalForm ((uuidDigits u).map digitChar) := by
  have hdigits : (uuidDigits u).map digitChar =
      (padded 16 8 (u.elements 0).toNat).map digitChar ++ (padded 16 4 (u.elements 1 >>> 16).toNat).map digitChar ++
        (padded 16 4 (u.elements 1 &&& 0xFFFF).toNat).map digitChar ++
        (padded 16 4 (u.elements 2 >>> 16).toNat).map digitChar ++
        ((padded 16 4 (u.elements 2 &&& 0xFFFF).toNat).map digitChar ++
          (padded 16 8 (u.elements 3).toNat).map digitChar) := by
    rw [uuidDigits_eq, padded_halves (u.elements 1), padded_halves (u.elements 2)]
    simp only [List.map_append, List.append_assoc]
  have hhalf : ∀ {n : Nat}, n < 16 ^ 4 → ((padded 16 4 n).map digitChar).length = 4 := fun hn => by
    rw [List.length_map, length_padded (by decide) hn]
  have hword : ((padded 16 8 (u.elements 0).toNat).map digitChar).length = 8 := by
    rw [List.length_map, length_padded_word]
  rw [hdigits, canonicalForm_append hword (hhalf (toNat_high_lt _)) (hhalf (toNat_low_lt _)) (hhalf (toNat_high_lt _))]
  have hword' : ∀ word : UInt32, word.toNat < 16 ^ 8 := toNat_lt_pow
  unfold uuidToString
  dsimp only
  rw [putUInt32_setfill OStream.fresh.hex (by decide) (hword' _) rfl, putChar_of_width _ rfl,
    putUInt32_setfill _ (by decide) (toNat_high_lt _) rfl, putChar_of_width _ rfl,
    putUInt32_setfill _ (by decide) (toNat_low_lt _) rfl, putChar_of_width _ rfl,
    putUInt32_setfill _ (by decide) (toNat_high_lt _) rfl, putChar_of_width _ rfl,
    putUInt32_setfill _ (by decide) (toNat_low_lt _) rfl, putUInt32_setfill _ (by decide) (hword' _) rfl]
  simp [OStream.fresh, OStream.hex]

theorem lt_of_mem_uuidDigits {u : Uuid} {d : Nat} (hd : d ∈ uuidDigits u) : d < 16 := by
  obtain ⟨word, -, hd⟩ := List.mem_flatMap.mp hd
  exact lt_of_mem_padded (by decide) hd

/-! ## Reading -/

section reading
variable {unset : Nat → UInt32} {text : List UInt8} {digits : List Nat} {uuid : Uuid} {index : Nat}

theorem takeWhile_map_some (digits : List Nat) :
    ((digits.map some).takeWhile Option.isSome).reduceOption = digits := by
  induction digits with
  | nil => rfl
  | cons d digits ih =>
    rw [List.map_cons, List.takeWhile_cons_of_pos rfl, List.reduceOption_cons_of_some, ih]

/-- Text that consists of digits is read to its end. -/
theorem extractHex_digits (h : text.map digitValue = digits.map some) (hne : digits ≠ [])
    (hlt : value 16 digits < 2 ^ 32) : extractHex text = some (UInt32.ofNat (value 16 digits)) := by
  cases digits with
  | nil => exact absurd rfl hne
  | cons d digits =>
    cases text with
    | nil => simp at h
    | cons c text =>
      have hc : digitValue c = some d := (List.cons.inj h).1
      obtain ⟨-, hdash, hspace, hplus, -, -⟩ := digitValue_eq_some hc
      have hskip : (c :: text).dropWhile isSpace = c :: text := List.dropWhile_cons_of_neg (by simp [hspace])
      have hsign : skipSign (c :: text) = (false, c :: text) := by rw [skipSign, if_neg hdash, if_neg hplus]
      have hprefix : skipPrefix (c :: text) = c :: text := by
        cases text with
        | nil => rfl
        | cons x text =>
          obtain ⟨e, he⟩ : ∃ e, digitValue x = some e := by
            cases digits with
            | nil => simp at h
            | cons e digits => exact ⟨e, (List.cons.inj (List.cons.inj h).2).1⟩
          obtain ⟨-, -, -, -, hx, hX⟩ := digitValue_eq_some he
          rw [skipPrefix, if_neg (by simp [hx, hX])]
      have hdigits : (((c :: text).map digitValue).takeWhile Option.isSome).reduceOption = d :: digits := by
        rw [h]
        exact takeWhile_map_some (d :: digits)
      unfold extractHex
      rw [hskip]
      simp only [hsign, hprefix, hdigits]
      rw [if_neg (Nat.not_le.mpr hlt)]
      rfl

/-- Dashes are passed over. -/
theorem uuidFromStringLoop_filter (unset : Nat → UInt32) (text : List UInt8) (index : Nat) (current : List UInt8)
    (uuid : Uuid) :
    uuidFromStringLoop unset (text.filter (· ≠ '-'.toUInt8)) index current uuid =
      uuidFromStringLoop unset text index current uuid := by
  induction text generalizing index current uuid with
  | nil => rfl
  | cons c text ih =>
    by_cases hc : c = '-'.toUInt8
    · rw [List.filter_cons_of_neg (by simp [hc]), ih]
      conv_rhs => rw [uuidFromStringLoop, if_pos hc]
    · rw [List.filter_cons_of_pos (by simpa using hc), uuidFromStringLoop, uuidFromStringLoop, if_neg hc, if_neg hc]
      simp only [ih]

/-- Without dashes characters are collected until there are eight. -/
theorem uuidFromStringLoop_collect {chunk current : List UInt8} (hdash : '-'.toUInt8 ∉ chunk) (hne : chunk ≠ [])
    (hlength : current.length + chunk.length = 8) :
    uuidFromStringLoop unset (chunk ++ text) index current uuid =
      if 4 ≤ index + 1 then setElement uuid index ((extractHex (current ++ chunk)).getD (unset index))
      else uuidFromStringLoop unset text (index + 1) []
        (setElement uuid index ((extractHex (current ++ chunk)).getD (unset index))) := by
  induction chunk generalizing current with
  | nil => exact absurd rfl hne
  | cons c chunk ih =>
    rw [List.mem_cons, not_or] at hdash
    have hc : c ≠ '-'.toUInt8 := Ne.symm hdash.1
    rw [List.cons_append, uuidFromStringLoop, if_neg hc]
    cases chunk with
    | nil =>
      have hfull : (current ++ [c]).length = 8 := by simpa using hlength
      simp only [hfull, ↓reduceIte, List.nil_append]
    | cons c' chunk =>
      have hfull : (current ++ [c]).length ≠ 8 := by
        simp at hlength ⊢
        omega
      simp only [hfull, ↓reduceIte]
      rw [ih hdash.2 (List.cons_ne_nil c' chunk) (by simp at hlength ⊢; omega), List.append_assoc]
      rfl

/-- Eight digits are one word. -/
theorem uuidFromStringLoop_word {chunk : List UInt8} {word : UInt32}
    (hchunk : chunk.map digitValue = (padded 16 8 word.toNat).map some) :
    uuidFromStringLoop unset (chunk ++ text) index [] uuid =
      if 4 ≤ index + 1 then setElement uuid index word
      else uuidFromStringLoop unset text (index + 1) [] (setElement uuid index word) := by
  have hlength : chunk.length = 8 := by
    rw [← List.length_map digitValue, hchunk, List.length_map, length_padded_word]
  have hdash : '-'.toUInt8 ∉ chunk := fun hmem => by
    have hmap := List.mem_map_of_mem (f := digitValue) hmem
    rw [hchunk] at hmap
    obtain ⟨d, -, hd⟩ := List.mem_map.mp hmap
    exact (digitValue_eq_some hd.symm).2.1 rfl
  have hne : chunk ≠ [] := fun heq => by simp [heq] at hlength
  have hextract := extractHex_digits hchunk (List.ne_nil_of_length_pos (by simp [length_padded_word]))
    (by rw [value_padded]; exact word.toNat_lt)
  rw [value_padded, UInt32.ofNat_toNat] at hextract
  rw [uuidFromStringLoop_collect hdash hne (by simpa using hlength), List.nil_append, hextract]
  rfl

/-- Text that has the digits of an identifier first, once its dashes are taken out. -/
theorem uuidFromString_digits (unset : Nat → UInt32) (u : Uuid) {s digits rest : List UInt8}
    (hs : s.filter (· ≠ '-'.toUInt8) = digits ++ rest) (hdigits : digits.map digitValue = (uuidDigits u).map some) :
    uuidFromString unset s = u := by
  rw [uuidDigits_eq] at hdigits
  simp only [List.map_append] at hdigits
  obtain ⟨d₀₁₂, d₃, rfl, hdigits, h₃⟩ := List.map_eq_append_iff.mp hdigits
  obtain ⟨d₀₁, d₂, rfl, hdigits, h₂⟩ := List.map_eq_append_iff.mp hdigits
  obtain ⟨d₀, d₁, rfl, h₀, h₁⟩ := List.map_eq_append_iff.mp hdigits
  rw [uuidFromString, ← uuidFromStringLoop_filter, hs]
  simp only [List.append_assoc]
  rw [uuidFromStringLoop_word h₀, if_neg (by decide), uuidFromStringLoop_word h₁, if_neg (by decide),
    uuidFromStringLoop_word h₂, if_neg (by decide), uuidFromStringLoop_word h₃, if_pos (by decide)]
  apply Uuid.ext
  funext i
  fin_cases i <;> rfl

theorem map_digitValue_digitChar (h : ∀ d ∈ digits, d < 16) :
    (digits.map digitChar).map digitValue = digits.map some := by
  rw [List.map_map]
  exact List.map_congr_left fun d hd => digitValue_digitChar (h d hd)

end reading

/-! ## Text and identifiers -/

section canonical
variable {digits : List UInt8}

theorem dash_not_mem_digits {ds : List Nat} (h : ∀ d ∈ ds, d < 16) : '-'.toUInt8 ∉ ds.map digitChar := by
  intro hmem
  obtain ⟨d, hd, heq⟩ := List.mem_map.mp hmem
  exact (digitValue_eq_some (digitValue_digitChar (h d hd))).2.1 heq

theorem filter_canonicalForm (h : '-'.toUInt8 ∉ digits) :
    (canonicalForm digits).filter (· ≠ '-'.toUInt8) = digits := by
  have hself : ∀ part, part ⊆ digits → part.filter (· ≠ '-'.toUInt8) = part := by
    intro part hpart
    apply List.filter_eq_self.mpr
    intro c hc
    simp only [ne_eq, decide_eq_true_eq]
    rintro rfl
    exact h (hpart hc)
  have hdash : ∀ rest, ('-'.toUInt8 :: rest).filter (· ≠ '-'.toUInt8) = rest.filter (· ≠ '-'.toUInt8) := fun rest =>
    List.filter_cons_of_neg (by simp)
  have hpart : ∀ j k, (digits.drop j).take k ⊆ digits := fun j k c hc =>
    List.mem_of_mem_drop (List.mem_of_mem_take hc)
  unfold canonicalForm
  simp only [List.filter_append, hdash, hself _ (hpart _ _), hself _ (List.take_subset _ _),
    hself _ (List.drop_subset _ _)]
  have hjoin : ∀ j k, (digits.drop j).take k ++ digits.drop (j + k) = digits.drop j := fun j k => by
    rw [← List.drop_drop, List.take_append_drop]
  rw [List.append_assoc, List.append_assoc, List.append_assoc, hjoin 16 4, hjoin 12 4, hjoin 8 4,
    List.take_append_drop]

/-- Where the first dash is, and the others after it. -/
theorem getElem?_dash {part rest : List UInt8} (h : '-'.toUInt8 ∉ part) (i : Nat) :
    (part ++ '-'.toUInt8 :: rest)[i]? = some '-'.toUInt8 ↔
      i = part.length ∨ part.length < i ∧ rest[i - part.length - 1]? = some '-'.toUInt8 := by
  obtain hi | rfl | hi := Nat.lt_trichotomy i part.length
  · rw [List.getElem?_append_left hi]
    refine ⟨fun heq => absurd (List.mem_of_getElem? heq) h, fun hcase => ?_⟩
    omega
  · simp
  · obtain ⟨k, rfl⟩ := Nat.exists_eq_add_of_lt hi
    have hk : part.length + k + 1 - part.length = k + 1 := by omega
    rw [List.getElem?_append_right hi.le, hk, List.getElem?_cons_succ, Nat.add_sub_cancel]
    refine ⟨fun heq => .inr ⟨hi, heq⟩, fun hcase => ?_⟩
    obtain hcase | hcase := hcase
    · omega
    · exact hcase.2

/-- In the canonical form of 32 digits the dashes are at four places. -/
theorem canonicalForm_dashes (h : '-'.toUInt8 ∉ digits) (hlength : digits.length = 32) (i : Nat) :
    (canonicalForm digits)[i]? = some '-'.toUInt8 ↔ i = 8 ∨ i = 13 ∨ i = 18 ∨ i = 23 := by
  have hpart : ∀ part, part ⊆ digits → '-'.toUInt8 ∉ part := fun part hpart hmem => h (hpart hmem)
  have hgroup : ∀ j, '-'.toUInt8 ∉ (digits.drop j).take 4 := fun j =>
    hpart _ fun c hc => List.mem_of_mem_drop (List.mem_of_mem_take hc)
  have hlast : ∀ k, (digits.drop 20)[k]? ≠ some '-'.toUInt8 := fun k heq =>
    hpart _ (List.drop_subset 20 digits) (List.mem_of_getElem? heq)
  simp only [canonicalForm, List.append_assoc, List.cons_append]
  rw [getElem?_dash (hpart _ (List.take_subset 8 digits)), getElem?_dash (hgroup 8), getElem?_dash (hgroup 12),
    getElem?_dash (hgroup 16)]
  simp only [hlast, and_false, or_false, List.length_take, List.length_drop, hlength]
  omega

end canonical

theorem dash_not_mem_uuidDigits (u : Uuid) : '-'.toUInt8 ∉ (uuidDigits u).map digitChar :=
  dash_not_mem_digits fun _ => lt_of_mem_uuidDigits

theorem uuidFromString_uuidToString (unset : Nat → UInt32) (u : Uuid) : uuidFromString unset (uuidToString u) = u := by
  have hfilter : (uuidToString u).filter (· ≠ '-'.toUInt8) = (uuidDigits u).map digitChar ++ [] := by
    rw [uuidToString_eq, filter_canonicalForm (dash_not_mem_uuidDigits u), List.append_nil]
  exact uuidFromString_digits unset u hfilter (map_digitValue_digitChar fun d hd => lt_of_mem_uuidDigits hd)

/-- An identifier's text has its canonical form; any text with its digits first, however it is divided by dashes and
whatever follows, is read as the identifier, its own text in particular. -/
theorem uuid_text (u : Uuid) :
    uuidToString u = canonicalForm ((uuidDigits u).map digitChar) ∧ (uuidToString u).length = 36 ∧
      (∀ i, (uuidToString u)[i]? = some '-'.toUInt8 ↔ i = 8 ∨ i = 13 ∨ i = 18 ∨ i = 23) ∧
      (∀ (unset : Nat → UInt32) (s digits rest : List UInt8), s.filter (· ≠ '-'.toUInt8) = digits ++ rest →
        digits.map digitValue = (uuidDigits u).map some → uuidFromString unset s = u) ∧
      ∀ unset : Nat → UInt32, uuidFromString unset (uuidToString u) = u := by
  refine ⟨uuidToString_eq u, ?_, ?_, fun unset s digits rest => uuidFromString_digits unset u, fun unset =>
    uuidFromString_uuidToString unset u⟩
  · simp [uuidToString_eq, canonicalForm, length_uuidDigits]
  · rw [uuidToString_eq]
    exact canonicalForm_dashes (dash_not_mem_uuidDigits u) (by simp [length_uuidDigits])

end SubstanceConnector.Framework
