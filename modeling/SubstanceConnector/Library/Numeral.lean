import Mathlib.Data.Nat.Digits.Lemmas

/-!
# Numerals

Numbers written in a base, most significant digit first: the shortest numeral of a number and the one with leading
zeros up to a width. Numerals of one width that stand for the same number are equal, so filling up the shortest one
with zeros gives the other (`fill_shortest`), and a wide numeral is those of its two halves (`padded_append`) or, group
by group, those of its digits in a power of the base (`flatMap_padded`).
-/

namespace Numeral
variable {base width n : Nat} {xs ys : List Nat}

/-- The number a numeral stands for. -/
def value (base : Nat) (digits : List Nat) : Nat := Nat.ofDigits base digits.reverse

/-- The shortest numeral of a number; zero has one digit. -/
def shortest (base n : Nat) : List Nat := if n = 0 then [0] else (Nat.digits base n).reverse

/-- The numeral with leading zeros up to a width. -/
def padded (base width n : Nat) : List Nat := (Nat.digitsAppend base width n).reverse

theorem value_append (base : Nat) (xs ys : List Nat) :
    value base (xs ++ ys) = value base xs * base ^ ys.length + value base ys := by
  rw [value, List.reverse_append, Nat.ofDigits_append, List.length_reverse]
  simp only [value]
  ring

theorem value_cons (base d : Nat) (xs : List Nat) :
    value base (d :: xs) = d * base ^ xs.length + value base xs := by
  rw [← List.singleton_append, value_append]
  simp [value]

/-- Reading the digits one by one. -/
theorem foldl_digits (base : Nat) (digits : List Nat) (n : Nat) :
    digits.foldl (fun n d => base * n + d) n = n * base ^ digits.length + value base digits := by
  induction digits generalizing n with
  | nil => simp [value]
  | cons d digits ih =>
    rw [List.foldl_cons, ih, value_cons, List.length_cons]
    ring

theorem value_replicate_append (base k : Nat) (xs : List Nat) :
    value base (List.replicate k 0 ++ xs) = value base xs := by
  rw [value, List.reverse_append, List.reverse_replicate, Nat.ofDigits_append_replicate_zero]
  rfl

theorem value_shortest (base n : Nat) : value base (shortest base n) = n := by
  unfold shortest
  split
  · simp_all [value]
  · rw [value, List.reverse_reverse, Nat.ofDigits_digits]

theorem value_padded (base width n : Nat) : value base (padded base width n) = n := by
  rw [value, padded, List.reverse_reverse, Nat.digitsAppend, Nat.ofDigits_append_replicate_zero, Nat.ofDigits_digits]

theorem length_padded (hbase : 1 < base) (hn : n < base ^ width) : (padded base width n).length = width := by
  rw [padded, List.length_reverse, Nat.length_digitsAppend hbase width hn]

theorem lt_of_mem_padded (hbase : 1 < base) {d : Nat} (hd : d ∈ padded base width n) : d < base :=
  Nat.lt_of_mem_digitsAppend hbase width d (List.mem_reverse.mp hd)

theorem lt_of_mem_shortest (hbase : 1 < base) {d : Nat} (hd : d ∈ shortest base n) : d < base := by
  unfold shortest at hd
  split at hd
  · rw [List.mem_singleton.mp hd]
    omega
  · exact Nat.digits_lt_base hbase (List.mem_reverse.mp hd)

theorem length_shortest_le (hbase : 1 < base) (hwidth : 0 < width) (hn : n < base ^ width) :
    (shortest base n).length ≤ width := by
  unfold shortest
  split
  · exact hwidth
  · rw [List.length_reverse]
    exact (Nat.digits_length_le_iff hbase n).mpr hn

/-- Among the numerals of one length each number has one. -/
theorem eq_of_value_eq (hbase : 1 < base) (hlength : xs.length = ys.length) (hxs : ∀ d ∈ xs, d < base)
    (hys : ∀ d ∈ ys, d < base) (hvalue : value base xs = value base ys) : xs = ys := by
  apply List.reverse_injective
  apply Nat.ofDigits_inj_of_len_eq hbase _ _ _ hvalue
  · simpa using hlength
  · simpa using hxs
  · simpa using hys

theorem fill_shortest (hbase : 1 < base) (hwidth : 0 < width) (hn : n < base ^ width) :
    List.replicate (width - (shortest base n).length) 0 ++ shortest base n = padded base width n := by
  apply eq_of_value_eq hbase
  · rw [List.length_append, List.length_replicate, length_padded hbase hn]
    have hlength := length_shortest_le hbase hwidth hn
    omega
  · intro d hd
    obtain hd | hd := List.mem_append.mp hd
    · rw [List.eq_of_mem_replicate hd]
      omega
    · exact lt_of_mem_shortest hbase hd
  · exact fun d hd => lt_of_mem_padded hbase hd
  · rw [value_replicate_append, value_shortest, value_padded]

/-- The digits of the two parts of a number, one after the other. -/
theorem padded_append (hbase : 1 < base) {high low : Nat} (hn : n < base ^ (high + low)) :
    padded base high (n / base ^ low) ++ padded base low (n % base ^ low) = padded base (high + low) n := by
  have hpos : 0 < base ^ low := Nat.pow_pos (by omega)
  have hhigh : n / base ^ low < base ^ high := by
    rw [Nat.div_lt_iff_lt_mul hpos, ← Nat.pow_add]
    exact hn
  have hlow : n % base ^ low < base ^ low := Nat.mod_lt n hpos
  apply eq_of_value_eq hbase
  · rw [List.length_append, length_padded hbase hhigh, length_padded hbase hlow, length_padded hbase hn]
  · intro d hd
    obtain hd | hd := List.mem_append.mp hd <;> exact lt_of_mem_padded hbase hd
  · exact fun d hd => lt_of_mem_padded hbase hd
  · rw [value_append, length_padded hbase hlow, value_padded, value_padded, value_padded]
    exact Nat.div_add_mod' n (base ^ low)

theorem value_lt (hbase : 1 < base) (h : ∀ d ∈ xs, d < base) : value base xs < base ^ xs.length := by
  rw [← List.length_reverse]
  exact Nat.ofDigits_lt_base_pow_length hbase (by simpa using h)

/-- Among the numerals of one length the first digits decide, if they differ. -/
theorem value_cons_lt (hbase : 1 < base) (hlength : xs.length = ys.length) (hxs : ∀ d ∈ xs, d < base) {d d' : Nat}
    (hd : d < d') : value base (d :: xs) < value base (d' :: ys) := by
  rw [value_cons, value_cons, ← hlength]
  calc d * base ^ xs.length + value base xs
    _ < (d + 1) * base ^ xs.length := by
      rw [Nat.succ_mul]
      exact Nat.add_lt_add_left (value_lt hbase hxs) _
    _ ≤ d' * base ^ xs.length := Nat.mul_le_mul_right _ hd
    _ ≤ d' * base ^ xs.length + value base ys := Nat.le_add_right ..

theorem padded_value (hbase : 1 < base) (h : ∀ d ∈ xs, d < base) : padded base xs.length (value base xs) = xs := by
  apply eq_of_value_eq hbase (length_padded hbase (value_lt hbase h))
  · exact fun d hd => lt_of_mem_padded hbase hd
  · exact h
  · exact value_padded ..

theorem length_flatMap_padded (hbase : 1 < base) (h : ∀ d ∈ xs, d < base ^ width) :
    (xs.flatMap (padded base width)).length = width * xs.length := by
  induction xs with
  | nil => rfl
  | cons d xs ih =>
    obtain ⟨hd, hxs⟩ := List.forall_mem_cons.mp h
    rw [List.flatMap_cons, List.length_append, length_padded hbase hd, ih hxs, List.length_cons]
    ring

theorem value_flatMap_padded (hbase : 1 < base) (h : ∀ d ∈ xs, d < base ^ width) :
    value base (xs.flatMap (padded base width)) = value (base ^ width) xs := by
  induction xs with
  | nil => rfl
  | cons d xs ih =>
    obtain ⟨-, hxs⟩ := List.forall_mem_cons.mp h
    rw [List.flatMap_cons, value_append, value_padded, length_flatMap_padded hbase hxs, ih hxs, value_cons,
      Nat.pow_mul]

/-- The digits in a power of the base, each written in the base. -/
theorem flatMap_padded (hbase : 1 < base) (hwidth : width ≠ 0) {count : Nat} (hn : n < (base ^ width) ^ count) :
    (padded (base ^ width) count n).flatMap (padded base width) = padded base (width * count) n := by
  have hpow : 1 < base ^ width := Nat.one_lt_pow hwidth hbase
  have hlt : ∀ d ∈ padded (base ^ width) count n, d < base ^ width := fun d hd => lt_of_mem_padded hpow hd
  have hn' : n < base ^ (width * count) := by rwa [Nat.pow_mul]
  apply eq_of_value_eq hbase
  · rw [length_flatMap_padded hbase hlt, length_padded hpow hn, length_padded hbase hn']
  · intro d hd
    obtain ⟨group, -, hd⟩ := List.mem_flatMap.mp hd
    exact lt_of_mem_padded hbase hd
  · exact fun d hd => lt_of_mem_padded hbase hd
  · rw [value_flatMap_padded hbase hlt, value_padded, value_padded]

end Numeral
