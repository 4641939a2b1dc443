import Mathlib.Data.Nat.ModEq

/-!
# Positions of a ring

A ring of `n` cells is addressed by ever-growing positions reduced modulo `n`. Two positions less
than `n` apart share a cell only if they are equal; and a counter that is itself kept modulo `m`
addresses the same cells as the unbounded one as long as it has not wrapped, or if `n` divides `m`.
A window of positions that the wrap runs through keeps to different cells as long as it is shorter
than `m % n`: on either side of the wrap the cells below `m % n` are in use (`wrapped_mod_ne`).
-/

namespace RingIndex

/-- Positions of one window of fewer than `n` cells have different cells. -/
theorem eq_of_mod_eq {a b n : Nat} (hab : a ≤ b) (hb : b < a + n) (h : a % n = b % n) : a = b := by
  have hdvd : n ∣ b - a := (Nat.modEq_iff_dvd' hab).mp h
  have hzero : b - a = 0 := Nat.eq_zero_of_dvd_of_lt hdvd (by omega)
  omega

theorem mod_ne_of_lt {a b n : Nat} (hab : a < b) (hb : b < a + n) : a % n ≠ b % n := by
  intro h
  have := eq_of_mod_eq hab.le hb h
  omega

/-- The counter kept modulo `m` still addresses the cells of a ring of `n`. -/
def Faithful (m n k : Nat) : Prop := k < m ∨ n ∣ m

theorem Faithful.mono {m n k l : Nat} (h : Faithful m n k) (hl : l ≤ k) : Faithful m n l :=
  h.imp (fun hk => by omega) id

theorem Faithful.mod_mod {m n k : Nat} (h : Faithful m n k) : k % m % n = k % n := by
  rcases h with h | h
  · rw [Nat.mod_eq_of_lt h]
  · exact Nat.mod_mod_of_dvd k h

/-- The positions from `a` to `b`, kept modulo `m`, have different cells of a ring of `n`. -/
def Windowed (m n a b : Nat) : Prop := n ∣ m ∨ b < m ∨ b < a + m % n

theorem Windowed.mono {m n a b a' b' : Nat} (h : Windowed m n a b) (ha : a ≤ a') (hb : b' ≤ b) : Windowed m n a' b' := by
  rcases h with h | h | h
  · exact .inl h
  · exact .inr (.inl (by omega))
  · exact .inr (.inr (by omega))

/-- Before the wrap the window uses the cells below `m % n`, and after it those below the first of these. -/
theorem wrapped_mod_ne {m n a b : Nat} (hn : 0 < n) (ha : a < m) (hb : m ≤ b) (h : b < a + m % n) :
    a % n ≠ (b - m) % n := by
  have hlt : m % n < n := Nat.mod_lt m hn
  have hdiv : n * (m / n) + m % n = m := Nat.div_add_mod m n
  -- `a` is in the last, incomplete round
  obtain ⟨x, hx⟩ : ∃ x, a = n * (m / n) + x := ⟨a - n * (m / n), by omega⟩
  have hcell : a % n = x := by
    rw [hx, Nat.mul_add_mod]
    exact Nat.mod_eq_of_lt (by omega)
  rw [hcell, Nat.mod_eq_of_lt (show b - m < n by omega)]
  omega

theorem Windowed.mod_mod_ne {m n r a b : Nat} (h : Windowed m n r b) (hm : n ≤ m) (hr : r < m) (hra : r ≤ a) (hab : a < b)
    (hb : b < r + n) : a % m % n ≠ b % m % n := by
  rcases Nat.lt_or_ge a m with ha | ha
  · rw [Nat.mod_eq_of_lt ha]
    rcases h.mono hra (le_refl b) with h | h | h
    · rw [Nat.mod_mod_of_dvd b h]
      exact mod_ne_of_lt hab (by omega)
    · rw [Nat.mod_eq_of_lt h]
      exact mod_ne_of_lt hab (by omega)
    · rcases Nat.lt_or_ge b m with hlt | hge
      · rw [Nat.mod_eq_of_lt hlt]
        exact mod_ne_of_lt hab (by omega)
      · rw [Nat.mod_eq_sub_mod hge, Nat.mod_eq_of_lt (show b - m < m by omega)]
        exact wrapped_mod_ne (by omega) ha hge h
  · -- the wrap is behind both
    rw [Nat.mod_eq_sub_mod ha, Nat.mod_eq_of_lt (show a - m < m by omega), Nat.mod_eq_sub_mod (show m ≤ b by omega),
      Nat.mod_eq_of_lt (show b - m < m by omega)]
    exact mod_ne_of_lt (by omega) (by omega)

end RingIndex
