import Mathlib.Algebra.Group.Nat.Defs
import Mathlib.Data.List.Basic

/-!
# Unsigned integers in memory

`leBytes width n` is the representation of `n` in `width` bytes, least significant byte first, and
`leValue` reads such a representation back. A machine stores its integers in one of the two byte
orders; `ByteOrder.store` and `ByteOrder.load` are its stores and loads, inverse to each other up
to truncation to the width.
-/

inductive ByteOrder where
  | little
  | big
  deriving DecidableEq, Repr

namespace ByteCodec

/-- The `width` low bytes of `n`, least significant first. -/
def leBytes : Nat → Nat → List UInt8
  | 0, _ => []
  | width + 1, n => UInt8.ofNat n :: leBytes width (n / 256)

/-- The number a little-endian representation stands for. -/
def leValue : List UInt8 → Nat
  | [] => 0
  | b :: bs => b.toNat + 256 * leValue bs

@[simp] theorem length_leBytes (width n : Nat) : (leBytes width n).length = width := by
  induction width generalizing n with
  | zero => rfl
  | succ width ih => simp [leBytes, ih]

theorem leValue_leBytes (width n : Nat) : leValue (leBytes width n) = n % 256 ^ width := by
  induction width generalizing n with
  | zero => simp [leBytes, leValue, Nat.mod_one]
  | succ width ih =>
    rw [leBytes, leValue, ih, UInt8.toNat_ofNat', Nat.pow_succ 256 width,
      Nat.mul_comm (256 ^ width) 256, Nat.mod_mul]

theorem leValue_lt (bytes : List UInt8) : leValue bytes < 256 ^ bytes.length := by
  induction bytes with
  | nil => simp [leValue]
  | cons b bytes ih =>
    have hb : b.toNat < 256 := b.toNat_lt
    rw [leValue, List.length_cons, Nat.pow_succ]
    omega

theorem leBytes_leValue (bytes : List UInt8) : leBytes bytes.length (leValue bytes) = bytes := by
  induction bytes with
  | nil => rfl
  | cons b bytes ih =>
    have hb : b.toNat < 256 := b.toNat_lt
    have hlow : UInt8.ofNat (b.toNat + 256 * leValue bytes) = b := by
      apply UInt8.toNat_inj.mp
      rw [UInt8.toNat_ofNat']
      omega
    have hhigh : (b.toNat + 256 * leValue bytes) / 256 = leValue bytes := by omega
    rw [List.length_cons, leValue, leBytes, hlow, hhigh, ih]

end ByteCodec

namespace ByteOrder

open ByteCodec

def store (order : ByteOrder) (width n : Nat) : List UInt8 :=
  match order with
  | little => leBytes width n
  | big => (leBytes width n).reverse

def load (order : ByteOrder) (bytes : List UInt8) : Nat :=
  match order with
  | little => leValue bytes
  | big => leValue bytes.reverse

@[simp] theorem length_store (order : ByteOrder) (width n : Nat) :
    (order.store width n).length = width := by
  cases order <;> simp [store]

theorem load_store (order : ByteOrder) (width n : Nat) :
    order.load (order.store width n) = n % 256 ^ width := by
  cases order with
  | little => exact leValue_leBytes width n
  | big => rw [store, load, List.reverse_reverse, leValue_leBytes]

/-- The number whose representation on this machine is the big-endian representation of `n`. -/
def toNetwork (order : ByteOrder) (width n : Nat) : Nat :=
  match order with
  | little => big.load (little.store width n)
  | big => n

theorem toNetwork_lt (order : ByteOrder) {width n : Nat} (h : n < 256 ^ width) :
    order.toNetwork width n < 256 ^ width := by
  cases order with
  | little => simpa [toNetwork, load] using leValue_lt (little.store width n).reverse
  | big => exact h

/-- What goes out in network order is the same on every machine. -/
theorem store_toNetwork (order : ByteOrder) (width n : Nat) :
    order.store width (order.toNetwork width n) = big.store width n := by
  cases order with
  | little =>
    have h := leBytes_leValue (leBytes width n).reverse
    rwa [List.length_reverse, length_leBytes] at h
  | big => rfl

/-- What comes in in network order is read alike on every machine. -/
theorem toNetwork_load (order : ByteOrder) (bytes : List UInt8) :
    order.toNetwork bytes.length (order.load bytes) = big.load bytes := by
  cases order with
  | little => rw [toNetwork, store, load, leBytes_leValue]
  | big => rfl

end ByteOrder
