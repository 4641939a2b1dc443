import Mathlib.Algebra.Order.Group.Multiset
import Mathlib.Data.Multiset.MapFold
import Mathlib.Data.Set.Basic
import Mathlib.Logic.Relation

/-!
# Ledgers

Resources are obtained, each is assigned to a key, and the resource of a key is released when the key is
given up. An engaged key may have an entry in a list that others read, which is struck off with it. The keys
that are not engaged may denote anything.

A ledger is sound if whatever was obtained has been released, waits for a key or belongs to an engaged one, and
every entry of the list is that of an engaged key. Every step keeps this, so a sound ledger without engaged keys
and waiting resources has released exactly what was obtained, and its list is empty (`Sound.settled`).
-/

structure Ledger (K R F : Type*) where
  engaged : Multiset K
  value : K → R
  entry : K → Option F
  pending : Multiset R
  obtained : Multiset R
  released : Multiset R
  listed : Set F

namespace Ledger

variable {K R F : Type*} {L M : Ledger K R F}

/-- The keys denote the same in both ledgers. -/
def Agree (L M : Ledger K R F) (ks : Multiset K) : Prop := ∀ k ∈ ks, M.value k = L.value k ∧ M.entry k = L.entry k

inductive Step (L M : Ledger K R F) : Prop
  | relabel (hengaged : M.engaged = L.engaged) (hpending : M.pending = L.pending) (hobtained : M.obtained = L.obtained)
      (hreleased : M.released = L.released) (hlisted : M.listed ⊆ L.listed) (hkept : Agree L M L.engaged)
  | obtain (r : R) (hengaged : M.engaged = L.engaged) (hpending : M.pending = r ::ₘ L.pending)
      (hobtained : M.obtained = r ::ₘ L.obtained) (hreleased : M.released = L.released) (hlisted : M.listed ⊆ L.listed)
      (hkept : Agree L M L.engaged)
  | engage (k : K) (hengaged : M.engaged = k ::ₘ L.engaged) (hpending : L.pending = M.value k ::ₘ M.pending)
      (hobtained : M.obtained = L.obtained) (hreleased : M.released = L.released)
      (hlisted : ∀ f ∈ M.listed, f ∈ L.listed ∨ M.entry k = some f) (hkept : Agree L M L.engaged)
  | release (k : K) (hengaged : L.engaged = k ::ₘ M.engaged) (hpending : M.pending = L.pending)
      (hobtained : M.obtained = L.obtained) (hreleased : M.released = L.value k ::ₘ L.released)
      (hlisted : ∀ f ∈ M.listed, f ∈ L.listed ∧ L.entry k ≠ some f) (hkept : Agree L M M.engaged)

/-- Any number of steps. -/
def Steps : Ledger K R F → Ledger K R F → Prop := Relation.ReflTransGen Step

/-- A resource is obtained and assigned at once. -/
theorem Steps.acquire (k : K) (hengaged : M.engaged = k ::ₘ L.engaged) (hpending : M.pending = L.pending)
    (hobtained : M.obtained = M.value k ::ₘ L.obtained) (hreleased : M.released = L.released)
    (hlisted : ∀ f ∈ M.listed, f ∈ L.listed ∨ M.entry k = some f) (hkept : Agree L M L.engaged) : Steps L M := by
  have hobtain : Step L { L with pending := M.value k ::ₘ L.pending, obtained := M.value k ::ₘ L.obtained } :=
    .obtain (M.value k) rfl rfl rfl rfl (le_refl _) fun _ _ => ⟨rfl, rfl⟩
  refine (Relation.ReflTransGen.single hobtain).tail (.engage k hengaged ?_ hobtained hreleased hlisted hkept)
  rw [hpending]

structure Sound (L : Ledger K R F) : Prop where
  balance : L.obtained = L.released + L.pending + L.engaged.map L.value
  listed : ∀ f ∈ L.listed, ∃ k ∈ L.engaged, L.entry k = some f

theorem Agree.map_eq {ks : Multiset K} (h : Agree L M ks) : ks.map M.value = ks.map L.value :=
  Multiset.map_congr rfl fun k hk => (h k hk).1

theorem Agree.entry_of {ks : Multiset K} (h : Agree L M ks) {f : F} (hf : ∃ k ∈ ks, L.entry k = some f) :
    ∃ k ∈ ks, M.entry k = some f := by
  obtain ⟨k, hk, hentry⟩ := hf
  exact ⟨k, hk, (h k hk).2.trans hentry⟩

theorem Sound.step (hs : Sound L) (h : Step L M) : Sound M := by
  cases h with
  | relabel hengaged hpending hobtained hreleased hlisted hkept =>
    refine ⟨?_, fun f hf => ?_⟩
    · rw [hengaged, hkept.map_eq, hpending, hobtained, hreleased]
      exact hs.balance
    · rw [hengaged]
      exact hkept.entry_of (hs.listed f (hlisted hf))
  | obtain r hengaged hpending hobtained hreleased hlisted hkept =>
    refine ⟨?_, fun f hf => ?_⟩
    · rw [hengaged, hkept.map_eq, hpending, hobtained, hreleased, hs.balance, Multiset.add_cons, Multiset.cons_add]
    · rw [hengaged]
      exact hkept.entry_of (hs.listed f (hlisted hf))
  | engage k hengaged hpending hobtained hreleased hlisted hkept =>
    refine ⟨?_, fun f hf => ?_⟩
    · rw [hengaged, Multiset.map_cons, hkept.map_eq, hobtained, hreleased, hs.balance, hpending, Multiset.add_cons,
        Multiset.cons_add, Multiset.add_cons]
    · rw [hengaged]
      rcases hlisted f hf with hold | hnew
      · obtain ⟨j, hj, hentry⟩ := hkept.entry_of (hs.listed f hold)
        exact ⟨j, Multiset.mem_cons_of_mem hj, hentry⟩
      · exact ⟨k, Multiset.mem_cons_self k _, hnew⟩
  | release k hengaged hpending hobtained hreleased hlisted hkept =>
    refine ⟨?_, fun f hf => ?_⟩
    · rw [hkept.map_eq, hobtained, hreleased, hs.balance, hengaged, hpending, Multiset.map_cons, Multiset.add_cons,
        Multiset.cons_add, Multiset.cons_add]
    · obtain ⟨hold, hother⟩ := hlisted f hf
      obtain ⟨j, hj, hentry⟩ := hs.listed f hold
      rw [hengaged] at hj
      rcases Multiset.mem_cons.mp hj with rfl | hj
      · exact absurd hentry hother
      · exact hkept.entry_of ⟨j, hj, hentry⟩

theorem Sound.steps (hs : Sound L) (h : Steps L M) : Sound M := by
  induction h with
  | refl => exact hs
  | tail _ hstep ih => exact ih.step hstep

/-- Nothing is released more often than it was obtained. -/
theorem Sound.released_le (hs : Sound L) : L.released ≤ L.obtained := by
  rw [hs.balance, add_assoc]
  exact Multiset.le_add_right _ _

/-- With no key engaged and nothing waiting for one, everything has been released. -/
theorem Sound.settled (hs : Sound L) (hengaged : L.engaged = 0) (hpending : L.pending = 0) :
    L.released = L.obtained ∧ L.listed = ∅ := by
  refine ⟨?_, Set.eq_empty_iff_forall_notMem.mpr fun f hf => ?_⟩
  · rw [hs.balance, hengaged, hpending, Multiset.map_zero, add_zero, add_zero]
  · obtain ⟨k, hk, -⟩ := hs.listed f hf
    rw [hengaged] at hk
    exact Multiset.notMem_zero k hk

end Ledger
