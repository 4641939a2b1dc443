import SubstanceConnector.Library.RingIndex
import SubstanceConnector.Queue.UintQueue

/-!
# The queue between calls

While no call is in progress the queue stands for a list: `Window q items` says which one. The
counters are kept modulo 2^32, so the correspondence needs the positions they address to have
different cells (`RingIndex.Windowed`). `Rep q items pushes` says besides that the queue has taken
`pushes` values since it was made, and that the counters still address the cells the unbounded ones
would (`RingIndex.Faithful`): until the first wrap they do, and for ring sizes that divide 2^32 they
always do.
-/

namespace SubstanceConnector

open RingIndex

/-- The elements of the queue as its counters address them, oldest first. -/
def UintQueue.contents (q : UintQueue) : List UInt32 :=
  (List.range (q.maxIndex - q.readIndex).toNat).map fun i => q.load (q.readIndex + UInt32.ofNat i)

/-- The counters lead to `items`. The positions from the first of them to the next one to be written have different
cells. -/
structure UintQueue.Window (q : UintQueue) (items : List UInt32) : Prop where
  settled : q.maxIndex = q.writeIndex
  write : q.writeIndex.toNat = (q.readIndex.toNat + items.length) % 2 ^ 32
  room : items.length < q.size.toNat
  windowed : Windowed (2 ^ 32) q.size.toNat q.readIndex.toNat (q.readIndex.toNat + items.length)
  stored : ∀ i, i < items.length → items[i]? = some (q.slot ((q.readIndex.toNat + i) % 2 ^ 32))

/-- The queue holds `items` after `pushes` pushes. -/
structure UintQueue.Rep (q : UintQueue) (items : List UInt32) (pushes : Nat) : Prop where
  faithful : Faithful (2 ^ 32) q.size.toNat pushes
  write : q.writeIndex.toNat = pushes % 2 ^ 32
  settled : q.maxIndex = q.writeIndex
  length_le : items.length ≤ pushes
  read : q.readIndex.toNat = (pushes - items.length) % 2 ^ 32
  room : items.length < q.size.toNat
  stored : ∀ i, i < items.length → items[i]? = some (q.slot (pushes - items.length + i))

namespace UintQueue

variable {q : UintQueue} {items : List UInt32} {pushes : Nat}

theorem toNat_add_one (p : UInt32) : (p + 1).toNat = (p.toNat + 1) % 2 ^ 32 := by
  rw [UInt32.toNat_add]
  rfl

theorem slot_congr {k l : Nat} (h : k % q.size.toNat = l % q.size.toNat) : q.slot k = q.slot l := by
  rw [slot, slot, h]

theorem Window.empty {size : UInt32} (h : 0 < size.toNat) : (UintQueue.empty size).Window [] where
  settled := rfl
  write := rfl
  room := h
  windowed := .inr (.inl (show 0 < 2 ^ 32 by decide))
  stored i hi := absurd hi (Nat.not_lt_zero i)

theorem Window.size_ne_zero (h : q.Window items) : q.size ≠ 0 := by
  intro hzero
  have hroom := h.room
  rw [hzero] at hroom
  exact absurd hroom (Nat.not_lt_zero _)

/-- What the two counters enclose. -/
theorem Window.length_eq (h : q.Window items) : (q.writeIndex - q.readIndex).toNat = items.length := by
  have hroom := h.room
  have hsize := q.size.toNat_lt
  have hread := q.readIndex.toNat_lt
  rw [UInt32.toNat_sub, h.write]
  omega

/-- What the counters address is the list the queue stands for. -/
theorem Window.contents_eq (h : q.Window items) : q.contents = items := by
  have hroom := h.room
  have hsize := q.size.toNat_lt
  unfold UintQueue.contents
  rw [h.settled, h.length_eq]
  refine List.ext_getElem? fun i => ?_
  by_cases hi : i < items.length
  · have hpos : (q.readIndex + UInt32.ofNat i).toNat = (q.readIndex.toNat + i) % 2 ^ 32 := by
      rw [UInt32.toNat_add, UInt32.toNat_ofNat_of_lt' (by show i < 2 ^ 32; omega)]
    rw [List.getElem?_map, List.getElem?_range hi, Option.map_some, load_eq_slot, hpos, h.stored i hi]
  · rw [List.getElem?_eq_none (by simpa using hi), List.getElem?_eq_none (by omega)]

/-- The cells of the window's positions. -/
theorem Window.mod_ne (h : q.Window items) {i k : Nat} (hik : i < k) (hk : k ≤ items.length) :
    (q.readIndex.toNat + i) % 2 ^ 32 % q.size.toNat ≠ (q.readIndex.toNat + k) % 2 ^ 32 % q.size.toNat := by
  have hroom := h.room
  have hwindowed := h.windowed.mono (le_refl _) (show q.readIndex.toNat + k ≤ q.readIndex.toNat + items.length by omega)
  exact hwindowed.mod_mod_ne (Nat.le_of_lt q.size.toNat_lt) q.readIndex.toNat_lt (by omega) (by omega) (by omega)

theorem Window.looksEmpty_iff (h : q.Window items) :
    q.looksEmpty q.readIndex q.maxIndex = true ↔ items = [] := by
  have hread : q.readIndex.toNat = (q.readIndex.toNat + 0) % 2 ^ 32 := (Nat.mod_eq_of_lt q.readIndex.toNat_lt).symm
  rw [UintQueue.looksEmpty_iff, h.settled, h.write, ← List.length_eq_zero_iff]
  refine ⟨fun heq => ?_, fun heq => ?_⟩
  · by_contra hne
    have hne' := h.mod_ne (i := 0) (by omega) (le_refl _)
    rw [← hread] at hne'
    exact hne' heq
  · rw [heq, ← hread]

theorem Window.looksFull_iff (h : q.Window items)
    (hw : Windowed (2 ^ 32) q.size.toNat q.readIndex.toNat (q.readIndex.toNat + (items.length + 1))) :
    q.looksFull q.writeIndex q.readIndex = true ↔ items.length + 1 = q.size.toNat := by
  have hroom := h.room
  have hsize := q.size.toNat_lt
  have hread := q.readIndex.toNat_lt
  have hnext : (q.writeIndex + 1).toNat = (q.readIndex.toNat + (items.length + 1)) % 2 ^ 32 := by
    rw [toNat_add_one, h.write, Nat.mod_add_mod, Nat.add_assoc]
  rw [UintQueue.looksFull_iff, hnext]
  refine ⟨fun heq => ?_, fun heq => ?_⟩
  · by_contra hne
    have hne' := hw.mod_mod_ne (a := q.readIndex.toNat) (Nat.le_of_lt hsize) hread (le_refl _) (by omega) (by omega)
    rw [Nat.mod_eq_of_lt hread] at hne'
    exact hne' heq.symm
  · rw [heq] at hw ⊢
    rcases hw with hdvd | hlt | hlt
    · rw [Nat.mod_mod_of_dvd _ hdvd, Nat.add_mod_right]
    · rw [Nat.mod_eq_of_lt hlt, Nat.add_mod_right]
    · have := Nat.mod_lt (2 ^ 32) (show 0 < q.size.toNat by omega)
      omega

/-- A push on a ring with room appends. -/
theorem Window.push (h : q.Window items)
    (hw : Windowed (2 ^ 32) q.size.toNat q.readIndex.toNat (q.readIndex.toNat + (items.length + 1)))
    (hroom : items.length + 1 < q.size.toNat) (elem : UInt32) :
    q.push elem = (.success, { q.store q.writeIndex elem with
      writeIndex := q.writeIndex + 1
      maxIndex := q.writeIndex + 1 }) ∧ (q.push elem).2.Window (items ++ [elem]) := by
  have hnot : ¬ q.looksFull q.writeIndex q.readIndex = true := by
    rw [h.looksFull_iff hw]
    omega
  have hlen : (items ++ [elem]).length = items.length + 1 := by simp
  unfold UintQueue.push
  rw [if_neg hnot]
  refine ⟨rfl, rfl, ?_, by rw [hlen]; exact hroom, by rw [hlen]; exact hw, fun i hi => ?_⟩
  · show (q.writeIndex + 1).toNat = (q.readIndex.toNat + (items ++ [elem]).length) % 2 ^ 32
    rw [hlen, toNat_add_one, h.write, Nat.mod_add_mod, Nat.add_assoc]
  · show (items ++ [elem])[i]? = some ((q.store q.writeIndex elem).slot ((q.readIndex.toNat + i) % 2 ^ 32))
    rw [hlen] at hi
    by_cases hlast : i = items.length
    · rw [hlast, List.getElem?_concat_length, ← h.write, slot_store_self (by omega)]
    · rw [List.getElem?_append_left (by omega), h.stored i (by omega), slot_store_of_ne]
      rw [h.write]
      exact h.mod_ne (by omega) (le_refl _)

theorem Window.push_full (h : q.Window items)
    (hw : Windowed (2 ^ 32) q.size.toNat q.readIndex.toNat (q.readIndex.toNat + (items.length + 1)))
    (hroom : items.length + 1 = q.size.toNat) (elem : UInt32) : q.push elem = (.error, q) := by
  unfold UintQueue.push
  rw [if_pos ((h.looksFull_iff hw).mpr hroom)]

theorem Window.pop_nil (h : q.Window []) : q.pop = (none, q) := by
  unfold UintQueue.pop
  rw [if_pos (h.looksEmpty_iff.mpr rfl)]

theorem Window.pop_cons {x : UInt32} (h : q.Window (x :: items)) :
    q.pop = (some x, { q with readIndex := q.readIndex + 1 }) ∧ q.pop.2.Window items := by
  have hnot : ¬ q.looksEmpty q.readIndex q.maxIndex = true := by
    rw [h.looksEmpty_iff]
    exact List.cons_ne_nil _ _
  have hroom := h.room
  have hread := q.readIndex.toNat_lt
  have hsize := q.size.toNat_lt
  have hwrite := h.write
  have hwindowed := h.windowed
  rw [List.length_cons] at hroom hwrite hwindowed
  have hfirst : q.load q.readIndex = x := by
    have hx := h.stored 0 (by simp)
    rw [List.getElem?_cons_zero, Option.some.injEq, Nat.add_zero, Nat.mod_eq_of_lt hread] at hx
    rw [load_eq_slot, hx]
  have hsucc := toNat_add_one q.readIndex
  unfold UintQueue.pop
  rw [if_neg hnot, hfirst]
  refine ⟨rfl, h.settled, ?_, ?_, ?_, fun i hi => ?_⟩
  · show q.writeIndex.toNat = ((q.readIndex + 1).toNat + items.length) % 2 ^ 32
    rw [hwrite, hsucc, Nat.mod_add_mod]
    congr 1
    omega
  · show items.length < q.size.toNat
    omega
  · show Windowed (2 ^ 32) q.size.toNat (q.readIndex + 1).toNat ((q.readIndex + 1).toNat + items.length)
    rw [hsucc]
    rcases Nat.lt_or_ge (q.readIndex.toNat + 1) (2 ^ 32) with hlt | hge
    · rw [Nat.mod_eq_of_lt hlt]
      exact hwindowed.mono (by omega) (by omega)
    · -- the reader has wrapped too
      exact .inr (.inl (by omega))
  · show items[i]? = some (q.slot (((q.readIndex + 1).toNat + i) % 2 ^ 32))
    have hi' := h.stored (i + 1) (by simpa using hi)
    rw [List.getElem?_cons_succ] at hi'
    rw [hi', hsucc, Nat.mod_add_mod]
    congr 3
    omega

/-! ## Counting the pushes -/

/-- A position that is kept modulo 2^32 has the cell of the unbounded one. -/
theorem slot_mod (q : UintQueue) {k : Nat} (h : Faithful (2 ^ 32) q.size.toNat k) : q.slot (k % 2 ^ 32) = q.slot k :=
  slot_congr h.mod_mod

theorem Rep.window (h : q.Rep items pushes) : q.Window items := by
  have hle := h.length_le
  have hwrite := h.write
  have hread := h.read
  refine ⟨h.settled, by omega, h.room, ?_, fun i hi => ?_⟩
  · rcases h.faithful with hlt | hdvd
    · exact .inr (.inl (by omega))
    · exact .inl hdvd
  · have hpos : (q.readIndex.toNat + i) % 2 ^ 32 = (pushes - items.length + i) % 2 ^ 32 := by
      rw [hread, Nat.mod_add_mod]
    rw [hpos, slot_mod q (h.faithful.mono (by omega)), h.stored i hi]

theorem Window.rep (h : q.Window items) (hf : Faithful (2 ^ 32) q.size.toNat pushes)
    (hwrite : q.writeIndex.toNat = pushes % 2 ^ 32) (hle : items.length ≤ pushes) : q.Rep items pushes := by
  have hw := h.write
  have hlt := q.readIndex.toNat_lt
  have hread : q.readIndex.toNat = (pushes - items.length) % 2 ^ 32 := by omega
  refine ⟨hf, hwrite, h.settled, hle, hread, h.room, fun i hi => ?_⟩
  rw [h.stored i hi, hread, Nat.mod_add_mod, slot_mod q (hf.mono (by omega))]

theorem Rep.empty {size : UInt32} (h : 0 < size.toNat) : (UintQueue.empty size).Rep [] 0 :=
  (Window.empty h).rep (.inl (by decide)) rfl (Nat.le_refl 0)

theorem Rep.contents_eq (h : q.Rep items pushes) : q.contents = items := h.window.contents_eq

/-- The next push stays within what the counters address. -/
theorem Rep.windowed_succ (h : q.Rep items pushes) (hf : Faithful (2 ^ 32) q.size.toNat (pushes + 1)) :
    Windowed (2 ^ 32) q.size.toNat q.readIndex.toNat (q.readIndex.toNat + (items.length + 1)) := by
  have hle := h.length_le
  have hread := h.read
  rcases hf with hlt | hdvd
  · exact .inr (.inl (by omega))
  · exact .inl hdvd

theorem Rep.looksEmpty_iff (h : q.Rep items pushes) :
    q.looksEmpty q.readIndex q.maxIndex = true ↔ items = [] := h.window.looksEmpty_iff

theorem Rep.push (h : q.Rep items pushes) (hf : Faithful (2 ^ 32) q.size.toNat (pushes + 1))
    (hroom : items.length + 1 < q.size.toNat) (elem : UInt32) :
    (q.push elem).1 = .success ∧ (q.push elem).2.size = q.size ∧
      (q.push elem).2.Rep (items ++ [elem]) (pushes + 1) := by
  obtain ⟨hpush, hwindow⟩ := h.window.push (h.windowed_succ hf) hroom elem
  have hle := h.length_le
  rw [hpush] at hwindow ⊢
  refine ⟨rfl, rfl, hwindow.rep hf ?_ ?_⟩
  · show (q.writeIndex + 1).toNat = (pushes + 1) % 2 ^ 32
    rw [toNat_add_one, h.write, Nat.mod_add_mod]
  · rw [List.length_append, List.length_singleton]
    omega

theorem Rep.push_full (h : q.Rep items pushes) (hf : Faithful (2 ^ 32) q.size.toNat (pushes + 1))
    (hroom : items.length + 1 = q.size.toNat) (elem : UInt32) : q.push elem = (.error, q) :=
  h.window.push_full (h.windowed_succ hf) hroom elem

theorem Rep.pop_nil (h : q.Rep [] pushes) : q.pop = (none, q) := h.window.pop_nil

theorem Rep.pop_cons {x : UInt32} (h : q.Rep (x :: items) pushes) :
    q.pop.1 = some x ∧ q.pop.2.size = q.size ∧ q.pop.2.Rep items pushes := by
  obtain ⟨hpop, hwindow⟩ := h.window.pop_cons
  have hle := h.length_le
  rw [List.length_cons] at hle
  rw [hpop] at hwindow ⊢
  exact ⟨rfl, rfl, hwindow.rep h.faithful h.write (by omega)⟩

end UintQueue

/-! ## Through a pointer -/

/-- The pointer is to a live queue of the given ring size that holds `items`. -/
def QueuePtr.Rep (p : QueuePtr) (size : UInt32) (items : List UInt32) (pushes : Nat) : Prop :=
  ∃ q, p = .live q ∧ q.size = size ∧ q.Rep items pushes

def QueuePtr.contents : QueuePtr → List UInt32
  | .live q => q.contents
  | _ => []

namespace QueuePtr.Rep

variable {p : QueuePtr} {size : UInt32} {items : List UInt32} {pushes : Nat}

theorem contents_eq (h : p.Rep size items pushes) : p.contents = items := by
  obtain ⟨q, rfl, -, hq⟩ := h
  exact hq.contents_eq

theorem size_ne_zero {q : UintQueue} (h : q.Rep items pushes) : q.size ≠ 0 := h.window.size_ne_zero

theorem faithful (h : p.Rep size items pushes) : Faithful (2 ^ 32) size.toNat pushes := by
  obtain ⟨q, rfl, rfl, hq⟩ := h
  exact hq.faithful

theorem pop_nil (h : p.Rep size [] pushes) (v : UInt32) : connectorUintQueuePop p v = .ok (.error, v, p) := by
  obtain ⟨q, rfl, -, hq⟩ := h
  simp only [connectorUintQueuePop, if_neg (size_ne_zero hq), hq.pop_nil]

theorem pop_cons {x : UInt32} (h : p.Rep size (x :: items) pushes) (v : UInt32) :
    ∃ p', connectorUintQueuePop p v = .ok (.success, x, p') ∧ p'.Rep size items pushes := by
  obtain ⟨q, rfl, rfl, hq⟩ := h
  obtain ⟨hx, hsize, hrep⟩ := hq.pop_cons
  refine ⟨.live q.pop.2, ?_, q.pop.2, rfl, hsize, hrep⟩
  have hpop : q.pop = (some x, q.pop.2) := Prod.ext hx rfl
  rw [connectorUintQueuePop, if_neg (size_ne_zero hq), hpop]

theorem push (h : p.Rep size items pushes) (hf : Faithful (2 ^ 32) size.toNat (pushes + 1))
    (hroom : items.length + 1 < size.toNat) (elem : UInt32) :
    ∃ p', connectorUintQueuePush p elem = .ok (.success, p') ∧ p'.Rep size (items ++ [elem]) (pushes + 1) := by
  obtain ⟨q, rfl, rfl, hq⟩ := h
  obtain ⟨hsuccess, hsize, hrep⟩ := hq.push hf hroom elem
  refine ⟨.live (q.push elem).2, ?_, (q.push elem).2, rfl, hsize, hrep⟩
  simp only [connectorUintQueuePush, if_neg (size_ne_zero hq), hsuccess]

theorem ne_null (h : p.Rep size items pushes) : p ≠ .null := by
  obtain ⟨q, rfl, -, -⟩ := h
  exact QueuePtr.noConfusion

end QueuePtr.Rep

theorem connectorUintQueueCreate_rep {size : UInt32} (hpos : 0 < size.toNat) (hle : size.toNat ≤ 2 ^ 32 - 3) :
    ∃ p, connectorUintQueueCreate size true true = .ok p ∧ p.Rep (ringSize size) [] 0 := by
  have hne : size ≠ 0 := by
    rintro rfl
    exact absurd hpos (Nat.lt_irrefl 0)
  have hring : 0 < (ringSize size).toNat := by
    rw [toNat_ringSize hle]
    omega
  refine ⟨.live (.empty (ringSize size)), ?_, .empty (ringSize size), rfl, rfl, .empty hring⟩
  simp [connectorUintQueueCreate, hne]

end SubstanceConnector
