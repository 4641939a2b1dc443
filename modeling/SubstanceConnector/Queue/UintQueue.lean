import SubstanceConnector.Base

/-!
# The queue of unsigned integers

`uint_queue.c`: a ring with three ever-growing 32-bit counters. A push reserves a position with
`write_index`, stores, and commits with `max_index`; a pop takes the position at `read_index`. The
functions of this module are the calls run alone (each exchange succeeds at the first try); the
single loads, stores and exchanges are in `Queue.Machine`, which also shows that a call run alone
is the function here.
-/

namespace SubstanceConnector

/-- `struct _connector_uint_queue`. -/
structure UintQueue where
  writeIndex : UInt32
  readIndex : UInt32
  maxIndex : UInt32
  size : UInt32
  array : List UInt32
  array_length : array.length = size.toNat
  deriving DecidableEq

def convertToIndex (position length : UInt32) : UInt32 := position % length

namespace UintQueue

def cell (q : UintQueue) (position : UInt32) : Nat := (convertToIndex position q.size).toNat

def load (q : UintQueue) (position : UInt32) : UInt32 := q.array.getD (q.cell position) 0

def store (q : UintQueue) (position elem : UInt32) : UintQueue :=
  { q with
    array := q.array.set (q.cell position) elem
    array_length := by rw [List.length_set, q.array_length] }

/-- The test of a push on the counters it has loaded. -/
def looksFull (q : UintQueue) (writeIndex readIndex : UInt32) : Bool :=
  convertToIndex (writeIndex + 1) q.size == convertToIndex readIndex q.size

/-- The test of a pop on the counters it has loaded. -/
def looksEmpty (q : UintQueue) (readIndex maxIndex : UInt32) : Bool :=
  convertToIndex readIndex q.size == convertToIndex maxIndex q.size

def push (q : UintQueue) (elem : UInt32) : Retcode × UintQueue :=
  if q.looksFull q.writeIndex q.readIndex then (.error, q)
  else
    (.success, { q.store q.writeIndex elem with
      writeIndex := q.writeIndex + 1
      maxIndex := q.writeIndex + 1 })

/-- A pop that fails returns `SUBSTANCE_CONNECTOR_ERROR` and stores nothing. -/
def pop (q : UintQueue) : Option UInt32 × UintQueue :=
  if q.looksEmpty q.readIndex q.maxIndex then (none, q)
  else (some (q.load q.readIndex), { q with readIndex := q.readIndex + 1 })

end UintQueue

/-! ## Creation and the calls through a pointer -/

/-- The size `connector_uint_queue_create` gives its array: one cell more than asked for, and
another one if that is odd. -/
def ringSize (size : UInt32) : UInt32 := size + (1 + ((size &&& 1) ^^^ 1))

def UintQueue.empty (size : UInt32) : UintQueue :=
  ⟨0, 0, 0, size, List.replicate size.toNat 0, List.length_replicate⟩

/-- A `connector_uint_queue_t*`. -/
inductive QueuePtr where
  | null
  | live (q : UintQueue)
  | released
  deriving DecidableEq

/-- `connector_uint_queue_create`, with the outcomes of its two allocations. A queue whose array
could not be allocated is destroyed and its pointer returned; with size zero the array that is
released was never set. -/
def connectorUintQueueCreate (size : UInt32) (queueAllocated arrayAllocated : Bool) :
    Except Fault QueuePtr :=
  if queueAllocated then
    if size = 0 then .error .invalidFree
    else if arrayAllocated then .ok (.live (.empty (ringSize size)))
    else .ok .released
  else .ok .null

def connectorUintQueuePush (queue : QueuePtr) (elem : UInt32) : Except Fault (Retcode × QueuePtr) :=
  match queue with
  | .null => .ok (.invalid, .null)
  | .released => .error .useAfterFree
  | .live q =>
    if q.size = 0 then .error .divisionByZero
    else .ok ((q.push elem).1, .live (q.push elem).2)

/-- `connector_uint_queue_pop`, with what `*retval` holds before and after; it does not test its
pointer. -/
def connectorUintQueuePop (queue : QueuePtr) (retval : UInt32) : Except Fault (Retcode × UInt32 × QueuePtr) :=
  match queue with
  | .null => .error .nullDereference
  | .released => .error .useAfterFree
  | .live q =>
    if q.size = 0 then .error .divisionByZero
    else
      match q.pop with
      | (none, q') => .ok (.error, retval, .live q')
      | (some data, q') => .ok (.success, data, .live q')

def connectorUintQueueDestroy (queue : QueuePtr) : Except Fault (Retcode × QueuePtr) :=
  match queue with
  | .null => .ok (.error, .null)
  | .released => .error .useAfterFree
  | .live _ => .ok (.success, .released)

/-! ## Positions as numbers -/

theorem toNat_and_one (n : UInt32) : (n &&& 1).toNat = n.toNat % 2 := by
  rw [UInt32.toNat_and]
  exact Nat.and_one_is_mod _

theorem toNat_ringSize {n : UInt32} (h : n.toNat ≤ 2 ^ 32 - 3) :
    (ringSize n).toNat = n.toNat + (2 - n.toNat % 2) := by
  unfold ringSize
  have hbit : ((n &&& 1) ^^^ 1).toNat = 1 - n.toNat % 2 := by
    rw [UInt32.toNat_xor, toNat_and_one]
    rcases Nat.mod_two_eq_zero_or_one n.toNat with hn | hn <;> rw [hn] <;> rfl
  have hmod := Nat.mod_two_eq_zero_or_one n.toNat
  rw [UInt32.toNat_add, UInt32.toNat_add, hbit]
  simp only [UInt32.reduceToNat]
  omega

namespace UintQueue

variable {q : UintQueue} {p p' elem : UInt32}

theorem cell_eq (q : UintQueue) (p : UInt32) : q.cell p = p.toNat % q.size.toNat :=
  UInt32.toNat_mod _ _

theorem cell_lt (h : 0 < q.size.toNat) (p : UInt32) : q.cell p < q.array.length := by
  rw [cell_eq, q.array_length]
  exact Nat.mod_lt _ h

theorem convertToIndex_eq_iff (size : UInt32) :
    convertToIndex p size = convertToIndex p' size ↔ p.toNat % size.toNat = p'.toNat % size.toNat := by
  rw [← UInt32.toNat_inj]
  simp only [convertToIndex, UInt32.toNat_mod]

theorem looksFull_iff :
    q.looksFull p p' = true ↔ (p + 1).toNat % q.size.toNat = p'.toNat % q.size.toNat := by
  rw [looksFull, beq_iff_eq, convertToIndex_eq_iff]

theorem looksEmpty_iff :
    q.looksEmpty p p' = true ↔ p.toNat % q.size.toNat = p'.toNat % q.size.toNat := by
  rw [looksEmpty, beq_iff_eq, convertToIndex_eq_iff]

@[simp] theorem size_push (q : UintQueue) (elem : UInt32) : (q.push elem).2.size = q.size := by
  unfold push
  split <;> rfl

@[simp] theorem size_pop (q : UintQueue) : q.pop.2.size = q.size := by
  unfold pop
  split <;> rfl

/-- What a push that does not find the ring full leaves of the counters. -/
theorem push_of_not_full (h : ¬ q.looksFull q.writeIndex q.readIndex = true) (elem : UInt32) :
    (q.push elem).1 = .success ∧ (q.push elem).2.readIndex = q.readIndex ∧
      (q.push elem).2.maxIndex = q.writeIndex + 1 := by
  unfold push
  rw [if_neg h]
  exact ⟨rfl, rfl, rfl⟩

/-- What the cell of a position holds. -/
def slot (q : UintQueue) (k : Nat) : UInt32 := q.array.getD (k % q.size.toNat) 0

theorem load_eq_slot (q : UintQueue) (p : UInt32) : q.load p = q.slot p.toNat := by
  rw [load, cell_eq, slot]

theorem slot_store_self (h : 0 < q.size.toNat) : (q.store p elem).slot p.toNat = elem := by
  have hlt := cell_lt h p
  rw [cell_eq] at hlt
  simp [slot, store, cell_eq, List.getD_eq_getElem?_getD, hlt]

theorem slot_store_of_ne {k : Nat} (h : k % q.size.toNat ≠ p.toNat % q.size.toNat) :
    (q.store p elem).slot k = q.slot k := by
  simp [slot, store, cell_eq, List.getD_eq_getElem?_getD, List.getElem?_set_ne (Ne.symm h)]

end UintQueue

/-! ## What a call that returns has done -/

/-- A pop through a pointer: the ring looked empty, or the element at `read_index` was taken. -/
inductive Popped (retval : UInt32) : QueuePtr → Retcode × UInt32 × QueuePtr → Prop
  | empty (q : UintQueue) (hsize : q.size ≠ 0) (hempty : q.looksEmpty q.readIndex q.maxIndex = true) :
      Popped retval (.live q) (.error, retval, .live q)
  | taken (q : UintQueue) (hsize : q.size ≠ 0) (hsome : ¬ q.looksEmpty q.readIndex q.maxIndex = true) :
      Popped retval (.live q) (.success, q.load q.readIndex, .live { q with readIndex := q.readIndex + 1 })

/-- A push through a pointer: there was no queue, the ring looked full, or the element was stored. -/
inductive Pushed (elem : UInt32) : QueuePtr → Retcode × QueuePtr → Prop
  | null : Pushed elem .null (.invalid, .null)
  | full (q : UintQueue) (hsize : q.size ≠ 0) (hfull : q.looksFull q.writeIndex q.readIndex = true) :
      Pushed elem (.live q) (.error, .live q)
  | stored (q : UintQueue) (hsize : q.size ≠ 0) (hroom : ¬ q.looksFull q.writeIndex q.readIndex = true) :
      Pushed elem (.live q) (.success, .live { q.store q.writeIndex elem with
        writeIndex := q.writeIndex + 1
        maxIndex := q.writeIndex + 1 })

theorem uintQueuePop_cases {p : QueuePtr} {v : UInt32} {r : Retcode × UInt32 × QueuePtr}
    (h : connectorUintQueuePop p v = .ok r) : Popped v p r := by
  cases p with
  | null => cases h
  | released => cases h
  | live q =>
    by_cases hsize : q.size = 0
    · rw [connectorUintQueuePop, if_pos hsize] at h
      cases h
    · rw [connectorUintQueuePop, if_neg hsize] at h
      unfold UintQueue.pop at h
      by_cases hempty : q.looksEmpty q.readIndex q.maxIndex = true
      · rw [if_pos hempty] at h
        obtain rfl := Except.ok.inj h
        exact .empty q hsize hempty
      · rw [if_neg hempty] at h
        obtain rfl := Except.ok.inj h
        exact .taken q hsize hempty

theorem uintQueuePush_cases {p : QueuePtr} {v : UInt32} {r : Retcode × QueuePtr}
    (h : connectorUintQueuePush p v = .ok r) : Pushed v p r := by
  cases p with
  | null =>
    obtain rfl := Except.ok.inj h
    exact .null
  | released => cases h
  | live q =>
    by_cases hsize : q.size = 0
    · rw [connectorUintQueuePush, if_pos hsize] at h
      cases h
    · rw [connectorUintQueuePush, if_neg hsize] at h
      obtain rfl := Except.ok.inj h
      unfold UintQueue.push
      by_cases hfull : q.looksFull q.writeIndex q.readIndex = true
      · rw [if_pos hfull]
        exact .full q hsize hfull
      · rw [if_neg hfull]
        exact .stored q hsize hfull

end SubstanceConnector
