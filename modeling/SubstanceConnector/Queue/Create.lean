import SubstanceConnector.Queue.Sequential

/-!
# Creating a queue

`connector_uint_queue_create` with what it asks of the allocator and gives back to it. The size is rounded up in 32
bits, and a queue that could not be built is handed to `connector_uint_queue_destroy` before the common return: the
caller then gets a pointer that has been released, or, if not even the array was asked for, a stray pointer is
released with the queue.
-/

namespace SubstanceConnector

/-- A pointer to memory of the allocator: null, what an allocation of the call returned, or what was in a field that
nothing was stored in. -/
inductive HeapPtr where
  | null
  | block (allocation : Nat)
  | unset
  deriving DecidableEq

inductive HeapCall where
  | allocate (returned : HeapPtr)
  | free (ptr : HeapPtr)
  deriving DecidableEq

/-- The calls of the allocator, the pointer returned, and the queue that was built. -/
structure Created where
  calls : List HeapCall
  returned : HeapPtr
  queue : Option UintQueue
  deriving DecidableEq

/-- What `connector_uint_queue_destroy` frees of a queue with the given `array` field. -/
def destroyCalls (queue array : HeapPtr) : List HeapCall :=
  if queue = .null then [] else [.free array, .free queue]

/-- `connector_uint_queue_create`, one call of the allocator after the other. -/
def createCalls (size : UInt32) (queueAllocated arrayAllocated : Bool) : Created :=
  let queue := if queueAllocated then HeapPtr.block 0 else .null
  let calls := [HeapCall.allocate queue]
  if size > 0 ∧ queue ≠ .null then
    let size := ringSize size
    let array := if arrayAllocated then HeapPtr.block 1 else .null
    let calls := calls ++ [.allocate array]
    if array ≠ .null then ⟨calls, queue, some (.empty size)⟩
    else ⟨calls ++ destroyCalls queue array, queue, none⟩
  -- the `array` field has not been written yet
  else ⟨calls ++ destroyCalls queue .unset, queue, none⟩

/-- What the pointer returned is good for. -/
def Created.queuePtr (c : Created) : Except Fault QueuePtr :=
  if .free .unset ∈ c.calls then .error .invalidFree
  else if c.returned = .null then .ok .null
  else
    match c.queue with
    | some q => .ok (.live q)
    | none => .ok .released

theorem queuePtr_createCalls (size : UInt32) (queueAllocated arrayAllocated : Bool) :
    (createCalls size queueAllocated arrayAllocated).queuePtr =
      connectorUintQueueCreate size queueAllocated arrayAllocated := by
  cases queueAllocated with
  | false => simp [createCalls, Created.queuePtr, connectorUintQueueCreate, destroyCalls]
  | true =>
    by_cases hsize : size = 0
    · simp [createCalls, Created.queuePtr, connectorUintQueueCreate, destroyCalls, hsize]
    · have hpos : size > 0 := UInt32.pos_iff_ne_zero.mpr hsize
      cases arrayAllocated <;>
        simp [createCalls, Created.queuePtr, connectorUintQueueCreate, destroyCalls, hsize, hpos]

/-! ## The property -/

/-- The values are pushed one after the other, each with success. -/
def QueuePtr.Takes : QueuePtr → List UInt32 → Prop
  | _, [] => True
  | p, x :: xs => ∃ p', connectorUintQueuePush p x = .ok (.success, p') ∧ p'.Takes xs

/-- Every pointer freed was obtained, none is freed twice, and the pointer returned is null with nothing left
allocated, or that of a live empty queue with room for `size` values. -/
structure Created.Honest (c : Created) (size : UInt32) : Prop where
  obtained : ∀ ptr, .free ptr ∈ c.calls → ptr = .null ∨ .allocate ptr ∈ c.calls
  once : ∀ ptr, ptr ≠ .null → c.calls.count (.free ptr) ≤ 1
  result : (c.returned = .null ∧ ∀ ptr, ptr ≠ .null → .allocate ptr ∈ c.calls → .free ptr ∈ c.calls) ∨
    (c.returned ≠ .null ∧ .free c.returned ∉ c.calls ∧ ∃ q, c.queue = some q ∧ q.size ≠ 0 ∧ q.contents = [] ∧
      ∀ xs : List UInt32, xs.length ≤ size.toNat → QueuePtr.Takes (.live q) xs)

/-- A queue takes what it has room for. -/
theorem QueuePtr.Rep.takes {p : QueuePtr} {size : UInt32} {items xs : List UInt32} {pushes : Nat}
    (h : p.Rep size items pushes) (hroom : items.length + xs.length < size.toNat)
    (hlt : pushes + xs.length < 2 ^ 32) : p.Takes xs := by
  induction xs generalizing p items pushes with
  | nil => exact trivial
  | cons x xs ih =>
    rw [List.length_cons] at hroom hlt
    obtain ⟨p', hpush, hp'⟩ := h.push (.inl (by omega)) (by omega) x
    refine ⟨p', hpush, ih hp' ?_ (by omega)⟩
    rw [List.length_append, List.length_singleton]
    omega

theorem takes_empty {size : UInt32} (hle : size.toNat ≤ 2 ^ 32 - 3) {xs : List UInt32}
    (hxs : xs.length ≤ size.toNat) : QueuePtr.Takes (.live (.empty (ringSize size))) xs := by
  have hring := toNat_ringSize hle
  have hrep : QueuePtr.Rep (.live (.empty (ringSize size))) (ringSize size) [] 0 :=
    ⟨_, rfl, rfl, .empty (by omega)⟩
  refine hrep.takes ?_ ?_
  · rw [List.length_nil]
    omega
  · omega

/-- The last two sizes are rounded up to zero. -/
theorem ringSize_eq_zero {size : UInt32} (h : 2 ^ 32 - 3 < size.toNat) : ringSize size = 0 := by
  have hlt := size.toNat_lt
  obtain hlast | hlast : size.toNat = 2 ^ 32 - 2 ∨ size.toNat = 2 ^ 32 - 1 := by omega
  · obtain rfl : size = 4294967294 := UInt32.toNat_inj.mp hlast
    decide
  · obtain rfl : size = 4294967295 := UInt32.toNat_inj.mp hlast
    decide

/-- **Creation is honest** exactly when the queue itself cannot be allocated, or its array can and the size is neither
zero nor rounded up beyond 32 bits. -/
theorem created_honest_iff (size : UInt32) (queueAllocated arrayAllocated : Bool) :
    (createCalls size queueAllocated arrayAllocated).Honest size ↔
      queueAllocated = false ∨ (size ≠ 0 ∧ size.toNat ≤ 2 ^ 32 - 3 ∧ arrayAllocated = true) := by
  cases queueAllocated with
  | false =>
    refine ⟨fun _ => .inl rfl, fun _ => ⟨?_, ?_, .inl ⟨?_, ?_⟩⟩⟩
    all_goals simp [createCalls, destroyCalls]
  | true =>
    by_cases hsize : size = 0
    · -- the stray pointer in the `array` field is freed
      subst hsize
      refine ⟨fun h => ?_, fun h => by simp at h⟩
      have hstray := h.obtained .unset (by cases arrayAllocated <;> decide)
      cases arrayAllocated <;> exact absurd hstray (by decide)
    · have hpos : size > 0 := UInt32.pos_iff_ne_zero.mpr hsize
      cases arrayAllocated with
      | false =>
        -- the pointer returned has been freed
        refine ⟨fun h => ?_, fun h => by simp at h⟩
        have hresult := h.result
        simp [createCalls, destroyCalls, hpos] at hresult
      | true =>
        have hcreate : createCalls size true true =
            ⟨[.allocate (.block 0), .allocate (.block 1)], .block 0, some (.empty (ringSize size))⟩ := by
          simp [createCalls, hpos]
        rw [hcreate]
        refine ⟨fun h => .inr ⟨hsize, ?_, rfl⟩, ?_⟩
        · by_contra hlarge
          obtain ⟨hnull, -⟩ | ⟨-, -, q, hq, hring, -⟩ := h.result
          · exact absurd hnull HeapPtr.noConfusion
          · obtain rfl := Option.some.inj hq
            exact hring (ringSize_eq_zero (Nat.lt_of_not_le hlarge))
        · rintro (hfalse | ⟨-, hle, -⟩)
          · exact absurd hfalse (by decide)
          · have hring := toNat_ringSize hle
            have hne : ringSize size ≠ 0 := by
              intro hzero
              rw [hzero] at hring
              have h0 : (0 : UInt32).toNat = 0 := rfl
              omega
            have hempty : (UintQueue.empty (ringSize size)).contents = [] :=
              (UintQueue.Rep.empty (by omega)).contents_eq
            refine ⟨by simp, by simp, .inr ⟨by simp, by simp, _, rfl, hne, hempty, fun xs hxs => takes_empty hle hxs⟩⟩

/-- No memory for the array. -/
theorem released_queue_returned : ¬ (createCalls 32 true false).Honest 32 := by
  intro h
  have hresult := h.result
  simp [createCalls, destroyCalls] at hresult

end SubstanceConnector
