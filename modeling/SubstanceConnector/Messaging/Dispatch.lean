import Mathlib.Data.List.TakeWhile
import SubstanceConnector.Message.Header

/-!
# Dispatching a message

What a dispatch thread does with one inbound message: `dispatch_routine` tells internal messages from
the others, `connector_call_internal_message` looks up the handler, and `internal_handshake_callback`
answers a handshake. The effects on shared state come out as a list of actions in the order of the
source; between two of them other threads may run.
-/

namespace SubstanceConnector

/-! ## Identifiers and texts -/

/-- The loop of `connector_compare_uuid` over the words of the two identifiers. -/
def compareWords : List (UInt32 × UInt32) → Int
  | [] => 0
  | (x, y) :: rest => if x < y then -1 else if x > y then 1 else compareWords rest

def connectorCompareUuid (id0 id1 : Uuid) : Int :=
  compareWords ((List.ofFn id0.elements).zip (List.ofFn id1.elements))

theorem compareWords_eq_zero {xs ys : List UInt32} (hlen : xs.length = ys.length) :
    compareWords (xs.zip ys) = 0 ↔ xs = ys := by
  induction xs generalizing ys with
  | nil =>
    cases ys with
    | nil => simp [compareWords]
    | cons y ys => simp at hlen
  | cons x xs ih =>
    cases ys with
    | nil => simp at hlen
    | cons y ys =>
      have hrest := ih (Nat.succ.inj hlen)
      rw [List.zip_cons_cons, compareWords]
      split_ifs with hlt hgt
      · refine iff_of_false (by decide) fun h => ?_
        exact UInt32.ne_of_lt hlt (List.cons.inj h).1
      · refine iff_of_false (by decide) fun h => ?_
        exact UInt32.ne_of_lt hgt (List.cons.inj h).1.symm
      · have hxy : x = y := UInt32.le_antisymm (UInt32.not_lt.mp hgt) (UInt32.not_lt.mp hlt)
        rw [hrest, List.cons.injEq, and_iff_right hxy]

theorem connectorCompareUuid_eq_zero {id0 id1 : Uuid} : connectorCompareUuid id0 id1 = 0 ↔ id0 = id1 := by
  rw [connectorCompareUuid, compareWords_eq_zero (by simp), List.ofFn_injective.eq_iff]
  exact ⟨fun h => Uuid.ext h, fun h => by rw [h]⟩

/-- The string at the start of a buffer: everything before its first zero. -/
def CString.ofBuffer (buffer : List UInt8) : CString where
  bytes := buffer.takeWhile (· != 0)
  nulFree := by
    intro h
    have hne := List.mem_takeWhile_imp h
    exact absurd hne (by decide)

theorem takeWhile_terminated {bytes : List UInt8} (h : 0 ∉ bytes) (behind : List UInt8) :
    (bytes ++ 0 :: behind).takeWhile (· != 0) = bytes := by
  have hne : ∀ x ∈ bytes, (x != 0) = true := by
    intro x hx
    have hzero : x ≠ 0 := fun hzero => h (hzero ▸ hx)
    simpa using hzero
  rw [List.takeWhile_append_of_pos hne]
  simp

theorem CString.ofBuffer_buffer (s : CString) : CString.ofBuffer s.buffer = s := by
  apply CString.ext
  exact takeWhile_terminated s.nulFree []

/-- `message->message` as a string. -/
def ConnectorMessage.text (m : ConnectorMessage) : Option CString := m.message.map CString.ofBuffer

/-! ## Internal messages -/

/-- What a dispatch thread does to shared state. -/
inductive Action where
  | enqueueOutbound (message : ConnectorMessage)
  | setApplicationName (context : UInt32) (name : CString)
  | notifyTrampolines (context : UInt32) (type : Uuid) (message : Option CString)
  deriving DecidableEq

/-- The outcomes of the two allocations of `internal_handshake_callback`. -/
structure CallbackOutcome where
  outMessage : Bool
  inMessage : Bool

section
variable (applicationName : Option CString) (o : CallbackOutcome)

def internalHandshakeCallback (context : UInt32) (message : Option CString) : List Action :=
  let outMessage := connectorBuildMessage o.outMessage context (some connectorInternalHandshakeUuid) applicationName
  let inMessage := connectorBuildMessage o.inMessage context (some connectorInternalHandshakeUuid) message
  outMessage.toList.map .enqueueOutbound ++
    -- the inbound message is only built to be cleared again
    if inMessage = none then [] else message.toList.map (.setApplicationName context)

inductive InternalCallback where
  | internalHandshakeCallback

def internalMessages : List (Uuid × InternalCallback) :=
  [(connectorInternalHandshakeUuid, .internalHandshakeCallback)]

/-- `find_callback`: the entry `bsearch` finds. -/
def findCallback (type : Uuid) : Option InternalCallback :=
  (internalMessages.find? fun e => connectorCompareUuid e.1 type = 0).map (·.2)

def connectorCallInternalMessage (context : UInt32) (type : Uuid) (message : Option CString) : List Action :=
  match findCallback type with
  | some .internalHandshakeCallback => internalHandshakeCallback applicationName o context message
  | none => []

/-- The body of the loop of `dispatch_routine`. -/
def dispatchMessage (m : ConnectorMessage) : List Action :=
  if connectorIdentifyInternal m.header.description then
    connectorCallInternalMessage applicationName o m.context m.header.messageId m.text
  else [.notifyTrampolines m.context m.header.messageId m.text]

end

theorem findCallback_eq (type : Uuid) :
    findCallback type = if type = connectorInternalHandshakeUuid then some .internalHandshakeCallback else none := by
  by_cases h : type = connectorInternalHandshakeUuid
  · have hzero : connectorCompareUuid connectorInternalHandshakeUuid type = 0 := connectorCompareUuid_eq_zero.mpr h.symm
    rw [if_pos h]
    simp [findCallback, internalMessages, hzero]
  · have hne : ¬ connectorCompareUuid connectorInternalHandshakeUuid type = 0 :=
      fun hzero => h (connectorCompareUuid_eq_zero.mp hzero).symm
    simp [findCallback, internalMessages, hne, h]

/-- The answer to an internal message calls no trampoline. -/
theorem ne_notify_of_internal {applicationName : Option CString} {o : CallbackOutcome} {m : ConnectorMessage}
    (hinternal : connectorIdentifyInternal m.header.description = true) {a : Action}
    (ha : a ∈ dispatchMessage applicationName o m) (context : UInt32) (type : Uuid) (message : Option CString) :
    a ≠ .notifyTrampolines context type message := by
  rw [dispatchMessage, if_pos hinternal, connectorCallInternalMessage] at ha
  split at ha
  · rcases List.mem_append.mp ha with hreply | hname
    · obtain ⟨reply, -, rfl⟩ := List.mem_map.mp hreply
      exact Action.noConfusion
    · split at hname
      · cases hname
      · obtain ⟨text, -, rfl⟩ := List.mem_map.mp hname
        exact Action.noConfusion
  · cases ha

end SubstanceConnector
