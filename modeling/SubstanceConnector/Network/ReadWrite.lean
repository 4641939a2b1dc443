import SubstanceConnector.Library.Interaction
import SubstanceConnector.Context.Struct
import SubstanceConnector.Message.Layout

/-!
# Sending and receiving one message

`connector_send_message_generic` and `connector_read_message_generic` of `readwriteutils.c`. Both
are given their socket call as a function pointer, so they are programs over three requests: the
allocator, `recv` and `send`. Between two requests anything may happen on the connection.
-/

namespace SubstanceConnector

/-- The calls the two functions make. A `recv` request records the capacity of the buffer it is
given besides the length it asks for. -/
inductive NetCall where
  | allocate (size : Nat)
  | recv (fd capacity len : Nat)
  | send (fd : Nat) (buffer : List UInt8)

/-- What `recv` returned: a negative value, or the bytes it stored (none at the end of the stream). -/
inductive RecvResult where
  | failed
  | bytes (bs : List UInt8)
  deriving DecidableEq

/-- What `send` returned: a negative value, or how many bytes it took. -/
inductive SendResult where
  | failed
  | accepted (n : Nat)
  deriving DecidableEq

/-- The answers; a successful allocation is answered with the previous contents of the block. -/
@[reducible] def NetCall.Answer : NetCall → Type
  | allocate _ => Option (List UInt8)
  | recv _ _ _ => RecvResult
  | send _ _ => SendResult

abbrev Net (α : Type) : Type := Interaction NetCall NetCall.Answer α

def connectorAllocate (size : Nat) : Net (Option (List UInt8)) := Interaction.request (NetCall.allocate size)

def recvCall (fd capacity len : Nat) : Net RecvResult := Interaction.request (NetCall.recv fd capacity len)

def sendCall (fd : Nat) (buffer : List UInt8) : Net SendResult := Interaction.request (NetCall.send fd buffer)

section requests
variable {β : Type}

@[simp] theorem connectorAllocate_bind (size : Nat) (f : Option (List UInt8) → Net β) :
    connectorAllocate size >>= f = .call (.allocate size) f := rfl

@[simp] theorem recvCall_bind (fd capacity len : Nat) (f : RecvResult → Net β) :
    recvCall fd capacity len >>= f = .call (.recv fd capacity len) f := rfl

@[simp] theorem sendCall_bind (fd : Nat) (buffer : List UInt8) (f : SendResult → Net β) :
    sendCall fd buffer >>= f = .call (.send fd buffer) f := rfl

end requests

/-- `read_message_data`. The buffer is cleared before it is tested for null, and `memset` may not be given a
null pointer for any length, so a failed allocation faults. -/
def readMessageData (context : ConnectorContext) (message : ConnectorMessage) :
    Net (Except Fault (Retcode × ConnectorMessage)) := do
  -- `message_length + 1u` is a sum of two 32-bit numbers, widened to `size_t` afterwards
  let messageLength := (message.header.messageLength + 1).toNat
  let block ← connectorAllocate messageLength
  match block with
  | none => pure (.error .nullDereference)
  | some _ =>
    let result ← recvCall context.fd messageLength ((messageLength + (2 ^ 64 - 1)) % 2 ^ 64)
    match result with
    | .failed => pure (.ok (.readFail, message))
    | .bytes bs =>
      if messageLength < bs.length then pure (.error .bufferOverflow)
      else
        let buffer := bs ++ List.replicate (messageLength - bs.length) 0
        pure (.ok (.success, { message with message := some buffer }))

def connectorReadMessageGeneric (host : ByteOrder) (context : Option ConnectorContext)
    (message : Option ConnectorMessage) : Net (Except Fault (Retcode × Option ConnectorMessage)) :=
  match message, context with
  | some message, some context => do
    let result ← recvCall context.fd headerSize headerSize
    match result with
    | .failed => pure (.ok (.readFail, some message))
    | .bytes bs =>
      if bs.length = headerSize then
        let message := { message with header := connectorNtohheader host (.ofMemory host bs) }
        if connectorIdentifyMessage message.header.description then
          let outcome ← readMessageData context message
          pure (outcome.map fun r => (r.1, some r.2))
        else pure (.ok (.readFail, some message))
      else pure (.ok (.readFail, some message))
  | message, _ => pure (.ok (.error, message))

/-- `connector_send_message_generic`. The buffer is written to without a test for null. -/
def connectorSendMessageGeneric (host : ByteOrder) (context : Option ConnectorContext)
    (message : Option ConnectorMessage) : Net (Except Fault Retcode) :=
  match message, context with
  | some message, some context => do
    let block ← connectorAllocate (headerSize + message.header.messageLength.toNat)
    match block with
    | none => pure (.error .nullDereference)
    | some heap =>
      let header := (connectorHtonheader host message.header).memory host heap
      let result ← sendCall context.fd (header ++ message.payload)
      match result with
      | .failed => pure (.ok .connFail)
      | .accepted _ => pure (.ok .success)
  | _, _ => pure (.ok .error)

/-- The zeroed message `connector_read_thread_handle_connected` reads into. -/
def blankMessage (context : UInt32) : ConnectorMessage := ⟨.zero, none, context⟩

/-! ## One request at a time -/

/-- The bytes of one message as they are handed to `send`. -/
def frame (heap : List UInt8) (message : ConnectorMessage) : List UInt8 :=
  wireHeader heap message.header ++ message.payload

theorem connectorSendMessageGeneric_eq (host : ByteOrder) (context : ConnectorContext)
    (message : ConnectorMessage) :
    connectorSendMessageGeneric host (some context) (some message) =
      .call (.allocate (headerSize + message.header.messageLength.toNat)) fun block =>
        match block with
        | none => .ret (.error .nullDereference)
        | some heap =>
          .call (.send context.fd (frame heap message)) fun result =>
            match result with
            | .failed => .ret (.ok .connFail)
            | .accepted _ => .ret (.ok .success) := by
  simp only [connectorSendMessageGeneric, connectorAllocate_bind]
  congr 1
  funext block
  cases block with
  | none => rfl
  | some heap =>
    simp only [memory_connectorHtonheader, sendCall_bind]
    congr 1
    funext result
    cases result <;> rfl

def ConnectorMessage.withHeader (m : ConnectorMessage) (host : ByteOrder) (bs : List UInt8) :
    ConnectorMessage := { m with header := connectorNtohheader host (.ofMemory host bs) }

@[simp] theorem withHeader_context (m : ConnectorMessage) (host : ByteOrder) (bs : List UInt8) :
    (m.withHeader host bs).context = m.context := rfl

/-- The call of `connector_read_message_generic` after its header has been received. -/
def readBody (context : ConnectorContext) (message : ConnectorMessage) :
    Net (Except Fault (Retcode × Option ConnectorMessage)) := do
  let outcome ← readMessageData context message
  pure (outcome.map fun r => (r.1, some r.2))

theorem connectorReadMessageGeneric_eq (host : ByteOrder) (context : ConnectorContext)
    (message : ConnectorMessage) :
    connectorReadMessageGeneric host (some context) (some message) =
      .call (.recv context.fd headerSize headerSize) fun result =>
        match result with
        | .failed => .ret (.ok (.readFail, some message))
        | .bytes bs =>
          if bs.length = headerSize then
            if connectorIdentifyMessage (message.withHeader host bs).header.description then
              readBody context (message.withHeader host bs)
            else .ret (.ok (.readFail, some (message.withHeader host bs)))
          else .ret (.ok (.readFail, some message)) := by
  simp only [connectorReadMessageGeneric, recvCall_bind]
  congr 1
  funext result
  cases result with
  | failed => rfl
  | bytes bs => rfl

/-- `read_message_data` behind its allocation of `size` bytes. -/
def fillBlock (context : ConnectorContext) (message : ConnectorMessage) (size : Nat) :
    Option (List UInt8) → Net (Except Fault (Retcode × ConnectorMessage))
  | none => pure (.error .nullDereference)
  | some _ => do
    let result ← recvCall context.fd size ((size + (2 ^ 64 - 1)) % 2 ^ 64)
    match result with
    | .failed => pure (.ok (.readFail, message))
    | .bytes bs =>
      if size < bs.length then pure (.error .bufferOverflow)
      else pure (.ok (.success, { message with message := some (bs ++ List.replicate (size - bs.length) 0) }))

theorem readMessageData_eq (context : ConnectorContext) (message : ConnectorMessage) :
    readMessageData context message =
      .call (.allocate (message.header.messageLength + 1).toNat)
        (fillBlock context message (message.header.messageLength + 1).toNat) := by
  rw [readMessageData, connectorAllocate_bind]
  refine congrArg (Interaction.call _) (funext fun block => ?_)
  cases block with
  | none => rfl
  | some _ => rfl

/-- The length `read_message_data` works with: one more than the length field, unless that wraps. -/
theorem messageLength_succ {x : UInt32} (h : x.toNat < 2 ^ 32 - 1) : (x + 1).toNat = x.toNat + 1 := by
  rw [UInt32.toNat_add]
  simp only [UInt32.reduceToNat]
  omega

/-- The call once the buffer for the payload is allocated. -/
def readPayload (context : ConnectorContext) (message : ConnectorMessage) :
    Net (Except Fault (Retcode × Option ConnectorMessage)) :=
  let len := message.header.messageLength.toNat
  .call (.recv context.fd (len + 1) len) fun result =>
    match result with
    | .failed => .ret (.ok (.readFail, some message))
    | .bytes bs =>
      if len + 1 < bs.length then .ret (.error .bufferOverflow)
      else .ret (.ok (.success, some { message with
        message := some (bs ++ List.replicate (len + 1 - bs.length) 0) }))

theorem readBody_eq (context : ConnectorContext) (message : ConnectorMessage)
    (h : message.header.messageLength.toNat < 2 ^ 32 - 1) :
    readBody context message =
      .call (.allocate (message.header.messageLength.toNat + 1)) fun block =>
        match block with
        | none => .ret (.error .nullDereference)
        | some _ => readPayload context message := by
  have hlen := messageLength_succ h
  have hreq : (message.header.messageLength.toNat + 1 + (2 ^ 64 - 1)) % 2 ^ 64 =
      message.header.messageLength.toNat := by
    have := message.header.messageLength.toNat_lt
    omega
  rw [readBody, readMessageData_eq, Interaction.call_bind, hlen]
  refine congrArg (Interaction.call _) (funext fun block => ?_)
  cases block with
  | none => simp [fillBlock, Except.map]
  | some _ =>
    simp only [fillBlock, readPayload, recvCall_bind, Interaction.call_bind, hreq]
    refine congrArg (Interaction.call _) (funext fun result => ?_)
    cases result with
    | failed => rfl
    | bytes bs =>
      dsimp only
      split <;> rfl

end SubstanceConnector
