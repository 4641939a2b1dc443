import SubstanceConnector.Base

/-!
# Messages

The header and the message structure of `message_header.h` and `message.h`, the macros that
classify a description, and `connector_build_message`, the one place of the library that makes a
message to be sent.
-/

namespace SubstanceConnector

structure MessageHeader where
  description : UInt16
  messageLength : UInt32
  messageId : Uuid
  deriving DecidableEq

def MessageHeader.zero : MessageHeader := ⟨0, 0, .ofWords 0 0 0 0⟩

/-- `connector_message_t`. `message` is the whole buffer behind the pointer, the terminator
included; a null pointer is `none`. -/
structure ConnectorMessage where
  header : MessageHeader
  message : Option (List UInt8)
  context : UInt32
  deriving DecidableEq

def connectorMessageIdentifier : UInt16 := 0x03c9
def connectorInternalIdentifier : UInt16 := 0x03db
def connectorHeaderR1 : UInt16 := 0x0000

def connectorIdentifyMessage (x : UInt16) : Bool :=
  ((x &&& 0x0fff) &&& connectorMessageIdentifier) == connectorMessageIdentifier

def connectorIdentifyInternal (x : UInt16) : Bool :=
  ((x &&& 0x0fff) &&& connectorInternalIdentifier) == connectorInternalIdentifier

/-- `connector_build_message`. `allocated` is the outcome of allocating the structure; the copy of
the payload is made by `connector_strdup`. -/
def connectorBuildMessage (allocated : Bool) (context : UInt32) (type : Option Uuid)
    (message : Option CString) : Option ConnectorMessage :=
  match message, type with
  | some message, some type =>
    if allocated then
      some
        { context := context
          message := some message.buffer
          header :=
            { messageLength := UInt32.ofNat message.length
              messageId := type
              description := (0 ||| connectorHeaderR1) ||| connectorMessageIdentifier } }
    else none
  | _, _ => none

/-- `message->header->description |= CONNECTOR_INTERNAL_IDENTIFIER`, as the handshake does. -/
def ConnectorMessage.markInternal (m : ConnectorMessage) : ConnectorMessage :=
  { m with header := { m.header with description := m.header.description ||| connectorInternalIdentifier } }

/-- The bytes `connector_send_message_generic` copies out of the message: the first
`message_length` ones of its buffer. -/
def ConnectorMessage.payload (m : ConnectorMessage) : List UInt8 :=
  (m.message.getD []).take m.header.messageLength.toNat

/-! ## What the library sends -/

/-- The arguments of one `connector_build_message` call whose allocation succeeds, and whether the
caller then marks the message as internal. -/
structure Outgoing where
  context : UInt32
  type : Uuid
  text : CString
  internal : Bool

namespace Outgoing

def message (o : Outgoing) : ConnectorMessage :=
  let m : ConnectorMessage :=
    { context := o.context
      message := some o.text.buffer
      header := ⟨connectorMessageIdentifier, UInt32.ofNat o.text.length, o.type⟩ }
  if o.internal then m.markInternal else m

/-- The receiver has room for the payload and its terminator. -/
def Short (o : Outgoing) : Prop := o.text.length < 2 ^ 32 - 1

instance (o : Outgoing) : Decidable o.Short := inferInstanceAs (Decidable (_ < _))

/-- Whatever `connector_build_message` returns is one of these, before the caller marks it. -/
theorem connectorBuildMessage_eq_some {allocated : Bool} {context : UInt32} {type : Option Uuid}
    {message : Option CString} {m : ConnectorMessage} :
    connectorBuildMessage allocated context type message = some m ↔
      ∃ t text, allocated = true ∧ type = some t ∧ message = some text ∧
        m = Outgoing.message ⟨context, t, text, false⟩ := by
  constructor
  · intro h
    cases type with
    | none => cases message <;> cases h
    | some t =>
      cases message with
      | none => cases h
      | some text =>
        cases allocated with
        | false => cases h
        | true => exact ⟨t, text, rfl, rfl, rfl, (Option.some.inj h).symm⟩
  · rintro ⟨t, text, rfl, rfl, rfl, rfl⟩
    rfl

theorem markInternal_message (context : UInt32) (type : Uuid) (text : CString) :
    (Outgoing.message ⟨context, type, text, false⟩).markInternal = Outgoing.message ⟨context, type, text, true⟩ := rfl

def description (o : Outgoing) : UInt16 :=
  if o.internal then connectorInternalIdentifier else connectorMessageIdentifier

theorem header_message (o : Outgoing) :
    o.message.header = ⟨o.description, UInt32.ofNat o.text.length, o.type⟩ := by
  have hor : connectorMessageIdentifier ||| connectorInternalIdentifier = connectorInternalIdentifier := by
    decide
  obtain ⟨context, type, text, internal⟩ := o
  cases internal with
  | false => rfl
  | true => simp [message, description, ConnectorMessage.markInternal, hor]

@[simp] theorem message_message (o : Outgoing) : o.message.message = some o.text.buffer := by
  obtain ⟨context, type, text, internal⟩ := o
  cases internal <;> rfl

@[simp] theorem context_message (o : Outgoing) : o.message.context = o.context := by
  obtain ⟨context, type, text, internal⟩ := o
  cases internal <;> rfl

/-- A message belongs to the context it was built for. -/
theorem context_connectorBuildMessage {allocated : Bool} {context : UInt32} {type : Option Uuid}
    {message : Option CString} {m : ConnectorMessage} (h : connectorBuildMessage allocated context type message = some m) :
    m.context = context := by
  obtain ⟨t, text, -, -, -, rfl⟩ := connectorBuildMessage_eq_some.mp h
  exact context_message _

/-- Both kinds carry the magic number, the internal one because its own contains it. -/
theorem identifyMessage_description (o : Outgoing) : connectorIdentifyMessage o.description = true := by
  unfold description
  split <;> decide

theorem identifyInternal_description (o : Outgoing) :
    connectorIdentifyInternal o.description = o.internal := by
  unfold description
  split <;> rename_i h
  · rw [h]; decide
  · rw [Bool.not_eq_true] at h
    rw [h]; decide

theorem messageLength_toNat {o : Outgoing} (h : o.text.length < 2 ^ 32) :
    o.message.header.messageLength.toNat = o.text.bytes.length := by
  rw [header_message]
  exact UInt32.toNat_ofNat_of_lt' h

theorem payload_message {o : Outgoing} (h : o.text.length < 2 ^ 32) : o.message.payload = o.text.bytes := by
  simp [ConnectorMessage.payload, messageLength_toNat h, CString.buffer]

/-- The message the other side should hold: the same header, the payload and its terminator. -/
def received (o : Outgoing) (context : UInt32) : ConnectorMessage where
  header := ⟨o.description, UInt32.ofNat o.text.length, o.type⟩
  message := some (o.text.bytes ++ [0])
  context := context

theorem Short.lt {o : Outgoing} (h : o.Short) : o.text.length < 2 ^ 32 := by
  unfold Short at h
  omega

theorem Short.messageLength_lt {o : Outgoing} (h : o.Short) :
    o.message.header.messageLength.toNat < 2 ^ 32 - 1 :=
  (messageLength_toNat h.lt).trans_lt h

theorem payload_received {o : Outgoing} (h : o.Short) (context : UInt32) :
    (o.received context).payload = o.text.bytes := by
  have hlen : (UInt32.ofNat o.text.length).toNat = o.text.bytes.length := UInt32.toNat_ofNat_of_lt' h.lt
  simp [ConnectorMessage.payload, received, hlen]

end Outgoing

end SubstanceConnector
