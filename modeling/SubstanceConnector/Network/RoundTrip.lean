import SubstanceConnector.Network.ReadWrite

/-!
# Messages survive the wire

Two machines, each of either byte order, joined by a connection that takes every buffer whole and
delivers exactly the bytes asked for: the receiver reads back the messages that were sent, field by
field, and leaves the connection empty. The blocks the allocator hands out may hold anything.
-/

namespace SubstanceConnector

/-- A message `connector_build_message` makes whose payload the receiver has room for. -/
structure ShortOutgoing extends Outgoing where
  short : toOutgoing.Short

/-- A connection with nothing lost and nothing cut: the bytes under way and the number of blocks
allocated so far. -/
structure Link where
  wire : List UInt8
  allocations : Nat

/-- How the environment answers; the `n`-th block handed out holds `heap n`. -/
def Link.answer (heap : Nat → List UInt8) : (q : NetCall) → Link → q.Answer × Link
  | .allocate _, s => (some (heap s.allocations), { s with allocations := s.allocations + 1 })
  | .recv _ _ len, s => (.bytes (s.wire.take len), { s with wire := s.wire.drop len })
  | .send _ buffer, s => (.accepted buffer.length, { s with wire := s.wire ++ buffer })

def sendAll (host : ByteOrder) (context : ConnectorContext) (heap : Nat → List UInt8) :
    List ConnectorMessage → Link → List (Except Fault Retcode) × Link
  | [], s => ([], s)
  | m :: ms, s =>
    let one := (connectorSendMessageGeneric host (some context) (some m)).runState (Link.answer heap) s
    let rest := sendAll host context heap ms one.2
    (one.1 :: rest.1, rest.2)

def readAll (host : ByteOrder) (context : ConnectorContext) (id : UInt32) (heap : Nat → List UInt8) :
    Nat → Link → List (Except Fault (Retcode × Option ConnectorMessage)) × Link
  | 0, s => ([], s)
  | n + 1, s =>
    let one := (connectorReadMessageGeneric host (some context) (some (blankMessage id))).runState
      (Link.answer heap) s
    let rest := readAll host context id heap n one.2
    (one.1 :: rest.1, rest.2)

/-! ## One message -/

theorem runState_send (host : ByteOrder) (context : ConnectorContext) (heap : Nat → List UInt8)
    (m : ConnectorMessage) (s : Link) :
    (connectorSendMessageGeneric host (some context) (some m)).runState (Link.answer heap) s =
      (.ok .success, ⟨s.wire ++ frame (heap s.allocations) m, s.allocations + 1⟩) := by
  rw [connectorSendMessageGeneric_eq]
  rfl

/-- Reading from a stream that begins with the frame of a message takes exactly that frame. -/
theorem runState_read (host : ByteOrder) (context : ConnectorContext) (id : UInt32)
    (heap : Nat → List UInt8) (padding : List UInt8) {o : Outgoing} (h : o.Short) (rest : List UInt8) (n : Nat) :
    (connectorReadMessageGeneric host (some context) (some (blankMessage id))).runState
        (Link.answer heap) ⟨frame padding o.message ++ rest, n⟩ =
      (.ok (.success, some (o.received id)), ⟨rest, n + 1⟩) := by
  have htake : (frame padding o.message ++ rest).take headerSize = wireHeader padding o.message.header := by
    rw [frame, List.append_assoc, List.take_left' (length_wireHeader _ _)]
  have hdrop : (frame padding o.message ++ rest).drop headerSize = o.text.bytes ++ rest := by
    rw [frame, List.append_assoc, List.drop_left' (length_wireHeader _ _), Outgoing.payload_message h.lt]
  have hheader : ((blankMessage id).withHeader host (wireHeader padding o.message.header)).header =
      o.message.header := ntohheader_wireHeader host padding _
  have hidentify : connectorIdentifyMessage o.message.header.description = true := by
    rw [o.header_message]
    exact o.identifyMessage_description
  have hlength := Outgoing.messageLength_toNat h.lt
  rw [connectorReadMessageGeneric_eq, Interaction.runState_call]
  simp only [Link.answer, htake, hdrop, length_wireHeader, if_pos, hheader, hidentify]
  rw [readBody_eq _ _ (by rw [hheader]; exact h.messageLength_lt)]
  simp only [Interaction.runState_call, Link.answer, readPayload, hheader, hlength, List.take_left',
    List.drop_left']
  rw [if_neg (by omega), Interaction.runState_ret, o.header_message]
  simp [Outgoing.received, blankMessage]

/-! ## Whole lists -/

/-- The bytes on the wire after a list of messages, the `n`-th block being the first one used. -/
def frames (heap : Nat → List UInt8) : Nat → List ConnectorMessage → List UInt8
  | _, [] => []
  | n, m :: ms => frame (heap n) m ++ frames heap (n + 1) ms

theorem sendAll_eq (host : ByteOrder) (context : ConnectorContext) (heap : Nat → List UInt8)
    (ms : List ConnectorMessage) (s : Link) :
    sendAll host context heap ms s =
      (ms.map fun _ => .ok .success, ⟨s.wire ++ frames heap s.allocations ms, s.allocations + ms.length⟩) := by
  induction ms generalizing s with
  | nil => simp [sendAll, frames]
  | cons m ms ih =>
    simp only [sendAll, runState_send, ih, frames, List.map_cons, List.length_cons, List.append_assoc]
    congr 2
    omega

theorem readAll_frames (host : ByteOrder) (context : ConnectorContext) (id : UInt32)
    (heap heap' : Nat → List UInt8) (os : List ShortOutgoing) (rest : List UInt8) (n k : Nat) :
    readAll host context id heap' os.length ⟨frames heap k (os.map (·.message)) ++ rest, n⟩ =
      (os.map fun o => .ok (.success, some (o.received id)), ⟨rest, n + os.length⟩) := by
  induction os generalizing n k with
  | nil => simp [readAll, frames]
  | cons o os ih =>
    simp only [List.length_cons, readAll, List.map_cons, frames, List.append_assoc, runState_read _ _ _ _ _ o.short,
      ih]
    congr 2
    omega

/-- **Round trip.** Whatever the byte orders of the two machines and the contents of the blocks they
allocate, every message sent is read back with the same identifier, length, description and payload,
the payload followed by its terminator; the reader consumes exactly what was written, and it
classifies each message as the sender did. -/
theorem readAll_sendAll (sender receiver : ByteOrder) (outbound inbound : ConnectorContext)
    (heap heap' : Nat → List UInt8) (id : UInt32) (os : List ShortOutgoing) :
    let sent := sendAll sender outbound heap (os.map (·.message)) ⟨[], 0⟩
    let got := readAll receiver inbound id heap' os.length ⟨sent.2.wire, 0⟩
    sent.1 = os.map (fun _ => .ok .success) ∧
      got.1 = os.map (fun o => .ok (.success, some (o.received id))) ∧
      got.2.wire = [] ∧
      ∀ o ∈ os,
        (o.received id).header = o.message.header ∧
          connectorIdentifyMessage (o.received id).header.description =
            connectorIdentifyMessage o.message.header.description ∧
          connectorIdentifyInternal (o.received id).header.description =
            connectorIdentifyInternal o.message.header.description := by
  have hread := readAll_frames receiver inbound id heap heap' os [] 0 0
  rw [List.append_nil] at hread
  simp only [sendAll_eq, List.nil_append, List.map_map, hread]
  refine ⟨?_, trivial, trivial, fun o _ => ?_⟩
  · simp [Function.comp_def]
  · have hheader : (o.received id).header = o.message.header := o.header_message.symm
    rw [hheader]
    exact ⟨rfl, rfl, rfl⟩

end SubstanceConnector
