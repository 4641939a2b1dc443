import SubstanceConnector.Network.ReadWrite

/-!
# What a message tells about the sender's memory

`connector_send_message_generic` fills an uncleared block field by field, and the two bytes between
the description and the length of a header belong to no field. Two runs that differ only in what the
block held before put the same bytes on the wire everywhere else, and they put the same bytes on the
wire altogether exactly when the blocks agreed there.
-/

namespace SubstanceConnector

/-- One run of a sender: the allocator returns a block that held `heap`, the socket answers `result`,
and the buffers handed to it are kept. -/
def Sending.answer (heap : List UInt8) (result : SendResult) :
    (q : NetCall) → List (List UInt8) → q.Answer × List (List UInt8)
  | .allocate _, sent => (some heap, sent)
  | .recv _ _ _, sent => (.failed, sent)
  | .send _ buffer, sent => (result, sent ++ [buffer])

/-- What a call of `connector_send_message_generic` passes to `send`. -/
def sentBuffers (host : ByteOrder) (context : Option ConnectorContext) (message : Option ConnectorMessage)
    (result : SendResult) (heap : List UInt8) : List (List UInt8) :=
  ((connectorSendMessageGeneric host context message).runState (Sending.answer heap result) []).2

/-- One buffer, whatever the socket answers. -/
theorem sentBuffers_eq (host : ByteOrder) (context : ConnectorContext) (message : ConnectorMessage)
    (result : SendResult) (heap : List UInt8) :
    sentBuffers host (some context) (some message) result heap = [frame heap message] := by
  rw [sentBuffers, connectorSendMessageGeneric_eq]
  cases result with
  | failed => rfl
  | accepted n => rfl

/-- The bytes of a block that no field of a header covers. -/
def padding (heap : List UInt8) : List UInt8 := [heap.getD 2 0, heap.getD 3 0]

@[simp] theorem length_padding (heap : List UInt8) : (padding heap).length = 2 := rfl

/-- The fields of a message on the wire: what is before the padding, and what is behind it. -/
def sentDescription (m : ConnectorMessage) : List UInt8 := ByteOrder.big.store 2 m.header.description.toNat

def sentRest (m : ConnectorMessage) : List UInt8 :=
  ByteOrder.big.store 4 m.header.messageLength.toNat ++
    (List.ofFn m.header.messageId.elements).flatMap (fun w => ByteOrder.big.store 4 w.toNat) ++ m.payload

/-- The memory of the sender occurs in the bytes sent as two padding bytes and nowhere else. -/
theorem frame_eq (heap : List UInt8) (m : ConnectorMessage) :
    frame heap m = sentDescription m ++ (padding heap ++ sentRest m) := by
  simp only [frame, wireHeader, MessageHeader.memory, sentDescription, padding, sentRest, List.append_assoc]

theorem frame_inj (heap heap' : List UInt8) (m : ConnectorMessage) :
    frame heap m = frame heap' m ↔ padding heap = padding heap' := by
  rw [frame_eq, frame_eq, List.append_right_inj, List.append_left_inj]

/-- Off the padding no byte depends on the block. -/
theorem getElem?_frame (heap heap' : List UInt8) (m : ConnectorMessage) {k : Nat} (h2 : k ≠ 2) (h3 : k ≠ 3) :
    (frame heap m)[k]? = (frame heap' m)[k]? := by
  have hlen : (sentDescription m).length = 2 := ByteOrder.length_store _ _ _
  rw [frame_eq, frame_eq]
  by_cases hk : k < 2
  · rw [List.getElem?_append_left (by omega), List.getElem?_append_left (by omega)]
  · have hrest : ∀ h : List UInt8,
        (sentDescription m ++ (padding h ++ sentRest m))[k]? = (sentRest m)[k - 2 - 2]? := by
      intro h
      rw [List.getElem?_append_right (by omega), hlen,
        List.getElem?_append_right (by rw [length_padding]; omega), length_padding]
    rw [hrest, hrest]

/-- **Two runs send the same bytes** exactly when the blocks they allocated held the same two bytes
where the header has its padding. -/
theorem same_bytes_iff (host : ByteOrder) (context : ConnectorContext) (message : ConnectorMessage)
    (result : SendResult) (heap heap' : List UInt8) :
    sentBuffers host (some context) (some message) result heap =
        sentBuffers host (some context) (some message) result heap' ↔
      heap.getD 2 0 = heap'.getD 2 0 ∧ heap.getD 3 0 = heap'.getD 3 0 := by
  rw [sentBuffers_eq, sentBuffers_eq, List.singleton_inj, frame_inj]
  simp only [padding, List.cons.injEq, and_true]

/-- A message without text. -/
def emptyMessage : ConnectorMessage := Outgoing.message ⟨0, connectorInternalHandshakeUuid, ⟨[], by decide⟩, false⟩

/-- A block of zeros and one left full of ones. -/
theorem padding_sent :
    sentBuffers .little (some .zero) (some emptyMessage) (.accepted 24) (List.replicate 24 0) ≠
      sentBuffers .little (some .zero) (some emptyMessage) (.accepted 24) (List.replicate 24 1) := by
  rw [sentBuffers_eq, sentBuffers_eq, Ne, List.singleton_inj, frame_inj]
  decide

end SubstanceConnector
