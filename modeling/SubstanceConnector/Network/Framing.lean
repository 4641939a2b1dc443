import SubstanceConnector.Library.StepSystem
import SubstanceConnector.Network.RoundTrip

/-!
# Framing on a connection that cuts the stream

One connection, a sender and a reader. The transport may take any part of a buffer given to `send`
and may answer a `recv` with any part of the bytes under way; the reader calls
`connector_read_message_generic` again and again, as the read threads do on every event.

Neither end handles a short transfer: a short write is reported as success, a short read of a
payload is delivered padded with zeros, and a short read of a header drops the bytes it got. So the
delivered messages are in general no prefix of the sent ones (`truncated_payload_delivered`). They
are one in every run in which no transfer is cut (`delivered_of_whole_transfers`): each `send` takes
its whole buffer or fails, a header read gets all 24 bytes or nothing, a payload read gets exactly
the bytes it asks for, and no payload is so long that its length plus one wraps.

The invariant follows the reader through one call (`Phase`): the bytes under way are the rest of the
message being read, then whole frames.
-/

namespace SubstanceConnector.Framing

/-- The two ends of the connection. -/
structure Ends where
  sender : ByteOrder
  receiver : ByteOrder
  outbound : ConnectorContext
  inbound : ConnectorContext
  id : UInt32

abbrev ReadCall : Type := Net (Except Fault (Retcode × Option ConnectorMessage))

/-- The connection. Positions count the bytes of the stream from the start of the connection. -/
structure State where
  -- messages `connector_send_message_generic` returned success for, and where their bytes begin
  accepted : List ConnectorMessage
  starts : List Nat
  sent : Nat
  -- bytes under way
  stream : List UInt8
  closed : Bool
  -- the reader's call in progress, and whether it has read nothing yet
  call : Option ReadCall
  fresh : Bool
  -- messages returned with success, and the positions at which a header was parsed
  delivered : List ConnectorMessage
  consumed : Nat
  parsed : List Nat

def State.start : State := ⟨[], [], 0, [], false, none, true, [], 0, []⟩

/-- What happens next, with the answers of the transport and of the allocators. -/
inductive Label where
  | send (o : Outgoing) (block : Option (List UInt8)) (result : SendResult)
  | close
  | call
  | allocate (block : Option (List UInt8))
  | recvFailed
  | recv (n : Nat)
  | finish

/-- The answers to the requests of one call of the sender. -/
def sendAnswer (block : Option (List UInt8)) (result : SendResult) :
    (q : NetCall) → List UInt8 → q.Answer × List UInt8
  | .allocate _, stream => (block, stream)
  | .recv _ _ _, stream => (.failed, stream)
  | .send _ buffer, stream =>
    match result with
    | .failed => (.failed, stream)
    | .accepted n => (.accepted n, stream ++ buffer.take n)

/-- The transport takes at most what it is given, and nothing once the stream is closed. -/
def sendAllowed (s : State) (o : Outgoing) : SendResult → Bool
  | .failed => true
  | .accepted n => !s.closed && decide (n ≤ headerSize + o.message.header.messageLength.toNat)

/-- `recv` returns no byte only if none was asked for or the stream has ended. -/
def recvAllowed (s : State) (len n : Nat) : Bool :=
  decide (n ≤ len) && decide (n ≤ s.stream.length) &&
    (decide (0 < n) || decide (len = 0) || (s.closed && s.stream.isEmpty))

def next (e : Ends) (s : State) : Label → Option State
  | .send o block result =>
    if sendAllowed s o result then
      let run := (connectorSendMessageGeneric e.sender (some e.outbound) (some o.message)).runState
        (sendAnswer block result) s.stream
      let s' := { s with stream := run.2, sent := s.sent + (run.2.length - s.stream.length) }
      match run.1 with
      | .ok .success =>
        some { s' with accepted := s.accepted ++ [o.message], starts := s.starts ++ [s.sent] }
      | _ => some s'
    else none
  | .close => some { s with closed := true }
  | .call =>
    match s.call with
    | none =>
      some { s with
        call := some (connectorReadMessageGeneric e.receiver (some e.inbound) (some (blankMessage e.id)))
        fresh := true }
    | some _ => none
  | .allocate block =>
    match s.call with
    | some (.call (.allocate _) k) => some { s with call := some (k block) }
    | _ => none
  | .recvFailed =>
    match s.call with
    | some (.call (.recv _ _ _) k) => some { s with call := some (k .failed), fresh := false }
    | _ => none
  | .recv n =>
    match s.call with
    | some (.call (.recv _ _ len) k) =>
      if recvAllowed s len n then
        some { s with
          call := some (k (.bytes (s.stream.take n)))
          stream := s.stream.drop n
          consumed := s.consumed + n
          fresh := false
          -- the header is parsed when the first `recv` of a call returned all of it
          parsed := if s.fresh && decide (n = headerSize) then s.parsed ++ [s.consumed] else s.parsed }
      else none
    | _ => none
  | .finish =>
    match s.call with
    | some (.ret (.ok (.success, some m))) => some { s with call := none, delivered := s.delivered ++ [m] }
    | some (.ret (.ok _)) => some { s with call := none }
    | _ => none

def system (e : Ends) : StepSystem State Label := .ofNext (· = .start) (next e)

/-- What a message is compared by: identifier, description and payload. -/
def essence (m : ConnectorMessage) : Uuid × UInt16 × List UInt8 :=
  (m.header.messageId, m.header.description, m.payload)

/-- The property wanted: what was delivered is a prefix of what was accepted, and every header was
parsed where a frame begins. -/
def InStep (s : State) : Prop :=
  s.delivered.map essence <+: s.accepted.map essence ∧ ∀ k ∈ s.parsed, k ∈ s.starts

/-! ## A payload cut short is delivered -/

/-- A two-byte payload of which the reader's `recv` returns one byte. -/
def cutRun : List Label :=
  [.send ⟨0, connectorInternalHandshakeUuid, ⟨[97, 98], by decide⟩, false⟩ (some []) (.accepted 26),
    .call, .recv 24, .allocate (some []), .recv 1, .finish]

theorem truncated_payload_delivered :
    ¬ ∀ (e : Ends) (s : State), (system e).Reachable s → InStep s := by
  intro h
  let e : Ends := ⟨.little, .little, .zero, .zero, 0⟩
  have hrun : ((StepSystem.runList (next e) .start cutRun).map fun s =>
      (s.delivered.map (·.payload), s.accepted.map (·.payload))) = some ([[97, 0]], [[97, 98]]) := by
    decide +kernel
  obtain ⟨s, hs, hpay⟩ := Option.map_eq_some_iff.mp hrun
  have hreach : (system e).Reachable s := StepSystem.reachable_runList (.init rfl) hs
  obtain ⟨tail, htail⟩ := (h e s hreach).1
  have hmap := congrArg (List.map fun x => x.2.2) htail
  simp only [List.map_append, List.map_map, Function.comp_def, essence] at hmap
  rw [(Prod.mk.inj hpay).1, (Prod.mk.inj hpay).2] at hmap
  simp at hmap

/-! ## Whole transfers -/

/-- The `recv` a call is waiting for gets all it asks for, or nothing if it asks for a header. -/
def recvWhole (s : State) (n : Nat) : Bool :=
  match s.call with
  | some (.call (.recv _ _ len) _) => (s.fresh && decide (n = 0)) || decide (n = len)
  | _ => true

/-- The transfer of a step is not cut: a `send` takes everything or fails, the `recv` of a header
gets all of it or nothing, and the `recv` of a payload all of it. -/
def Whole (s : State) : Label → Prop
  | .send o _ (.accepted n) => o.Short ∧ n = headerSize + o.text.length
  | .recvFailed => s.fresh = true
  | .recv n => recvWhole s n = true
  | _ => True

instance (s : State) : (a : Label) → Decidable (Whole s a)
  | .send _ _ (.accepted _) => inferInstanceAs (Decidable (_ ∧ _))
  | .send _ _ .failed => .isTrue trivial
  | .close => .isTrue trivial
  | .call => .isTrue trivial
  | .allocate _ => .isTrue trivial
  | .recvFailed => inferInstanceAs (Decidable (s.fresh = true))
  | .recv n => inferInstanceAs (Decidable (recvWhole s n = true))
  | .finish => .isTrue trivial

/-- The message as the reader holds it once the header has arrived. -/
def opened (e : Ends) (o : Outgoing) : ConnectorMessage := ⟨o.message.header, none, e.id⟩

/-- Where the reader is in its call: the message it is in the middle of, if any, and the bytes of
that message still to come. -/
inductive Phase (e : Ends) : Option ReadCall → Bool → List ShortOutgoing → List UInt8 → Prop
  | between {fresh : Bool} : Phase e none fresh [] []
  | header : Phase e
      (some (connectorReadMessageGeneric e.receiver (some e.inbound) (some (blankMessage e.id)))) true [] []
  | gaveUp {fresh : Bool} {r : Retcode} {m : Option ConnectorMessage} (hr : r ≠ .success) :
      Phase e (some (.ret (.ok (r, m)))) fresh [] []
  | body (o : ShortOutgoing) : Phase e (some (readBody e.inbound (opened e o.toOutgoing))) false [o] o.text.bytes
  -- the buffer for the payload was not allocated
  | crashed (o : ShortOutgoing) : Phase e (some (.ret (.error .nullDereference))) false [o] o.text.bytes
  | data (o : ShortOutgoing) :
      Phase e (some (readPayload e.inbound (opened e o.toOutgoing))) false [o] o.text.bytes
  | complete (o : ShortOutgoing) : Phase e (some (.ret (.ok (.success, some (o.received e.id))))) false [o] []

/-- The bytes of the frames under way, each with the padding it was sent with. -/
def pendingBytes (rest : List (List UInt8 × ShortOutgoing)) : List UInt8 :=
  rest.flatMap fun p => frame p.1 p.2.message

/-- Every accepted message is delivered, being read, or wholly under way, and the frames under way
begin where they were sent. -/
structure Ledger (s : State) (id : UInt32) (done cur : List ShortOutgoing)
    (rest : List (List UInt8 × ShortOutgoing)) (remaining : List UInt8) : Prop where
  delivered : s.delivered = done.map (·.received id)
  accepted : s.accepted = (done ++ cur ++ rest.map Prod.snd).map (·.message)
  stream : s.stream = remaining ++ pendingBytes rest
  sent : s.sent = s.consumed + s.stream.length
  boundary : ∀ before p after, rest = before ++ p :: after →
    s.consumed + remaining.length + (pendingBytes before).length ∈ s.starts
  parsed : ∀ k ∈ s.parsed, k ∈ s.starts

def Inv (e : Ends) (s : State) : Prop :=
  ∃ done cur rest remaining, Phase e s.call s.fresh cur remaining ∧ Ledger s e.id done cur rest remaining

theorem essence_received (o : ShortOutgoing) (id : UInt32) :
    essence (o.received id) = essence o.message := by
  have hpayload : (o.received id).payload = o.message.payload := by
    rw [Outgoing.payload_received o.short, Outgoing.payload_message o.short.lt]
  rw [essence, essence, hpayload, o.header_message]
  rfl

theorem Inv.inStep {e : Ends} {s : State} (h : Inv e s) : InStep s := by
  obtain ⟨done, cur, rest, remaining, -, hl⟩ := h
  refine ⟨?_, hl.parsed⟩
  have hdone : s.delivered.map essence = done.map fun o => essence o.message := by
    rw [hl.delivered, List.map_map]
    exact List.map_congr_left fun o _ => essence_received o e.id
  rw [hdone, hl.accepted]
  refine ⟨(cur ++ rest.map Prod.snd).map fun o => essence o.message, ?_⟩
  simp [Function.comp_def]

/-! ### The sender -/

theorem length_frame {o : Outgoing} (h : o.Short) (heap : List UInt8) :
    (frame heap o.message).length = headerSize + o.text.length := by
  rw [frame, List.length_append, length_wireHeader, Outgoing.payload_message h.lt]
  rfl

/-- A whole send puts one frame on the stream or changes nothing. -/
theorem send_whole {e : Ends} {s s' : State} {o : Outgoing} {block : Option (List UInt8)} {result : SendResult}
    (hw : Whole s (.send o block result)) (h : next e s (.send o block result) = some s') :
    s' = s ∨ ∃ heap, o.Short ∧ s' = { s with
      stream := s.stream ++ frame heap o.message
      sent := s.sent + (frame heap o.message).length
      accepted := s.accepted ++ [o.message]
      starts := s.starts ++ [s.sent] } := by
  simp only [next, connectorSendMessageGeneric_eq, Interaction.runState_call, sendAnswer] at h
  split at h
  · cases block with
    | none =>
      left
      simpa using h.symm
    | some heap =>
      cases result with
      | failed =>
        left
        simpa [sendAnswer] using h.symm
      | accepted n =>
        right
        obtain ⟨hshort, hn⟩ := hw
        have htake : (frame heap o.message).take n = frame heap o.message := by
          rw [hn, ← length_frame hshort heap, List.take_length]
        refine ⟨heap, hshort, ?_⟩
        simpa [sendAnswer, htake] using h.symm
  · exact absurd h (by simp)

/-- An element of a list with one more at its end is that one, or was in the list before. -/
theorem split_concat {α : Type} {xs before after : List α} {x p : α} (h : xs ++ [x] = before ++ p :: after) :
    before = xs ∨ ∃ after', xs = before ++ p :: after' := by
  rcases List.eq_nil_or_concat after with rfl | ⟨after', q, rfl⟩
  · exact .inl (List.append_inj_left' h rfl).symm
  · have hq : xs ++ [x] = (before ++ p :: after') ++ [q] := by simpa using h
    exact .inr ⟨after', List.append_inj_left' hq rfl⟩

theorem inv_send {e : Ends} {s s' : State} {o : Outgoing} {block : Option (List UInt8)} {result : SendResult}
    (hw : Whole s (.send o block result)) (hi : Inv e s) (h : next e s (.send o block result) = some s') :
    Inv e s' := by
  obtain rfl | ⟨heap, hshort, rfl⟩ := send_whole hw h
  · exact hi
  obtain ⟨done, cur, rest, remaining, hphase, hl⟩ := hi
  have hbytes : pendingBytes (rest ++ [(heap, ⟨o, hshort⟩)]) = pendingBytes rest ++ frame heap o.message := by
    simp [pendingBytes]
  refine ⟨done, cur, rest ++ [(heap, ⟨o, hshort⟩)], remaining, hphase, hl.delivered, ?_, ?_, ?_, ?_, ?_⟩
  · simp [hl.accepted]
  · simp [hl.stream, hbytes]
  · simp only [List.length_append, hl.sent]
    omega
  · intro before p after hsplit
    obtain rfl | ⟨after', hafter⟩ := split_concat hsplit
    · refine List.mem_append_right _ (List.mem_singleton.mpr ?_)
      have hstream := congrArg List.length hl.stream
      have hsent := hl.sent
      rw [List.length_append] at hstream
      show s.consumed + remaining.length + (pendingBytes before).length = s.sent
      omega
    · exact List.mem_append_left _ (hl.boundary before p after' hafter)
  · exact fun k hk => List.mem_append_left _ (hl.parsed k hk)

/-! ### The reader -/

theorem opened_eq (e : Ends) (o : ShortOutgoing) (heap : List UInt8) :
    (blankMessage e.id).withHeader e.receiver (wireHeader heap o.message.header) = opened e o.toOutgoing := by
  unfold ConnectorMessage.withHeader opened
  rw [ntohheader_wireHeader]
  rfl

theorem opened_messageLength (e : Ends) (o : ShortOutgoing) :
    (opened e o.toOutgoing).header.messageLength.toNat = o.text.bytes.length :=
  Outgoing.messageLength_toNat o.short.lt

theorem readBody_opened (e : Ends) (o : ShortOutgoing) :
    readBody e.inbound (opened e o.toOutgoing) =
      .call (.allocate (o.text.bytes.length + 1)) fun block =>
        match block with
        | none => .ret (.error .nullDereference)
        | some _ => readPayload e.inbound (opened e o.toOutgoing) := by
  have hlen : (opened e o.toOutgoing).header.messageLength.toNat < 2 ^ 32 - 1 := o.short.messageLength_lt
  rw [readBody_eq _ _ hlen, opened_messageLength]
  refine congrArg (Interaction.call _) (funext fun block => ?_)
  cases block <;> rfl

theorem inv_call {e : Ends} {s s' : State} (hi : Inv e s) (h : next e s .call = some s') : Inv e s' := by
  obtain ⟨done, cur, rest, remaining, hphase, hl⟩ := hi
  obtain ⟨accepted, starts, sent, stream, closed, call, fresh, delivered, consumed, parsed⟩ := s
  cases hphase with
  | between =>
    obtain rfl := Option.some.inj h
    exact ⟨done, [], rest, [], .header, hl.1, hl.2, hl.3, hl.4, hl.5, hl.6⟩
  | _ => exact absurd h (by simp [next])

theorem inv_allocate {e : Ends} {s s' : State} {block : Option (List UInt8)} (hi : Inv e s)
    (h : next e s (.allocate block) = some s') : Inv e s' := by
  obtain ⟨done, cur, rest, remaining, hphase, hl⟩ := hi
  obtain ⟨accepted, starts, sent, stream, closed, call, fresh, delivered, consumed, parsed⟩ := s
  cases hphase with
  | body o =>
    rw [readBody_opened] at h
    obtain rfl := Option.some.inj h
    cases block with
    | none => exact ⟨done, [o], rest, o.text.bytes, .crashed o, hl.1, hl.2, hl.3, hl.4, hl.5, hl.6⟩
    | some heap => exact ⟨done, [o], rest, o.text.bytes, .data o, hl.1, hl.2, hl.3, hl.4, hl.5, hl.6⟩
  | header => exact absurd h (by simp [next, connectorReadMessageGeneric_eq])
  | data o => exact absurd h (by simp [next, readPayload])
  | _ => exact absurd h (by simp [next])

theorem inv_recvFailed {e : Ends} {s s' : State} (hw : Whole s .recvFailed) (hi : Inv e s)
    (h : next e s .recvFailed = some s') : Inv e s' := by
  obtain ⟨done, cur, rest, remaining, hphase, hl⟩ := hi
  obtain ⟨accepted, starts, sent, stream, closed, call, fresh, delivered, consumed, parsed⟩ := s
  cases hphase with
  | header =>
    rw [connectorReadMessageGeneric_eq] at h
    obtain rfl := Option.some.inj h
    exact ⟨done, [], rest, [], .gaveUp (by decide), hl.1, hl.2, hl.3, hl.4, hl.5, hl.6⟩
  | body o => exact absurd hw (by simp [Whole])
  | data o => exact absurd hw (by simp [Whole])
  | _ => exact absurd h (by simp [next])

theorem pendingBytes_cons (p : List UInt8 × ShortOutgoing) (rest : List (List UInt8 × ShortOutgoing)) :
    pendingBytes (p :: rest) =
      wireHeader p.1 p.2.message.header ++ (p.2.text.bytes ++ pendingBytes rest) := by
  simp [pendingBytes, frame, Outgoing.payload_message p.2.short.lt]

/-- Reading the header of the first frame under way. -/
theorem inv_recv_header {e : Ends} {s s' : State} {n : Nat} {done : List ShortOutgoing}
    {rest : List (List UInt8 × ShortOutgoing)} (hl : Ledger s e.id done [] rest [])
    (hcall : s.call =
      some (connectorReadMessageGeneric e.receiver (some e.inbound) (some (blankMessage e.id))))
    (hfresh : s.fresh = true) (hn : n = 0 ∨ n = headerSize) (h : next e s (.recv n) = some s') : Inv e s' := by
  rw [connectorReadMessageGeneric_eq] at hcall
  simp only [next, hcall, hfresh] at h
  split at h
  · rename_i hallowed
    simp only [recvAllowed, Bool.and_eq_true, decide_eq_true_eq] at hallowed
    obtain ⟨⟨-, hstream⟩, -⟩ := hallowed
    obtain rfl := Option.some.inj h
    rcases hn with rfl | rfl
    · refine ⟨done, [], rest, [], ?_, hl.1, hl.2, ?_, ?_, ?_, ?_⟩
      · simpa [headerSize] using Phase.gaveUp (by decide)
      · simpa using hl.stream
      · simpa using hl.sent
      · simpa using hl.boundary
      · simpa [headerSize] using hl.parsed
    · -- a whole header came out of the stream, so there is a frame, and it starts with this header
      cases rest with
      | nil => simp [hl.stream, pendingBytes, headerSize] at hstream
      | cons p rest =>
        have hbytes : s.stream = wireHeader p.1 p.2.message.header ++ (p.2.text.bytes ++ pendingBytes rest) := by
          rw [hl.stream, pendingBytes_cons, List.nil_append]
        have htake : s.stream.take headerSize = wireHeader p.1 p.2.message.header := by
          rw [hbytes, List.take_left' (length_wireHeader _ _)]
        have hdrop : s.stream.drop headerSize = p.2.text.bytes ++ pendingBytes rest := by
          rw [hbytes, List.drop_left' (length_wireHeader _ _)]
        have hidentify : connectorIdentifyMessage (opened e p.2.toOutgoing).header.description = true := by
          rw [opened, p.2.header_message]
          exact p.2.identifyMessage_description
        refine ⟨done, [p.2], rest, p.2.text.bytes, ?_, hl.1, ?_, hdrop, ?_, ?_, ?_⟩
        · simp only [htake, length_wireHeader, if_pos, opened_eq, hidentify]
          exact .body p.2
        · simp [hl.accepted]
        · have hsent := hl.sent
          simp only [List.length_drop]
          omega
        · intro before q after hsplit
          have hstart := hl.boundary (p :: before) q after (by rw [hsplit, List.cons_append])
          rw [pendingBytes_cons] at hstart
          simp only [List.length_nil, List.length_append, length_wireHeader] at hstart
          have hsum : s.consumed + 0 + (headerSize + (p.2.text.bytes.length + (pendingBytes before).length)) =
              s.consumed + headerSize + p.2.text.bytes.length + (pendingBytes before).length := by omega
          rwa [hsum] at hstart
        · intro k hk
          simp only [decide_true, Bool.and_self, if_pos, List.mem_append, List.mem_singleton] at hk
          rcases hk with hk | rfl
          · exact hl.parsed k hk
          · simpa [pendingBytes] using hl.boundary [] p rest rfl
  · exact absurd h (by simp)

/-- Reading the payload of the message whose header has been read. -/
theorem inv_recv_payload {e : Ends} {s s' : State} {n : Nat} {done : List ShortOutgoing} {o : ShortOutgoing}
    {rest : List (List UInt8 × ShortOutgoing)} (hl : Ledger s e.id done [o] rest o.text.bytes)
    (hcall : s.call = some (readPayload e.inbound (opened e o.toOutgoing))) (hfresh : s.fresh = false)
    (hn : n = o.text.bytes.length) (h : next e s (.recv n) = some s') : Inv e s' := by
  simp only [next, hcall, hfresh, readPayload, opened_messageLength] at h
  split at h
  · obtain rfl := Option.some.inj h
    have htake : s.stream.take n = o.text.bytes := by rw [hl.stream, List.take_left' hn.symm]
    have hdrop : s.stream.drop n = pendingBytes rest := by rw [hl.stream, List.drop_left' hn.symm]
    refine ⟨done, [o], rest, [], ?_, hl.1, hl.2, hdrop, ?_, ?_, hl.parsed⟩
    · have hreceived : ({ opened e o.toOutgoing with message := some (o.text.bytes ++ [0]) } : ConnectorMessage) =
          o.received e.id := by
        simp [opened, Outgoing.received, o.header_message]
      simp only [htake]
      rw [if_neg (by omega), Nat.add_sub_cancel_left]
      exact hreceived ▸ .complete o
    · have hsent := hl.sent
      have hlength := congrArg List.length hl.stream
      rw [List.length_append] at hlength
      simp only [List.length_drop]
      omega
    · intro before p after hsplit
      have hstart := hl.boundary before p after hsplit
      rw [← hn] at hstart
      exact hstart
  · exact absurd h (by simp)

theorem inv_recv {e : Ends} {s s' : State} {n : Nat} (hw : Whole s (.recv n)) (hi : Inv e s)
    (h : next e s (.recv n) = some s') : Inv e s' := by
  obtain ⟨done, cur, rest, remaining, hphase, hl⟩ := hi
  generalize hcall : s.call = call at hphase
  generalize hfresh : s.fresh = fresh at hphase
  cases hphase with
  | header =>
    have hn : n = 0 ∨ n = headerSize := by
      simpa [Whole, recvWhole, hcall, hfresh, connectorReadMessageGeneric_eq] using hw
    exact inv_recv_header hl hcall hfresh hn h
  | data o =>
    have hn : n = o.text.bytes.length := by
      simpa [Whole, recvWhole, hcall, hfresh, readPayload, opened_messageLength] using hw
    exact inv_recv_payload hl hcall hfresh hn h
  | body o => exact absurd h (by simp [next, hcall, readBody_opened])
  | _ => exact absurd h (by simp [next, hcall])

theorem inv_finish {e : Ends} {s s' : State} (hi : Inv e s) (h : next e s .finish = some s') : Inv e s' := by
  obtain ⟨done, cur, rest, remaining, hphase, hl⟩ := hi
  obtain ⟨accepted, starts, sent, stream, closed, call, fresh, delivered, consumed, parsed⟩ := s
  cases hphase with
  | gaveUp hr =>
    rename_i r m
    have hkept : next e ⟨accepted, starts, sent, stream, closed, some (.ret (.ok (r, m))), fresh, delivered, consumed,
        parsed⟩ .finish = some ⟨accepted, starts, sent, stream, closed, none, fresh, delivered, consumed, parsed⟩ := by
      cases r <;> first | exact absurd rfl hr | rfl
    obtain rfl := Option.some.inj (hkept.symm.trans h)
    exact ⟨done, [], rest, [], .between, hl.1, hl.2, hl.3, hl.4, hl.5, hl.6⟩
  | complete o =>
    obtain rfl := Option.some.inj h
    refine ⟨done ++ [o], [], rest, [], .between, ?_, ?_, hl.3, hl.4, hl.5, hl.6⟩
    · simpa using hl.delivered
    · simpa using hl.accepted
  | header => exact absurd h (by simp [next, connectorReadMessageGeneric_eq])
  | body o => exact absurd h (by simp [next, readBody_opened])
  | data o => exact absurd h (by simp [next, readPayload])
  | between => exact absurd h (by simp [next])
  | crashed o => exact absurd h (by simp [next])

theorem inv_next {e : Ends} {s s' : State} {a : Label} (hw : Whole s a) (hi : Inv e s)
    (h : next e s a = some s') : Inv e s' := by
  cases a with
  | send o block result => exact inv_send hw hi h
  | close =>
    obtain rfl := Option.some.inj h
    obtain ⟨done, cur, rest, remaining, hphase, hl⟩ := hi
    exact ⟨done, cur, rest, remaining, hphase, hl.1, hl.2, hl.3, hl.4, hl.5, hl.6⟩
  | call => exact inv_call hi h
  | allocate block => exact inv_allocate hi h
  | recvFailed => exact inv_recvFailed hw hi h
  | recv n => exact inv_recv hw hi h
  | finish => exact inv_finish hi h

theorem inv_start (e : Ends) : Inv e .start := by
  refine ⟨[], [], [], [], .between, rfl, rfl, rfl, rfl, ?_, ?_⟩
  · intro before p after hsplit
    simp at hsplit
  · intro k hk
    exact absurd hk (List.not_mem_nil)

/-- **Framing holds when no transfer is cut.** In every run whose transfers are whole, in every state
of it, the messages delivered are the first ones accepted, with their identifiers, descriptions and
payloads, and every header was parsed at the beginning of a frame. -/
theorem delivered_of_whole_transfers (e : Ends) {s : State} (h : ((system e).guarded Whole).Reachable s) :
    InStep s := by
  have hinv : Inv e s := by
    refine h.guarded_invariant ?_ fun s a s' hi hw hstep => inv_next hw hi hstep
    rintro s rfl
    exact inv_start e
  exact hinv.inStep

/-- The run of `cutRun` with the payload arriving whole. -/
def wholeRun : List Label :=
  [.send ⟨0, connectorInternalHandshakeUuid, ⟨[97, 98], by decide⟩, false⟩ (some []) (.accepted 26),
    .call, .recv 24, .allocate (some []), .recv 2, .finish]

theorem whole_payload_delivered :
    ∃ (e : Ends) (s : State), ((system e).guarded Whole).Reachable s ∧ InStep s ∧
      s.delivered.map (·.payload) = [[97, 98]] := by
  let e : Ends := ⟨.little, .little, .zero, .zero, 0⟩
  have hrun : ((StepSystem.runList (StepSystem.gate Whole (next e)) .start wholeRun).map fun s =>
      s.delivered.map (·.payload)) = some [[97, 98]] := by
    decide +kernel
  obtain ⟨s, hs, hpay⟩ := Option.map_eq_some_iff.mp hrun
  have hreach : ((system e).guarded Whole).Reachable s := StepSystem.guarded_reachable_runList (.init rfl) hs
  exact ⟨e, s, hreach, delivered_of_whole_transfers e hreach, hpay⟩

end SubstanceConnector.Framing
