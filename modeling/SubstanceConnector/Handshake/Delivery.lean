import SubstanceConnector.Handshake.Exchange

/-!
# From one user to the other

Two instances joined by one connection, as in the exchange of the handshakes. A message that a user writes goes through the
outbound queue, a write thread, the connection, a read thread and the inbound queue to a dispatch thread, which notifies the
user at the other end. The copies of one message in all of these places are counted (`Account`): each step of either instance
moves a copy by one place, and only a user makes one. So whatever the order of the steps, what a user has written is
notified once at the other end when nothing is under way any more (`messages_delivered`).
-/

namespace SubstanceConnector.Exchange

open ThreadPool ContextSystem
open BuildConfig (firstThread)

/-- What a user writes: an identifier and a text. -/
structure Parcel where
  type : Uuid
  text : CString
  deriving DecidableEq

/-- A frame of the connection carries it. -/
def Parcel.isIn (q : Parcel) (m : ConnectorMessage) : Bool :=
  decide (m.header.messageId = q.type) && (!connectorIdentifyInternal m.header.description) && decide (m.text = some q.text)

/-- A message of context `c` carries it. -/
def Parcel.isOn (q : Parcel) (c : UInt32) (m : Tagged ConnectorMessage) : Bool :=
  decide (m.item.context = c) && q.isIn m.item

/-- A dispatch thread will put a message that carries it on the outbound queue. -/
def Parcel.isAnswer (q : Parcel) (c : UInt32) : Tagged Action → Bool
  | ⟨.enqueueOutbound m, origin⟩ => q.isOn c ⟨m, origin⟩
  | _ => false

/-- A dispatch thread will notify the user of it. -/
def Parcel.isNotice (q : Parcel) (c : UInt32) : Tagged Action → Bool
  | ⟨.notifyTrampolines context type message, _⟩ => decide (context = c ∧ type = q.type ∧ message = some q.text)
  | _ => false

/-- The user has been notified of it. -/
def Parcel.isNotified (q : Parcel) (c : UInt32) : Event → Bool
  | .notified context type message => decide (context = c ∧ type = q.type ∧ message = some q.text)
  | _ => false

section tallies
variable {cfg : BuildConfig} (q : Parcel) (c : UInt32) (x : Instance cfg)

/-- Copies on their way to the connection. -/
def departing : Nat :=
  total (fun actions => actions.countP (q.isAnswer c)) x.dispatchers + x.outbound.countP (q.isOn c) +
    total (fun held => held.toList.countP (q.isOn c)) x.writers

/-- Copies on their way to the user. -/
def incoming : Nat :=
  total (fun reader => reader.reading.toList.countP (q.isOn c)) x.readers + x.inbound.countP (q.isOn c) +
    total (fun actions => actions.countP (q.isNotice c)) x.dispatchers

def delivered : Nat := x.log.countP (q.isNotified c)

/-- One end of the connection, whose user has written the message `posted` times and which has received the frames `got`. -/
structure Account (posted : Nat) (got : List ConnectorMessage) : Prop where
  left : posted = departing q c x + (frames c x.log).countP q.isIn
  arrived : got.countP q.isIn = incoming q c x + delivered q c x

end tallies

/-! ## Messages and parcels -/

section parcels
variable {q : Parcel} {c : UInt32}

/-- Of what the library builds, a message that carries a parcel is not internal and has its identifier and its text. -/
theorem Parcel.isIn_message (o : Outgoing) :
    q.isIn o.message = (decide (o.type = q.type) && !o.internal && decide (o.text = q.text)) := by
  have htext : o.message.text = some o.text := by
    unfold Outgoing.message
    dsimp only
    split
    · exact congrArg some o.text.ofBuffer_buffer
    · exact congrArg some o.text.ofBuffer_buffer
  rw [Parcel.isIn, htext, Outgoing.header_message, Outgoing.identifyInternal_description]
  simp

/-- A handshake carries no parcel. -/
theorem Parcel.isIn_handshake (hq : q.type ≠ connectorInternalHandshakeUuid) {allocated : Bool} {context : UInt32}
    {message : Option CString} {m : ConnectorMessage}
    (h : connectorBuildMessage allocated context (some connectorInternalHandshakeUuid) message = some m) :
    q.isIn m = false := by
  obtain ⟨t, text, -, ht, -, rfl⟩ := Outgoing.connectorBuildMessage_eq_some.mp h
  obtain rfl := Option.some.inj ht
  rw [Parcel.isIn_message, decide_eq_false (Ne.symm hq)]
  rfl

theorem Parcel.isIn_handshakeWritten {cfg : BuildConfig} {name : CString} {o : HandshakeOutcome} {t : ContextTable}
    {context : UInt32} {m : ConnectorMessage} (h : handshakeWritten cfg name o t context = some m) : q.isIn m = false := by
  unfold handshakeWritten at h
  split at h
  · obtain ⟨built, hbuilt, rfl⟩ := Option.map_eq_some_iff.mp h
    obtain ⟨t, text, -, -, -, rfl⟩ := Outgoing.connectorBuildMessage_eq_some.mp hbuilt
    rw [Outgoing.markInternal_message, Parcel.isIn_message]
    simp
  · cases h

/-- What becomes of a message a dispatch thread takes: the user is notified of a parcel, and none is written. -/
theorem Parcel.dispatch_counts (hq : q.type ≠ connectorInternalHandshakeUuid) (name : CString)
    {m : Tagged ConnectorMessage} (hm : m.item.context = c) :
    let actions := (dispatchMessage (some name) ⟨true, true⟩ m.item).map fun a => (⟨a, m.origin⟩ : Tagged Action)
    actions.countP (q.isAnswer c) = 0 ∧ actions.countP (q.isNotice c) = if q.isOn c m then 1 else 0 := by
  intro actions
  by_cases hinternal : connectorIdentifyInternal m.item.header.description = true
  · have hnone : q.isOn c m = false := by
      simp [Parcel.isOn, Parcel.isIn, hinternal]
    have hacts : ∀ a ∈ actions, q.isAnswer c a = false ∧ q.isNotice c a = false := by
      intro a ha
      obtain ⟨action, haction, rfl⟩ := List.mem_map.mp ha
      have hsilent := ne_notify_of_internal hinternal haction
      cases action with
      | enqueueOutbound reply =>
        rw [dispatchMessage, if_pos hinternal, connectorCallInternalMessage, findCallback_eq] at haction
        split at haction
        · rcases List.mem_append.mp haction with hreply | hname
          · obtain ⟨built, hbuilt, hsame⟩ := List.mem_map.mp hreply
            cases hsame
            refine ⟨?_, rfl⟩
            rw [Parcel.isAnswer, Parcel.isOn, Parcel.isIn_handshake hq (Option.mem_toList.mp hbuilt), Bool.and_false]
          · split at hname
            · cases hname
            · obtain ⟨text, -, hsame⟩ := List.mem_map.mp hname
              cases hsame
        · cases haction
      | setApplicationName context text => exact ⟨rfl, rfl⟩
      | notifyTrampolines context type message => exact absurd rfl (hsilent context type message)
    rw [hnone]
    refine ⟨?_, ?_⟩
    · exact List.countP_eq_zero.mpr fun a ha => by simp [(hacts a ha).1]
    · exact List.countP_eq_zero.mpr fun a ha => by simp [(hacts a ha).2]
  · have hactions : actions = [⟨.notifyTrampolines c m.item.header.messageId m.item.text, m.origin⟩] := by
      show (dispatchMessage _ _ m.item).map _ = _
      rw [dispatchMessage, if_neg hinternal, hm]
      rfl
    rw [Bool.not_eq_true] at hinternal
    rw [hactions]
    refine ⟨rfl, ?_⟩
    rw [List.countP_singleton]
    congr 1
    simp only [Parcel.isNotice, Parcel.isOn, Parcel.isIn, hm, hinternal, eq_iff_iff]
    simp

end parcels

/-! ## One step at a time -/

section steps
variable {cfg : BuildConfig} {q : Parcel} {c : UInt32} {name peer : CString} {posted : Nat} {got received : List ConnectorMessage}
  {x x' : Instance cfg}

theorem countP_wrote (k : Option Nat) (ms : List ConnectorMessage) :
    (ms.map fun m => Event.wrote k ⟨m, k⟩).countP (q.isNotified c) = 0 := by
  rw [List.countP_eq_zero]
  intro e he
  obtain ⟨m, -, rfl⟩ := List.mem_map.mp he
  exact Bool.false_ne_true

theorem account_acquire {i : Fin cfg.inboundCount} {o : HandshakeOutcome} (hs : Account q c x posted got)
    (h : x.acquire i o = some x') : Account q c x' posted got := by
  obtain ⟨r, context, written, -, -, hwritten, rfl⟩ := Instance.acquire_eq_some h
  have hframes : (frames c (written.toList.map fun m => .wrote (x.current context) ⟨m, x.current context⟩)).countP q.isIn =
      0 := by
    rw [List.countP_eq_zero]
    intro m hm
    obtain ⟨e, he, hframe⟩ := List.mem_filterMap.mp hm
    obtain ⟨m', hm', rfl⟩ := List.mem_map.mp he
    obtain ⟨-, hsame⟩ := Option.ite_none_right_eq_some.mp hframe
    obtain rfl := Option.some.inj hsame
    rw [Option.mem_toList, hwritten] at hm'
    split at hm'
    · cases hm'
    · rw [Parcel.isIn_handshakeWritten hm']
      exact Bool.false_ne_true
  have hreading := total_update (fun reader : Reader => reader.reading.toList.countP (q.isOn c)) x.readers i
    ⟨r.2.1, (x.readers i).reading⟩
  refine ⟨?_, ?_⟩
  · have hleft := hs.left
    rw [frames_append, List.countP_append, hframes]
    exact hleft
  · have harrived := hs.arrived
    unfold incoming delivered at *
    dsimp only at hreading ⊢
    rw [List.countP_append, countP_wrote]
    omega

theorem account_read {i : Fin cfg.inboundCount} {k : Nat} {m : ConnectorMessage} (hs : Account q c x posted got)
    (hcontext : (x.readers i).data.contextIds.getD k 0 = c) (h : x.read i k m = some x') :
    Account q c x' posted (got ++ [m]) := by
  obtain ⟨-, hidle, context, rfl, rfl⟩ := Instance.read_eq_some h
  refine ⟨hs.left, ?_⟩
  have harrived := hs.arrived
  have hreading := total_update (fun reader : Reader => reader.reading.toList.countP (q.isOn c)) x.readers i
    ⟨(x.readers i).data, some ⟨{ m with context := (x.readers i).data.contextIds.getD k 0 },
      x.current ((x.readers i).data.contextIds.getD k 0)⟩⟩
  have hone : q.isOn c ⟨{ m with context := (x.readers i).data.contextIds.getD k 0 },
      x.current ((x.readers i).data.contextIds.getD k 0)⟩ = q.isIn m := by
    rw [Parcel.isOn, decide_eq_true hcontext, Bool.true_and]
    rfl
  rw [hidle] at hreading
  unfold incoming delivered at *
  rw [List.countP_append, List.countP_singleton]
  simp only [Option.toList_some, Option.toList_none, List.countP_singleton, List.countP_nil, hone] at hreading
  dsimp only
  omega

theorem account_enqueueInbound {i : Fin cfg.inboundCount} (hs : Account q c x posted got)
    (h : x.enqueueInbound i = some x') : Account q c x' posted got := by
  obtain ⟨m, hm, rfl⟩ := Option.map_eq_some_iff.mp h
  refine ⟨hs.left, ?_⟩
  have harrived := hs.arrived
  have hreading := total_update (fun reader : Reader => reader.reading.toList.countP (q.isOn c)) x.readers i
    ⟨(x.readers i).data, none⟩
  rw [hm] at hreading
  unfold incoming delivered at *
  simp only [Option.toList_some, Option.toList_none, List.countP_singleton, List.countP_nil] at hreading
  dsimp only
  rw [List.countP_append, List.countP_singleton]
  omega

theorem account_writeMessage (hs : Account q c x posted got) (context : UInt32) (type : Option Uuid)
    (message : Option CString) :
    Account q c (x.writeMessage true context type message)
      (posted + (decide (context = c ∧ type = some q.type ∧ message = some q.text)).toNat) got := by
  refine ⟨?_, hs.arrived⟩
  have hleft := hs.left
  have hone : ((connectorBuildMessage true context type message).toList.map fun m =>
      (⟨m, x.current context⟩ : Tagged ConnectorMessage)).countP (q.isOn c) =
        (decide (context = c ∧ type = some q.type ∧ message = some q.text)).toNat := by
    cases hbuilt : connectorBuildMessage true context type message with
    | none =>
      rw [decide_eq_false]
      · rfl
      · rintro ⟨-, rfl, rfl⟩
        cases hbuilt
    | some m =>
      obtain ⟨t, text, -, rfl, rfl, rfl⟩ := Outgoing.connectorBuildMessage_eq_some.mp hbuilt
      have hon : q.isOn c ⟨Outgoing.message ⟨context, t, text, false⟩, x.current context⟩ =
          decide (context = c ∧ some t = some q.type ∧ some text = some q.text) := by
        rw [Parcel.isOn, Parcel.isIn_message]
        simp [Outgoing.context_message]
      rw [Option.toList_some, List.map_singleton, List.countP_singleton, hon]
      cases decide (context = c ∧ some t = some q.type ∧ some text = some q.text) <;> rfl
  unfold departing at *
  rw [Instance.writeMessage]
  dsimp only
  rw [List.countP_append, hone]
  omega

theorem account_acquireOutbound {j : Fin cfg.outboundCount} {k : Nat} (hs : Account q c x posted got)
    (h : x.acquireOutbound j k = some x') : Account q c x' posted got := by
  obtain ⟨hidle, m, hm, rfl⟩ := Instance.acquireOutbound_eq_some h
  refine ⟨?_, hs.arrived⟩
  have hleft := hs.left
  have htaken := countP_eraseIdx (q.isOn c) hm
  have hheld := total_update (fun held : Option (Tagged ConnectorMessage) => held.toList.countP (q.isOn c)) x.writers j
    (some m)
  rw [hidle] at hheld
  unfold departing at *
  simp only [Option.toList_some, Option.toList_none, List.countP_singleton, List.countP_nil] at hheld
  dsimp only
  omega

theorem account_send {j : Fin cfg.outboundCount} (hs : Account q c x posted got) (hconnected : Connected cfg c x.table)
    (h : x.send j .success = some x') : Account q c x' posted got := by
  obtain ⟨m, hm, rfl⟩ := Option.map_eq_some_iff.mp h
  have hheld := total_update (fun held : Option (Tagged ConnectorMessage) => held.toList.countP (q.isOn c)) x.writers j none
  rw [hm] at hheld
  simp only [Option.toList_some, Option.toList_none, List.countP_singleton, List.countP_nil] at hheld
  have hleft := hs.left
  have harrived := hs.arrived
  by_cases hcontext : m.item.context = c
  · have hsuccess : contextMessageOpGeneric cfg x.table m.item.context (connectorWriteConnection .success) = .success := by
      rw [hcontext]
      exact hconnected.write
    have hframe : frames c [Event.wrote (x.current m.item.context) m] = [m.item] := by
      simp [frames, frameOn, hcontext]
    have hon : q.isOn c m = q.isIn m.item := by
      rw [Parcel.isOn, decide_eq_true hcontext, Bool.true_and]
    rw [hon] at hheld
    refine ⟨?_, ?_⟩
    · unfold departing at *
      dsimp only
      rw [if_pos hsuccess, frames_append, List.countP_append, hframe, List.countP_singleton]
      omega
    · unfold incoming delivered at *
      dsimp only
      rw [if_pos hsuccess, List.countP_append]
      exact harrived
  · have hon : q.isOn c m = false := by
      rw [Parcel.isOn, decide_eq_false hcontext, Bool.false_and]
    rw [hon, if_neg Bool.false_ne_true] at hheld
    refine ⟨?_, ?_⟩
    · unfold departing at *
      dsimp only
      split
      · rw [frames_append, List.countP_append]
        have hframe : frames c [Event.wrote (x.current m.item.context) m] = [] := by
          simp [frames, frameOn, hcontext]
        rw [hframe, List.countP_nil]
        omega
      · omega
    · unfold incoming delivered at *
      dsimp only
      split
      · rw [List.countP_append]
        exact harrived
      · exact harrived

theorem account_acquireInbound (hq : q.type ≠ connectorInternalHandshakeUuid) {j : Fin cfg.dispatchCount} {k : Nat}
    (hs : Account q c x posted got) (hinbound : ∀ m ∈ x.inbound, m.item.context = c)
    (h : x.acquireInbound j k ⟨true, true⟩ = some x') : Account q c x' posted got := by
  obtain ⟨hidle, m, hm, rfl⟩ := Instance.acquireInbound_eq_some h
  obtain ⟨hanswer, hnotice⟩ := q.dispatch_counts hq x.applicationName (hinbound m (List.mem_of_getElem? hm))
  have htaken := countP_eraseIdx (q.isOn c) hm
  have hanswers := total_dispatchers (q.isAnswer c) x j
    ((dispatchMessage (some x.applicationName) ⟨true, true⟩ m.item).map (⟨·, m.origin⟩))
  have hnotices := total_dispatchers (q.isNotice c) x j
    ((dispatchMessage (some x.applicationName) ⟨true, true⟩ m.item).map (⟨·, m.origin⟩))
  rw [hidle, List.countP_nil, hanswer] at hanswers
  rw [hidle, List.countP_nil, hnotice] at hnotices
  have hleft := hs.left
  have harrived := hs.arrived
  refine ⟨?_, ?_⟩
  · unfold departing at *
    dsimp only
    omega
  · unfold incoming delivered at *
    dsimp only
    omega

theorem account_act {j : Fin cfg.dispatchCount} {block : Option Nat} (hs : Account q c x posted got)
    (h : x.act j block = some x') : Account q c x' posted got := by
  obtain ⟨⟨action, origin⟩, rest, hactions, hperform⟩ := Instance.act_eq_some h
  have hanswers := take_action hactions (q.isAnswer c)
  have hnotices := take_action hactions (q.isNotice c)
  have hleft := hs.left
  have harrived := hs.arrived
  cases action with
  | enqueueOutbound m =>
    obtain rfl := Option.some.inj hperform
    have hnew : (x.outbound ++ [(⟨m, origin⟩ : Tagged ConnectorMessage)]).countP (q.isOn c) =
        x.outbound.countP (q.isOn c) + (q.isOn c ⟨m, origin⟩).toNat := by
      rw [List.countP_append, List.countP_singleton]
      cases q.isOn c ⟨m, origin⟩ <;> rfl
    simp only [Parcel.isAnswer, Parcel.isNotice, Bool.toNat_false, Nat.add_zero] at hanswers hnotices
    refine ⟨?_, ?_⟩
    · unfold departing at *
      dsimp only
      omega
    · unfold incoming delivered at *
      dsimp only
      omega
  | setApplicationName context text =>
    obtain ⟨r, -, rfl⟩ := toOption_map_eq_some.mp hperform
    have hframes : frames c (x.log ++ [.named (x.current context) ⟨text, origin⟩]) = frames c x.log := by
      rw [frames_append]
      exact List.append_nil _
    simp only [Parcel.isAnswer, Parcel.isNotice, Bool.toNat_false, Nat.add_zero] at hanswers hnotices
    refine ⟨?_, ?_⟩
    · unfold departing at *
      dsimp only
      rw [hframes, hanswers]
      exact hleft
    · unfold incoming delivered at *
      dsimp only
      rw [List.countP_append, hnotices]
      exact harrived
  | notifyTrampolines context type message =>
    obtain rfl := Option.some.inj hperform
    have hone : [Event.notified context type message].countP (q.isNotified c) =
        (q.isNotice c ⟨.notifyTrampolines context type message, origin⟩).toNat := by
      by_cases hsame : context = c ∧ type = q.type ∧ message = some q.text
      · simp [Parcel.isNotified, Parcel.isNotice, hsame]
      · simp [Parcel.isNotified, Parcel.isNotice, hsame]
    have hframes : frames c (x.log ++ [.notified context type message]) = frames c x.log := by
      rw [frames_append]
      exact List.append_nil _
    simp only [Parcel.isAnswer, Bool.toNat_false, Nat.add_zero] at hanswers
    refine ⟨?_, ?_⟩
    · unfold departing at *
      dsimp only
      rw [hframes, hanswers]
      exact hleft
    · unfold incoming delivered at *
      dsimp only
      rw [List.countP_append, hone]
      omega

end steps

/-! ## Every run -/

section runs
variable {S : Setup} {q : Parcel} {s s' : State S}

/-- The user of a party writes the message for the connection. -/
def Label.posts (q : Parcel) (p : Party) : Label S → Bool
  | .writeMessage r context type _ message =>
    decide (r = p ∧ context = S.context p ∧ type = some q.type ∧ message = some q.text)
  | _ => false

/-- How often the user of a party does so in a run. -/
def posts (q : Parcel) (p : Party) (as : List (Label S)) : Nat := as.countP (Label.posts q p)

/-- Copies between a party and the user of its peer. -/
def State.inTransit (s : State S) (q : Parcel) (p : Party) : Nat :=
  departing q (S.context p) (s.ends p) + (s.wire p).countP q.isIn + incoming q (S.context p.peer) (s.ends p.peer)

/-- How often the user of a party has been notified of it. -/
def State.delivered (s : State S) (q : Parcel) (p : Party) : Nat := Exchange.delivered q (S.context p) (s.ends p)

/-- Both ends, whose users have written the message as often as `posted` says. -/
def Accounts (q : Parcel) (posted : Party → Nat) (s : State S) : Prop :=
  ∀ p, Account q (S.context p) (s.ends p) (posted p) (s.got p)

/-- One end changes. -/
theorem Accounts.setEnd {posted posted' : Party → Nat} (hs : Accounts q posted s) {p : Party} {x : Instance (S.cfg p)}
    (hsame : ∀ r, r ≠ p → posted' r = posted r) (hx : Account q (S.context p) x (posted' p) (s.got p)) :
    Accounts q posted' (s.setEnd p x) := by
  refine (Function.forall_update_iff s.ends fun r y => Account q (S.context r) y (posted' r) (s.got r)).mpr
    ⟨hx, fun r hr => ?_⟩
  rw [hsame r hr]
  exact hs r

theorem accounts_receive {posted : Party → Nat} {p : Party} {i : Fin (S.cfg p).inboundCount} {k : Nat}
    (hs : Accounts q posted s) (h : s.receive p i k = some s') : Accounts q posted s' := by
  unfold State.receive at h
  split at h
  · rename_i hcontext
    obtain ⟨m, -, h⟩ := Option.bind_eq_some_iff.mp h
    obtain ⟨x, hx, rfl⟩ := Option.map_eq_some_iff.mp h
    have hside := account_read (hs p) hcontext hx
    intro r
    by_cases hr : r = p
    · subst hr
      simp only [State.setEnd, Function.update_self]
      exact hside
    · simp only [State.setEnd, Function.update_of_ne hr]
      exact hs r
  · cases h

/-- A step adds a copy if a user writes one, and none otherwise. -/
theorem accounts_next (hq : q.type ≠ connectorInternalHandshakeUuid) {posted : Party → Nat} {a : Label S} (hinv : Inv s)
    (hs : Accounts q posted s) (h : next s a = some s') : Accounts q (fun p => posted p + (a.posts q p).toNat) s' := by
  cases a with
  | acquire p i =>
    obtain ⟨x, hx, rfl⟩ := Option.map_eq_some_iff.mp h
    exact hs.setEnd (fun _ _ => rfl) (account_acquire (hs p) hx)
  | receive p i k => exact accounts_receive hs h
  | enqueueInbound p i =>
    obtain ⟨x, hx, rfl⟩ := Option.map_eq_some_iff.mp h
    exact hs.setEnd (fun _ _ => rfl) (account_enqueueInbound (hs p) hx)
  | writeMessage p context type htype message =>
    obtain rfl := Option.some.inj h
    refine hs.setEnd (fun r hr => ?_) ?_
    · simp [Label.posts, Ne.symm hr]
    · have hside := account_writeMessage (hs p) context type message
      simp only [Label.posts, true_and]
      exact hside
  | acquireOutbound p j k =>
    obtain ⟨x, hx, rfl⟩ := Option.map_eq_some_iff.mp h
    exact hs.setEnd (fun _ _ => rfl) (account_acquireOutbound (hs p) hx)
  | send p j =>
    obtain ⟨x, hx, rfl⟩ := Option.map_eq_some_iff.mp h
    exact hs.setEnd (fun _ _ => rfl) (account_send (hs p) (hinv.side p).connected hx)
  | acquireInbound p j k =>
    obtain ⟨x, hx, rfl⟩ := Option.map_eq_some_iff.mp h
    exact hs.setEnd (fun _ _ => rfl)
      (account_acquireInbound hq (hs p) (fun m hm => ((hinv.side p).inbound m hm).1) hx)
  | act p j block =>
    obtain ⟨x, hx, rfl⟩ := Option.map_eq_some_iff.mp h
    exact hs.setEnd (fun _ _ => rfl) (account_act (hs p) hx)

theorem accounts_run (hq : q.type ≠ connectorInternalHandshakeUuid) {as : List (Label S)} {posted : Party → Nat}
    (hinv : Inv s) (hs : Accounts q posted s) (h : StepSystem.runList next s as = some s') :
    Inv s' ∧ Accounts q (fun p => posted p + posts q p as) s' := by
  induction as generalizing s posted with
  | nil =>
    obtain rfl := Option.some.inj h
    exact ⟨hinv, hs⟩
  | cons a as ih =>
    obtain ⟨t, ht, hrest⟩ := Option.bind_eq_some_iff.mp h
    obtain ⟨hinv', hend⟩ := ih (inv_next hinv ht) (accounts_next hq hinv hs ht) hrest
    refine ⟨hinv', fun p => ?_⟩
    have hcount : posts q p (a :: as) = (a.posts q p).toNat + posts q p as := by
      rw [posts, posts, List.countP_cons]
      cases a.posts q p with
      | true => exact Nat.add_comm _ _
      | false => exact (Nat.zero_add _).symm
    dsimp only
    rw [hcount, ← Nat.add_assoc]
    exact hend p

theorem Settled.departing_eq {cfg : BuildConfig} {x : Instance cfg} (h : Settled x) (c : UInt32) : departing q c x = 0 := by
  rw [departing, h.outbound, total_eq_zero fun j => by rw [h.dispatchers j]; rfl,
    total_eq_zero fun j => by rw [h.writers j]; rfl]
  rfl

theorem Settled.incoming_eq {cfg : BuildConfig} {x : Instance cfg} (h : Settled x) (c : UInt32) : incoming q c x = 0 := by
  rw [incoming, h.inbound, total_eq_zero fun i => by rw [h.reading i]; rfl,
    total_eq_zero fun j => by rw [h.dispatchers j]; rfl]
  rfl

theorem Joined.account {cfg : BuildConfig} {c : UInt32} {name : CString} {x : Instance cfg} (h : Joined c name x) :
    Account q c x 0 [] := by
  refine ⟨?_, ?_⟩
  · rw [h.settled.departing_eq, h.log]
    rfl
  · rw [h.settled.incoming_eq, delivered, h.log]
    rfl

/-- What has been sent and not been received is on the wire. -/
theorem Inv.count_wire (hs : Inv s) (p : Party) :
    (s.sent p).countP q.isIn = (s.got p.peer).countP q.isIn + (s.wire p).countP q.isIn := by
  obtain ⟨rest, hrest⟩ := hs.got p.peer
  rw [Party.peer_peer] at hrest
  rw [State.wire, ← hrest, List.drop_left, List.countP_append]

/-- **No message is lost or duplicated.** In every run, what the user of a party has written for the connection has been
notified to the user of the peer or is still in transit, and nothing is in transit once the wire is empty and neither
end has anything queued or with a thread. -/
theorem messages_delivered {s₀ s : State S} {as : List (Label S)} (hstart : Starts S s₀)
    (hrun : StepSystem.runList next s₀ as = some s) (hq : q.type ≠ connectorInternalHandshakeUuid) (p : Party) :
    posts q p as = s.inTransit q p + s.delivered q p.peer ∧
      (s.Quiet p → Settled (s.ends p.peer) → s.delivered q p.peer = posts q p as) := by
  have hzero : Accounts q (fun _ => 0) s₀ := by
    intro r
    rw [hstart.2 r]
    exact (hstart.1 r).account
  obtain ⟨hinv, haccounts⟩ := accounts_run hq (inv_starts hstart) hzero hrun
  have hleft : 0 + posts q p as = _ := (haccounts p).left
  have harrived := (haccounts p.peer).arrived
  have hwire := hinv.count_wire (q := q) p
  have hall : posts q p as = s.inTransit q p + s.delivered q p.peer := by
    unfold State.inTransit State.delivered
    unfold State.sent at hwire
    omega
  refine ⟨hall, fun hquiet hsettled => ?_⟩
  have hnone : s.inTransit q p = 0 := by
    rw [State.inTransit, hquiet.1.departing_eq, hquiet.2, hsettled.incoming_eq]
    rfl
  omega

end runs

/-! ## One message -/

/-- The parties exchange their handshakes, and party `a` writes a message twice. -/
theorem letter_nulFree : (0 : UInt8) ∉ [104, 105] := by decide

def letter : Parcel := ⟨.ofWords 1 2 3 4, ⟨[104, 105], letter_nulFree⟩⟩

def letterRun : List (Label pair) :=
  [.acquire .a firstThread, .acquire .b firstThread,
    .writeMessage .a 0 (some letter.type) (by decide) (some letter.text),
    .writeMessage .a 0 (some letter.type) (by decide) (some letter.text)] ++
    reply .a ++ reply .a ++ deliver .b 1 2 ++ reply .b ++ deliver .b 1 1 ++ deliver .b 1 1 ++ deliver .a 0 2 ++ reply .a ++
    deliver .a 0 1 ++ deliver .b 1 1

theorem letter_delivered_twice :
    ∃ s, StepSystem.runList next pairStart letterRun = some s ∧ s.delivered letter .b = 2 := by
  have hrun : (StepSystem.runList next pairStart letterRun).map (fun s => decide (s.Quiet .a ∧ s.Quiet .b)) = some true := by
    decide +kernel
  obtain ⟨s, hs, hend⟩ := Option.map_eq_some_iff.mp hrun
  obtain ⟨ha, hb⟩ := of_decide_eq_true hend
  refine ⟨s, hs, ?_⟩
  have hdelivered := (messages_delivered (q := letter) starts_pairStart hs (by decide) .a).2 ha hb.1
  exact hdelivered.trans (by decide)

end SubstanceConnector.Exchange
