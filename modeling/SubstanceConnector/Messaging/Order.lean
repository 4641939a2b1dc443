import SubstanceConnector.Handshake.Exchange

/-!
# The order of the messages of one connection

A sender and a receiver joined by a connection that stays, and that delivers the frames written to it in
order. Both queues are first in, first out, and one read thread reads the connection. Either queue is drained
by several threads, which act on a message after they have left the queue: one of two write threads may write
the later of two messages first, and one of two dispatch threads may notify of it first (`order_reversed`).

The order is kept in the runs in which no write thread takes a message of the connection from the queue while
another one still holds one, and no dispatch thread while another one has yet to notify of one
(`notified_in_order`), which a build with one thread of each kind never does.
-/

namespace SubstanceConnector.WriteOrder

open ThreadPool

/-- What the trampolines are called with. -/
structure Item where
  type : Uuid
  text : Option CString
  deriving DecidableEq

/-- What the receiver will notify of; internal messages are answered and not passed on. -/
def content (m : ConnectorMessage) : Option Item :=
  if connectorIdentifyInternal m.header.description then none else some ⟨m.header.messageId, m.text⟩

def contentOn (c : UInt32) (m : Tagged ConnectorMessage) : Option Item :=
  if m.item.context = c then content m.item else none

/-- The notifications on a context a dispatch thread has still to make. -/
def noticeOn (c : UInt32) (a : Tagged Action) : Option Item :=
  match a.item with
  | .notifyTrampolines context type message => if context = c then some ⟨type, message⟩ else none
  | _ => none

def notifiedOn (c : UInt32) : Event → Option Item
  | .notified context type message => if context = c then some ⟨type, message⟩ else none
  | _ => none

/-! ## The sender and the receiver -/

/-- The builds of the two instances, the context the connection has at each end, and the read thread the
receiver's context is assigned to. -/
structure Link where
  senderBuild : BuildConfig
  receiverBuild : BuildConfig
  senderContext : UInt32
  receiverContext : UInt32
  reader : Fin receiverBuild.inboundCount

/-- The instances and the frames under way. `written` is what was put on the sender's queue for the
connection, `notified` what the receiver's trampolines were called with for it. -/
structure State (L : Link) where
  sender : Instance L.senderBuild
  receiver : Instance L.receiverBuild
  wire : List ConnectorMessage
  written : List Item
  notified : List Item

inductive Label (L : Link) where
  | sender (a : Instance.Label L.senderBuild)
  | receiver (a : Instance.Label L.receiverBuild)
  -- the read thread reads the next frame, the context being its `k`-th one
  | receive (k : Nat)

section steps
variable {cfg : BuildConfig}

/-- A thread takes the message at the front of a queue. -/
def fromFront : Instance.Label cfg → Bool
  | .acquireOutbound _ k => k == 0
  | .acquireInbound _ k _ => k == 0
  | _ => true

/-- A message is read on the context. -/
def readsOn (c : UInt32) (x : Instance cfg) : Instance.Label cfg → Bool
  | .read i k _ => (x.readers i).data.contextIds.getD k 0 == c
  | _ => false

def replyOf (a : Tagged Action) : Option ConnectorMessage :=
  match a.item with
  | .enqueueOutbound m => some m
  | _ => none

/-- The messages a step puts on the outbound queue. -/
def enqueued (x : Instance cfg) : Instance.Label cfg → List ConnectorMessage
  | .writeMessage built context type message => (connectorBuildMessage built context type message).toList
  | .act j _ => ((x.dispatchers j).head?.bind replyOf).toList
  | _ => []

end steps

variable {L : Link}

/-- A step of the sender after which the context still denotes the connection. -/
def stepSender (s : State L) (a : Instance.Label L.senderBuild) : Option (State L) :=
  if fromFront a then
    (s.sender.next a).bind fun x =>
      if x.current L.senderContext = s.sender.current L.senderContext then
        some { s with
          sender := x
          wire := s.wire ++ Exchange.frames L.senderContext (x.log.drop s.sender.log.length)
          written := s.written ++ (enqueued s.sender a).filterMap fun m => contentOn L.senderContext ⟨m, none⟩ }
      else none
  else none

def stepReceiver (s : State L) (a : Instance.Label L.receiverBuild) : Option (State L) :=
  if fromFront a ∧ ¬readsOn L.receiverContext s.receiver a then
    (s.receiver.next a).bind fun x =>
      if x.current L.receiverContext = s.receiver.current L.receiverContext then
        some { s with
          receiver := x
          notified := s.notified ++ (x.log.drop s.receiver.log.length).filterMap (notifiedOn L.receiverContext) }
      else none
  else none

def receive (s : State L) (k : Nat) : Option (State L) :=
  if (s.receiver.readers L.reader).data.contextIds.getD k 0 = L.receiverContext then
    s.wire.head?.bind fun m =>
      (s.receiver.read L.reader k m).map fun x => { s with receiver := x, wire := s.wire.tail }
  else none

def next (s : State L) : Label L → Option (State L)
  | .sender a => stepSender s a
  | .receiver a => stepReceiver s a
  | .receive k => receive s k

/-- The connection is there at both ends, and no message has been written to it. -/
structure Starts (L : Link) (s : State L) : Prop where
  sender : (s.sender.current L.senderContext).isSome
  receiver : (s.receiver.current L.receiverContext).isSome
  outbound : s.sender.outbound.filterMap (contentOn L.senderContext) = []
  writers : ∀ j, (s.sender.writers j).toList.filterMap (contentOn L.senderContext) = []
  reading : ∀ i, (s.receiver.readers i).reading.toList.filterMap (contentOn L.receiverContext) = []
  inbound : s.receiver.inbound.filterMap (contentOn L.receiverContext) = []
  dispatchers : ∀ j, (s.receiver.dispatchers j).filterMap (noticeOn L.receiverContext) = []
  wire : s.wire = []
  written : s.written = []
  notified : s.notified = []

def system (L : Link) : StepSystem (State L) (Label L) := .ofNext (Starts L) next

/-- The notifications started so far are of some of the messages written, in the order they were written. -/
def InOrder (s : State L) : Prop := s.notified.Sublist s.written

/-- A message of the connection is taken from a queue only when no other thread is at work on one. -/
def OneAtATime (s : State L) : Label L → Prop
  | .sender (.acquireOutbound _ _) => s.sender.outbound.head?.bind (contentOn L.senderContext) ≠ none →
      ∀ j, (s.sender.writers j).toList.filterMap (contentOn L.senderContext) = []
  | .receiver (.acquireInbound _ _ _) => s.receiver.inbound.head?.bind (contentOn L.receiverContext) ≠ none →
      ∀ j, (s.receiver.dispatchers j).filterMap (noticeOn L.receiverContext) = []
  | _ => True

/-! ## What a step adds to the log -/

section lists
variable {α β : Type}

theorem drop_same {xs ys : List α} (h : ys = xs) : ys.drop xs.length = [] := by
  rw [h, List.drop_length]

theorem drop_added {xs ys zs : List α} (h : ys = xs ++ zs) : ys.drop xs.length = zs := by
  rw [h, List.drop_left]

theorem filterMap_toList (f : α → Option β) (o : Option α) : o.toList.filterMap f = (o.bind f).toList := by
  cases o with
  | none => rfl
  | some x =>
    rw [Option.bind_some, Option.toList_some, List.filterMap_cons, List.filterMap_nil]
    cases f x <;> rfl

theorem filterMap_head (f : α → Option β) {x : α} {xs : List α} :
    (x :: xs).filterMap f = (f x).toList ++ xs.filterMap f := by
  rw [List.filterMap_cons]
  cases f x <;> rfl

end lists

theorem content_markInternal {built : Bool} {context : UInt32} {type : Uuid} {text : CString} {m : ConnectorMessage}
    (h : (connectorBuildMessage built context (some type) (some text)).map ConnectorMessage.markInternal = some m) :
    content m = none := by
  obtain ⟨m', hm', rfl⟩ := Option.map_eq_some_iff.mp h
  obtain ⟨t, text', -, -, -, rfl⟩ := Outgoing.connectorBuildMessage_eq_some.mp hm'
  rw [Outgoing.markInternal_message, content, Outgoing.header_message, Outgoing.identifyInternal_description]
  rfl

/-- A handshake that is written is internal. -/
theorem content_handshakeWritten {cfg : BuildConfig} {name : CString} {o : HandshakeOutcome} {t : ContextTable}
    {context : UInt32} {m : ConnectorMessage} (h : handshakeWritten cfg name o t context = some m) : content m = none := by
  unfold handshakeWritten at h
  split at h
  · exact content_markInternal h
  · cases h

/-- Dispatching a message notifies of its content. -/
theorem noticeOn_dispatchMessage (c : UInt32) (name : Option CString) (o : CallbackOutcome) (m : Tagged ConnectorMessage) :
    ((dispatchMessage name o m.item).map (⟨·, m.origin⟩)).filterMap (noticeOn c) = (contentOn c m).toList := by
  by_cases hinternal : connectorIdentifyInternal m.item.header.description = true
  · rw [contentOn, content, if_pos hinternal, ite_self]
    refine List.filterMap_eq_nil_iff.mpr fun a ha => ?_
    obtain ⟨action, haction, rfl⟩ := List.mem_map.mp ha
    have hne := ne_notify_of_internal hinternal haction
    cases action with
    | notifyTrampolines context type message => exact absurd rfl (hne context type message)
    | _ => rfl
  · rw [dispatchMessage, if_neg hinternal, contentOn, content, if_neg hinternal]
    split
    · rename_i hcontext
      exact filterMap_toList _ (some _) |>.trans (by simp [noticeOn, hcontext])
    · rename_i hcontext
      exact filterMap_toList _ (some _) |>.trans (by simp [noticeOn, hcontext])

/-! ## The way out of the sender -/

section outgoing
variable {cfg : BuildConfig} {c : UInt32} {x x' : Instance cfg} {l : List Item}

def heldOn (c : UInt32) (held : Option (Tagged ConnectorMessage)) : List Item := held.toList.filterMap (contentOn c)

/-- What is with a write thread or on the queue, in the order it was put there. -/
def Outgoing (c : UInt32) (x : Instance cfg) (l : List Item) : Prop :=
  ∃ held, Gathers (fun j => heldOn c (x.writers j)) held ∧ l = held ++ x.outbound.filterMap (contentOn c)

/-- The content of the frames put on the connection. -/
def sentOn (c : UInt32) (es : List Event) : List Item := (Exchange.frames c es).filterMap content

theorem heldOn_some (m : Tagged ConnectorMessage) : heldOn c (some m) = (contentOn c m).toList := by
  rw [heldOn, filterMap_toList, Option.bind_some]

theorem sentOn_wrote (connection : Option Nat) (m : Tagged ConnectorMessage) :
    sentOn c [.wrote connection m] = heldOn c (some m) := by
  rw [heldOn_some]
  by_cases hcontext : m.item.context = c
  · simp [sentOn, Exchange.frames, Exchange.frameOn, contentOn, hcontext, filterMap_head]
  · simp [sentOn, Exchange.frames, Exchange.frameOn, contentOn, hcontext]

theorem Outgoing.of_eq (h : Outgoing c x l) (hwriters : x'.writers = x.writers) (houtbound : x'.outbound = x.outbound) :
    Outgoing c x' l := by
  unfold Outgoing
  rw [hwriters, houtbound]
  exact h

/-- A step that neither sends nor takes anything to be sent. -/
theorem outgoing_same (es : List Event) (h : Outgoing c x l) (hwriters : x'.writers = x.writers)
    (houtbound : x'.outbound = x.outbound) (hlog : x'.log = x.log ++ es) (hsent : sentOn c es = []) :
    ∃ l', Outgoing c x' l' ∧ (sentOn c (x'.log.drop x.log.length) ++ l').Sublist (l ++ []) := by
  rw [drop_added hlog, hsent, List.append_nil]
  exact ⟨l, h.of_eq hwriters houtbound, List.Sublist.refl l⟩

/-- Messages are put on the queue. -/
theorem outgoing_enqueued (ms : List (Tagged ConnectorMessage)) (h : Outgoing c x l) (hwriters : x'.writers = x.writers)
    (houtbound : x'.outbound = x.outbound ++ ms) (hlog : x'.log = x.log) :
    ∃ l', Outgoing c x' l' ∧ (sentOn c (x'.log.drop x.log.length) ++ l').Sublist (l ++ ms.filterMap (contentOn c)) := by
  obtain ⟨held, hheld, rfl⟩ := h
  rw [drop_same hlog]
  refine ⟨held ++ x'.outbound.filterMap (contentOn c), ⟨held, ?_, rfl⟩, ?_⟩
  · rw [hwriters]
    exact hheld
  · rw [houtbound, List.filterMap_append, List.append_assoc]
    exact List.Sublist.refl _

theorem outgoing_acquire {i : Fin cfg.inboundCount} {o : HandshakeOutcome} (h : Outgoing c x l)
    (hstep : x.acquire i o = some x') :
    ∃ l', Outgoing c x' l' ∧ (sentOn c (x'.log.drop x.log.length) ++ l').Sublist (l ++ []) := by
  obtain ⟨r, context, written, -, -, hhandshake, rfl⟩ := Instance.acquire_eq_some hstep
  refine outgoing_same _ h rfl rfl rfl (List.filterMap_eq_nil_iff.mpr fun m hm => ?_)
  obtain ⟨e, he, hframe⟩ := List.mem_filterMap.mp hm
  obtain ⟨frame, hwritten, rfl⟩ := List.mem_map.mp he
  have hnone : content frame = none := by
    rw [hhandshake] at hwritten
    split at hwritten
    · cases hwritten
    · exact content_handshakeWritten (Option.mem_toList.mp hwritten)
  dsimp only [Exchange.frameOn] at hframe
  split at hframe
  · rw [← Option.some.inj hframe]
    exact hnone
  · cases hframe

theorem outgoing_acquireOutbound {j : Fin cfg.outboundCount} {k : Nat} (h : Outgoing c x l) (hk : k = 0)
    (hone : x.outbound.head?.bind (contentOn c) ≠ none → ∀ j, heldOn c (x.writers j) = [])
    (hstep : x.acquireOutbound j k = some x') :
    ∃ l', Outgoing c x' l' ∧ (sentOn c (x'.log.drop x.log.length) ++ l').Sublist (l ++ []) := by
  subst hk
  obtain ⟨hidle, m, hm, rfl⟩ := Instance.acquireOutbound_eq_some hstep
  obtain ⟨held, hheld, rfl⟩ := h
  obtain ⟨rest, hrest⟩ : ∃ rest, x.outbound = m :: rest := by
    rw [← List.head?_eq_getElem?] at hm
    exact List.head?_eq_some_iff.mp hm
  have htaken := hheld.take (i := j) (b := heldOn c (some m)) (by simp [heldOn, hidle]) fun hne => by
    refine hone ?_
    rw [hrest, List.head?_cons, Option.bind_some]
    intro hnone
    simp [heldOn, hnone] at hne
  have hpool : (fun k => heldOn c (Function.update x.writers j (some m) k)) =
      Function.update (fun k => heldOn c (x.writers k)) j (heldOn c (some m)) :=
    Function.comp_update (heldOn c) x.writers j (some m)
  refine ⟨_, ⟨held ++ heldOn c (some m), ?_, rfl⟩, ?_⟩
  · rw [hpool]
    exact htaken
  · dsimp only
    rw [drop_same rfl, hrest, filterMap_head, heldOn_some, List.append_nil, List.append_assoc]
    exact List.Sublist.refl _

theorem outgoing_send {j : Fin cfg.outboundCount} {written : Retcode} (h : Outgoing c x l)
    (hstep : x.send j written = some x') :
    ∃ l', Outgoing c x' l' ∧ (sentOn c (x'.log.drop x.log.length) ++ l').Sublist (l ++ []) := by
  obtain ⟨m, hm, rfl⟩ := Option.map_eq_some_iff.mp hstep
  obtain ⟨held, hheld, rfl⟩ := h
  obtain ⟨rest, hsplit, hgiven⟩ := hheld.give (i := j) (a := heldOn c (some m)) (b := []) (by
    rw [hm, List.append_nil])
  have hpool : (fun k => heldOn c (Function.update x.writers j none k)) =
      Function.update (fun k => heldOn c (x.writers k)) j [] :=
    Function.comp_update (heldOn c) x.writers j none
  have hsent : (sentOn c ((if contextMessageOpGeneric cfg x.table m.item.context (connectorWriteConnection written) =
      .success then x.log ++ [.wrote (x.current m.item.context) m] else x.log).drop x.log.length)).Sublist
      (heldOn c (some m)) := by
    split
    · rw [List.drop_left, sentOn_wrote]
    · rw [List.drop_length]
      exact List.nil_sublist _
  refine ⟨_, ⟨rest, ?_, rfl⟩, ?_⟩
  · rw [hpool]
    exact hgiven
  · rw [hsplit, List.append_nil, List.append_assoc]
    exact hsent.append_right _

/-- **The way out keeps the order**: what a step sends comes before what is still to be sent. -/
theorem outgoing_next {a : Instance.Label cfg} (h : Outgoing c x l) (hfront : fromFront a = true)
    (hone : ∀ j k, a = .acquireOutbound j k → x.outbound.head?.bind (contentOn c) ≠ none →
      ∀ j, heldOn c (x.writers j) = []) (hstep : x.next a = some x') :
    ∃ l', Outgoing c x' l' ∧ (sentOn c (x'.log.drop x.log.length) ++ l').Sublist
      (l ++ (enqueued x a).filterMap fun m => contentOn c ⟨m, none⟩) := by
  cases a with
  | request r =>
    obtain ⟨r, -, rfl⟩ := ContextSystem.toOption_map_eq_some.mp hstep
    exact outgoing_same [] h (by simp) (by simp) (by simp) rfl
  | close context =>
    obtain rfl := Option.some.inj hstep
    exact outgoing_same [] h rfl rfl (List.append_nil _).symm rfl
  | acquire i o => exact outgoing_acquire h hstep
  | read i k message =>
    obtain ⟨-, -, context, -, rfl⟩ := Instance.read_eq_some hstep
    exact outgoing_same [] h rfl rfl (List.append_nil _).symm rfl
  | enqueueInbound i =>
    obtain ⟨m, -, rfl⟩ := Option.map_eq_some_iff.mp hstep
    exact outgoing_same [] h rfl rfl (List.append_nil _).symm rfl
  | cleanup i k closed =>
    obtain ⟨r, context, -, -, rfl⟩ := Instance.cleanup_eq_some hstep
    refine outgoing_same _ h rfl rfl rfl ?_
    cases r.notified <;> rfl
  | writeMessage built context type message =>
    obtain rfl := Option.some.inj hstep
    obtain ⟨l', hout, hsub⟩ : ∃ l', Outgoing c (x.writeMessage built context type message) l' ∧ _ :=
      outgoing_enqueued ((connectorBuildMessage built context type message).toList.map (⟨·, x.current context⟩)) h
        rfl rfl rfl
    rw [List.filterMap_map] at hsub
    exact ⟨l', hout, hsub⟩
  | acquireOutbound j k => exact outgoing_acquireOutbound h (beq_iff_eq.mp hfront) (hone j k rfl) hstep
  | send j written => exact outgoing_send h hstep
  | acquireInbound j k o =>
    obtain ⟨-, m, -, rfl⟩ := Instance.acquireInbound_eq_some hstep
    exact outgoing_same [] h rfl rfl (List.append_nil _).symm rfl
  | act j block =>
    obtain ⟨⟨action, origin⟩, rest, hactions, hperform⟩ := Instance.act_eq_some hstep
    cases action with
    | enqueueOutbound m =>
      obtain rfl := Option.some.inj hperform
      simp only [enqueued, hactions]
      exact outgoing_enqueued [⟨m, origin⟩] h rfl rfl rfl
    | setApplicationName context text =>
      obtain ⟨r, -, rfl⟩ := ContextSystem.toOption_map_eq_some.mp hperform
      simp only [enqueued, hactions]
      exact outgoing_same _ h rfl rfl rfl rfl
    | notifyTrampolines context type message =>
      obtain rfl := Option.some.inj hperform
      simp only [enqueued, hactions]
      exact outgoing_same _ h rfl rfl rfl rfl

end outgoing

/-! ## The way into the receiver -/

section incoming
variable {cfg : BuildConfig} {c : UInt32} {reader : Fin cfg.inboundCount} {x x' : Instance cfg} {l : List Item}

def pendingOn (c : UInt32) (actions : List (Tagged Action)) : List Item := actions.filterMap (noticeOn c)

/-- What is with a dispatch thread, on the queue or with the read thread, in the order it was received. -/
def Incoming (c : UInt32) (reader : Fin cfg.inboundCount) (x : Instance cfg) (l : List Item) : Prop :=
  ∃ pending, Gathers (fun j => pendingOn c (x.dispatchers j)) pending ∧
    (∀ i, i ≠ reader → heldOn c (x.readers i).reading = []) ∧
    l = pending ++ x.inbound.filterMap (contentOn c) ++ heldOn c (x.readers reader).reading

theorem incoming_same (es : List Event) (h : Incoming c reader x l) (hdispatchers : x'.dispatchers = x.dispatchers)
    (hinbound : x'.inbound = x.inbound) (hreading : ∀ i, heldOn c (x'.readers i).reading = heldOn c (x.readers i).reading)
    (hlog : x'.log = x.log ++ es) (hnotified : es.filterMap (notifiedOn c) = []) :
    ∃ l', Incoming c reader x' l' ∧ ((x'.log.drop x.log.length).filterMap (notifiedOn c) ++ l').Sublist l := by
  rw [drop_added hlog, hnotified]
  refine ⟨l, ?_, List.Sublist.refl l⟩
  unfold Incoming
  simp only [hdispatchers, hinbound, hreading]
  exact h

theorem incoming_enqueueInbound {i : Fin cfg.inboundCount} (h : Incoming c reader x l)
    (hstep : x.enqueueInbound i = some x') :
    ∃ l', Incoming c reader x' l' ∧ ((x'.log.drop x.log.length).filterMap (notifiedOn c) ++ l').Sublist l := by
  obtain ⟨m, hm, rfl⟩ := Option.map_eq_some_iff.mp hstep
  obtain ⟨pending, hpending, hothers, rfl⟩ := h
  dsimp only
  rw [List.drop_length]
  by_cases hi : i = reader
  · subst hi
    refine ⟨_, ⟨pending, hpending, fun k hk => ?_, rfl⟩, ?_⟩
    · dsimp only
      rw [Function.update_of_ne hk]
      exact hothers k hk
    · dsimp only
      rw [Function.update_self, List.filterMap_append, hm]
      simp [heldOn]
  · have hnone : heldOn c (some m) = [] := hm ▸ hothers i hi
    have hcontent : [m].filterMap (contentOn c) = [] := hnone
    refine ⟨_, ⟨pending, hpending, fun k hk => ?_, rfl⟩, ?_⟩
    · dsimp only
      rw [update_part (fun r : Reader => heldOn c r.reading) (by rw [hm, hnone]; rfl)]
      exact hothers k hk
    · dsimp only
      rw [Function.update_of_ne (Ne.symm hi), List.filterMap_append, hcontent, List.append_nil]
      exact List.Sublist.refl _

theorem incoming_acquireInbound {j : Fin cfg.dispatchCount} {k : Nat} {o : CallbackOutcome} (h : Incoming c reader x l)
    (hk : k = 0) (hone : x.inbound.head?.bind (contentOn c) ≠ none → ∀ j, pendingOn c (x.dispatchers j) = [])
    (hstep : x.acquireInbound j k o = some x') :
    ∃ l', Incoming c reader x' l' ∧ ((x'.log.drop x.log.length).filterMap (notifiedOn c) ++ l').Sublist l := by
  subst hk
  obtain ⟨hidle, m, hm, rfl⟩ := Instance.acquireInbound_eq_some hstep
  obtain ⟨pending, hpending, hothers, rfl⟩ := h
  obtain ⟨rest, hrest⟩ : ∃ rest, x.inbound = m :: rest := by
    rw [← List.head?_eq_getElem?] at hm
    exact List.head?_eq_some_iff.mp hm
  have htaken := hpending.take (i := j) (b := (contentOn c m).toList) (by simp [pendingOn, hidle]) fun hne => by
    refine hone ?_
    rw [hrest, List.head?_cons, Option.bind_some]
    intro hnone
    simp [hnone] at hne
  have hpool : (fun k => pendingOn c (Function.update x.dispatchers j
      ((dispatchMessage (some x.applicationName) o m.item).map (⟨·, m.origin⟩)) k)) =
      Function.update (fun k => pendingOn c (x.dispatchers k)) j (contentOn c m).toList := by
    rw [← noticeOn_dispatchMessage c (some x.applicationName) o m]
    exact Function.comp_update (pendingOn c) x.dispatchers j _
  refine ⟨_, ⟨pending ++ (contentOn c m).toList, ?_, hothers, rfl⟩, ?_⟩
  · rw [hpool]
    exact htaken
  · dsimp only
    rw [List.drop_length, hrest, filterMap_head, List.append_assoc]
    simp

/-- A dispatch thread does the first of its actions; if it is a notification on the context, it is logged. -/
theorem incoming_rest (es : List Event) {j : Fin cfg.dispatchCount} {a : Tagged Action} {rest : List (Tagged Action)}
    (h : Incoming c reader x l) (hactions : x.dispatchers j = a :: rest)
    (hdispatchers : x'.dispatchers = Function.update x.dispatchers j rest) (hinbound : x'.inbound = x.inbound)
    (hreaders : x'.readers = x.readers) (hlog : x'.log = x.log ++ es)
    (hnotified : es.filterMap (notifiedOn c) = (noticeOn c a).toList) :
    ∃ l', Incoming c reader x' l' ∧ ((x'.log.drop x.log.length).filterMap (notifiedOn c) ++ l').Sublist l := by
  obtain ⟨pending, hpending, hothers, rfl⟩ := h
  obtain ⟨pending', hsplit, hgiven⟩ := hpending.give (i := j) (a := (noticeOn c a).toList) (b := pendingOn c rest) (by
    rw [hactions, pendingOn, filterMap_head]
    rfl)
  have hpool : (fun k => pendingOn c (Function.update x.dispatchers j rest k)) =
      Function.update (fun k => pendingOn c (x.dispatchers k)) j (pendingOn c rest) :=
    Function.comp_update (pendingOn c) x.dispatchers j rest
  refine ⟨_, ⟨pending', ?_, ?_, rfl⟩, ?_⟩
  · rw [hdispatchers, hpool]
    exact hgiven
  · rw [hreaders]
    exact hothers
  · rw [drop_added hlog, hnotified, hinbound, hreaders, hsplit, List.append_assoc, List.append_assoc, List.append_assoc]

theorem incoming_act {j : Fin cfg.dispatchCount} {block : Option Nat} (h : Incoming c reader x l)
    (hstep : x.act j block = some x') :
    ∃ l', Incoming c reader x' l' ∧ ((x'.log.drop x.log.length).filterMap (notifiedOn c) ++ l').Sublist l := by
  obtain ⟨⟨action, origin⟩, rest, hactions, hperform⟩ := Instance.act_eq_some hstep
  cases action with
  | enqueueOutbound m =>
    obtain rfl := Option.some.inj hperform
    exact incoming_rest [] h hactions rfl rfl rfl (List.append_nil _).symm rfl
  | setApplicationName context text =>
    obtain ⟨r, -, rfl⟩ := ContextSystem.toOption_map_eq_some.mp hperform
    exact incoming_rest _ h hactions rfl rfl rfl rfl rfl
  | notifyTrampolines context type message =>
    obtain rfl := Option.some.inj hperform
    refine incoming_rest _ h hactions rfl rfl rfl rfl ?_
    rw [filterMap_head, List.filterMap_nil, List.append_nil]
    rfl

theorem incoming_read {i : Fin cfg.inboundCount} {k : Nat} {m : ConnectorMessage} (h : Incoming c reader x l)
    (hother : (x.readers i).data.contextIds.getD k 0 ≠ c) (hstep : x.read i k m = some x') :
    ∃ l', Incoming c reader x' l' ∧ ((x'.log.drop x.log.length).filterMap (notifiedOn c) ++ l').Sublist l := by
  obtain ⟨-, hidle, context, rfl, rfl⟩ := Instance.read_eq_some hstep
  refine incoming_same [] h rfl rfl (update_part (fun r : Reader => heldOn c r.reading) ?_) (List.append_nil _).symm rfl
  rw [hidle, heldOn_some, contentOn, if_neg hother]
  rfl

/-- A frame of the connection is read. -/
theorem incoming_receive {k : Nat} {m : ConnectorMessage} (h : Incoming c reader x l)
    (hcontext : (x.readers reader).data.contextIds.getD k 0 = c) (hstep : x.read reader k m = some x') :
    Incoming c reader x' (l ++ (content m).toList) := by
  obtain ⟨-, hidle, context, rfl, rfl⟩ := Instance.read_eq_some hstep
  obtain ⟨pending, hpending, hothers, rfl⟩ := h
  refine ⟨pending, hpending, fun i hi => ?_, ?_⟩
  · dsimp only
    rw [Function.update_of_ne hi]
    exact hothers i hi
  · dsimp only
    rw [Function.update_self, hidle, heldOn_some, contentOn, if_pos hcontext]
    simp [heldOn, content, ConnectorMessage.text]

/-- **The way in keeps the order**: what a step notifies of comes before what is still to be notified. -/
theorem incoming_next {a : Instance.Label cfg} (h : Incoming c reader x l) (hfront : fromFront a = true)
    (hreads : ¬readsOn c x a = true) (hcurrent : (x.current c).isSome) (hstays : x'.current c = x.current c)
    (hone : ∀ j k o, a = .acquireInbound j k o → x.inbound.head?.bind (contentOn c) ≠ none →
      ∀ j, pendingOn c (x.dispatchers j) = []) (hstep : x.next a = some x') :
    ∃ l', Incoming c reader x' l' ∧ ((x'.log.drop x.log.length).filterMap (notifiedOn c) ++ l').Sublist l := by
  cases a with
  | request r =>
    obtain ⟨r, -, rfl⟩ := ContextSystem.toOption_map_eq_some.mp hstep
    exact incoming_same [] h (by simp) (by simp) (by simp) (by simp) rfl
  | close context =>
    obtain rfl := Option.some.inj hstep
    exact incoming_same [] h rfl rfl (fun _ => rfl) (List.append_nil _).symm rfl
  | acquire i o =>
    obtain ⟨r, context, written, -, -, -, rfl⟩ := Instance.acquire_eq_some hstep
    refine incoming_same _ h rfl rfl (update_part (fun r : Reader => heldOn c r.reading) rfl) rfl
      (List.filterMap_eq_nil_iff.mpr fun e he => ?_)
    obtain ⟨m, -, rfl⟩ := List.mem_map.mp he
    rfl
  | read i k message => exact incoming_read h (fun hcontext => hreads (beq_iff_eq.mpr hcontext)) hstep
  | enqueueInbound i => exact incoming_enqueueInbound h hstep
  | cleanup i k closed =>
    obtain ⟨r, context, -, -, rfl⟩ := Instance.cleanup_eq_some hstep
    refine incoming_same _ h rfl rfl (update_part (fun r : Reader => heldOn c r.reading) rfl) rfl
      (List.filterMap_eq_nil_iff.mpr fun e he => ?_)
    -- another context is cleared than that of the connection
    obtain ⟨name, -, rfl⟩ := List.mem_map.mp he
    refine if_neg fun hcontext => ?_
    dsimp only at hstays
    rw [hcontext, Function.update_self] at hstays
    rw [← hstays] at hcurrent
    cases hcurrent
  | writeMessage built context type message =>
    obtain rfl := Option.some.inj hstep
    exact incoming_same [] h rfl rfl (fun _ => rfl) (List.append_nil _).symm rfl
  | acquireOutbound j k =>
    obtain ⟨-, m, -, rfl⟩ := Instance.acquireOutbound_eq_some hstep
    exact incoming_same [] h rfl rfl (fun _ => rfl) (List.append_nil _).symm rfl
  | send j written =>
    obtain ⟨m, -, rfl⟩ := Option.map_eq_some_iff.mp hstep
    dsimp only
    split
    · exact incoming_same _ h rfl rfl (fun _ => rfl) rfl rfl
    · exact incoming_same [] h rfl rfl (fun _ => rfl) (List.append_nil _).symm rfl
  | acquireInbound j k o => exact incoming_acquireInbound h (beq_iff_eq.mp hfront) (hone j k o rfl) hstep
  | act j block => exact incoming_act h hstep

end incoming

/-! ## Every run -/

section runs
variable {s s' : State L}

/-- The connection is there, and what was notified, is under way and was not sent yet are, in this order, among
what was written. -/
structure Inv (s : State L) : Prop where
  sender : (s.sender.current L.senderContext).isSome
  receiver : (s.receiver.current L.receiverContext).isSome
  way : ∃ out arriving, Outgoing L.senderContext s.sender out ∧ Incoming L.receiverContext L.reader s.receiver arriving ∧
    (s.notified ++ arriving ++ s.wire.filterMap content ++ out).Sublist s.written

theorem inv_starts (h : Starts L s) : Inv s := by
  refine ⟨h.sender, h.receiver, [], [], ⟨[], gathers_nil h.writers, ?_⟩,
    ⟨[], gathers_nil h.dispatchers, fun i _ => h.reading i, ?_⟩, ?_⟩
  · rw [h.outbound]
    rfl
  · rw [h.inbound, heldOn, h.reading]
    rfl
  · rw [h.notified, h.wire]
    exact List.nil_sublist _

theorem inv_stepSender {a : Instance.Label L.senderBuild} (hs : Inv s) (hone : OneAtATime s (.sender a))
    (h : stepSender s a = some s') : Inv s' := by
  unfold stepSender at h
  obtain ⟨hfront, h⟩ := Option.ite_none_right_eq_some.mp h
  obtain ⟨x, hstep, h⟩ := Option.bind_eq_some_iff.mp h
  obtain ⟨hstays, h⟩ := Option.ite_none_right_eq_some.mp h
  obtain rfl := Option.some.inj h
  obtain ⟨out, arriving, hout, hin, hway⟩ := hs.way
  obtain ⟨out', hout', hsub⟩ := outgoing_next hout hfront (fun j k ha => by
    subst ha
    exact hone) hstep
  refine ⟨hstays ▸ hs.sender, hs.receiver, out', arriving, hout', hin, ?_⟩
  dsimp only
  rw [List.filterMap_append, ← List.append_assoc, List.append_assoc]
  refine List.Sublist.trans (hsub.append_left _) ?_
  rw [← List.append_assoc]
  exact hway.append_right _

theorem inv_stepReceiver {a : Instance.Label L.receiverBuild} (hs : Inv s) (hone : OneAtATime s (.receiver a))
    (h : stepReceiver s a = some s') : Inv s' := by
  unfold stepReceiver at h
  obtain ⟨⟨hfront, hreads⟩, h⟩ := Option.ite_none_right_eq_some.mp h
  obtain ⟨x, hstep, h⟩ := Option.bind_eq_some_iff.mp h
  obtain ⟨hstays, h⟩ := Option.ite_none_right_eq_some.mp h
  obtain rfl := Option.some.inj h
  obtain ⟨out, arriving, hout, hin, hway⟩ := hs.way
  obtain ⟨arriving', hin', hsub⟩ := incoming_next hin hfront hreads hs.receiver hstays (fun j k o ha => by
    subst ha
    exact hone) hstep
  refine ⟨hs.sender, hstays ▸ hs.receiver, out, arriving', hout, hin', List.Sublist.trans ?_ hway⟩
  dsimp only
  rw [List.append_assoc s.notified]
  exact ((hsub.append_left _).append_right _).append_right _

theorem inv_receive {k : Nat} (hs : Inv s) (h : receive s k = some s') : Inv s' := by
  unfold receive at h
  obtain ⟨hcontext, h⟩ := Option.ite_none_right_eq_some.mp h
  obtain ⟨m, hm, h⟩ := Option.bind_eq_some_iff.mp h
  obtain ⟨x, hstep, rfl⟩ := Option.map_eq_some_iff.mp h
  obtain ⟨rest, hrest⟩ := List.head?_eq_some_iff.mp hm
  obtain ⟨out, arriving, hout, hin, hway⟩ := hs.way
  have hcurrent : x.current = s.receiver.current := by
    obtain ⟨-, -, context, -, rfl⟩ := Instance.read_eq_some hstep
    rfl
  refine ⟨hs.sender, ?_, out, _, hout, incoming_receive hin hcontext hstep, ?_⟩
  · dsimp only
    rw [hcurrent]
    exact hs.receiver
  · rw [hrest, filterMap_head] at hway
    dsimp only
    rw [hrest, List.tail_cons]
    simpa only [List.append_assoc] using hway

theorem inv_next {a : Label L} (hs : Inv s) (hone : OneAtATime s a) (h : next s a = some s') : Inv s' := by
  cases a with
  | sender a => exact inv_stepSender hs hone h
  | receiver a => exact inv_stepReceiver hs hone h
  | receive k => exact inv_receive hs h

theorem Inv.inOrder (hs : Inv s) : InOrder s := by
  obtain ⟨out, arriving, -, -, hway⟩ := hs.way
  rw [List.append_assoc, List.append_assoc] at hway
  exact (List.sublist_append_left _ _).trans hway

/-- With one write thread and one dispatch thread there is no other thread. -/
theorem oneAtATime_of_single {a : Label L} (hwriters : L.senderBuild.outboundCount ≤ 1)
    (hdispatchers : L.receiverBuild.dispatchCount ≤ 1) (h : next s a = some s') : OneAtATime s a := by
  cases a with
  | receive k => exact trivial
  | sender a =>
    cases a with
    | acquireOutbound j k =>
      intro _ i
      have hij : i = j := Fin.ext (by omega)
      subst hij
      obtain ⟨-, h⟩ := Option.ite_none_right_eq_some.mp h
      obtain ⟨x, hstep, -⟩ := Option.bind_eq_some_iff.mp h
      obtain ⟨hidle, -⟩ := Instance.acquireOutbound_eq_some hstep
      rw [hidle]
      rfl
    | _ => exact trivial
  | receiver a =>
    cases a with
    | acquireInbound j k o =>
      intro _ i
      have hij : i = j := Fin.ext (by omega)
      subst hij
      obtain ⟨-, h⟩ := Option.ite_none_right_eq_some.mp h
      obtain ⟨x, hstep, -⟩ := Option.bind_eq_some_iff.mp h
      obtain ⟨hidle, -⟩ := Instance.acquireInbound_eq_some hstep
      rw [hidle]
      rfl
    | _ => exact trivial

end runs

/-- **The order is kept** in every run in which the threads of a pool work on the messages of the connection one
at a time, and so in every run of a build with one write thread and one dispatch thread. -/
theorem notified_in_order (L : Link) :
    (∀ s, ((system L).guarded OneAtATime).Reachable s → InOrder s) ∧
      (L.senderBuild.outboundCount ≤ 1 → L.receiverBuild.dispatchCount ≤ 1 →
        ∀ s, (system L).Reachable s → InOrder s) := by
  refine ⟨fun s h => ?_, fun hwriters hdispatchers s h => ?_⟩
  · refine (h.guarded_invariant (P := Inv) (fun s hs => inv_starts hs) fun s a s' hs hone hstep => ?_).inOrder
    exact inv_next hs hone hstep
  · refine (h.invariant (P := Inv) (fun s hs => inv_starts hs) fun s a s' _ hs hstep => ?_).inOrder
    have hone : OneAtATime s a := oneAtATime_of_single hwriters hdispatchers hstep
    exact inv_next hs hone hstep

/-! ## Two messages -/

open BuildConfig (firstThread secondThread)

instance (s : State L) : ∀ a, Decidable (OneAtATime s a)
  | .sender (.acquireOutbound _ _) => inferInstanceAs (Decidable (_ → _))
  | .receiver (.acquireInbound _ _ _) => inferInstanceAs (Decidable (_ → _))
  | .sender (.request _) | .sender (.close _) | .sender (.acquire _ _) | .sender (.read _ _ _)
  | .sender (.enqueueInbound _) | .sender (.cleanup _ _ _) | .sender (.writeMessage _ _ _ _) | .sender (.send _ _)
  | .sender (.acquireInbound _ _ _) | .sender (.act _ _) => .isTrue trivial
  | .receiver (.request _) | .receiver (.close _) | .receiver (.acquire _ _) | .receiver (.read _ _ _)
  | .receiver (.enqueueInbound _) | .receiver (.cleanup _ _ _) | .receiver (.writeMessage _ _ _ _)
  | .receiver (.acquireOutbound _ _) | .receiver (.send _ _) | .receiver (.act _ _) => .isTrue trivial
  | .receive _ => .isTrue trivial

/-- The first thread of the receiver reads the connection it has accepted. -/
def pairLink : Link := ⟨.default, .default, 0, 1, firstThread⟩

/-- Party `a` of the exchange has connected to party `b`. -/
def State.pair : State pairLink := ⟨Exchange.pairStart.ends .a, Exchange.pairStart.ends .b, [], [], []⟩

theorem starts_pair : Starts pairLink .pair :=
  ⟨by decide +kernel, by decide +kernel, by decide +kernel, by decide +kernel, by decide +kernel, by decide +kernel,
    by decide +kernel, rfl, rfl, rfl⟩

/-- Two messages are written, and the receiver's thread acquires its context. -/
def twoWritten : List (Label pairLink) :=
  [.receiver (.acquire firstThread ⟨true, .success⟩),
    .sender (.writeMessage true 0 (some (.ofWords 1 2 3 4)) (some ⟨[97], by decide⟩)),
    .sender (.writeMessage true 0 (some (.ofWords 1 2 3 4)) (some ⟨[98], by decide⟩))]

/-- The receiver's first threads read a frame and notify of it. -/
def receiveOne : List (Label pairLink) :=
  [.receive 1, .receiver (.enqueueInbound firstThread), .receiver (.acquireInbound firstThread 0 ⟨true, true⟩),
    .receiver (.act firstThread none)]

/-- Two write threads take one message each, and the second one is faster. -/
def reversedRun : List (Label pairLink) :=
  twoWritten ++ [.sender (.acquireOutbound firstThread 0), .sender (.acquireOutbound secondThread 0),
    .sender (.send secondThread .success), .sender (.send firstThread .success)] ++ receiveOne ++ receiveOne

instance (s : State L) : Decidable (InOrder s) := inferInstanceAs (Decidable (List.Sublist _ _))

theorem order_reversed : ∃ s : State pairLink, (system pairLink).Reachable s ∧ ¬InOrder s := by
  have hrun : (StepSystem.runList next State.pair reversedRun).map (fun s => decide (InOrder s)) = some false := by
    decide +kernel
  obtain ⟨s, hs, horder⟩ := Option.map_eq_some_iff.mp hrun
  exact ⟨s, StepSystem.reachable_runList (.init starts_pair) hs, of_decide_eq_false horder⟩

/-- The first write thread sends both messages. -/
def orderedRun : List (Label pairLink) :=
  twoWritten ++ [.sender (.acquireOutbound firstThread 0), .sender (.send firstThread .success),
    .sender (.acquireOutbound firstThread 0), .sender (.send firstThread .success)] ++ receiveOne ++ receiveOne

/-- A build with one thread of each kind, and a connection made in it. -/
def singleBuild : BuildConfig :=
  { BuildConfig.default with inboundCount := 1, outboundCount := 1, dispatchCount := 1, inboundCount_pos := Nat.one_pos }

def singleEnd : Instance singleBuild :=
  StepSystem.stateAt Instance.next (.start singleBuild Instance.greeting)
    [.request (.connect ⟨some 7, true⟩ (some ⟨commTcp, none, 6000⟩) (some 0))] 1

def singleLink : Link := ⟨singleBuild, singleBuild, 0, 0, ⟨0, Nat.one_pos⟩⟩

theorem notified_in_order_run :
    (∃ s : State pairLink, s.notified.length = 2 ∧ InOrder s) ∧ ∃ s : State singleLink, InOrder s := by
  constructor
  · have hrun : (StepSystem.runList (StepSystem.gate OneAtATime next) State.pair orderedRun).map
        (fun s => s.notified.length) = some 2 := by
      decide +kernel
    obtain ⟨s, hs, hlength⟩ := Option.map_eq_some_iff.mp hrun
    exact ⟨s, hlength,
      (notified_in_order pairLink).1 s (StepSystem.guarded_reachable_runList (.init starts_pair) hs)⟩
  · have hstarts : Starts singleLink ⟨singleEnd, singleEnd, [], [], []⟩ :=
      ⟨by decide +kernel, by decide +kernel, by decide +kernel, by decide +kernel, by decide +kernel, by decide +kernel,
        by decide +kernel, rfl, rfl, rfl⟩
    exact ⟨_, (notified_in_order singleLink).2 (Nat.le_refl 1) (Nat.le_refl 1) _ (.init hstarts)⟩

end SubstanceConnector.WriteOrder
