import SubstanceConnector.Handshake.Tally

/-!
# What the user hears of one connection

One instance, with the notifications of the handshake and of the closing counted for each connection apart.
The peer sends its handshake and, after ours, its reply, and may disconnect at any time; users do not send
the two identifiers.

A dispatch thread notifies of the connection when it comes to the reply, and the read thread of its closing
when it clears a context that has a name, which is set by the peer's handshake alone: a connection that ends in
between is closed for the user without having been established (`closed_alone`). The two notifications come in
order where every reply has been dispatched before its context is cleared (`established_before_closed`).
-/

namespace SubstanceConnector.Lifetime

open ThreadPool BuildConfig

inductive Notice where
  | established
  | closed
  deriving DecidableEq

/-- An instance, with the handshake frames read from each connection (whether each was internal) and the
notifications that stem from it. -/
structure State (cfg : BuildConfig) where
  x : Instance cfg
  received : Nat → List Bool
  notices : Nat → List Notice

section observed
variable {cfg : BuildConfig}

/-- The handshake frame a step reads, with its connection. -/
def frameRead (x : Instance cfg) : Instance.Label cfg → Option (Nat × Bool)
  | .read i k m =>
    if m.header.messageId = connectorInternalHandshakeUuid then
      (x.current ((x.readers i).data.contextIds.getD k 0)).map (·, connectorIdentifyInternal m.header.description)
    else none
  | _ => none

/-- The notification a dispatch thread makes, with the connection its message was read from. -/
def noticeOf (a : Tagged Action) : Option (Nat × Notice) :=
  match a.item with
  | .notifyTrampolines _ type _ =>
    if type = connectorInternalHandshakeUuid then a.origin.map (·, .established)
    else if type = connectorInternalConnectionClosedUuid then a.origin.map (·, .closed)
    else none
  | _ => none

/-- The notification a step makes, with its connection. -/
def noticeMade (x : Instance cfg) : Instance.Label cfg → Option (Nat × Notice)
  | .act j _ => (x.dispatchers j).head?.bind noticeOf
  | .cleanup i k _ =>
    let context := (x.readers i).data.contextIds.getD k 0
    if (x.table.slot context).applicationName = none then none else (x.current context).map (·, .closed)
  | _ => none

def record {α : Type} (f : Nat → List α) : Option (Nat × α) → Nat → List α
  | none => f
  | some (n, a) => Function.update f n (f n ++ [a])

/-- Our handshake has been written to the connection. -/
def offered (n : Nat) (log : List Event) : Bool :=
  log.any fun
    | .wrote connection m => connection == some n && Exchange.isHandshake true m.item
    | _ => false

/-- The peer sends a handshake and then a reply to ours, each once, and no user sends the identifiers. -/
def Follows (s : State cfg) (a : Instance.Label cfg) : Prop :=
  match a with
  | .read _ _ m => m.header.messageId ≠ connectorInternalConnectionClosedUuid ∧
      ∀ frame ∈ frameRead s.x a, s.received frame.1 ++ [frame.2] <+: [true, false] ∧
        (frame.2 = false → offered frame.1 s.x.log = true)
  | .writeMessage _ _ type _ =>
    type ≠ some connectorInternalHandshakeUuid ∧ type ≠ some connectorInternalConnectionClosedUuid
  | _ => True

instance (s : State cfg) : ∀ a, Decidable (Follows s a)
  | .read i k m => inferInstanceAs (Decidable (_ ∧ ∀ frame ∈ frameRead s.x (.read i k m), _ ∧ _))
  | .writeMessage _ _ _ _ => inferInstanceAs (Decidable (_ ∧ _))
  | .request _ | .close _ | .acquire _ _ | .enqueueInbound _ | .cleanup _ _ _ | .acquireOutbound _ _ | .send _ _
  | .acquireInbound _ _ _ | .act _ _ => .isTrue trivial

def next (s : State cfg) (a : Instance.Label cfg) : Option (State cfg) :=
  if Follows s a then
    (s.x.next a).map fun x =>
      { x := x
        received := record s.received (frameRead s.x a)
        notices := record s.notices (noticeMade s.x a) }
  else none

def system (cfg : BuildConfig) (applicationName : CString) : StepSystem (State cfg) (Instance.Label cfg) :=
  .ofNext (· = ⟨.start cfg applicationName, fun _ => [], fun _ => []⟩) next

end observed

/-- Of each connection the user hears that it was established and then that it was closed, each at most once
and nothing else. -/
def InOrder {cfg : BuildConfig} (s : State cfg) : Prop := ∀ n, s.notices n <+: [.established, .closed]

/-! ## Replies on their way -/

section replies
variable {cfg : BuildConfig} {x x' : Instance cfg} {n : Nat}

def isReplyOf (n : Nat) (m : Tagged ConnectorMessage) : Bool := m.origin == some n && Exchange.isHandshake false m.item

def isEstablishedOf (n : Nat) (a : Tagged Action) : Bool := noticeOf a == some (n, .established)

/-- The replies read from a connection that have not been notified of yet. -/
def pending (n : Nat) (x : Instance cfg) : Nat :=
  total (fun reader => reader.reading.toList.countP (isReplyOf n)) x.readers + x.inbound.countP (isReplyOf n) +
    total (fun actions => actions.countP (isEstablishedOf n)) x.dispatchers

/-- A context that has a name is cleared only after the reply of its connection has been notified of. -/
def Answered (s : State cfg) : Instance.Label cfg → Prop
  | .cleanup i k _ =>
    let context := (s.x.readers i).data.contextIds.getD k 0
    (s.x.table.slot context).applicationName ≠ none →
      ∀ n ∈ s.x.current context, false ∈ s.received n ∧ pending n s.x = 0
  | _ => True

instance (s : State cfg) : ∀ a, Decidable (Answered s a)
  | .cleanup _ _ _ => inferInstanceAs (Decidable (_ → ∀ n ∈ s.x.current _, _ ∧ _))
  | .request _ | .close _ | .acquire _ _ | .read _ _ _ | .enqueueInbound _ | .writeMessage _ _ _ _
  | .acquireOutbound _ _ | .send _ _ | .acquireInbound _ _ _ | .act _ _ => .isTrue trivial

theorem countP_dispatchMessage (name : Option CString) (o : CallbackOutcome) (m : Tagged ConnectorMessage) :
    ((dispatchMessage name o m.item).map (⟨·, m.origin⟩ : Action → Tagged Action)).countP (isEstablishedOf n) =
      [m].countP (isReplyOf n) := by
  by_cases hinternal : connectorIdentifyInternal m.item.header.description = true
  · have hreply : isReplyOf n m = false := by simp [isReplyOf, Exchange.isHandshake, hinternal]
    rw [List.countP_singleton, hreply]
    refine List.countP_eq_zero.mpr fun a ha => ?_
    obtain ⟨action, haction, rfl⟩ := List.mem_map.mp ha
    have hne := ne_notify_of_internal hinternal haction
    cases action with
    | notifyTrampolines context type message => exact absurd rfl (hne context type message)
    | _ => exact Bool.false_ne_true
  · rw [dispatchMessage, if_neg hinternal, List.map_singleton, List.countP_singleton, List.countP_singleton]
    have hsame : isEstablishedOf n ⟨.notifyTrampolines m.item.context m.item.header.messageId m.item.text, m.origin⟩ =
        isReplyOf n m := by
      unfold isEstablishedOf noticeOf isReplyOf Exchange.isHandshake
      dsimp only
      by_cases htype : m.item.header.messageId = connectorInternalHandshakeUuid
      · rw [if_pos htype]
        cases m.origin <;> simp [htype, hinternal]
      · rw [if_neg htype]
        cases m.origin <;> simp [htype]
    rw [hsame]

/-- Neither a message on its way nor a notification to come has the identifier of the closing. -/
structure Unforged (x : Instance cfg) : Prop where
  reading : ∀ i, ∀ m ∈ (x.readers i).reading, m.item.header.messageId ≠ connectorInternalConnectionClosedUuid
  inbound : ∀ m ∈ x.inbound, m.item.header.messageId ≠ connectorInternalConnectionClosedUuid
  acting : ∀ j, ∀ a ∈ x.dispatchers j, ∀ n, noticeOf a ≠ some (n, .closed)

/-- A step makes this many notifications of an established connection, and reads this many replies. -/
def establishes (n : Nat) (notice : Option (Nat × Notice)) : Nat := if notice = some (n, .established) then 1 else 0

def replies (n : Nat) (frame : Option (Nat × Bool)) : Nat := if frame = some (n, false) then 1 else 0

/-- The steps that take a message further on its way in. -/
def takesIn : Instance.Label cfg → Bool
  | .read _ _ _ | .enqueueInbound _ | .acquireInbound _ _ _ | .act _ _ => true
  | _ => false

/-- The other steps leave the messages and the actions alone. -/
theorem frame_takesIn {a : Instance.Label cfg} (hout : takesIn a = false) (h : x.next a = some x') :
    (∀ i, (x'.readers i).reading = (x.readers i).reading) ∧ x'.inbound = x.inbound ∧ x'.dispatchers = x.dispatchers := by
  cases a with
  | read i k m => cases hout
  | enqueueInbound i => cases hout
  | acquireInbound j k o => cases hout
  | act j block => cases hout
  | request r =>
    obtain ⟨r, -, rfl⟩ := ContextSystem.toOption_map_eq_some.mp h
    simp
  | close context =>
    obtain rfl := Option.some.inj h
    exact ⟨fun _ => rfl, rfl, rfl⟩
  | acquire i o =>
    obtain ⟨r, context, written, -, -, -, rfl⟩ := Instance.acquire_eq_some h
    exact ⟨update_part Reader.reading rfl, rfl, rfl⟩
  | cleanup i k closed =>
    obtain ⟨r, context, -, -, rfl⟩ := Instance.cleanup_eq_some h
    exact ⟨update_part Reader.reading rfl, rfl, rfl⟩
  | writeMessage built context type message =>
    obtain rfl := Option.some.inj h
    exact ⟨fun _ => rfl, rfl, rfl⟩
  | acquireOutbound j k =>
    obtain ⟨-, m, -, rfl⟩ := Instance.acquireOutbound_eq_some h
    exact ⟨fun _ => rfl, rfl, rfl⟩
  | send j written =>
    obtain ⟨m, -, rfl⟩ := Option.map_eq_some_iff.mp h
    exact ⟨fun _ => rfl, rfl, rfl⟩

theorem pending_same (hreading : ∀ i, (x'.readers i).reading = (x.readers i).reading) (hinbound : x'.inbound = x.inbound)
    (hdispatchers : x'.dispatchers = x.dispatchers) : pending n x' = pending n x := by
  unfold pending total
  simp only [hreading, hinbound, hdispatchers]

theorem pending_read {i : Fin cfg.inboundCount} {k : Nat} {m : ConnectorMessage} (h : x.read i k m = some x') :
    pending n x' = pending n x + replies n (frameRead x (.read i k m)) := by
  obtain ⟨-, hidle, context, rfl, rfl⟩ := Instance.read_eq_some h
  have htotal := total_update (fun reader : Reader => reader.reading.toList.countP (isReplyOf n)) x.readers i
    ⟨(x.readers i).data, some ⟨{ m with context := (x.readers i).data.contextIds.getD k 0 },
      x.current ((x.readers i).data.contextIds.getD k 0)⟩⟩
  have hone : [(⟨{ m with context := (x.readers i).data.contextIds.getD k 0 },
      x.current ((x.readers i).data.contextIds.getD k 0)⟩ : Tagged ConnectorMessage)].countP (isReplyOf n) =
        replies n (frameRead x (.read i k m)) := by
    rw [List.countP_singleton]
    unfold isReplyOf Exchange.isHandshake
    dsimp only
    by_cases htype : m.header.messageId = connectorInternalHandshakeUuid
    · have hframe : frameRead x (.read i k m) = (x.current ((x.readers i).data.contextIds.getD k 0)).map
          (·, connectorIdentifyInternal m.header.description) := if_pos htype
      rw [hframe]
      cases x.current ((x.readers i).data.contextIds.getD k 0) <;> simp [replies, htype]
    · have hframe : frameRead x (.read i k m) = none := if_neg htype
      rw [hframe]
      simp [replies, htype]
  rw [hidle, Option.toList_none, List.countP_nil, Option.toList_some, hone] at htotal
  unfold pending
  dsimp only
  omega

theorem pending_enqueueInbound {i : Fin cfg.inboundCount} (h : x.enqueueInbound i = some x') :
    pending n x' = pending n x := by
  obtain ⟨m, hm, rfl⟩ := Option.map_eq_some_iff.mp h
  have htotal := total_update (fun reader : Reader => reader.reading.toList.countP (isReplyOf n)) x.readers i
    ⟨(x.readers i).data, none⟩
  rw [hm, Option.toList_none, List.countP_nil, Option.toList_some] at htotal
  unfold pending
  dsimp only
  rw [List.countP_append]
  omega

theorem pending_acquireInbound {j : Fin cfg.dispatchCount} {k : Nat} {o : CallbackOutcome}
    (h : x.acquireInbound j k o = some x') : pending n x' = pending n x := by
  obtain ⟨hidle, m, hm, rfl⟩ := Instance.acquireInbound_eq_some h
  have htotal := Exchange.total_dispatchers (isEstablishedOf n) x j
    ((dispatchMessage (some x.applicationName) o m.item).map (⟨·, m.origin⟩))
  have hinbound := Exchange.countP_eraseIdx (isReplyOf n) hm
  rw [hidle, List.countP_nil, countP_dispatchMessage, List.countP_singleton] at htotal
  unfold pending
  dsimp only
  omega

theorem noticeMade_act {j : Fin cfg.dispatchCount} {block : Option Nat} {a : Tagged Action} {rest : List (Tagged Action)}
    (h : x.dispatchers j = a :: rest) : noticeMade x (.act j block) = noticeOf a := by
  show (x.dispatchers j).head?.bind noticeOf = _
  rw [h]
  rfl

theorem pending_act {j : Fin cfg.dispatchCount} {block : Option Nat} (h : x.act j block = some x') :
    pending n x' + establishes n (noticeMade x (.act j block)) = pending n x := by
  obtain ⟨a, rest, hactions, hperform⟩ := Instance.act_eq_some h
  obtain ⟨hreaders, hinbound, hdispatchers, -⟩ := Instance.frame_perform hperform
  have htaken := Exchange.take_action hactions (isEstablishedOf n)
  have hmade : establishes n (noticeMade x (.act j block)) = (isEstablishedOf n a).toNat := by
    rw [noticeMade_act hactions, establishes, isEstablishedOf]
    by_cases hnotice : noticeOf a = some (n, .established)
    · rw [if_pos hnotice, hnotice, beq_self_eq_true]
      rfl
    · rw [if_neg hnotice, beq_eq_false_iff_ne.mpr hnotice]
      rfl
  rw [hmade]
  unfold pending
  rw [hreaders, hinbound, hdispatchers]
  dsimp only
  omega

/-- **Every reply read is on its way or has been notified of.** -/
theorem pending_next {a : Instance.Label cfg} (h : x.next a = some x') :
    pending n x' + establishes n (noticeMade x a) = pending n x + replies n (frameRead x a) := by
  cases a with
  | read i k m => exact pending_read h
  | enqueueInbound i => exact pending_enqueueInbound h
  | acquireInbound j k o => exact pending_acquireInbound h
  | act j block => exact pending_act h
  | cleanup i k closed =>
    obtain ⟨hreading, hinbound, hdispatchers⟩ := frame_takesIn rfl h
    -- what the read thread notifies of is the closing
    have hnone : establishes n (noticeMade x (.cleanup i k closed)) = 0 := by
      refine if_neg fun hmade => ?_
      obtain ⟨-, hmade⟩ := Option.ite_none_left_eq_some.mp hmade
      obtain ⟨k, -, hnotice⟩ := Option.map_eq_some_iff.mp hmade
      exact Notice.noConfusion (Prod.mk.inj hnotice).2
    rw [hnone]
    exact pending_same hreading hinbound hdispatchers
  | _ =>
    obtain ⟨hreading, hinbound, hdispatchers⟩ := frame_takesIn rfl h
    exact pending_same hreading hinbound hdispatchers

/-! ## The identifier of the closing -/

theorem Unforged.of_eq (hs : Unforged x) (hreading : ∀ i, (x'.readers i).reading = (x.readers i).reading)
    (hinbound : x'.inbound = x.inbound) (hdispatchers : x'.dispatchers = x.dispatchers) : Unforged x' := by
  refine ⟨fun i => ?_, ?_, ?_⟩
  · rw [hreading]
    exact hs.reading i
  · rw [hinbound]
    exact hs.inbound
  · rw [hdispatchers]
    exact hs.acting

theorem Unforged.updateReader (hs : Unforged x) (i : Fin cfg.inboundCount) {r : Reader}
    (hr : ∀ m ∈ r.reading, m.item.header.messageId ≠ connectorInternalConnectionClosedUuid) :
    ∀ j, ∀ m ∈ (Function.update x.readers i r j).reading,
      m.item.header.messageId ≠ connectorInternalConnectionClosedUuid :=
  (Function.forall_update_iff x.readers fun _ r => ∀ m ∈ r.reading,
    m.item.header.messageId ≠ connectorInternalConnectionClosedUuid).mpr ⟨hr, fun j _ => hs.reading j⟩

theorem Unforged.updateDispatcher (hs : Unforged x) (j : Fin cfg.dispatchCount) {as : List (Tagged Action)}
    (has : ∀ a ∈ as, ∀ n, noticeOf a ≠ some (n, .closed)) :
    ∀ k, ∀ a ∈ Function.update x.dispatchers j as k, ∀ n, noticeOf a ≠ some (n, .closed) :=
  (Function.forall_update_iff x.dispatchers fun _ as => ∀ a ∈ as, ∀ n, noticeOf a ≠ some (n, .closed)).mpr
    ⟨has, fun k _ => hs.acting k⟩

theorem noticeOf_ne_closed {m : Tagged ConnectorMessage} {name : Option CString} {o : CallbackOutcome}
    (hm : m.item.header.messageId ≠ connectorInternalConnectionClosedUuid) {a : Tagged Action}
    (ha : a ∈ (dispatchMessage name o m.item).map (⟨·, m.origin⟩ : Action → Tagged Action)) (n : Nat) :
    noticeOf a ≠ some (n, .closed) := by
  obtain ⟨action, haction, rfl⟩ := List.mem_map.mp ha
  by_cases hinternal : connectorIdentifyInternal m.item.header.description = true
  · have hne := ne_notify_of_internal hinternal haction
    cases action with
    | notifyTrampolines context type message => exact absurd rfl (hne context type message)
    | _ => simp [noticeOf]
  · rw [dispatchMessage, if_neg hinternal] at haction
    obtain rfl := List.mem_singleton.mp haction
    unfold noticeOf
    dsimp only
    rw [if_neg hm]
    split
    · cases m.origin <;> simp
    · simp

theorem unforged_next {s : State cfg} {a : Instance.Label cfg} (hs : Unforged s.x) (hfollows : Follows s a)
    (h : s.x.next a = some x') : Unforged x' := by
  cases a with
  | read i k m =>
    obtain ⟨-, -, context, -, rfl⟩ := Instance.read_eq_some h
    refine ⟨hs.updateReader i fun m' hm' => ?_, hs.inbound, hs.acting⟩
    obtain rfl := Option.some.inj hm'
    exact hfollows.1
  | enqueueInbound i =>
    obtain ⟨m, hm, rfl⟩ := Option.map_eq_some_iff.mp h
    refine ⟨hs.updateReader i fun m' hm' => (Option.not_mem_none m' hm').elim, fun m' hm' => ?_, hs.acting⟩
    rcases List.mem_append.mp hm' with hold | hnew
    · exact hs.inbound m' hold
    · rw [List.mem_singleton.mp hnew]
      exact hs.reading i m hm
  | acquireInbound j k o =>
    obtain ⟨-, m, hm, rfl⟩ := Instance.acquireInbound_eq_some h
    refine ⟨hs.reading, fun m' hm' => hs.inbound m' (List.mem_of_mem_eraseIdx hm'), hs.updateDispatcher j fun a ha => ?_⟩
    exact noticeOf_ne_closed (hs.inbound m (List.mem_of_getElem? hm)) ha
  | act j block =>
    obtain ⟨a, rest, hactions, hperform⟩ := Instance.act_eq_some h
    obtain ⟨hreaders, hinbound, hdispatchers, -⟩ := Instance.frame_perform hperform
    have hkept := hs.updateDispatcher j fun b hb => hs.acting j b (hactions ▸ List.mem_cons_of_mem a hb)
    have hrest : Unforged { s.x with dispatchers := Function.update s.x.dispatchers j rest } :=
      ⟨hs.reading, hs.inbound, hkept⟩
    exact hrest.of_eq (fun i => congrArg (fun r => (r i).reading) hreaders) hinbound hdispatchers
  | _ =>
    obtain ⟨hreading, hinbound, hdispatchers⟩ := frame_takesIn rfl h
    exact hs.of_eq hreading hinbound hdispatchers

end replies

/-! ## The connections -/

section connections
variable {cfg : BuildConfig} {x x' : Instance cfg} {n : Nat}

/-- The context a step clears. -/
def cleared (x : Instance cfg) : Instance.Label cfg → Option UInt32
  | .cleanup i k _ => some ((x.readers i).data.contextIds.getD k 0)
  | _ => none

/-- A step starts a connection with a new number, ends the one of the context it clears, or does neither. -/
theorem current_cases {a : Instance.Label cfg} (h : x.next a = some x') :
    (cleared x a = none ∧ ((x'.current = x.current ∧ x'.connections = x.connections) ∨
      ∃ c, x'.current = Function.update x.current c (some x.connections) ∧ x'.connections = x.connections + 1)) ∨
      ∃ c, cleared x a = some c ∧ x'.current = Function.update x.current c none ∧ x'.connections = x.connections := by
  cases a with
  | request r =>
    obtain ⟨r, -, rfl⟩ := ContextSystem.toOption_map_eq_some.mp h
    refine .inl ⟨rfl, ?_⟩
    unfold Instance.begun
    split
    · exact .inr ⟨_, rfl, rfl⟩
    · exact .inl ⟨rfl, rfl⟩
  | close context =>
    obtain rfl := Option.some.inj h
    exact .inl ⟨rfl, .inl ⟨rfl, rfl⟩⟩
  | acquire i o =>
    obtain ⟨r, context, written, -, -, -, rfl⟩ := Instance.acquire_eq_some h
    exact .inl ⟨rfl, .inl ⟨rfl, rfl⟩⟩
  | read i k m =>
    obtain ⟨-, -, context, -, rfl⟩ := Instance.read_eq_some h
    exact .inl ⟨rfl, .inl ⟨rfl, rfl⟩⟩
  | enqueueInbound i =>
    obtain ⟨m, -, rfl⟩ := Option.map_eq_some_iff.mp h
    exact .inl ⟨rfl, .inl ⟨rfl, rfl⟩⟩
  | cleanup i k closed =>
    obtain ⟨r, context, -, rfl, rfl⟩ := Instance.cleanup_eq_some h
    exact .inr ⟨_, rfl, rfl, rfl⟩
  | writeMessage built context type message =>
    obtain rfl := Option.some.inj h
    exact .inl ⟨rfl, .inl ⟨rfl, rfl⟩⟩
  | acquireOutbound j k =>
    obtain ⟨-, m, -, rfl⟩ := Instance.acquireOutbound_eq_some h
    exact .inl ⟨rfl, .inl ⟨rfl, rfl⟩⟩
  | send j written =>
    obtain ⟨m, -, rfl⟩ := Option.map_eq_some_iff.mp h
    exact .inl ⟨rfl, .inl ⟨rfl, rfl⟩⟩
  | acquireInbound j k o =>
    obtain ⟨-, m, -, rfl⟩ := Instance.acquireInbound_eq_some h
    exact .inl ⟨rfl, .inl ⟨rfl, rfl⟩⟩
  | act j block =>
    obtain ⟨a, rest, -, hperform⟩ := Instance.act_eq_some h
    obtain ⟨-, -, -, hcurrent, hconnections, -⟩ := Instance.frame_perform hperform
    exact .inl ⟨rfl, .inl ⟨hcurrent, hconnections⟩⟩

/-- Connections have been numbered, each context in use has its own. -/
structure Numbered (x : Instance cfg) : Prop where
  bound : ∀ c n, x.current c = some n → n < x.connections
  unique : ∀ c d n, x.current c = some n → x.current d = some n → c = d

/-- The connection has been and is no more. -/
structure Ended (n : Nat) (x : Instance cfg) : Prop where
  bound : n < x.connections
  gone : ∀ c, x.current c ≠ some n

theorem current_update {current : UInt32 → Option Nat} {c d : UInt32} {v : Option Nat} {n : Nat}
    (h : Function.update current c v d = some n) : (d = c ∧ v = some n) ∨ (d ≠ c ∧ current d = some n) := by
  by_cases hd : d = c
  · rw [hd, Function.update_self] at h
    exact .inl ⟨hd, h⟩
  · rw [Function.update_of_ne hd] at h
    exact .inr ⟨hd, h⟩

theorem numbered_next {a : Instance.Label cfg} (hs : Numbered x) (h : x.next a = some x') : Numbered x' := by
  rcases current_cases h with ⟨-, ⟨hcurrent, hconnections⟩ | ⟨c, hcurrent, hconnections⟩⟩ | ⟨c, -, hcurrent, hconnections⟩
  · refine ⟨?_, ?_⟩
    · rw [hcurrent, hconnections]
      exact hs.bound
    · rw [hcurrent]
      exact hs.unique
  · refine ⟨fun d n hd => ?_, fun d e n hd he => ?_⟩
    · rw [hcurrent] at hd
      rw [hconnections]
      rcases current_update hd with ⟨-, hn⟩ | ⟨-, hold⟩
      · obtain rfl := Option.some.inj hn
        exact Nat.lt_succ_self _
      · exact Nat.lt_succ_of_lt (hs.bound d n hold)
    · rw [hcurrent] at hd he
      rcases current_update hd with ⟨hdc, hn⟩ | ⟨-, hdold⟩
      · rcases current_update he with ⟨hec, -⟩ | ⟨-, heold⟩
        · rw [hdc, hec]
        · obtain rfl := Option.some.inj hn
          exact absurd (hs.bound e _ heold) (Nat.lt_irrefl _)
      · rcases current_update he with ⟨-, hn⟩ | ⟨-, heold⟩
        · obtain rfl := Option.some.inj hn
          exact absurd (hs.bound d _ hdold) (Nat.lt_irrefl _)
        · exact hs.unique d e n hdold heold
  · refine ⟨fun d n hd => ?_, fun d e n hd he => ?_⟩
    · rw [hcurrent] at hd
      rw [hconnections]
      rcases current_update hd with ⟨-, hn⟩ | ⟨-, hold⟩
      · cases hn
      · exact hs.bound d n hold
    · rw [hcurrent] at hd he
      rcases current_update hd with ⟨-, hn⟩ | ⟨-, hdold⟩
      · cases hn
      · rcases current_update he with ⟨-, hn⟩ | ⟨-, heold⟩
        · cases hn
        · exact hs.unique d e n hdold heold

/-- A number is not used again. -/
theorem ended_next {a : Instance.Label cfg} (hs : Ended n x) (h : x.next a = some x') : Ended n x' := by
  have hbound := hs.bound
  rcases current_cases h with ⟨-, ⟨hcurrent, hconnections⟩ | ⟨c, hcurrent, hconnections⟩⟩ | ⟨c, -, hcurrent, hconnections⟩
  · refine ⟨by omega, ?_⟩
    rw [hcurrent]
    exact hs.gone
  · refine ⟨by omega, fun d hd => ?_⟩
    rw [hcurrent] at hd
    rcases current_update hd with ⟨-, hn⟩ | ⟨-, hold⟩
    · have := Option.some.inj hn
      omega
    · exact hs.gone d hold
  · refine ⟨by omega, fun d hd => ?_⟩
    rw [hcurrent] at hd
    rcases current_update hd with ⟨-, hn⟩ | ⟨-, hold⟩
    · cases hn
    · exact hs.gone d hold

/-- The connection of a context that is cleared has ended. -/
theorem ended_cleared {a : Instance.Label cfg} {c : UInt32} (hs : Numbered x) (h : x.next a = some x')
    (hcleared : cleared x a = some c) (hcurrent : x.current c = some n) : Ended n x' := by
  rcases current_cases h with ⟨hnone, -⟩ | ⟨d, hd, hnew, hconnections⟩
  · rw [hnone] at hcleared
    cases hcleared
  · obtain rfl : d = c := Option.some.inj (hd.symm.trans hcleared)
    refine ⟨hconnections ▸ hs.bound d n hcurrent, fun e he => ?_⟩
    rw [hnew] at he
    rcases current_update he with ⟨-, hn⟩ | ⟨hne, hold⟩
    · cases hn
    · exact hne (hs.unique e d n hold hcurrent)

end connections

/-! ## The two notifications -/

section notices
variable {cfg : BuildConfig} {s s' : State cfg} {n : Nat}

theorem record_cases {α : Type} (f : Nat → List α) (entry : Option (Nat × α)) (n : Nat) :
    (record f entry n = f n ∧ ∀ a, entry ≠ some (n, a)) ∨
      ∃ a, entry = some (n, a) ∧ record f entry n = f n ++ [a] := by
  cases entry with
  | none => exact .inl ⟨rfl, fun a => by simp⟩
  | some entry =>
    obtain ⟨k, a⟩ := entry
    by_cases hk : k = n
    · obtain rfl := hk
      exact .inr ⟨a, rfl, Function.update_self ..⟩
    · refine .inl ⟨Function.update_of_ne (Ne.symm hk) _ _, fun b hb => ?_⟩
      exact hk (Prod.mk.inj (Option.some.inj hb)).1

theorem count_record {α : Type} [DecidableEq α] (f : Nat → List α) (entry : Option (Nat × α)) (n : Nat) (a : α) :
    (record f entry n).count a = (f n).count a + if entry = some (n, a) then 1 else 0 := by
  rcases record_cases f entry n with ⟨hsame, hother⟩ | ⟨b, rfl, hadded⟩
  · rw [hsame, if_neg (hother a), Nat.add_zero]
  · rw [hadded, List.count_append, List.count_singleton]
    by_cases hb : b = a <;> simp [hb]

structure Inv (s : State cfg) : Prop where
  numbered : Numbered s.x
  unforged : Unforged s.x
  received : ∀ n, s.received n <+: [true, false]
  counted : ∀ n, (s.received n).count false = pending n s.x + (s.notices n).count .established
  noticed : ∀ n, s.notices n = [] ∨ s.notices n = [.established] ∨
    (s.notices n = [.established, .closed] ∧ Ended n s.x)

theorem Inv.inOrder (hs : Inv s) : InOrder s := by
  intro n
  rcases hs.noticed n with h | h | ⟨h, -⟩
  · rw [h]
    exact List.nil_prefix
  · rw [h]
    exact List.prefix_append [Notice.established] [Notice.closed]
  · rw [h]

/-- A notification is of a dispatch thread that had it to make, or of the closing of a context with a name. -/
theorem noticeMade_cases {x : Instance cfg} {a : Instance.Label cfg} {notice : Notice} (hs : Unforged x)
    (h : noticeMade x a = some (n, notice)) :
    notice = .established ∨ (notice = .closed ∧ ∃ i k closed, a = .cleanup i k closed ∧
      (x.table.slot ((x.readers i).data.contextIds.getD k 0)).applicationName ≠ none ∧
        x.current ((x.readers i).data.contextIds.getD k 0) = some n) := by
  cases a with
  | act j block =>
    obtain ⟨action, hhead, hnotice⟩ := Option.bind_eq_some_iff.mp h
    cases notice with
    | established => exact .inl rfl
    | closed => exact absurd hnotice (hs.acting j action (List.mem_of_mem_head? hhead) n)
  | cleanup i k closed =>
    obtain ⟨hname, hcurrent⟩ := Option.ite_none_left_eq_some.mp h
    obtain ⟨m, hm, hpair⟩ := Option.map_eq_some_iff.mp hcurrent
    obtain ⟨rfl, rfl⟩ := Prod.mk.inj hpair
    exact .inr ⟨rfl, i, k, closed, rfl, hname, hm⟩
  | _ => cases h

theorem inv_next {a : Instance.Label cfg} (hs : Inv s) (hanswered : Answered s a) (h : next s a = some s') : Inv s' := by
  obtain ⟨hfollows, h⟩ := Option.ite_none_right_eq_some.mp h
  obtain ⟨x, hx, rfl⟩ := Option.map_eq_some_iff.mp h
  have hreceived : ∀ n, record s.received (frameRead s.x a) n <+: [true, false] := by
    intro n
    rcases record_cases s.received (frameRead s.x a) n with ⟨hsame, -⟩ | ⟨b, hframe, hadded⟩
    · rw [hsame]
      exact hs.received n
    · rw [hadded]
      cases a with
      | read i k m => exact (hfollows.2 (n, b) hframe).1
      | _ => cases hframe
  have hcounted : ∀ n, (record s.received (frameRead s.x a) n).count false =
      pending n x + (record s.notices (noticeMade s.x a) n).count .established := by
    intro n
    have hold := hs.counted n
    have hmoved := pending_next (n := n) hx
    rw [establishes, replies] at hmoved
    rw [count_record, count_record]
    omega
  refine ⟨numbered_next hs.numbered hx, unforged_next hs.unforged hfollows hx, hreceived, hcounted, fun n => ?_⟩
  have honce : (record s.received (frameRead s.x a) n).count false ≤ 1 := (hreceived n).sublist.count_le false
  rcases record_cases s.notices (noticeMade s.x a) n with ⟨hsame, -⟩ | ⟨notice, hnotice, hadded⟩
  · dsimp only
    rw [hsame]
    rcases hs.noticed n with hnone | hone | ⟨hboth, hended⟩
    · exact .inl hnone
    · exact .inr (.inl hone)
    · exact .inr (.inr ⟨hboth, ended_next hended hx⟩)
  · dsimp only
    rcases noticeMade_cases hs.unforged hnotice with rfl | ⟨rfl, i, k, closed, rfl, hname, hcurrent⟩
    · -- the reply read once has now been notified of, so it had not been before
      have hfirst : (s.notices n).count .established = 0 := by
        have hnew := hcounted n
        rw [hadded, List.count_append, List.count_singleton_self] at hnew
        omega
      rcases hs.noticed n with hnone | hone | ⟨hboth, -⟩
      · rw [hadded, hnone]
        exact .inr (.inl rfl)
      · rw [hone] at hfirst
        exact absurd hfirst (by decide)
      · rw [hboth] at hfirst
        exact absurd hfirst (by decide)
    · -- its reply has been read and is not on its way, so it has been notified of
      obtain ⟨hread, hdone⟩ := hanswered hname n hcurrent
      have hbefore : 0 < (s.notices n).count .established := by
        have hold := hs.counted n
        have hpos := List.count_pos_iff.mpr hread
        omega
      rcases hs.noticed n with hnone | hone | ⟨-, hended⟩
      · rw [hnone] at hbefore
        exact absurd hbefore (by decide)
      · rw [hadded, hone]
        exact .inr (.inr ⟨rfl, ended_cleared hs.numbered hx rfl hcurrent⟩)
      · exact absurd hcurrent (hended.gone _)

theorem inv_start (cfg : BuildConfig) (applicationName : CString) :
    Inv (⟨.start cfg applicationName, fun _ => [], fun _ => []⟩ : State cfg) := by
  have hpending : ∀ n, pending n (Instance.start cfg applicationName) = 0 := by
    intro n
    have hreaders : total (fun reader => reader.reading.toList.countP (isReplyOf n))
        (Instance.start cfg applicationName).readers = 0 := total_eq_zero fun i => rfl
    have hdispatchers : total (fun actions => actions.countP (isEstablishedOf n))
        (Instance.start cfg applicationName).dispatchers = 0 := total_eq_zero fun j => rfl
    rw [pending, hreaders, hdispatchers]
    rfl
  refine ⟨⟨?_, ?_⟩, ⟨?_, ?_, ?_⟩, fun n => List.nil_prefix, fun n => ?_, fun n => .inl rfl⟩
  · intro c n h
    cases h
  · intro c d n h
    cases h
  · intro i m h
    cases h
  · intro m h
    cases h
  · intro j a h
    cases h
  · rw [hpending]
    rfl

/-- **The user hears of a connection in order**, in every run in which the reply of a connection has been
dispatched whenever its context is cleared with a name. -/
theorem established_before_closed (cfg : BuildConfig) (applicationName : CString) (s : State cfg)
    (h : ((system cfg applicationName).guarded Answered).Reachable s) : InOrder s := by
  refine Inv.inOrder (StepSystem.Reachable.guarded_invariant (P := Inv) ?_ ?_ h)
  · rintro s rfl
    exact inv_start cfg applicationName
  · intro s a s' hs hanswered hstep
    exact inv_next hs hanswered hstep

end notices

/-! ## Two runs -/

section runs
open Instance

/-- The handshakes of both ends are exchanged. -/
def met : List (Instance.Label .default) :=
  [connectLabel, .acquire firstThread ⟨true, .success⟩,
    .read firstThread 0 (Outgoing.message ⟨0, connectorInternalHandshakeUuid, greeting, true⟩),
    .enqueueInbound firstThread, .acquireInbound firstThread 0 ⟨true, true⟩, .act firstThread none,
    .act firstThread (some 1)]

def answered : List (Instance.Label .default) :=
  met ++ [.read firstThread 0 (Outgoing.message ⟨0, connectorInternalHandshakeUuid, greeting, false⟩),
    .enqueueInbound firstThread, .acquireInbound firstThread 0 ⟨true, true⟩, .act firstThread none, .close 0,
    .cleanup firstThread 0 true]

theorem established_before_closed_run :
    ∃ s, ((system .default greeting).guarded Answered).Reachable s ∧ s.notices 0 = [.established, .closed] ∧
      InOrder s := by
  have hrun : (StepSystem.runList (StepSystem.gate Answered next)
      ⟨.start .default greeting, fun _ => [], fun _ => []⟩ answered).map (fun s => s.notices 0) =
        some [.established, .closed] := by
    decide +kernel
  obtain ⟨s, hs, hnotices⟩ := Option.map_eq_some_iff.mp hrun
  have hreach : ((system .default greeting).guarded Answered).Reachable s :=
    StepSystem.guarded_reachable_runList (.init rfl) hs
  exact ⟨s, hreach, hnotices, established_before_closed .default greeting s hreach⟩

/-- The peer disconnects before its reply: the connection is closed for the user and has never been established. -/
theorem closed_alone : ¬ ∀ s, (system .default greeting).Reachable s → InOrder s := by
  intro h
  have hrun : (StepSystem.runList next ⟨.start .default greeting, fun _ => [], fun _ => []⟩
      (met ++ [.close 0, .cleanup firstThread 0 true])).map (fun s => s.notices 0) = some [.closed] := by
    decide +kernel
  obtain ⟨s, hs, hnotices⟩ := Option.map_eq_some_iff.mp hrun
  have horder := h s (StepSystem.reachable_runList (.init rfl) hs) 0
  rw [hnotices] at horder
  exact absurd horder (by decide)

end runs

end SubstanceConnector.Lifetime
