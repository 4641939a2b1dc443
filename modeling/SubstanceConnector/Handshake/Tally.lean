import Mathlib.Data.List.Perm.Basic
import SubstanceConnector.Library.ThreadPool
import SubstanceConnector.Context.Ownership
import SubstanceConnector.Messaging.Reuse

/-!
# The handshake at one end of a connection

One instance while a connection on its context `c` stays open. A handshake frame of the peer goes
from a read thread through the inbound queue to a dispatch thread, which puts a reply on the outbound
queue and sets the name of the context; a reply of the peer ends as a notification. Each of these
places is counted, and every step of the instance moves one frame by one place (`SideInv`).
-/

namespace SubstanceConnector.Exchange

open ThreadPool ContextSystem

/-! ## Counting handshakes -/

/-- A message with the handshake identifier, internal or not. -/
def isHandshake (internal : Bool) (m : ConnectorMessage) : Bool :=
  decide (m.header.messageId = connectorInternalHandshakeUuid) &&
    (connectorIdentifyInternal m.header.description == internal)

theorem isHandshake_message (internal : Bool) (o : Outgoing) :
    isHandshake internal o.message = (decide (o.type = connectorInternalHandshakeUuid) && (o.internal == internal)) := by
  rw [isHandshake, Outgoing.header_message, Outgoing.identifyInternal_description]

def count (internal : Bool) (ms : List ConnectorMessage) : Nat := ms.countP (isHandshake internal)

def countTagged (internal : Bool) (ms : List (Tagged ConnectorMessage)) : Nat :=
  ms.countP fun m => isHandshake internal m.item

def isReply : Tagged Action → Bool
  | ⟨.enqueueOutbound m, _⟩ => isHandshake false m
  | _ => false

def isNaming : Tagged Action → Bool
  | ⟨.setApplicationName _ _, _⟩ => true
  | _ => false

def isNotice : Tagged Action → Bool
  | ⟨.notifyTrampolines _ type _, _⟩ => type == connectorInternalHandshakeUuid
  | _ => false

/-- The frame an event put on the connection of context `c`. -/
def frameOn (c : UInt32) : Event → Option ConnectorMessage
  | .wrote _ m => if m.item.context = c then some m.item else none
  | _ => none

def frames (c : UInt32) (log : List Event) : List ConnectorMessage := log.filterMap (frameOn c)

/-- The arguments of a notification with the handshake identifier. -/
def noticeOf : Event → Option (UInt32 × Option CString)
  | .notified context type message => if type = connectorInternalHandshakeUuid then some (context, message) else none
  | _ => none

def notices (log : List Event) : List (UInt32 × Option CString) := log.filterMap noticeOf

section tallies
variable {cfg : BuildConfig} (x : Instance cfg)

/-- Received, and not yet with a dispatch thread. -/
def arriving (internal : Bool) : Nat :=
  total (fun reader => countTagged internal reader.reading.toList) x.readers + countTagged internal x.inbound

def replying : Nat := total (fun actions => actions.countP isReply) x.dispatchers

def naming : Nat := total (fun actions => actions.countP isNaming) x.dispatchers

def notifying : Nat := total (fun actions => actions.countP isNotice) x.dispatchers

/-- Replies on their way to the connection. -/
def leaving : Nat := countTagged false x.outbound + total (fun held => countTagged false held.toList) x.writers

end tallies

def named (t : ContextTable) (c : UInt32) (peer : CString) : Nat :=
  if (t.slot c).applicationName.map Pointer.text = some peer then 1 else 0

/-- The HANDSHAKE_SENT flag of a context. -/
def flagged (t : ContextTable) (c : UInt32) : Nat :=
  if (t.slot c).configuration &&& handshakeMask = handshakeSent then 1 else 0

theorem flagged_le (t : ContextTable) (c : UInt32) : flagged t c ≤ 1 := by
  unfold flagged
  split <;> omega

/-- Nothing is queued or with a thread. -/
structure Settled {cfg : BuildConfig} (x : Instance cfg) : Prop where
  reading : ∀ i, (x.readers i).reading = none
  inbound : x.inbound = []
  outbound : x.outbound = []
  writers : ∀ j, x.writers j = none
  dispatchers : ∀ j, x.dispatchers j = []

namespace Settled

variable {cfg : BuildConfig} {x : Instance cfg}

theorem arriving_eq (h : Settled x) (internal : Bool) : arriving x internal = 0 := by
  rw [arriving, h.inbound, total_eq_zero fun i => by rw [h.reading i]; rfl]
  rfl

theorem leaving_eq (h : Settled x) : leaving x = 0 := by
  rw [leaving, h.outbound, total_eq_zero fun j => by rw [h.writers j]; rfl]
  rfl

theorem replying_eq (h : Settled x) : replying x = 0 := total_eq_zero fun j => by rw [h.dispatchers j]; rfl

theorem naming_eq (h : Settled x) : naming x = 0 := total_eq_zero fun j => by rw [h.dispatchers j]; rfl

theorem notifying_eq (h : Settled x) : notifying x = 0 := total_eq_zero fun j => by rw [h.dispatchers j]; rfl

end Settled

theorem countP_eraseIdx {α : Type} (p : α → Bool) {l : List α} {k : Nat} {a : α} (h : l[k]? = some a) :
    l.countP p = (l.eraseIdx k).countP p + if p a then 1 else 0 := by
  obtain ⟨hk, rfl⟩ := List.getElem?_eq_some_iff.mp h
  rw [← (List.getElem_cons_eraseIdx_perm hk).countP_eq p, List.countP_cons]

/-! ## What the messages say -/

/-- A handshake that leaves this end: a reply for context `c` with this end's name. -/
def Sends (c : UInt32) (name : CString) (m : ConnectorMessage) : Prop :=
  m.header.messageId = connectorInternalHandshakeUuid →
    m.context = c ∧ m.text = some name ∧ connectorIdentifyInternal m.header.description = false

/-- A message that arrives at this end: a handshake has the peer's name. -/
def Receives (c : UInt32) (peer : CString) (m : ConnectorMessage) : Prop :=
  m.context = c ∧ (m.header.messageId = connectorInternalHandshakeUuid → m.text = some peer)

def Acts (c : UInt32) (name peer : CString) : Action → Prop
  | .enqueueOutbound m => Sends c name m
  | .setApplicationName context text => context = c ∧ text = peer
  | .notifyTrampolines context type message =>
    type = connectorInternalHandshakeUuid → context = c ∧ message = some peer

/-- The context of the connection: in range, connected, of a type that can be written to. -/
structure Connected (cfg : BuildConfig) (c : UInt32) (t : ContextTable) : Prop where
  inRange : c.toNat < cfg.contextCount
  length : t.contextList.length = cfg.contextCount
  state : (t.slot c).state = connConnected
  supported : (t.slot c).supported = true

/-- One end of the connection, which has received the frames `got` so far. -/
structure SideInv {cfg : BuildConfig} (c : UInt32) (name peer : CString) (got : List ConnectorMessage)
    (x : Instance cfg) : Prop where
  applicationName : x.applicationName = name
  connected : Connected cfg c x.table
  proper : ∀ i, Proper cfg (x.readers i).data
  acquired : ∀ i, c ∈ (x.readers i).data.held → flagged x.table c = 1
  reading : ∀ i, ∀ m ∈ (x.readers i).reading, Receives c peer m.item
  inbound : ∀ m ∈ x.inbound, Receives c peer m.item
  outbound : ∀ m ∈ x.outbound, Sends c name m.item
  writing : ∀ j, ∀ m ∈ x.writers j, Sends c name m.item
  acting : ∀ j, ∀ a ∈ x.dispatchers j, Acts c name peer a.item
  wrote : ∀ m ∈ frames c x.log, m.header.messageId = connectorInternalHandshakeUuid → m.text = some name
  noticed : ∀ n ∈ notices x.log, n = (c, some peer)
  sent : count true (frames c x.log) = flagged x.table c
  replies : count true got = arriving x true + replying x + leaving x + count false (frames c x.log)
  names : count true got = arriving x true + naming x + named x.table c peer
  notified : count false got = arriving x false + notifying x + (notices x.log).length

/-! ## The context -/

theorem handshakeSent_set (a : UInt64) : (a ||| handshakeSent) &&& handshakeMask = handshakeSent := by
  unfold handshakeSent handshakeMask
  apply UInt64.toBitVec_inj.mp
  ext i hi
  simp only [UInt64.toBitVec_and, UInt64.toBitVec_or, BitVec.getElem_and, BitVec.getElem_or]
  grind

/-- The flag is outside the fields that hold the state and the type. -/
theorem state_or_handshakeSent (v : ConnectorContext) :
    ({ v with configuration := v.configuration ||| handshakeSent } : ConnectorContext).state = v.state := by
  have hdisjoint : handshakeSent &&& connMask = 0 := by decide
  rw [ConnectorContext.state, ConnectorContext.state, or_and_distrib, hdisjoint, UInt64.or_zero]

theorem supported_or_handshakeSent (v : ConnectorContext) :
    ({ v with configuration := v.configuration ||| handshakeSent } : ConnectorContext).supported = v.supported := by
  have hdisjoint : handshakeSent &&& commMask = 0 := by decide
  have htype : ({ v with configuration := v.configuration ||| handshakeSent } : ConnectorContext).type = v.type := by
    rw [ConnectorContext.type, ConnectorContext.type, or_and_distrib, hdisjoint, UInt64.or_zero]
  rw [ConnectorContext.supported, ConnectorContext.supported, ConnectorContext.connection, ConnectorContext.connection,
    htype]

section context
variable {cfg : BuildConfig} {c : UInt32} {t u : ContextTable}

theorem Connected.of_slot (h : Connected cfg c t) (hlength : u.contextList.length = t.contextList.length)
    (hslot : u.slot c = t.slot c) : Connected cfg c u :=
  ⟨h.inRange, hlength.trans h.length, hslot ▸ h.state, hslot ▸ h.supported⟩

theorem Connected.opGeneric (h : Connected cfg c t) {op : ConnectorContext → Retcode} :
    contextMessageOpGeneric cfg t c op = op (t.slot c) := by
  rw [contextMessageOpGeneric, if_pos h.inRange, if_pos h.state]

theorem Connected.write (h : Connected cfg c t) :
    contextMessageOpGeneric cfg t c (connectorWriteConnection .success) = .success := by
  rw [h.opGeneric, connectorWriteConnection, if_pos h.supported]

/-- The handshake is written once. -/
theorem Connected.writeHandshake (h : Connected cfg c t) (name : CString) :
    (if (t.slot c).configuration &&& handshakeMask = handshakeSent then
      handshakeWritten cfg name ⟨true, .success⟩ t c = none ∧
        (connectorContextWriteHandshake cfg ⟨true, .success⟩ t c).2 = t
    else
      handshakeWritten cfg name ⟨true, .success⟩ t c =
          some (Outgoing.message ⟨c, connectorInternalHandshakeUuid, name, true⟩) ∧
        (connectorContextWriteHandshake cfg ⟨true, .success⟩ t c).2 =
          t.setSlot c { t.slot c with configuration := (t.slot c).configuration ||| handshakeSent }) := by
  split
  · rename_i hsent
    refine ⟨?_, ?_⟩
    · rw [handshakeWritten, if_neg (fun hwrite => hwrite.1 hsent)]
    · rw [connectorContextWriteHandshake, if_pos h.inRange]
      dsimp only
      rw [if_pos hsent]
  · rename_i hunsent
    refine ⟨?_, ?_⟩
    · rw [handshakeWritten, if_pos ⟨hunsent, h.write⟩]
      rfl
    · have hwrite : connectorWriteConnection .success (t.slot c) = .success := by
        rw [connectorWriteConnection, if_pos h.supported]
      rw [connectorContextWriteHandshake, if_pos h.inRange]
      dsimp only
      rw [if_neg hunsent, if_pos h.state, if_pos rfl, hwrite, if_pos rfl]

theorem slot_writeHandshake_of_ne {context : UInt32} (o : HandshakeOutcome) (hne : c ≠ context) :
    (connectorContextWriteHandshake cfg o t context).2.slot c = t.slot c := by
  obtain h | ⟨-, -, h⟩ := contextWriteHandshake_cases cfg t o context <;> rw [h]
  exact slot_setSlot_of_ne _ _ hne

theorem length_writeHandshake (o : HandshakeOutcome) (context : UInt32) :
    (connectorContextWriteHandshake cfg o t context).2.contextList.length = t.contextList.length := by
  obtain h | ⟨-, -, h⟩ := contextWriteHandshake_cases cfg t o context <;> rw [h]
  exact List.length_set

/-- Acquiring takes nothing, or one context at the end of the thread's list, whose handshake is written. -/
theorem tryAcquire_cases {o : HandshakeOutcome} {thread : ReadThread} {r : Retcode × ReadThread × ContextTable}
    (hp : Proper cfg thread) (h : connectorReadThreadTryAcquire cfg o thread t = .ok r) :
    (r.2.1 = thread ∧ r.2.2.contextList = t.contextList) ∨
      ∃ context u, r.2.1.assignedContexts = thread.assignedContexts + 1 ∧
        r.2.1.contextIds.getD thread.assignedContexts 0 = context ∧ r.2.1.held = thread.held ++ [context] ∧
        Proper cfg r.2.1 ∧ u.contextList = t.contextList ∧
        r.2.2 = (connectorContextWriteHandshake cfg o u context).2 := by
  obtain ⟨u, hpop, rfl⟩ | ⟨context, u, hpop, hroom, rfl⟩ := readThreadTryAcquire_cases h
  · exact .inl ⟨rfl, contextList_availableQueuePop hpop⟩
  · have hin : thread.assignedContexts < thread.contextIds.length := by
      rw [hp.length]
      exact hroom
    refine .inr ⟨context, u, rfl, ?_, hp.held_acquired hroom u context, hp.acquired hroom u context,
      contextList_availableQueuePop hpop, rfl⟩
    simp [ReadThread.acquired, List.getD_eq_getElem?_getD, hin]

end context

/-! ## One step at a time -/

section steps
variable {cfg : BuildConfig} {c : UInt32} {name peer : CString} {got : List ConnectorMessage} {x x' : Instance cfg}

theorem frames_append (log es : List Event) : frames c (log ++ es) = frames c log ++ frames c es := List.filterMap_append

theorem notices_append (log es : List Event) : notices (log ++ es) = notices log ++ notices es := List.filterMap_append

theorem count_append (internal : Bool) (ms ns : List ConnectorMessage) :
    count internal (ms ++ ns) = count internal ms + count internal ns := List.countP_append

theorem total_readers (x : Instance cfg) (i : Fin cfg.inboundCount) (reader : Reader) (internal : Bool) :
    total (fun r => countTagged internal r.reading.toList) (Function.update x.readers i reader) +
        countTagged internal (x.readers i).reading.toList =
      total (fun r => countTagged internal r.reading.toList) x.readers + countTagged internal reader.reading.toList :=
  total_update _ _ _ _

theorem countTagged_none (internal : Bool) : countTagged internal (none : Option (Tagged ConnectorMessage)).toList = 0 := rfl

theorem countTagged_some (internal : Bool) (m : Tagged ConnectorMessage) :
    countTagged internal (some m).toList = if isHandshake internal m.item then 1 else 0 := List.countP_singleton

/-- A read thread changes; the context of the connection may only have gained its flag. -/
theorem SideInv.updateReader (hs : SideInv c name peer got x) {t : ContextTable}
    (hkept : flagged x.table c = 1 → flagged t c = 1) (i : Fin cfg.inboundCount) (reader : Reader)
    (hproper : Proper cfg reader.data) (hheld : c ∈ reader.data.held → flagged t c = 1)
    (hreading : ∀ m ∈ reader.reading, Receives c peer m.item) :
    (∀ k, Proper cfg (Function.update x.readers i reader k).data) ∧
      (∀ k, c ∈ (Function.update x.readers i reader k).data.held → flagged t c = 1) ∧
      ∀ k, ∀ m ∈ (Function.update x.readers i reader k).reading, Receives c peer m.item := by
  refine ⟨?_, ?_, ?_⟩
  · exact (Function.forall_update_iff x.readers fun _ r => Proper cfg r.data).mpr ⟨hproper, fun k _ => hs.proper k⟩
  · exact (Function.forall_update_iff x.readers fun _ r => c ∈ r.data.held → flagged t c = 1).mpr
      ⟨hheld, fun k _ hk => hkept (hs.acquired k hk)⟩
  · exact (Function.forall_update_iff x.readers fun _ r => ∀ m ∈ r.reading, Receives c peer m.item).mpr
      ⟨hreading, fun k _ => hs.reading k⟩

theorem SideInv.updateWriter (hs : SideInv c name peer got x) {j : Fin cfg.outboundCount}
    {held : Option (Tagged ConnectorMessage)} (hheld : ∀ m ∈ held, Sends c name m.item) :
    ∀ k, ∀ m ∈ Function.update x.writers j held k, Sends c name m.item :=
  (Function.forall_update_iff x.writers fun _ w => ∀ m ∈ w, Sends c name m.item).mpr ⟨hheld, fun k _ => hs.writing k⟩

/-- A thread acquires a context: the flag of the connection is set as often as its handshake is written. -/
theorem SideInv.acquire_of (hs : SideInv c name peer got x) {i : Fin cfg.inboundCount} {data : ReadThread}
    {t : ContextTable} {es : List Event} (hproper : Proper cfg data) (hconnected : Connected cfg c t)
    (hname : (t.slot c).applicationName = (x.table.slot c).applicationName)
    (hflag : flagged t c = flagged x.table c + count true (frames c es))
    (hheld : c ∈ data.held → c ∈ (x.readers i).data.held ∨ flagged t c = 1)
    (hreply : count false (frames c es) = 0) (hwrote : ∀ m ∈ frames c es, m.text = some name)
    (hnotices : notices es = []) :
    SideInv c name peer got
      { x with
        table := t
        readers := Function.update x.readers i { x.readers i with data := data }
        log := x.log ++ es } := by
  have hreading : ∀ internal, arriving { x with
      table := t
      readers := Function.update x.readers i { x.readers i with data := data }
      log := x.log ++ es } internal = arriving x internal := by
    intro internal
    have htotal := total_readers x i ⟨data, (x.readers i).reading⟩ internal
    dsimp only at htotal
    simp only [arriving]
    omega
  have hnamed : named t c peer = named x.table c peer := by
    unfold named
    rw [hname]
  have hkept : flagged x.table c = 1 → flagged t c = 1 := by
    intro hset
    have hle := flagged_le t c
    omega
  have hacquired : c ∈ data.held → flagged t c = 1 := by
    intro hmem
    rcases hheld hmem with hbefore | hset
    · exact hkept (hs.acquired i hbefore)
    · exact hset
  obtain ⟨hproper, hacquired, hreceives⟩ :=
    hs.updateReader hkept i ⟨data, (x.readers i).reading⟩ hproper hacquired (hs.reading i)
  refine { hs with connected := hconnected, proper := hproper, acquired := hacquired, reading := hreceives, wrote := ?_,
                   noticed := ?_, sent := ?_, replies := ?_, names := ?_, notified := ?_ }
  · intro m hm hid
    rw [frames_append] at hm
    rcases List.mem_append.mp hm with hm | hm
    · exact hs.wrote m hm hid
    · exact hwrote m hm
  · rw [notices_append, hnotices, List.append_nil]
    exact hs.noticed
  · have hsent := hs.sent
    rw [frames_append, count_append]
    show _ = flagged t c
    omega
  · have hreplies := hs.replies
    rw [hreading, frames_append, count_append, hreply]
    exact hreplies
  · have hnames := hs.names
    rw [hreading]
    show _ = _ + _ + named t c peer
    rw [hnamed]
    exact hnames
  · rw [hreading, notices_append, hnotices, List.append_nil]
    exact hs.notified

theorem context_handshakeWritten {t : ContextTable} {context : UInt32} {o : HandshakeOutcome} {m : ConnectorMessage}
    (h : handshakeWritten cfg name o t context = some m) : m.context = context := by
  unfold handshakeWritten at h
  split at h
  · obtain ⟨m', hm', rfl⟩ := Option.map_eq_some_iff.mp h
    have hcontext : m'.context = context := Outgoing.context_connectorBuildMessage hm'
    exact hcontext
  · cases h

theorem notices_wrote (k : Option Nat) (ms : List ConnectorMessage) :
    notices (ms.map fun m => .wrote k ⟨m, k⟩) = [] := by
  simp [notices, noticeOf, List.filterMap_map, Function.comp_def]

/-- The events and the table a handshake leaves. -/
def handshakeEvents (cfg : BuildConfig) (name : CString) (u : ContextTable) (context : UInt32) (k : Option Nat) :
    List Event := (handshakeWritten cfg name ⟨true, .success⟩ u context).toList.map fun m => .wrote k ⟨m, k⟩

theorem SideInv.acquire_self (hs : SideInv c name peer got x) {i : Fin cfg.inboundCount} {data : ReadThread}
    {u : ContextTable} (hproper : Proper cfg data) (hu : u.contextList = x.table.contextList) (k : Option Nat) :
    SideInv c name peer got
      { x with
        table := (connectorContextWriteHandshake cfg ⟨true, .success⟩ u c).2
        readers := Function.update x.readers i { x.readers i with data := data }
        log := x.log ++ handshakeEvents cfg name u c k } := by
  have hslot := slot_of_contextList hu c
  have hconnected := hs.connected.of_slot (congrArg _ hu) hslot
  have hsame : flagged u c = flagged x.table c := by
    rw [flagged, flagged, hslot]
  have hwrite := hconnected.writeHandshake name
  unfold handshakeEvents
  by_cases hsent : (u.slot c).configuration &&& handshakeMask = handshakeSent
  · rw [if_pos hsent] at hwrite
    rw [hwrite.1, hwrite.2]
    refine hs.acquire_of hproper hconnected (by rw [hslot]) ?_ (fun _ => .inr (if_pos hsent)) rfl ?_ rfl
    · exact hsame
    · exact fun m hm => absurd hm List.not_mem_nil
  · rw [if_neg hsent] at hwrite
    rw [hwrite.1, hwrite.2]
    have hnew := @slot_setSlot_self u c
      { u.slot c with configuration := (u.slot c).configuration ||| handshakeSent }
      (by rw [hconnected.length]; exact hconnected.inRange)
    have hset : flagged (u.setSlot c { u.slot c with configuration := (u.slot c).configuration ||| handshakeSent }) c =
        1 := by
      rw [flagged, hnew, if_pos (handshakeSent_set _)]
    have hunset : flagged x.table c = 0 := by
      rw [← hsame, flagged, if_neg hsent]
    have hframes : frames c ((some (Outgoing.message ⟨c, connectorInternalHandshakeUuid, name, true⟩)).toList.map
        fun m => .wrote k ⟨m, k⟩) = [Outgoing.message ⟨c, connectorInternalHandshakeUuid, name, true⟩] := by
      simp [frames, frameOn]
    refine hs.acquire_of hproper ⟨hconnected.inRange, ?_, ?_, ?_⟩ ?_ ?_ (fun _ => .inr hset) ?_ ?_ (notices_wrote _ _)
    · exact List.length_set.trans hconnected.length
    · rw [hnew, state_or_handshakeSent]
      exact hconnected.state
    · rw [hnew, supported_or_handshakeSent]
      exact hconnected.supported
    · rw [hnew, ← hslot]
    · rw [hset, hunset, hframes, count, List.countP_singleton, isHandshake_message]
      simp
    · rw [hframes, count, List.countP_singleton, isHandshake_message]
      simp
    · rw [hframes]
      intro m hm
      obtain rfl := List.mem_singleton.mp hm
      rw [ConnectorMessage.text, Outgoing.message_message]
      exact congrArg some name.ofBuffer_buffer

theorem SideInv.acquire_other (hs : SideInv c name peer got x) {i : Fin cfg.inboundCount} {data : ReadThread}
    {u : ContextTable} {context : UInt32} (hproper : Proper cfg data) (hu : u.contextList = x.table.contextList)
    (hc : c ≠ context) (hheld : c ∈ data.held → c ∈ (x.readers i).data.held) (k : Option Nat) :
    SideInv c name peer got
      { x with
        table := (connectorContextWriteHandshake cfg ⟨true, .success⟩ u context).2
        readers := Function.update x.readers i { x.readers i with data := data }
        log := x.log ++ handshakeEvents cfg name u context k } := by
  have hslot := slot_of_contextList hu c
  have hconnected := hs.connected.of_slot (congrArg _ hu) hslot
  have hkept := (@slot_writeHandshake_of_ne cfg c u context ⟨true, .success⟩ hc).trans hslot
  have hframes : frames c (handshakeEvents cfg name u context k) = [] := by
    rw [frames, List.filterMap_eq_nil_iff]
    intro e he
    obtain ⟨m, hm, rfl⟩ := List.mem_map.mp he
    rw [frameOn, if_neg]
    rw [context_handshakeWritten (Option.mem_toList.mp hm)]
    exact Ne.symm hc
  refine hs.acquire_of hproper ?_ (by rw [hkept]) ?_ (fun hmem => .inl (hheld hmem)) ?_ ?_ (notices_wrote _ _)
  · exact hs.connected.of_slot ((length_writeHandshake _ _).trans (congrArg _ hu)) hkept
  · rw [hframes, flagged, flagged, hkept]
    rfl
  · rw [hframes]
    rfl
  · rw [hframes]
    exact fun m hm => absurd hm List.not_mem_nil

theorem sideInv_acquire {i : Fin cfg.inboundCount} (hs : SideInv c name peer got x)
    (h : x.acquire i ⟨true, .success⟩ = some x') : SideInv c name peer got x' := by
  obtain ⟨r, id, written, hr, rfl, rfl, rfl⟩ := Instance.acquire_eq_some h
  rcases tryAcquire_cases (hs.proper i) hr with ⟨hthread, hlist⟩ | ⟨context, u, hassigned, hid, hheld, hproper, hu, htable⟩
  · rw [hthread, if_pos rfl]
    have hslot := slot_of_contextList hlist c
    refine hs.acquire_of (hs.proper i) (hs.connected.of_slot (congrArg _ hlist) hslot) (by rw [hslot]) ?_ .inl rfl ?_ rfl
    · rw [flagged, flagged, hslot]
      rfl
    · exact fun m hm => absurd hm List.not_mem_nil
  · have hwritten : handshakeWritten cfg x.applicationName ⟨true, .success⟩ x.table context =
        handshakeWritten cfg name ⟨true, .success⟩ u context := by
      simp only [handshakeWritten, contextMessageOpGeneric, slot_of_contextList hu context, hs.applicationName]
    rw [if_neg (by omega), hid, htable, hwritten]
    by_cases hc : c = context
    · subst hc
      exact hs.acquire_self hproper hu _
    · refine hs.acquire_other hproper hu hc ?_ _
      rw [hheld]
      intro hmem
      rcases List.mem_append.mp hmem with hmem | hmem
      · exact hmem
      · exact absurd (List.mem_singleton.mp hmem) hc

theorem sideInv_enqueueInbound {i : Fin cfg.inboundCount} (hs : SideInv c name peer got x)
    (h : x.enqueueInbound i = some x') : SideInv c name peer got x' := by
  obtain ⟨m, hm, rfl⟩ := Option.map_eq_some_iff.mp h
  have harriving : ∀ internal, arriving { x with
      readers := Function.update x.readers i { x.readers i with reading := none }
      inbound := x.inbound ++ [m] } internal = arriving x internal := by
    intro internal
    have htotal := total_readers x i ⟨(x.readers i).data, none⟩ internal
    rw [hm, countTagged_none, countTagged_some] at htotal
    simp only [arriving, countTagged, List.countP_append, List.countP_singleton] at htotal ⊢
    omega
  have hempty : ∀ m' ∈ (none : Option (Tagged ConnectorMessage)), Receives c peer m'.item := by
    intro m' hm'
    cases hm'
  obtain ⟨hproper, hacquired, hreading⟩ :=
    hs.updateReader id i ⟨(x.readers i).data, none⟩ (hs.proper i) (hs.acquired i) hempty
  refine { hs with proper := hproper, acquired := hacquired, reading := hreading, inbound := ?_, replies := ?_,
                   names := ?_, notified := ?_ }
  · intro m' hm'
    rcases List.mem_append.mp hm' with hold | hnew
    · exact hs.inbound m' hold
    · obtain rfl := List.mem_singleton.mp hnew
      exact hs.reading i m' hm
  · rw [harriving]
    exact hs.replies
  · rw [harriving]
    exact hs.names
  · rw [harriving]
    exact hs.notified

/-- A frame of the peer arrives. -/
theorem sideInv_read {i : Fin cfg.inboundCount} {k : Nat} {m : ConnectorMessage} (hs : SideInv c name peer got x)
    (hm : m.header.messageId = connectorInternalHandshakeUuid → m.text = some peer)
    (hcontext : (x.readers i).data.contextIds.getD k 0 = c) (h : x.read i k m = some x') :
    SideInv c name peer (got ++ [m]) x' := by
  obtain ⟨hassigned, hidle, context, rfl, rfl⟩ := Instance.read_eq_some h
  rw [hcontext]
  have harriving : ∀ internal, arriving { x with readers := Function.update x.readers i { x.readers i with
      reading := some ⟨{ m with context := c }, x.current c⟩ } } internal =
        arriving x internal + count internal [m] := by
    intro internal
    have htotal := total_readers x i ⟨(x.readers i).data, some ⟨{ m with context := c }, x.current c⟩⟩ internal
    rw [hidle, countTagged_none] at htotal
    have hsome : countTagged internal (some (⟨{ m with context := c }, x.current c⟩ : Tagged ConnectorMessage)).toList =
        count internal [m] := rfl
    simp only [arriving] at htotal ⊢
    omega
  have hnew : ∀ m' ∈ some (⟨{ m with context := c }, x.current c⟩ : Tagged ConnectorMessage),
      Receives c peer m'.item := by
    intro m' hm'
    obtain rfl := Option.some.inj hm'
    exact ⟨rfl, hm⟩
  obtain ⟨hproper, hacquired, hreading⟩ :=
    hs.updateReader id i ⟨(x.readers i).data, some _⟩ (hs.proper i) (hs.acquired i) hnew
  refine { hs with proper := hproper, acquired := hacquired, reading := hreading, replies := ?_, names := ?_,
                   notified := ?_ }
  · have hreplies := hs.replies
    rw [harriving, count_append, hreplies]
    show _ = _ + replying x + leaving x + count false (frames c x.log)
    omega
  · have hnames := hs.names
    rw [harriving, count_append, hnames]
    show _ = _ + naming x + named x.table c peer
    omega
  · have hnotified := hs.notified
    rw [harriving, count_append, hnotified]
    show _ = _ + notifying x + (notices x.log).length
    omega

theorem sideInv_writeMessage (hs : SideInv c name peer got x) {type : Option Uuid}
    (htype : type ≠ some connectorInternalHandshakeUuid) (built : Bool) (context : UInt32) (message : Option CString) :
    SideInv c name peer got (x.writeMessage built context type message) := by
  have hid : ∀ m, connectorBuildMessage built context type message = some m →
      m.header.messageId ≠ connectorInternalHandshakeUuid := by
    intro m hm heq
    obtain ⟨t, text, -, rfl, -, rfl⟩ := Outgoing.connectorBuildMessage_eq_some.mp hm
    rw [Outgoing.header_message] at heq
    exact htype (congrArg some heq)
  have hnone : countTagged false ((connectorBuildMessage built context type message).toList.map
      fun m => ⟨m, x.current context⟩) = 0 := by
    rw [countTagged, List.countP_eq_zero]
    intro m hm
    obtain ⟨m', hm', rfl⟩ := List.mem_map.mp hm
    simp [isHandshake, hid m' (Option.mem_toList.mp hm')]
  have hleaving : leaving (x.writeMessage built context type message) = leaving x := by
    simp only [leaving, Instance.writeMessage, countTagged, List.countP_append] at hnone ⊢
    omega
  refine { hs with outbound := ?_, replies := ?_ }
  · intro m hm
    rcases List.mem_append.mp hm with hold | hnew
    · exact hs.outbound m hold
    · obtain ⟨m', hm', rfl⟩ := List.mem_map.mp hnew
      exact fun heq => absurd heq (hid m' (Option.mem_toList.mp hm'))
  · rw [hleaving]
    exact hs.replies

theorem total_writers (x : Instance cfg) (j : Fin cfg.outboundCount) (held : Option (Tagged ConnectorMessage)) :
    total (fun held => countTagged false held.toList) (Function.update x.writers j held) +
        countTagged false (x.writers j).toList =
      total (fun held => countTagged false held.toList) x.writers + countTagged false held.toList :=
  total_update _ _ _ _

theorem sideInv_acquireOutbound {j : Fin cfg.outboundCount} {k : Nat} (hs : SideInv c name peer got x)
    (h : x.acquireOutbound j k = some x') : SideInv c name peer got x' := by
  obtain ⟨hidle, m, hm, rfl⟩ := Instance.acquireOutbound_eq_some h
  have hleaving : leaving { x with
      outbound := x.outbound.eraseIdx k
      writers := Function.update x.writers j (some m) } = leaving x := by
    have htotal := total_writers x j (some m)
    have herase := countP_eraseIdx (fun m => isHandshake false m.item) hm
    rw [hidle, countTagged_none, countTagged_some] at htotal
    simp only [leaving]
    unfold countTagged at *
    omega
  have hsends : ∀ m' ∈ some m, Sends c name m'.item := by
    intro m' hm'
    obtain rfl := Option.some.inj hm'
    exact hs.outbound m (List.mem_of_getElem? hm)
  refine { hs with outbound := ?_, writing := hs.updateWriter hsends, replies := ?_ }
  · exact fun m' hm' => hs.outbound m' (List.mem_of_mem_eraseIdx hm')
  · rw [hleaving]
    exact hs.replies

/-- What a write thread logs: a reply goes to the connection, and so may a message of the user. -/
theorem send_events (hs : SideInv c name peer got x) {m : Tagged ConnectorMessage} (hm : Sends c name m.item) :
    ∃ es, (if contextMessageOpGeneric cfg x.table m.item.context (connectorWriteConnection .success) = .success then
        x.log ++ [.wrote (x.current m.item.context) m] else x.log) = x.log ++ es ∧
      notices es = [] ∧ (∀ f ∈ frames c es, f = m.item) ∧ count true (frames c es) = 0 ∧
      count false (frames c es) = if isHandshake false m.item then 1 else 0 := by
  by_cases hid : m.item.header.messageId = connectorInternalHandshakeUuid
  · obtain ⟨hcontext, -, hinternal⟩ := hm hid
    have hframes : frames c [.wrote (x.current c) m] = [m.item] := by
      simp [frames, frameOn, hcontext]
    refine ⟨[.wrote (x.current c) m], ?_, rfl, ?_, ?_, ?_⟩
    · rw [hcontext, if_pos hs.connected.write]
    · rw [hframes]
      exact fun f hf => List.mem_singleton.mp hf
    · rw [hframes, count, List.countP_singleton]
      simp [isHandshake, hinternal]
    · rw [hframes, count, List.countP_singleton]
  · have hzero : ∀ internal, isHandshake internal m.item = false := by
      intro internal
      simp [isHandshake, hid]
    have hcount : ∀ internal (fs : List ConnectorMessage), (∀ f ∈ fs, f = m.item) → count internal fs = 0 := by
      intro internal fs hfs
      rw [count, List.countP_eq_zero]
      intro f hf
      rw [hfs f hf, hzero]
      decide
    have hmem : ∀ f ∈ frames c [.wrote (x.current m.item.context) m], f = m.item := by
      intro f hf
      rw [frames, List.mem_filterMap] at hf
      obtain ⟨e, he, hframe⟩ := hf
      obtain rfl := List.mem_singleton.mp he
      dsimp only [frameOn] at hframe
      split at hframe
      · exact (Option.some.inj hframe).symm
      · cases hframe
    rw [hzero]
    split
    · exact ⟨_, rfl, rfl, hmem, hcount true _ hmem, hcount false _ hmem⟩
    · exact ⟨[], (List.append_nil _).symm, rfl, fun f hf => absurd hf List.not_mem_nil, rfl, rfl⟩

/-- A reply is put on the connection; other messages do not count. -/
theorem sideInv_send {j : Fin cfg.outboundCount} (hs : SideInv c name peer got x) (h : x.send j .success = some x') :
    SideInv c name peer got x' := by
  obtain ⟨m, hm, rfl⟩ := Option.map_eq_some_iff.mp h
  have hsends := hs.writing j m hm
  have htotal := total_writers x j none
  rw [hm, countTagged_none, countTagged_some] at htotal
  have hempty : ∀ m' ∈ (none : Option (Tagged ConnectorMessage)), Sends c name m'.item := by
    intro m' hm'
    cases hm'
  obtain ⟨es, hlog, hnotices, hframes, htrue, hfalse⟩ := send_events hs hsends
  dsimp only
  rw [hlog]
  refine { hs with writing := hs.updateWriter hempty, wrote := ?_, noticed := ?_, sent := ?_, replies := ?_,
                   notified := ?_ }
  · intro f hf hid
    rw [frames_append] at hf
    rcases List.mem_append.mp hf with hf | hf
    · exact hs.wrote f hf hid
    · obtain rfl := hframes f hf
      exact (hsends hid).2.1
  · rw [notices_append, hnotices, List.append_nil]
    exact hs.noticed
  · rw [frames_append, count_append, htrue]
    exact hs.sent
  · have hreplies := hs.replies
    rw [frames_append, count_append, hfalse]
    show _ = arriving x true + replying x + (countTagged false x.outbound +
      total (fun held => countTagged false held.toList) (Function.update x.writers j none)) + _
    unfold leaving at hreplies
    omega
  · rw [notices_append, hnotices, List.append_nil]
    exact hs.notified

/-- What becomes of a message a dispatch thread takes: a handshake of the peer is answered and its name
kept, a reply is passed on. -/
theorem dispatch_counts {m : ConnectorMessage} (hm : Receives c peer m) (origin : Option Nat) :
    let actions := (dispatchMessage (some name) ⟨true, true⟩ m).map fun a => (⟨a, origin⟩ : Tagged Action)
    (∀ a ∈ actions, Acts c name peer a.item) ∧ (actions.countP isReply = if isHandshake true m then 1 else 0) ∧
      (actions.countP isNaming = if isHandshake true m then 1 else 0) ∧
      (actions.countP isNotice = if isHandshake false m then 1 else 0) := by
  obtain ⟨hcontext, hpeer⟩ := hm
  by_cases hid : m.header.messageId = connectorInternalHandshakeUuid
  · have htext := hpeer hid
    cases hinternal : connectorIdentifyInternal m.header.description with
    | true =>
      have hactions : dispatchMessage (some name) ⟨true, true⟩ m =
          [.enqueueOutbound (Outgoing.message ⟨c, connectorInternalHandshakeUuid, name, false⟩),
            .setApplicationName c peer] := by
        rw [dispatchMessage, if_pos hinternal, hcontext, hid, htext, connectorCallInternalMessage, findCallback_eq,
          if_pos rfl]
        rfl
      have hsends : Sends c name (Outgoing.message ⟨c, connectorInternalHandshakeUuid, name, false⟩) := by
        intro _
        refine ⟨rfl, congrArg some name.ofBuffer_buffer, ?_⟩
        rw [Outgoing.header_message, Outgoing.identifyInternal_description]
      have htrue : isHandshake true m = true := by simp [isHandshake, hid, hinternal]
      have hfalse : isHandshake false m = false := by simp [isHandshake, hinternal]
      have hreply : isHandshake false (Outgoing.message ⟨c, connectorInternalHandshakeUuid, name, false⟩) = true := by
        rw [isHandshake_message]
        simp
      rw [hactions, htrue, hfalse]
      refine ⟨?_, ?_, rfl, rfl⟩
      · intro a ha
        rcases List.mem_pair.mp ha with rfl | rfl
        · exact hsends
        · exact ⟨rfl, rfl⟩
      · simp [isReply, hreply]
    | false =>
      have hactions : dispatchMessage (some name) ⟨true, true⟩ m =
          [.notifyTrampolines c connectorInternalHandshakeUuid (some peer)] := by
        rw [dispatchMessage, if_neg (by rw [hinternal]; decide), hcontext, hid, htext]
      have htrue : isHandshake true m = false := by simp [isHandshake, hinternal]
      have hfalse : isHandshake false m = true := by simp [isHandshake, hid, hinternal]
      rw [hactions, htrue, hfalse]
      refine ⟨?_, rfl, rfl, ?_⟩
      · intro a ha
        obtain rfl := List.mem_singleton.mp ha
        exact fun _ => ⟨rfl, rfl⟩
      · simp [isNotice]
  · have hzero : ∀ internal, isHandshake internal m = false := by
      intro internal
      simp [isHandshake, hid]
    rw [hzero, hzero]
    by_cases hinternal : connectorIdentifyInternal m.header.description = true
    · have hactions : dispatchMessage (some name) ⟨true, true⟩ m = [] := by
        rw [dispatchMessage, if_pos hinternal, connectorCallInternalMessage, findCallback_eq, if_neg hid]
      rw [hactions]
      exact ⟨fun a ha => absurd ha List.not_mem_nil, rfl, rfl, rfl⟩
    · have hactions : dispatchMessage (some name) ⟨true, true⟩ m =
          [.notifyTrampolines c m.header.messageId m.text] := by
        rw [dispatchMessage, if_neg hinternal, hcontext]
      rw [hactions]
      refine ⟨?_, rfl, rfl, ?_⟩
      · intro a ha
        obtain rfl := List.mem_singleton.mp ha
        exact fun heq => absurd heq hid
      · simp [isNotice, hid]

theorem total_dispatchers (p : Tagged Action → Bool) (x : Instance cfg) (j : Fin cfg.dispatchCount)
    (actions : List (Tagged Action)) :
    total (fun actions => actions.countP p) (Function.update x.dispatchers j actions) + (x.dispatchers j).countP p =
      total (fun actions => actions.countP p) x.dispatchers + actions.countP p :=
  total_update _ _ _ _

theorem sideInv_acquireInbound {j : Fin cfg.dispatchCount} {k : Nat} (hs : SideInv c name peer got x)
    (h : x.acquireInbound j k ⟨true, true⟩ = some x') : SideInv c name peer got x' := by
  obtain ⟨hidle, m, hm, rfl⟩ := Instance.acquireInbound_eq_some h
  obtain rfl := hs.applicationName
  obtain ⟨hacts, hreply, hname, hnotice⟩ := @dispatch_counts c x.applicationName peer m.item
    (hs.inbound m (List.mem_of_getElem? hm)) m.origin
  have htrue := countP_eraseIdx (fun m => isHandshake true m.item) hm
  have hfalse := countP_eraseIdx (fun m => isHandshake false m.item) hm
  have hreplying := total_dispatchers isReply x j
    ((dispatchMessage (some x.applicationName) ⟨true, true⟩ m.item).map (⟨·, m.origin⟩))
  have hnaming := total_dispatchers isNaming x j
    ((dispatchMessage (some x.applicationName) ⟨true, true⟩ m.item).map (⟨·, m.origin⟩))
  have hnotifying := total_dispatchers isNotice x j
    ((dispatchMessage (some x.applicationName) ⟨true, true⟩ m.item).map (⟨·, m.origin⟩))
  rw [hidle, List.countP_nil, hreply] at hreplying
  rw [hidle, List.countP_nil, hname] at hnaming
  rw [hidle, List.countP_nil, hnotice] at hnotifying
  refine { hs with inbound := ?_, acting := ?_, replies := ?_, names := ?_, notified := ?_ }
  · exact fun m' hm' => hs.inbound m' (List.mem_of_mem_eraseIdx hm')
  · exact (Function.forall_update_iff x.dispatchers fun _ d => ∀ a ∈ d, Acts c x.applicationName peer a.item).mpr
      ⟨hacts, fun k _ => hs.acting k⟩
  · have hreplies := hs.replies
    unfold arriving replying countTagged at *
    show _ = _ + _ + leaving x + _
    dsimp only
    omega
  · have hnames := hs.names
    unfold arriving naming countTagged at *
    dsimp only
    omega
  · have hnotified := hs.notified
    unfold arriving notifying countTagged at *
    dsimp only
    omega

theorem take_action {j : Fin cfg.dispatchCount} {a : Tagged Action} {rest : List (Tagged Action)}
    (h : x.dispatchers j = a :: rest) (p : Tagged Action → Bool) :
    total (fun actions => actions.countP p) (Function.update x.dispatchers j rest) + (p a).toNat =
      total (fun actions => actions.countP p) x.dispatchers := by
  have htotal := total_dispatchers p x j rest
  rw [h, List.countP_cons] at htotal
  cases hp : p a with
  | true =>
    rw [hp, if_pos rfl] at htotal
    rw [Bool.toNat_true]
    omega
  | false =>
    rw [hp, if_neg Bool.false_ne_true] at htotal
    rw [Bool.toNat_false]
    omega

theorem SideInv.acting_head (hs : SideInv c name peer got x) {j : Fin cfg.dispatchCount} {a : Tagged Action}
    {rest : List (Tagged Action)} (h : x.dispatchers j = a :: rest) : Acts c name peer a.item :=
  hs.acting j a (h ▸ List.mem_cons_self)

theorem SideInv.acting_rest (hs : SideInv c name peer got x) {j : Fin cfg.dispatchCount} {a : Tagged Action}
    {rest : List (Tagged Action)} (h : x.dispatchers j = a :: rest) :
    ∀ k, ∀ b ∈ Function.update x.dispatchers j rest k, Acts c name peer b.item := by
  refine (Function.forall_update_iff x.dispatchers fun _ d => ∀ b ∈ d, Acts c name peer b.item).mpr
    ⟨?_, fun k _ => hs.acting k⟩
  intro b hb
  exact hs.acting j b (h ▸ List.mem_cons_of_mem _ hb)

theorem sideInv_reply {j : Fin cfg.dispatchCount} {m : ConnectorMessage} {origin : Option Nat}
    {rest : List (Tagged Action)} (hs : SideInv c name peer got x)
    (h : x.dispatchers j = ⟨.enqueueOutbound m, origin⟩ :: rest) :
    SideInv c name peer got
      { x with dispatchers := Function.update x.dispatchers j rest, outbound := x.outbound ++ [⟨m, origin⟩] } := by
  have hsends : Sends c name m := hs.acting_head h
  have hreplying := take_action h isReply
  have hnaming := take_action h isNaming
  have hnotifying := take_action h isNotice
  simp only [isReply, isNaming, isNotice, Bool.toNat_false, Nat.add_zero] at hreplying hnaming hnotifying
  have hnew : countTagged false (x.outbound ++ [⟨m, origin⟩]) =
      countTagged false x.outbound + (isHandshake false m).toNat := by
    rw [countTagged, List.countP_append, List.countP_singleton]
    cases isHandshake false m <;> rfl
  refine { hs with outbound := ?_, acting := hs.acting_rest h, replies := ?_, names := ?_, notified := ?_ }
  · intro m' hm'
    rcases List.mem_append.mp hm' with hold | hnew
    · exact hs.outbound m' hold
    · obtain rfl := List.mem_singleton.mp hnew
      exact hsends
  · have hreplies := hs.replies
    unfold replying leaving at *
    show _ = arriving x true + _ + _ + _
    dsimp only
    omega
  · have hnames := hs.names
    unfold naming at *
    show _ = arriving x true + _ + _
    dsimp only
    omega
  · have hnotified := hs.notified
    unfold notifying at *
    show _ = arriving x false + _ + _
    dsimp only
    omega

/-- The name of the peer is set once, because at most one handshake arrived. -/
theorem sideInv_setName {j : Fin cfg.dispatchCount} {context : UInt32} {text : CString} {origin : Option Nat} {block : Nat}
    {rest : List (Tagged Action)} (hs : SideInv c name peer got x) (hgot : count true got ≤ 1)
    (h : x.dispatchers j = ⟨.setApplicationName context text, origin⟩ :: rest)
    (hnext : { x with dispatchers := Function.update x.dispatchers j rest }.perform (some block) origin
      (.setApplicationName context text) = some x') : SideInv c name peer got x' := by
  obtain ⟨rfl, rfl⟩ : context = c ∧ text = peer := hs.acting_head h
  obtain ⟨r, hr, rfl⟩ := toOption_map_eq_some.mp hnext
  rw [connectorContextSetApplicationName, if_pos ⟨hs.connected.inRange, by simp⟩] at hr
  obtain rfl := Except.ok.inj hr
  have hin : context.toNat < x.table.contextList.length := by
    rw [hs.connected.length]
    exact hs.connected.inRange
  have hnew := @slot_setSlot_self x.table context
    { x.table.slot context with applicationName := some (.block block text) } hin
  have hflag : flagged (x.table.setSlot context
      { x.table.slot context with applicationName := some (.block block text) }) context = flagged x.table context := by
    rw [flagged, hnew]
    rfl
  have hnamed : named (x.table.setSlot context
      { x.table.slot context with applicationName := some (.block block text) }) context text = 1 := by
    rw [named, hnew]
    exact if_pos rfl
  have hreplying := take_action h isReply
  have hnaming := take_action h isNaming
  have hnotifying := take_action h isNotice
  simp only [isReply, isNaming, isNotice, Bool.toNat_false, Bool.toNat_true, Nat.add_zero] at hreplying hnaming hnotifying
  have hframes : frames context (x.log ++ [.named (x.current context) ⟨text, origin⟩]) = frames context x.log := by
    rw [frames_append]
    exact List.append_nil _
  have hnotices : notices (x.log ++ [.named (x.current context) ⟨text, origin⟩]) = notices x.log := by
    rw [notices_append]
    exact List.append_nil _
  refine { hs with connected := ⟨hs.connected.inRange, ?_, ?_, ?_⟩, acquired := ?_, acting := hs.acting_rest h, wrote := ?_,
                   noticed := ?_, sent := ?_, replies := ?_, names := ?_, notified := ?_ }
  · exact List.length_set.trans hs.connected.length
  · show ((x.table.setSlot context _).slot context).state = _
    rw [hnew]
    exact hs.connected.state
  · show ((x.table.setSlot context _).slot context).supported = _
    rw [hnew]
    exact hs.connected.supported
  · intro i hi
    exact hflag.trans (hs.acquired i hi)
  · dsimp only
    rw [hframes]
    exact hs.wrote
  · dsimp only
    rw [hnotices]
    exact hs.noticed
  · dsimp only
    rw [hframes]
    exact hs.sent.trans hflag.symm
  · have hreplies := hs.replies
    unfold replying at *
    dsimp only
    rw [hframes]
    show _ = arriving x true + _ + leaving x + _
    omega
  · have hnames := hs.names
    unfold naming at *
    show _ = arriving x true + total (fun actions => actions.countP isNaming) (Function.update x.dispatchers j rest) +
      named (x.table.setSlot context _) context text
    rw [hnamed]
    omega
  · have hnotified := hs.notified
    unfold notifying at *
    dsimp only
    rw [hnotices]
    show _ = arriving x false + _ + _
    omega

theorem sideInv_notify {j : Fin cfg.dispatchCount} {context : UInt32} {type : Uuid} {message : Option CString}
    {origin : Option Nat} {rest : List (Tagged Action)} (hs : SideInv c name peer got x)
    (h : x.dispatchers j = ⟨.notifyTrampolines context type message, origin⟩ :: rest) :
    SideInv c name peer got
      { x with
        dispatchers := Function.update x.dispatchers j rest
        log := x.log ++ [.notified context type message] } := by
  have hacts : type = connectorInternalHandshakeUuid → context = c ∧ message = some peer := hs.acting_head h
  have hreplying := take_action h isReply
  have hnaming := take_action h isNaming
  have hnotifying := take_action h isNotice
  simp only [isReply, isNaming, isNotice, Bool.toNat_false, Nat.add_zero] at hreplying hnaming hnotifying
  have hframes : frames c (x.log ++ [.notified context type message]) = frames c x.log := by
    rw [frames_append]
    exact List.append_nil _
  have hlength : (notices [.notified context type message]).length =
      (type == connectorInternalHandshakeUuid).toNat := by
    by_cases htype : type = connectorInternalHandshakeUuid
    · simp [notices, noticeOf, htype]
    · rw [beq_false_of_ne htype]
      simp [notices, noticeOf, htype]
  refine { hs with acting := hs.acting_rest h, wrote := ?_, noticed := ?_, sent := ?_, replies := ?_, names := ?_,
                   notified := ?_ }
  · dsimp only
    rw [hframes]
    exact hs.wrote
  · intro n hn
    dsimp only at hn
    rw [notices_append] at hn
    rcases List.mem_append.mp hn with hold | hnew
    · exact hs.noticed n hold
    · rw [notices, List.mem_filterMap] at hnew
      obtain ⟨e, he, hnotice⟩ := hnew
      obtain rfl := List.mem_singleton.mp he
      dsimp only [noticeOf] at hnotice
      split at hnotice
      · rename_i htype
        obtain ⟨rfl, rfl⟩ := hacts htype
        exact (Option.some.inj hnotice).symm
      · cases hnotice
  · dsimp only
    rw [hframes]
    exact hs.sent
  · have hreplies := hs.replies
    unfold replying at *
    dsimp only
    rw [hframes]
    show _ = arriving x true + _ + leaving x + _
    omega
  · have hnames := hs.names
    unfold naming at *
    show _ = arriving x true + _ + _
    dsimp only
    omega
  · have hnotified := hs.notified
    unfold notifying at *
    dsimp only
    rw [notices_append, List.length_append, hlength]
    show _ = arriving x false + _ + _
    omega

theorem sideInv_act {j : Fin cfg.dispatchCount} {block : Nat} (hs : SideInv c name peer got x) (hgot : count true got ≤ 1)
    (h : x.act j (some block) = some x') : SideInv c name peer got x' := by
  obtain ⟨⟨action, origin⟩, rest, hactions, hperform⟩ := Instance.act_eq_some h
  cases action with
  | enqueueOutbound m =>
    obtain rfl := Option.some.inj hperform
    exact sideInv_reply hs hactions
  | setApplicationName context text => exact sideInv_setName hs hgot hactions hperform
  | notifyTrampolines context type message =>
    obtain rfl := Option.some.inj hperform
    exact sideInv_notify hs hactions

end steps

end SubstanceConnector.Exchange
