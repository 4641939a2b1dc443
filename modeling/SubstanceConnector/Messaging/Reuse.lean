import SubstanceConnector.Messaging.Instance

/-!
# Messages and reused identifiers

A message carries the number of a context and nothing that says which connection it was meant for.
While it waits in a queue or with a thread, the context can be closed, cleared, returned and handed
out again, and the message then goes to the new connection (`stale_message_written`). Everything
stays with its own connection in the runs in which a connection begins only when nothing of an
earlier one with the same number is left (`messages_stay_with_connection`).
-/

namespace SubstanceConnector

open BuildConfig (firstThread secondThread)

/-! ## Application names in the table -/

/-- No operation but `connector_context_set_application_name` gives a slot a name. -/
def KeepsNames (t u : ContextTable) : Prop :=
  ∀ c, (u.slot c).applicationName = none ∨ (u.slot c).applicationName = (t.slot c).applicationName

namespace KeepsNames

theorem refl (t : ContextTable) : KeepsNames t t := fun _ => .inr rfl

theorem trans {t u v : ContextTable} (h : KeepsNames t u) (h' : KeepsNames u v) : KeepsNames t v := by
  intro c
  rcases h' c with hnone | hsame
  · exact .inl hnone
  · rw [hsame]
    exact h c

theorem of_contextList {t u : ContextTable} (h : u.contextList = t.contextList) : KeepsNames t u := by
  intro c
  right
  rw [ContextTable.slot, ContextTable.slot, h]

end KeepsNames

theorem applicationName_setSlot_self (t : ContextTable) (context : UInt32) (v : ConnectorContext) :
    ((t.setSlot context v).slot context).applicationName = none ∨
      ((t.setSlot context v).slot context).applicationName = v.applicationName := by
  by_cases hlt : context.toNat < t.contextList.length
  · right
    rw [slot_setSlot_self v hlt]
  · left
    have hout : (t.contextList.set context.toNat v).length ≤ context.toNat := by
      rw [List.length_set]
      omega
    rw [ContextTable.slot, ContextTable.setSlot, List.getD_eq_getElem?_getD, List.getElem?_eq_none hout]
    rfl

theorem KeepsNames.setSlot {t : ContextTable} {context : UInt32} {v : ConnectorContext}
    (h : v.applicationName = none ∨ v.applicationName = (t.slot context).applicationName) :
    KeepsNames t (t.setSlot context v) := by
  intro c
  by_cases hc : c = context
  · subst hc
    rcases applicationName_setSlot_self t c v with hnone | hnew
    · exact .inl hnone
    · rw [hnew]
      exact h
  · right
    rw [slot_setSlot_of_ne t v hc]

section operations
variable {cfg : BuildConfig} {t : ContextTable}

theorem keepsNames_close (context : UInt32) : KeepsNames t (connectorContextClose cfg t context).2 := by
  obtain h | ⟨-, -, h⟩ := contextClose_cases cfg t context <;> rw [h]
  · exact .refl t
  · exact .setSlot (.inr rfl)

theorem keepsNames_writeHandshake (o : HandshakeOutcome) (context : UInt32) :
    KeepsNames t (connectorContextWriteHandshake cfg o t context).2 := by
  obtain h | ⟨-, -, h⟩ := contextWriteHandshake_cases cfg t o context <;> rw [h]
  · exact .refl t
  · exact .setSlot (.inr rfl)

theorem keepsNames_tryAcquire {o : HandshakeOutcome} {thread : ReadThread} {r : Retcode × ReadThread × ContextTable}
    (h : connectorReadThreadTryAcquire cfg o thread t = .ok r) : KeepsNames t r.2.2 := by
  obtain ⟨u, hpop, rfl⟩ | ⟨context, u, hpop, -, rfl⟩ := readThreadTryAcquire_cases h
  · exact .of_contextList (contextList_availableQueuePop hpop)
  · exact (KeepsNames.of_contextList (contextList_availableQueuePop hpop)).trans (keepsNames_writeHandshake _ _)

theorem keepsNames_shutdown {closed : Bool} {context : UInt32} {r : ShutdownResult}
    (h : connectorContextShutdownFromReadThread cfg closed t context = .ok r) : KeepsNames t r.table := by
  obtain ⟨-, pushed, hpush, rfl⟩ | ⟨-, rfl⟩ := contextShutdown_cases h
  · exact (KeepsNames.setSlot (.inl rfl)).trans (.of_contextList (contextList_pushFree hpush))
  · exact .refl _

/-- What a request leaves of the names. A context it returns has none, unless an accept found one there. -/
structure Renames (accept : Bool) (t : ContextTable) (r : Retcode × Option UInt32 × ContextTable) : Prop where
  keeps : KeepsNames t r.2.2
  begun : ∀ c, r.1 = .success → r.2.1 = some c → (accept = true → (t.slot c).applicationName = none) →
    (r.2.2.slot c).applicationName = none

theorem Renames.of_failure {accept : Bool} {r : Retcode × Option UInt32 × ContextTable} (hkeeps : KeepsNames t r.2.2)
    (h : r.1 ≠ .success) : Renames accept t r := ⟨hkeeps, fun _ hsuccess => absurd hsuccess h⟩

/-- A slot was filled with a context that has no name, or for an accept the name the slot had. -/
theorem Renames.of_filled {accept : Bool} {u w : ContextTable} {context : UInt32} {v : ConnectorContext}
    (hu : u.contextList = t.contextList)
    (hv : v.applicationName = none ∨ accept = true ∧ v.applicationName = (u.slot context).applicationName)
    (hw : w.contextList = (u.setSlot context v).contextList) : Renames accept t (.success, some context, w) := by
  have hkeeps : KeepsNames u (u.setSlot context v) := by
    rcases hv with hnone | ⟨-, hsame⟩
    · exact .setSlot (.inl hnone)
    · exact .setSlot (.inr hsame)
  refine ⟨((KeepsNames.of_contextList hu).trans hkeeps).trans (.of_contextList hw), ?_⟩
  intro c _ hc hname
  obtain rfl := Option.some.inj hc
  have hslot : w.slot context = (u.setSlot context v).slot context := by
    rw [ContextTable.slot, ContextTable.slot, hw]
  have hold : u.slot context = t.slot context := by
    rw [ContextTable.slot, ContextTable.slot, hu]
  show (w.slot context).applicationName = none
  rw [hslot]
  rcases applicationName_setSlot_self u context v with hnone | hnew
  · exact hnone
  · rw [hnew]
    rcases hv with hnone | ⟨haccept, hsame⟩
    · exact hnone
    · rw [hsame, hold]
      exact hname haccept

theorem openConnection_name {o : OpenOutcome} {c : ConnectorContext} {r : Retcode × ConnectorContext}
    (h : connectorOpenConnection cfg o c = .ok r) : r.2.applicationName = c.applicationName := by
  obtain ⟨fd, port, connectionData, hfills⟩ := openConnection_fills h
  rw [hfills]

theorem bridgeConnection_name (o : ConnectOutcome) (c : ConnectorContext) :
    (connectorBridgeConnection cfg o c).2.applicationName = c.applicationName := by
  obtain ⟨fd, hfills⟩ := bridgeConnection_fills o c
  rw [hfills]

theorem nameless_bridged {o : ConnectOutcome} {desc : ContextDesc} {connectionData : Option Pointer}
    {r : Retcode × ConnectorContext} (h : connectorBridgeConnection cfg o (ContextSystem.described desc connectionData) = r) :
    r.2.applicationName = none := by
  rw [← h, bridgeConnection_name]
  rfl

theorem renames_open {o : OpenOutcome} {desc : Option ContextDesc} {identifier : Option UInt32}
    {r : Retcode × Option UInt32 × ContextTable} (h : connectorContextOpen cfg o t desc identifier = .ok r) :
    Renames false t r := by
  cases contextOpen_cases h with
  | invalid => exact .of_failure (.refl t) (by simp)
  | exhausted hpop hretcode => exact .of_failure (.of_contextList (contextList_popFree hpop)) hretcode
  | opened hpop hrange hcopy hopen happend =>
    exact .of_filled (contextList_popFree hpop) (.inl (openConnection_name hopen)) (contextList_appendAvailable happend)
  | failed hpop hrange hretcode hpush =>
    refine .of_failure ((KeepsNames.of_contextList (contextList_popFree hpop)).trans ?_) hretcode
    exact (KeepsNames.setSlot (.inl rfl)).trans (.of_contextList (contextList_pushFree hpush))

theorem renames_connect {o : ConnectOutcome} {desc : Option ContextDesc} {identifier : Option UInt32}
    {r : Retcode × Option UInt32 × ContextTable} (h : connectorContextConnect cfg o t desc identifier = .ok r) :
    Renames false t r := by
  cases contextConnect_cases h with
  | invalid => exact .of_failure (.refl t) (by simp)
  | connected hpop hrange hbridge happend =>
    refine .of_filled (contextList_popFree hpop) (.inl ?_) (contextList_appendAvailable happend)
    exact nameless_bridged hbridge
  | failed hpop hrange hbridge hretcode hpush =>
    refine .of_failure ((KeepsNames.of_contextList (contextList_popFree hpop)).trans ?_) hretcode
    exact (KeepsNames.setSlot (.inl (nameless_bridged hbridge))).trans (.of_contextList (contextList_pushFree hpush))

theorem renames_accept {accepted : Option Nat} {context : UInt32} {identifier : Option UInt32}
    {r : Retcode × Option UInt32 × ContextTable} (h : connectorContextAccept cfg accepted t context identifier = .ok r) :
    Renames true t r := by
  cases contextAccept_cases h with
  | refused hretcode => exact .of_failure (.refl t) hretcode
  | accepted hlistener haccept hpop hrange happend =>
    refine .of_filled (contextList_popFree hpop) ?_ (contextList_appendAvailable happend)
    exact .inr ⟨rfl, rfl⟩

end operations

def ContextSystem.Request.isAccept : ContextSystem.Request → Bool
  | .accept _ _ _ => true
  | _ => false

theorem renames_run {cfg : BuildConfig} {t : ContextTable} {request : ContextSystem.Request}
    {r : Retcode × Option UInt32 × ContextTable} (h : request.run cfg t = .ok r) : Renames request.isAccept t r := by
  cases request with
  | openContext o desc identifier => exact renames_open h
  | connect o desc identifier => exact renames_connect h
  | accept accepted context identifier => exact renames_accept h

/-! ## Everything that is queued or held -/

def Action.context : Action → UInt32
  | .enqueueOutbound message => message.context
  | .setApplicationName context _ => context
  | .notifyTrampolines context _ _ => context

theorem context_dispatchMessage {applicationName : Option CString} {o : CallbackOutcome} {m : ConnectorMessage}
    {a : Action} (h : a ∈ dispatchMessage applicationName o m) : a.context = m.context := by
  unfold dispatchMessage at h
  split at h
  · unfold connectorCallInternalMessage at h
    split at h
    · unfold internalHandshakeCallback at h
      rcases List.mem_append.mp h with h | h
      · obtain ⟨out, hout, rfl⟩ := List.mem_map.mp h
        exact Outgoing.context_connectorBuildMessage (Option.mem_toList.mp hout)
      · split at h
        · cases h
        · obtain ⟨name, -, rfl⟩ := List.mem_map.mp h
          rfl
    · cases h
  · obtain rfl := List.mem_singleton.mp h
    rfl

/-- What was written, or the name that was set, belongs to the connection it reached. -/
def Event.Matches : Event → Prop
  | .wrote connection message => ∀ k j, connection = some k → message.origin = some j → j = k
  | .named connection name => ∀ k j, connection = some k → name.origin = some j → j = k
  | .notified _ _ _ => True

namespace Instance

variable {cfg : BuildConfig} {x x' : Instance cfg} {P : UInt32 → Option Nat → Prop}

/-- `P` holds of the context and the origin of everything in a queue or with a thread. -/
structure Each (x : Instance cfg) (P : UInt32 → Option Nat → Prop) : Prop where
  inbound : ∀ m ∈ x.inbound, P m.item.context m.origin
  outbound : ∀ m ∈ x.outbound, P m.item.context m.origin
  reading : ∀ i, ∀ m ∈ (x.readers i).reading, P m.item.context m.origin
  writing : ∀ j, ∀ m ∈ x.writers j, P m.item.context m.origin
  acting : ∀ j, ∀ a ∈ x.dispatchers j, P a.item.context a.origin

theorem Each.setReader (h : x.Each P) (i : Fin cfg.inboundCount) (reader : Reader)
    (hreading : ∀ m ∈ reader.reading, P m.item.context m.origin) :
    ∀ k, ∀ m ∈ (Function.update x.readers i reader k).reading, P m.item.context m.origin :=
  (Function.forall_update_iff x.readers fun _ r => ∀ m ∈ r.reading, P m.item.context m.origin).mpr
    ⟨hreading, fun k _ => h.reading k⟩

theorem Each.setWriter (h : x.Each P) (j : Fin cfg.outboundCount) {held : Option (Tagged ConnectorMessage)}
    (hheld : ∀ m ∈ held, P m.item.context m.origin) :
    ∀ k, ∀ m ∈ Function.update x.writers j held k, P m.item.context m.origin :=
  (Function.forall_update_iff x.writers fun _ w => ∀ m ∈ w, P m.item.context m.origin).mpr
    ⟨hheld, fun k _ => h.writing k⟩

theorem Each.setDispatcher (h : x.Each P) (j : Fin cfg.dispatchCount) {actions : List (Tagged Action)}
    (hactions : ∀ a ∈ actions, P a.item.context a.origin) :
    ∀ k, ∀ a ∈ Function.update x.dispatchers j actions k, P a.item.context a.origin :=
  (Function.forall_update_iff x.dispatchers fun _ d => ∀ a ∈ d, P a.item.context a.origin).mpr
    ⟨hactions, fun k _ => h.acting k⟩

/-! ## One connection at a time -/

/-- What belongs to a connection finds its context with that connection, or not in use. -/
def Timely (current : UInt32 → Option Nat) (context : UInt32) (origin : Option Nat) : Prop :=
  ∀ j, origin = some j → current context = some j ∨ current context = none

structure Inv (x : Instance cfg) : Prop where
  pending : x.Each (Timely x.current)
  log : ∀ e ∈ x.log, e.Matches
  name : ∀ c, (x.table.slot c).applicationName ≠ none → Timely x.current c (x.nameOrigin c)

theorem Each.imp {Q R : UInt32 → Option Nat → Prop} (h : x.Each P) (h' : x.Each Q)
    (himp : ∀ context origin, P context origin → Q context origin → R context origin) : x.Each R where
  inbound m hm := himp _ _ (h.inbound m hm) (h'.inbound m hm)
  outbound m hm := himp _ _ (h.outbound m hm) (h'.outbound m hm)
  reading i m hm := himp _ _ (h.reading i m hm) (h'.reading i m hm)
  writing j m hm := himp _ _ (h.writing j m hm) (h'.writing j m hm)
  acting j a ha := himp _ _ (h.acting j a ha) (h'.acting j a ha)

/-- Nothing of an earlier connection on this context is left. -/
def Unused (x : Instance cfg) (c : UInt32) : Prop := x.Each fun context origin => context = c → origin = none

/-- The context on which a request makes a connection begin, if it succeeds. -/
def begins (x : Instance cfg) (request : ContextSystem.Request) : Option UInt32 :=
  match request.run cfg x.table with
  | .ok (.success, context, _) => context
  | _ => none

/-- A connection begins only on an unused context, and an accept only on a slot without a name. -/
def CleanStart (x : Instance cfg) : Label cfg → Prop
  | .request request =>
    ∀ c ∈ x.begins request, x.Unused c ∧ (request.isAccept = true → (x.table.slot c).applicationName = none)
  | _ => True

theorem timely_none (context : UInt32) (current : UInt32 → Option Nat) : Timely current context none := by
  intro j hj
  cases hj

theorem timely_current (current : UInt32 → Option Nat) (context : UInt32) :
    Timely current context (current context) := fun _ hj => .inl hj

theorem Timely.update_of_ne {current : UInt32 → Option Nat} {context c : UInt32} {origin v : Option Nat}
    (h : Timely current context origin) (hne : context ≠ c) : Timely (Function.update current c v) context origin := by
  intro j hj
  rw [Function.update_of_ne hne]
  exact h j hj

theorem Timely.update_none {current : UInt32 → Option Nat} {context : UInt32} {origin : Option Nat} (c : UInt32)
    (h : Timely current context origin) : Timely (Function.update current c none) context origin := by
  by_cases hc : context = c
  · intro j _
    right
    rw [hc, Function.update_self]
  · exact h.update_of_ne hc

theorem Inv.setTable (h : Inv x) {t : ContextTable} (hkeeps : KeepsNames x.table t) : Inv { x with table := t } := by
  refine ⟨⟨h.pending.inbound, h.pending.outbound, h.pending.reading, h.pending.writing, h.pending.acting⟩, h.log, ?_⟩
  intro c hname
  rcases hkeeps c with hnone | hsame
  · exact absurd hnone hname
  · exact h.name c (hsame ▸ hname)

theorem inv_begun {request : ContextSystem.Request} {r : Retcode × Option UInt32 × ContextTable} (hs : Inv x)
    (hclean : x.CleanStart (.request request)) (hr : request.run cfg x.table = .ok r) : Inv (x.begun r) := by
  have hrenames := renames_run hr
  unfold begun
  split
  · rename_i c table
    have hbegins : x.begins request = some c := by
      rw [begins, hr]
    obtain ⟨hunused, haccept⟩ := hclean c hbegins
    have hname := hrenames.begun c rfl rfl haccept
    have hpending : x.Each (Timely (Function.update x.current c (some x.connections))) := by
      refine hs.pending.imp hunused ?_
      intro context origin htimely hnone
      by_cases hc : context = c
      · rw [hnone hc]
        exact timely_none _ _
      · exact htimely.update_of_ne hc
    refine ⟨⟨hpending.inbound, hpending.outbound, hpending.reading, hpending.writing, hpending.acting⟩, hs.log, ?_⟩
    intro c' hc'
    have hne : c' ≠ c := by
      rintro rfl
      exact hc' hname
    rcases hrenames.keeps c' with hnone | hsame
    · exact absurd hnone hc'
    · exact (hs.name c' (hsame ▸ hc')).update_of_ne hne
  · exact hs.setTable hrenames.keeps

theorem matches_append {log : List Event} {e : Event} (h : ∀ e ∈ log, e.Matches) (he : e.Matches) :
    ∀ e' ∈ log ++ [e], e'.Matches := by
  intro e' he'
  rcases List.mem_append.mp he' with hold | hnew
  · exact h e' hold
  · obtain rfl := List.mem_singleton.mp hnew
    exact he

theorem Timely.eq {current : UInt32 → Option Nat} {context : UInt32} {origin : Option Nat}
    (h : Timely current context origin) : ∀ k j, current context = some k → origin = some j → j = k := by
  intro k j hk hj
  rcases h j hj with hsame | hnone
  · rw [hk] at hsame
    exact (Option.some.inj hsame).symm
  · rw [hk] at hnone
    cases hnone

theorem inv_acquire {i : Fin cfg.inboundCount} {o : HandshakeOutcome} (hs : Inv x) (h : x.acquire i o = some x') :
    Inv x' := by
  obtain ⟨r, context, written, hr, -, -, rfl⟩ := acquire_eq_some h
  have htable := hs.setTable (keepsNames_tryAcquire hr)
  have hreading := hs.pending.setReader i { x.readers i with data := r.2.1 } (hs.pending.reading i)
  refine ⟨⟨hs.pending.inbound, hs.pending.outbound, hreading, hs.pending.writing, hs.pending.acting⟩, ?_, htable.name⟩
  intro e he
  rcases List.mem_append.mp he with hold | hnew
  · exact hs.log e hold
  · -- the handshake is written to the connection it was made for
    obtain ⟨m, -, rfl⟩ := List.mem_map.mp hnew
    exact (timely_current _ _).eq

theorem inv_read {i : Fin cfg.inboundCount} {k : Nat} {message : ConnectorMessage} (hs : Inv x)
    (h : x.read i k message = some x') : Inv x' := by
  obtain ⟨-, -, context, -, rfl⟩ := read_eq_some h
  refine ⟨⟨hs.pending.inbound, hs.pending.outbound, hs.pending.setReader i _ ?_, hs.pending.writing,
    hs.pending.acting⟩, hs.log, hs.name⟩
  intro m hm
  obtain rfl := Option.some.inj hm
  exact timely_current _ _

theorem inv_enqueueInbound {i : Fin cfg.inboundCount} (hs : Inv x) (h : x.enqueueInbound i = some x') : Inv x' := by
  obtain ⟨m, hm, rfl⟩ := Option.map_eq_some_iff.mp h
  refine ⟨⟨?_, hs.pending.outbound, hs.pending.setReader i _ ?_, hs.pending.writing, hs.pending.acting⟩, hs.log, hs.name⟩
  · intro m' hm'
    rcases List.mem_append.mp hm' with hold | hnew
    · exact hs.pending.inbound m' hold
    · obtain rfl := List.mem_singleton.mp hnew
      exact hs.pending.reading i m' hm
  · intro m' hm'
    cases hm'

theorem inv_cleanup {i : Fin cfg.inboundCount} {k : Nat} {closed : Bool} (hs : Inv x)
    (h : x.cleanup i k closed = some x') : Inv x' := by
  obtain ⟨r, context, hr, -, rfl⟩ := cleanup_eq_some h
  have htable := hs.setTable (keepsNames_shutdown hr)
  -- a context that is not in use any more contradicts nothing
  have hpending := hs.pending.imp hs.pending fun _ origin htimely _ => htimely.update_none context
  refine ⟨⟨hpending.inbound, hpending.outbound, hpending.setReader i _ (hpending.reading i), hpending.writing,
    hpending.acting⟩, ?_, ?_⟩
  · intro e he
    rcases List.mem_append.mp he with hold | hnew
    · exact hs.log e hold
    · obtain ⟨name, -, rfl⟩ := List.mem_map.mp hnew
      trivial
  · intro c hc
    exact (htable.name c hc).update_none _

theorem inv_writeMessage (hs : Inv x) (built : Bool) (context : UInt32) (type : Option Uuid) (message : Option CString) :
    Inv (x.writeMessage built context type message) := by
  refine ⟨⟨hs.pending.inbound, ?_, hs.pending.reading, hs.pending.writing, hs.pending.acting⟩, hs.log, hs.name⟩
  intro m hm
  rcases List.mem_append.mp hm with hold | hnew
  · exact hs.pending.outbound m hold
  · obtain ⟨m', hm', rfl⟩ := List.mem_map.mp hnew
    have hcontext : m'.context = context := Outgoing.context_connectorBuildMessage (Option.mem_toList.mp hm')
    show Timely x.current m'.context (x.current context)
    rw [hcontext]
    exact timely_current _ _

theorem inv_acquireOutbound {j : Fin cfg.outboundCount} {k : Nat} (hs : Inv x) (h : x.acquireOutbound j k = some x') :
    Inv x' := by
  obtain ⟨-, m, hm, rfl⟩ := acquireOutbound_eq_some h
  refine ⟨⟨hs.pending.inbound, ?_, hs.pending.reading, hs.pending.setWriter j ?_, hs.pending.acting⟩, hs.log, hs.name⟩
  · intro m' hm'
    exact hs.pending.outbound m' (List.mem_of_mem_eraseIdx hm')
  · intro m' hm'
    obtain rfl := Option.some.inj hm'
    exact hs.pending.outbound m (List.mem_of_getElem? hm)

theorem inv_send {j : Fin cfg.outboundCount} {written : Retcode} (hs : Inv x) (h : x.send j written = some x') :
    Inv x' := by
  obtain ⟨m, hm, rfl⟩ := Option.map_eq_some_iff.mp h
  refine ⟨⟨hs.pending.inbound, hs.pending.outbound, hs.pending.reading, hs.pending.setWriter j ?_, hs.pending.acting⟩,
    ?_, hs.name⟩
  · intro m' hm'
    cases hm'
  · dsimp only
    split
    · exact matches_append hs.log (hs.pending.writing j m hm).eq
    · exact hs.log

theorem inv_acquireInbound {j : Fin cfg.dispatchCount} {k : Nat} {o : CallbackOutcome} (hs : Inv x)
    (h : x.acquireInbound j k o = some x') : Inv x' := by
  obtain ⟨-, m, hm, rfl⟩ := acquireInbound_eq_some h
  refine ⟨⟨?_, hs.pending.outbound, hs.pending.reading, hs.pending.writing, hs.pending.setDispatcher j ?_⟩, hs.log,
    hs.name⟩
  · intro m' hm'
    exact hs.pending.inbound m' (List.mem_of_mem_eraseIdx hm')
  · intro a ha
    obtain ⟨a', ha', rfl⟩ := List.mem_map.mp ha
    show Timely x.current a'.context m.origin
    rw [context_dispatchMessage ha']
    exact hs.pending.inbound m (List.mem_of_getElem? hm)

theorem inv_perform {block origin : Option Nat} {a : Action} (hs : Inv x) (ha : Timely x.current a.context origin)
    (h : x.perform block origin a = some x') : Inv x' := by
  cases a with
  | enqueueOutbound message =>
    obtain rfl := Option.some.inj h
    refine ⟨⟨hs.pending.inbound, ?_, hs.pending.reading, hs.pending.writing, hs.pending.acting⟩, hs.log, hs.name⟩
    intro m hm
    rcases List.mem_append.mp hm with hold | hnew
    · exact hs.pending.outbound m hold
    · obtain rfl := List.mem_singleton.mp hnew
      exact ha
  | setApplicationName context name =>
    obtain ⟨r, hr, rfl⟩ := ContextSystem.toOption_map_eq_some.mp h
    refine ⟨⟨hs.pending.inbound, hs.pending.outbound, hs.pending.reading, hs.pending.writing, hs.pending.acting⟩,
      matches_append hs.log ha.eq, ?_⟩
    intro c hc
    by_cases hcontext : c = context
    · subst hcontext
      show Timely x.current c (Function.update x.nameOrigin c origin c)
      rw [Function.update_self]
      exact ha
    · have hslot : r.2.slot c = x.table.slot c := by
        unfold connectorContextSetApplicationName at hr
        split at hr
        · obtain ⟨copy, -, hr⟩ := bind_eq_ok.mp hr
          obtain rfl := Except.ok.inj hr
          exact slot_setSlot_of_ne _ _ hcontext
        · obtain rfl := Except.ok.inj hr
          rfl
      show Timely x.current c (Function.update x.nameOrigin context origin c)
      rw [Function.update_of_ne hcontext]
      exact hs.name c (hslot ▸ hc)
  | notifyTrampolines context type message =>
    obtain rfl := Option.some.inj h
    exact ⟨⟨hs.pending.inbound, hs.pending.outbound, hs.pending.reading, hs.pending.writing, hs.pending.acting⟩,
      matches_append hs.log trivial, hs.name⟩

theorem inv_act {j : Fin cfg.dispatchCount} {block : Option Nat} (hs : Inv x) (h : x.act j block = some x') : Inv x' := by
  obtain ⟨a, rest, hactions, hperform⟩ := act_eq_some h
  have hpending := hs.pending.acting j
  rw [hactions] at hpending
  have hrest : Inv { x with dispatchers := Function.update x.dispatchers j rest } := by
    refine ⟨⟨hs.pending.inbound, hs.pending.outbound, hs.pending.reading, hs.pending.writing, ?_⟩, hs.log, hs.name⟩
    exact hs.pending.setDispatcher j fun a' ha' => hpending a' (List.mem_cons_of_mem _ ha')
  exact inv_perform hrest (hpending a List.mem_cons_self) hperform

theorem inv_next {a : Label cfg} (hs : Inv x) (hclean : x.CleanStart a) (h : x.next a = some x') : Inv x' := by
  cases a with
  | request r =>
    obtain ⟨outcome, hr, rfl⟩ := ContextSystem.toOption_map_eq_some.mp h
    exact inv_begun hs hclean hr
  | close context =>
    obtain rfl := Option.some.inj h
    exact hs.setTable (keepsNames_close context)
  | acquire i o => exact inv_acquire hs h
  | read i k message => exact inv_read hs h
  | enqueueInbound i => exact inv_enqueueInbound hs h
  | cleanup i k closed => exact inv_cleanup hs h
  | writeMessage built context type message =>
    obtain rfl := Option.some.inj h
    exact inv_writeMessage hs built context type message
  | acquireOutbound j k => exact inv_acquireOutbound hs h
  | send j written => exact inv_send hs h
  | acquireInbound j k o => exact inv_acquireInbound hs h
  | act j block => exact inv_act hs h

theorem inv_start (cfg : BuildConfig) (applicationName : CString) : Inv (start cfg applicationName) := by
  refine ⟨⟨?_, ?_, ?_, ?_, ?_⟩, ?_, ?_⟩
  · exact fun m hm => absurd hm List.not_mem_nil
  · exact fun m hm => absurd hm List.not_mem_nil
  · exact fun i m hm => absurd hm (by simp [start])
  · exact fun j m hm => absurd hm (by simp [start])
  · exact fun j a ha => absurd ha List.not_mem_nil
  · exact fun e he => absurd he List.not_mem_nil
  · exact fun c _ => timely_none _ _

/-- Everything written to a connection, and every name set, was accepted for or read from it; and a
context in use has no name of an earlier connection. -/
def Separate (x : Instance cfg) : Prop :=
  (∀ e ∈ x.log, e.Matches) ∧
    ∀ c k j, x.current c = some k → (x.table.slot c).applicationName ≠ none → x.nameOrigin c = some j → j = k

/-- **No mixing of connections.** In every run in which connections begin on contexts with nothing left
of earlier ones, no message reaches another connection than its own, and no inbound message names one. -/
theorem messages_stay_with_connection {applicationName : CString} {x : Instance cfg}
    (h : ((system cfg applicationName).guarded CleanStart).Reachable x) : x.Separate := by
  have hinv : Inv x := by
    refine h.guarded_invariant ?_ ?_
    · rintro x rfl
      exact inv_start cfg applicationName
    · intro x a x' hs hclean hstep
      exact inv_next hs hclean hstep
  refine ⟨hinv.log, ?_⟩
  intro c k j hcurrent hname horigin
  exact (hinv.name c hname).eq k j hcurrent horigin

/-! ## Two runs that reuse a context -/

def greeting : CString := ⟨[104, 105], by decide⟩

/-- A connection to a TCP port that succeeds. -/
def connectLabel : Label .default := .request (.connect ⟨some 7, true⟩ (some ⟨commTcp, none, 6000⟩) (some 0))

/-- A message for context 0 is accepted, the context is closed and cleared, and handed out again after
all the others; then a write thread comes to the message. -/
def staleRun : List (Label .default) :=
  [connectLabel, .acquire firstThread ⟨true, .success⟩, .writeMessage true 0 (some (.ofWords 1 2 3 4)) (some greeting),
    .close 0, .cleanup firstThread 0 true] ++ List.replicate 32 connectLabel ++
    [.acquireOutbound firstThread 0, .send firstThread .success]

/-- **A message for an earlier connection.** The 33rd connection receives what was accepted for the first. -/
theorem stale_message_written : ¬ ∀ x, (system .default greeting).Reachable x → x.Separate := by
  have hrun : (StepSystem.runList next (start .default greeting) staleRun).map (fun x => x.log.getLast?) =
      some (some (.wrote (some 32) ⟨Outgoing.message ⟨0, .ofWords 1 2 3 4, greeting, false⟩, some 0⟩)) := by
    decide +kernel
  obtain ⟨x, hx, hlast⟩ := Option.map_eq_some_iff.mp hrun
  intro hall
  have hseparate := hall x (StepSystem.reachable_runList (.init rfl) hx)
  have hmatches := hseparate.1 _ (List.mem_of_getLast? hlast)
  exact absurd (hmatches 32 0 rfl rfl) (by decide)

instance (x : Instance cfg) (c : UInt32) : Decidable (x.Unused c) :=
  decidable_of_iff
    ((∀ m ∈ x.inbound, m.item.context = c → m.origin = none) ∧ (∀ m ∈ x.outbound, m.item.context = c → m.origin = none) ∧
      (∀ i, ∀ m ∈ (x.readers i).reading.toList, m.item.context = c → m.origin = none) ∧
      (∀ j, ∀ m ∈ (x.writers j).toList, m.item.context = c → m.origin = none) ∧
      ∀ j, ∀ a ∈ x.dispatchers j, a.item.context = c → a.origin = none)
    ⟨fun ⟨h₁, h₂, h₃, h₄, h₅⟩ => ⟨h₁, h₂, fun i m hm => h₃ i m (Option.mem_toList.mpr hm),
        fun j m hm => h₄ j m (Option.mem_toList.mpr hm), h₅⟩,
      fun h => ⟨h.inbound, h.outbound, fun i m hm => h.reading i m (Option.mem_toList.mp hm),
        fun j m hm => h.writing j m (Option.mem_toList.mp hm), h.acting⟩⟩

instance (x : Instance cfg) : ∀ a, Decidable (x.CleanStart a)
  | .request request =>
    -- a search of the one identifier, not of all of them
    decidable_of_iff ((x.begins request).all (fun c =>
        decide (x.Unused c ∧ (request.isAccept = true → (x.table.slot c).applicationName = none))) = true)
      ((Option.all_eq_true _ _).trans (forall₂_congr fun _ _ => decide_eq_true_iff))
  | .close _ => .isTrue trivial
  | .acquire _ _ => .isTrue trivial
  | .read _ _ _ => .isTrue trivial
  | .enqueueInbound _ => .isTrue trivial
  | .cleanup _ _ _ => .isTrue trivial
  | .writeMessage _ _ _ _ => .isTrue trivial
  | .acquireOutbound _ _ => .isTrue trivial
  | .send _ _ => .isTrue trivial
  | .acquireInbound _ _ _ => .isTrue trivial
  | .act _ _ => .isTrue trivial

/-- A handshake is received and answered, a message is written, and the context is closed, cleared and
handed out again after all the others. -/
def cleanRun : List (Label .default) :=
  [connectLabel, .acquire firstThread ⟨true, .success⟩,
    .read firstThread 0 (Outgoing.message ⟨0, connectorInternalHandshakeUuid, greeting, true⟩),
    .enqueueInbound firstThread, .acquireInbound firstThread 0 ⟨true, true⟩, .act firstThread none,
    .act firstThread (some 1), .writeMessage true 0 (some (.ofWords 1 2 3 4)) (some greeting),
    .acquireOutbound firstThread 0, .send firstThread .success, .acquireOutbound secondThread 0,
    .send secondThread .success, .close 0, .cleanup firstThread 0 true] ++ List.replicate 32 connectLabel

theorem separate_cleanRun :
    ∃ x, ((system .default greeting).guarded CleanStart).Reachable x ∧ x.log.length = 5 ∧ x.current 0 = some 32 ∧
      x.Separate := by
  have hrun : (StepSystem.runList (StepSystem.gate CleanStart next) (start .default greeting) cleanRun).map
      (fun x => (x.log.length, x.current 0)) = some (5, some 32) := by
    decide +kernel
  obtain ⟨x, hx, hend⟩ := Option.map_eq_some_iff.mp hrun
  have hreach : ((system .default greeting).guarded CleanStart).Reachable x :=
    StepSystem.guarded_reachable_runList (.init rfl) hx
  exact ⟨x, hreach, congrArg Prod.fst hend, congrArg Prod.snd hend, messages_stay_with_connection hreach⟩

end Instance

end SubstanceConnector
