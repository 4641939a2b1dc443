import SubstanceConnector.Context.ReadThread

/-!
# Everything a call can do

One statement for each call on the context table, with every way it returns: which queue operations it made, in which
slot it stored what, and the conditions it had tested by then. The invariants of the table are case analyses of these.
-/

namespace SubstanceConnector

namespace ContextSystem

/-- The structure an open or a connect fills before it asks the system. -/
def described (desc : ContextDesc) (connectionData : Option Pointer) : ConnectorContext :=
  { ConnectorContext.zero with
    configuration := (desc.configuration &&& commMask) ||| connOpen
    connectionData := connectionData
    port := desc.port.toNat }

end ContextSystem

open ContextSystem (described)

section requests
variable {cfg : BuildConfig} {t : ContextTable}

/-- Opening fills in the descriptor, the port and, if there is none, the path. -/
theorem openConnection_fills {o : OpenOutcome} {c : ConnectorContext} {r : Retcode × ConnectorContext}
    (h : connectorOpenConnection cfg o c = .ok r) :
    ∃ fd port connectionData, r.2 = { c with fd := fd, port := port, connectionData := connectionData } := by
  unfold connectorOpenConnection at h
  split_ifs at h
  · obtain rfl := Except.ok.inj h
    unfold connectorOpenTcpImpl
    dsimp only
    repeat' split
    all_goals exact ⟨_, _, _, rfl⟩
  · unfold connectorOpenUnix at h
    dsimp only at h
    repeat' split at h
    all_goals first
      | (obtain rfl := Except.ok.inj h; exact ⟨_, _, _, rfl⟩)
      | cases h
  · obtain rfl := Except.ok.inj h
    exact ⟨_, _, _, rfl⟩

/-- Connecting fills in the descriptor. -/
theorem bridgeConnection_fills (o : ConnectOutcome) (c : ConnectorContext) :
    ∃ fd, (connectorBridgeConnection cfg o c).2 = { c with fd := fd } := by
  unfold connectorBridgeConnection connectorConnectUnix connectorConnectTcpImpl
  repeat' split
  all_goals exact ⟨_, rfl⟩

/-- The ways `connector_context_open` returns. -/
inductive OpenCases (cfg : BuildConfig) (o : OpenOutcome) (t : ContextTable) :
    Option ContextDesc → Option UInt32 → Retcode × Option UInt32 × ContextTable → Prop
  | invalid {desc : Option ContextDesc} {identifier : Option UInt32} (h : desc = none ∨ identifier = none) :
      OpenCases cfg o t desc identifier (.error, identifier, t)
  | exhausted {desc : ContextDesc} {v context : UInt32} {retcode : Retcode} {u : ContextTable}
      (hpop : t.popFree 0 = .ok (retcode, context, u)) (hretcode : retcode ≠ .success) :
      OpenCases cfg o t (some desc) (some v) (retcode, some v, u)
  | opened {desc : ContextDesc} {v context : UInt32} {copy : Option Pointer} {c : ConnectorContext} {u w : ContextTable}
      (hpop : t.popFree 0 = .ok (.success, context, u)) (hrange : context.toNat < cfg.contextCount)
      (hcopy : connectorStrdup o.copy desc.connectionData = .ok copy)
      (hopen : connectorOpenConnection cfg o (described desc copy) = .ok (.success, c))
      (happend : appendAvailable (u.setSlot context c) context = .ok w) :
      OpenCases cfg o t (some desc) (some v) (.success, some context, w)
  | failed {desc : ContextDesc} {v context : UInt32} {retcode : Retcode} {u : ContextTable}
      {pushed : Retcode × ContextTable} (hpop : t.popFree 0 = .ok (.success, context, u))
      (hrange : context.toNat < cfg.contextCount) (hretcode : retcode ≠ .success)
      (hpush : (u.setSlot context .zero).pushFree context = .ok pushed) :
      OpenCases cfg o t (some desc) (some v) (retcode, some v, pushed.2)

theorem contextOpen_cases {o : OpenOutcome} {desc : Option ContextDesc} {identifier : Option UInt32}
    {r : Retcode × Option UInt32 × ContextTable} (h : connectorContextOpen cfg o t desc identifier = .ok r) :
    OpenCases cfg o t desc identifier r := by
  cases desc with
  | none =>
    obtain rfl := Except.ok.inj h
    exact .invalid (.inl rfl)
  | some desc =>
    cases identifier with
    | none =>
      obtain rfl := Except.ok.inj h
      exact .invalid (.inr rfl)
    | some v =>
      obtain ⟨popped, hpop, h⟩ := bind_eq_ok.mp h
      obtain ⟨retcode, context, u⟩ := popped
      dsimp only at h
      split_ifs at h with hsuccess hrange
      · obtain rfl : retcode = .success := hsuccess
        obtain ⟨copy, hcopy, h⟩ := bind_eq_ok.mp h
        obtain ⟨opened, hopen, h⟩ := bind_eq_ok.mp h
        obtain ⟨result, c⟩ := opened
        split at h
        · rename_i hopened
          obtain rfl : result = .success := hopened
          obtain ⟨w, happend, h⟩ := bind_eq_ok.mp h
          obtain rfl := Except.ok.inj h
          exact .opened hpop hrange hcopy hopen happend
        · rename_i hfailed
          obtain ⟨pushed, hpush, h⟩ := bind_eq_ok.mp h
          obtain rfl := Except.ok.inj h
          exact .failed hpop hrange hfailed hpush
      · obtain rfl := Except.ok.inj h
        exact .exhausted hpop hsuccess

/-- What a connect stores for a connection that stands. -/
def bridged (c : ConnectorContext) : ConnectorContext :=
  { c with
    configuration := (c.configuration &&& ~~~connMask) ||| connConnected
    connectionData := none }

/-- The ways `connector_context_connect` returns. What the pop returned is not looked at. -/
inductive ConnectCases (cfg : BuildConfig) (o : ConnectOutcome) (t : ContextTable) :
    Option ContextDesc → Option UInt32 → Retcode × Option UInt32 × ContextTable → Prop
  | invalid {desc : Option ContextDesc} {identifier : Option UInt32} (h : desc = none ∨ identifier = none) :
      ConnectCases cfg o t desc identifier (.error, identifier, t)
  | connected {desc : ContextDesc} {v context : UInt32} {popped : Retcode} {c : ConnectorContext} {u w : ContextTable}
      (hpop : t.popFree 0 = .ok (popped, context, u)) (hrange : context.toNat < cfg.contextCount)
      (hbridge : connectorBridgeConnection cfg o (described desc (desc.connectionData.map .borrowed)) = (.success, c))
      (happend : appendAvailable (u.setSlot context (bridged c)) context = .ok w) :
      ConnectCases cfg o t (some desc) (some v) (.success, some context, w)
  | failed {desc : ContextDesc} {v context : UInt32} {popped retcode : Retcode} {c : ConnectorContext} {u : ContextTable}
      {pushed : Retcode × ContextTable} (hpop : t.popFree 0 = .ok (popped, context, u))
      (hrange : context.toNat < cfg.contextCount)
      (hbridge : connectorBridgeConnection cfg o (described desc (desc.connectionData.map .borrowed)) = (retcode, c))
      (hretcode : retcode ≠ .success) (hpush : (u.setSlot context c).pushFree context = .ok pushed) :
      ConnectCases cfg o t (some desc) (some v) (retcode, some v, pushed.2)

theorem contextConnect_cases {o : ConnectOutcome} {desc : Option ContextDesc} {identifier : Option UInt32}
    {r : Retcode × Option UInt32 × ContextTable} (h : connectorContextConnect cfg o t desc identifier = .ok r) :
    ConnectCases cfg o t desc identifier r := by
  cases desc with
  | none =>
    obtain rfl := Except.ok.inj h
    exact .invalid (.inl rfl)
  | some desc =>
    cases identifier with
    | none =>
      obtain rfl := Except.ok.inj h
      exact .invalid (.inr rfl)
    | some v =>
      obtain ⟨popped, hpop, h⟩ := bind_eq_ok.mp h
      obtain ⟨retcode, context, u⟩ := popped
      dsimp only at h
      split at h
      · rename_i hrange
        split at h
        · rename_i hsuccess
          obtain ⟨w, happend, h⟩ := bind_eq_ok.mp h
          obtain rfl := Except.ok.inj h
          exact .connected hpop hrange (Prod.ext hsuccess rfl) happend
        · rename_i hfailed
          obtain ⟨pushed, hpush, h⟩ := bind_eq_ok.mp h
          obtain rfl := Except.ok.inj h
          exact .failed hpop hrange rfl hfailed hpush
      · cases h

/-- The ways `connector_context_accept` returns. What the pop returned is not looked at here either. -/
inductive AcceptCases (cfg : BuildConfig) (accepted : Option Nat) (t : ContextTable) (listener : UInt32) :
    Option UInt32 → Retcode × Option UInt32 × ContextTable → Prop
  | refused {identifier : Option UInt32} {retcode : Retcode} (hretcode : retcode ≠ .success) :
      AcceptCases cfg accepted t listener identifier (retcode, identifier, t)
  | accepted {v context : UInt32} {popped : Retcode} {fd : Nat} {u w : ContextTable}
      (hlistener : listener.toNat < cfg.contextCount ∧ (t.slot listener).state = connOpen)
      (haccept : connectorAcceptConnection accepted (t.slot listener) = some fd)
      (hpop : t.popFree 0 = .ok (popped, context, u)) (hrange : context.toNat < cfg.contextCount)
      (happend : appendAvailable (u.setSlot context { u.slot context with
        configuration := (u.slot listener).type ||| connConnected
        fd := fd }) context = .ok w) :
      AcceptCases cfg accepted t listener (some v) (.success, some context, w)

theorem contextAccept_cases {accepted : Option Nat} {listener : UInt32} {identifier : Option UInt32}
    {r : Retcode × Option UInt32 × ContextTable} (h : connectorContextAccept cfg accepted t listener identifier = .ok r) :
    AcceptCases cfg accepted t listener identifier r := by
  cases identifier with
  | none =>
    obtain rfl := Except.ok.inj h
    exact .refused (by simp)
  | some v =>
    simp only [connectorContextAccept] at h
    split at h
    · rename_i hlistener
      split at h
      · obtain rfl := Except.ok.inj h
        exact .refused (by simp)
      · rename_i fd haccept
        obtain ⟨popped, hpop, h⟩ := bind_eq_ok.mp h
        obtain ⟨retcode, context, u⟩ := popped
        dsimp only at h
        split at h
        · rename_i hrange
          obtain ⟨w, happend, h⟩ := bind_eq_ok.mp h
          obtain rfl := Except.ok.inj h
          exact .accepted hlistener haccept hpop hrange happend
        · cases h
    · obtain rfl := Except.ok.inj h
      exact .refused (by simp)

end requests

/-! ## Closing and shaking hands -/

/-- A close sets the shutdown flag of a context in use, or nothing. -/
theorem contextClose_cases (cfg : BuildConfig) (t : ContextTable) (context : UInt32) :
    (connectorContextClose cfg t context).2 = t ∨
      context.toNat < cfg.contextCount ∧
        ((t.slot context).state &&& connOpen ≠ 0 ∨ (t.slot context).state &&& connConnected ≠ 0) ∧
        (connectorContextClose cfg t context).2 = t.setSlot context { t.slot context with
          configuration := (t.slot context).configuration ||| connShutdown } := by
  unfold connectorContextClose
  dsimp only
  split_ifs with hrange huse
  · exact .inr ⟨hrange, huse, rfl⟩
  · exact .inl rfl
  · exact .inl rfl

/-- A handshake sets the flag of a connected context, or nothing. -/
theorem contextWriteHandshake_cases (cfg : BuildConfig) (t : ContextTable) (o : HandshakeOutcome) (context : UInt32) :
    (connectorContextWriteHandshake cfg o t context).2 = t ∨
      context.toNat < cfg.contextCount ∧ (t.slot context).state = connConnected ∧
        (connectorContextWriteHandshake cfg o t context).2 = t.setSlot context { t.slot context with
          configuration := (t.slot context).configuration ||| handshakeSent } := by
  unfold connectorContextWriteHandshake
  dsimp only
  split_ifs with hrange hsent hstate
  · exact .inl rfl
  · exact .inr ⟨hrange, hstate, rfl⟩
  · exact .inl rfl
  · exact .inl rfl
  · exact .inl rfl
  · exact .inl rfl

/-- A shutdown clears the slot of a context and puts it back on the free queue; one out of range does nothing. -/
theorem contextShutdown_cases {cfg : BuildConfig} {t : ContextTable} {closed : Bool} {context : UInt32} {r : ShutdownResult}
    (h : connectorContextShutdownFromReadThread cfg closed t context = .ok r) :
    (context.toNat < cfg.contextCount ∧ ∃ pushed, (t.setSlot context .zero).pushFree context = .ok pushed ∧
        r = ⟨connectorCloseConnection closed (t.slot context), pushed.2, (t.slot context).applicationName,
          (t.slot context).owned⟩) ∨
      ¬ context.toNat < cfg.contextCount ∧ r = ⟨.error, t, none, []⟩ := by
  unfold connectorContextShutdownFromReadThread at h
  split at h
  · rename_i hrange
    obtain ⟨pushed, hpush, h⟩ := bind_eq_ok.mp h
    exact .inl ⟨hrange, pushed, hpush, (Except.ok.inj h).symm⟩
  · rename_i hrange
    exact .inr ⟨hrange, (Except.ok.inj h).symm⟩

/-! ## Acquiring -/

/-- The read thread with one more context, whose descriptor is the one in `t`. -/
def ReadThread.acquired (thread : ReadThread) (t : ContextTable) (context : UInt32) : ReadThread where
  contexts := thread.contexts.set thread.assignedContexts
    { thread.contexts.getD thread.assignedContexts ⟨0, 0, 0⟩ with fd := (t.slot context).fd, events := pollIn }
  contextIds := thread.contextIds.set thread.assignedContexts context
  assignedContexts := thread.assignedContexts + 1

/-- A read thread finds nothing, or it takes one context and writes its handshake. -/
theorem readThreadTryAcquire_cases {cfg : BuildConfig} {t : ContextTable} {o : HandshakeOutcome} {thread : ReadThread}
    {r : Retcode × ReadThread × ContextTable} (h : connectorReadThreadTryAcquire cfg o thread t = .ok r) :
    (∃ u, connectorAvailableQueuePop t = .ok (none, u) ∧ r = (.error, thread, u)) ∨
      ∃ context u, connectorAvailableQueuePop t = .ok (some context, u) ∧ thread.assignedContexts < cfg.readContexts ∧
        r = ((connectorContextWriteHandshake cfg o u context).1, thread.acquired u context,
          (connectorContextWriteHandshake cfg o u context).2) := by
  obtain ⟨popped, hpop, h⟩ := bind_eq_ok.mp h
  obtain ⟨first, u⟩ := popped
  cases first with
  | none => exact .inl ⟨u, hpop, (Except.ok.inj h).symm⟩
  | some context =>
    dsimp only at h
    split at h
    · rename_i hroom
      exact .inr ⟨context, u, hpop, hroom, (Except.ok.inj h).symm⟩
    · cases h

/-! ## Cleaning up -/

section cleanup
variable {cfg : BuildConfig} {t : ContextTable} {closed : UInt32 → Bool} {i : Nat} {retcode : Retcode}
  {thread : ReadThread} {r : Retcode × ReadThread × ContextTable}

/-- One turn of the loop shuts the context of the entry down, or leaves the table as it is. -/
theorem cleanupLoop_cases (h : cleanupLoop cfg closed (i + 1) retcode thread t = .ok r) :
    (∃ context shut, connectorContextShutdownFromReadThread cfg (closed context) t context = .ok shut ∧
        cleanupLoop cfg closed i shut.retcode (connectorReadThreadRemoveContext thread i).2 shut.table = .ok r) ∨
      cleanupLoop cfg closed i (connectorReadThreadRemoveContext thread i).1
        (connectorReadThreadRemoveContext thread i).2 t = .ok r ∨
      cleanupLoop cfg closed i retcode thread t = .ok r := by
  unfold cleanupLoop at h
  dsimp only at h
  split at h
  · split at h
    · obtain ⟨shut, hshut, h⟩ := bind_eq_ok.mp h
      exact .inl ⟨_, shut, hshut, h⟩
    · exact .inr (.inl h)
  · exact .inr (.inr h)

/-- What every shutdown from a read thread keeps, the loop keeps. -/
theorem cleanupLoop_keeps {P : ContextTable → Prop} (hshutdown : ∀ {t : ContextTable} {closed : Bool} {context : UInt32}
    {shut : ShutdownResult}, P t → connectorContextShutdownFromReadThread cfg closed t context = .ok shut → P shut.table)
    (ht : P t) (h : cleanupLoop cfg closed i retcode thread t = .ok r) : P r.2.2 := by
  induction i generalizing retcode thread t with
  | zero =>
    obtain rfl := Except.ok.inj h
    exact ht
  | succ i ih =>
    obtain ⟨context, shut, hshut, hrest⟩ | hrest | hrest := cleanupLoop_cases h
    · exact ih (hshutdown ht hshut) hrest
    · exact ih ht hrest
    · exact ih ht hrest

end cleanup

end SubstanceConnector
