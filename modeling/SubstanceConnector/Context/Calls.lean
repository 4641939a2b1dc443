import SubstanceConnector.Context.Exhaustion

/-!
# What a call writes

The calls on the context table one at a time, in any order and on any identifier, each with any outcome of the
system calls it makes. Every call writes at most one slot, and `Writes` says which one and what (`writes_run`): the
properties of the slots over whole runs are case analyses of it.
-/

namespace SubstanceConnector.ContextSystem

/-- A call on the table, with the outcomes of the system calls it makes. -/
inductive Call where
  | request (request : Request)
  | close (context : UInt32)
  | writeHandshake (o : HandshakeOutcome) (context : UInt32)
  | shutdownFromReadThread (closed : Bool) (context : UInt32)

/-- What a call leaves: the table, the context it has begun, and the pointers it has released. -/
structure Outcome where
  table : ContextTable
  begun : Option UInt32
  freed : List Pointer

/-- The context a request returns, if it succeeds. -/
def begun (r : Retcode × Option UInt32 × ContextTable) : Option UInt32 := if r.1 = .success then r.2.1 else none

def Call.run (cfg : BuildConfig) (t : ContextTable) : Call → Except Fault Outcome
  | .request q => (q.run cfg t).map fun r => ⟨r.2.2, begun r, []⟩
  | .close context => .ok ⟨(connectorContextClose cfg t context).2, none, []⟩
  | .writeHandshake o context => .ok ⟨(connectorContextWriteHandshake cfg o t context).2, none, []⟩
  | .shutdownFromReadThread closed context =>
    (connectorContextShutdownFromReadThread cfg closed t context).map fun r => ⟨r.table, none, r.freed⟩

/-- The identifier a call takes from the free queue: zero if there is none. -/
def taken (t : ContextTable) : Option UInt32 := (t.popFree 0).toOption.map (·.2.1)

/-- There was one. -/
def popped (t : ContextTable) : Bool := (t.popFree 0).toOption.any (·.1 = .success)

/-- The slot of a context in the table. -/
def Wrote (cfg : BuildConfig) (t u : ContextTable) (context : UInt32) (c : ConnectorContext) : Prop :=
  context.toNat < cfg.contextCount ∧ u.contextList = t.contextList.set context.toNat c

/-- What a call leaves in the slots: they are as they were, or one has been written. -/
inductive Writes (cfg : BuildConfig) (t u : ContextTable) : Call → Option UInt32 → Prop
  | same {call : Call} (h : u.contextList = t.contextList) : Writes cfg t u call none
  | opened {o : OpenOutcome} {desc : ContextDesc} {identifier context : UInt32} {copy : Option Pointer}
      {r : Retcode × ConnectorContext} (htaken : taken t = some context) (hpopped : popped t = true)
      (hcopy : connectorStrdup o.copy desc.connectionData = .ok copy)
      (hopen : connectorOpenConnection cfg o (described desc copy) = .ok r) (hsuccess : r.1 = .success)
      (hwrote : Wrote cfg t u context r.2) :
      Writes cfg t u (.request (.openContext o (some desc) (some identifier))) (some context)
  | openFailed {o : OpenOutcome} {desc : ContextDesc} {identifier context : UInt32} (htaken : taken t = some context)
      (hwrote : Wrote cfg t u context .zero) :
      Writes cfg t u (.request (.openContext o (some desc) (some identifier))) none
  | connected {o : ConnectOutcome} {desc : ContextDesc} {identifier context : UInt32} {r : Retcode × ConnectorContext}
      (htaken : taken t = some context)
      (hbridge : connectorBridgeConnection cfg o (described desc (desc.connectionData.map .borrowed)) = r)
      (hsuccess : r.1 = .success)
      (hwrote : Wrote cfg t u context { r.2 with
        configuration := (r.2.configuration &&& ~~~connMask) ||| connConnected
        connectionData := none }) :
      Writes cfg t u (.request (.connect o (some desc) (some identifier))) (some context)
  | connectFailed {o : ConnectOutcome} {desc : ContextDesc} {identifier context : UInt32}
      {r : Retcode × ConnectorContext} (htaken : taken t = some context)
      (hbridge : connectorBridgeConnection cfg o (described desc (desc.connectionData.map .borrowed)) = r)
      (hfailed : r.1 ≠ .success) (hwrote : Wrote cfg t u context r.2) :
      Writes cfg t u (.request (.connect o (some desc) (some identifier))) none
  | accepted {incoming : Option Nat} {listener identifier context : UInt32} {fd : Nat} (htaken : taken t = some context)
      (hlistener : listener.toNat < cfg.contextCount ∧ (t.slot listener).state = connOpen)
      (hincoming : connectorAcceptConnection incoming (t.slot listener) = some fd)
      (hwrote : Wrote cfg t u context { t.slot context with
        configuration := (t.slot listener).type ||| connConnected
        fd := fd }) : Writes cfg t u (.request (.accept incoming listener (some identifier))) (some context)
  | closed {context : UInt32}
      (huse : (t.slot context).state &&& connOpen ≠ 0 ∨ (t.slot context).state &&& connConnected ≠ 0)
      (hwrote : Wrote cfg t u context { t.slot context with
        configuration := (t.slot context).configuration ||| connShutdown }) : Writes cfg t u (.close context) none
  | sent {o : HandshakeOutcome} {context : UInt32} (hstate : (t.slot context).state = connConnected)
      (hwrote : Wrote cfg t u context { t.slot context with
        configuration := (t.slot context).configuration ||| handshakeSent }) :
      Writes cfg t u (.writeHandshake o context) none
  | shut {closed : Bool} {context : UInt32} (hwrote : Wrote cfg t u context .zero) :
      Writes cfg t u (.shutdownFromReadThread closed context) none

section writes
variable {cfg : BuildConfig} {t u : ContextTable} {context : UInt32} {c : ConnectorContext}

theorem Wrote.of_setSlot {v : ContextTable} (hrange : context.toNat < cfg.contextCount)
    (hv : v.contextList = t.contextList) (hu : u.contextList = (v.setSlot context c).contextList) :
    Wrote cfg t u context c := by
  refine ⟨hrange, ?_⟩
  rw [hu, ContextTable.setSlot, hv]

theorem Wrote.length (h : Wrote cfg t u context c) : u.contextList.length = t.contextList.length := by
  rw [h.2, List.length_set]

theorem Wrote.slot_self (h : Wrote cfg t u context c) (hlength : t.contextList.length = cfg.contextCount) :
    u.slot context = c := by
  have hlt : context.toNat < t.contextList.length := by
    rw [hlength]
    exact h.1
  rw [ContextTable.slot, h.2]
  simp [List.getD_eq_getElem?_getD, hlt]

theorem Wrote.slot_of_ne (h : Wrote cfg t u context c) {d : UInt32} (hd : d ≠ context) : u.slot d = t.slot d := by
  have hne : context.toNat ≠ d.toNat := fun heq => hd (UInt32.toNat_inj.mp heq.symm)
  rw [ContextTable.slot, ContextTable.slot, h.2]
  simp [List.getD_eq_getElem?_getD, List.getElem?_set_ne hne]

theorem map_eq_ok {ε α β : Type} {x : Except ε α} {f : α → β} {b : β} : x.map f = .ok b ↔ ∃ a, x = .ok a ∧ f a = b := by
  cases x <;> simp [Except.map]

theorem taken_of_popFree {r : Retcode × UInt32 × ContextTable} (h : t.popFree 0 = .ok r) : taken t = some r.2.1 :=
  toOption_map_eq_some.mpr ⟨r, h, rfl⟩

theorem popped_of_popFree {r : Retcode × UInt32 × ContextTable} (h : t.popFree 0 = .ok r) (hsuccess : r.1 = .success) :
    popped t = true := by
  rw [popped, h]
  exact decide_eq_true hsuccess

theorem begun_failed {r : Retcode × Option UInt32 × ContextTable} (h : r.1 ≠ .success) : begun r = none := if_neg h

/-- Opening leaves the configuration alone. -/
theorem configuration_openConnection {o : OpenOutcome} {r : Retcode × ConnectorContext}
    (h : connectorOpenConnection cfg o c = .ok r) : r.2.configuration = c.configuration := by
  obtain ⟨fd, port, connectionData, hfills⟩ := openConnection_fills h
  rw [hfills]

theorem configuration_bridgeConnection (o : ConnectOutcome) (c : ConnectorContext) :
    (connectorBridgeConnection cfg o c).2.configuration = c.configuration := by
  obtain ⟨fd, hfills⟩ := bridgeConnection_fills o c
  rw [hfills]

theorem writes_open {o : OpenOutcome} {desc : Option ContextDesc} {identifier : Option UInt32}
    {r : Retcode × Option UInt32 × ContextTable} (h : connectorContextOpen cfg o t desc identifier = .ok r) :
    Writes cfg t r.2.2 (.request (.openContext o desc identifier)) (begun r) := by
  cases contextOpen_cases h with
  | invalid => exact .same rfl
  | exhausted hpop hretcode =>
    rw [begun_failed hretcode]
    exact .same (contextList_popFree hpop)
  | opened hpop hrange hcopy hopen happend =>
    exact .opened (taken_of_popFree hpop) (popped_of_popFree hpop rfl) hcopy hopen rfl
      (.of_setSlot hrange (contextList_popFree hpop) (contextList_appendAvailable happend))
  | failed hpop hrange hretcode hpush =>
    rw [begun_failed hretcode]
    exact .openFailed (taken_of_popFree hpop)
      (.of_setSlot hrange (contextList_popFree hpop) (contextList_pushFree hpush))

theorem writes_connect {o : ConnectOutcome} {desc : Option ContextDesc} {identifier : Option UInt32}
    {r : Retcode × Option UInt32 × ContextTable} (h : connectorContextConnect cfg o t desc identifier = .ok r) :
    Writes cfg t r.2.2 (.request (.connect o desc identifier)) (begun r) := by
  cases contextConnect_cases h with
  | invalid => exact .same rfl
  | connected hpop hrange hbridge happend =>
    exact .connected (taken_of_popFree hpop) hbridge rfl
      (.of_setSlot hrange (contextList_popFree hpop) (contextList_appendAvailable happend))
  | failed hpop hrange hbridge hretcode hpush =>
    rw [begun_failed hretcode]
    exact .connectFailed (taken_of_popFree hpop) hbridge hretcode
      (.of_setSlot hrange (contextList_popFree hpop) (contextList_pushFree hpush))

theorem writes_accept {incoming : Option Nat} {listener : UInt32} {identifier : Option UInt32}
    {r : Retcode × Option UInt32 × ContextTable} (h : connectorContextAccept cfg incoming t listener identifier = .ok r) :
    Writes cfg t r.2.2 (.request (.accept incoming listener identifier)) (begun r) := by
  cases contextAccept_cases h with
  | refused hretcode =>
    rw [begun_failed hretcode]
    exact .same rfl
  | accepted hlistener haccept hpop hrange happend =>
    have hlist := contextList_popFree hpop
    rw [slot_of_contextList hlist, slot_of_contextList hlist] at happend
    exact .accepted (taken_of_popFree hpop) hlistener haccept
      (.of_setSlot hrange hlist (contextList_appendAvailable happend))

theorem writes_close (context : UInt32) : Writes cfg t (connectorContextClose cfg t context).2 (.close context) none := by
  obtain h | ⟨hrange, huse, h⟩ := contextClose_cases cfg t context <;> rw [h]
  · exact .same rfl
  · exact .closed huse ⟨hrange, rfl⟩

theorem writes_writeHandshake (o : HandshakeOutcome) (context : UInt32) :
    Writes cfg t (connectorContextWriteHandshake cfg o t context).2 (.writeHandshake o context) none := by
  obtain h | ⟨hrange, hstate, h⟩ := contextWriteHandshake_cases cfg t o context <;> rw [h]
  · exact .same rfl
  · exact .sent hstate ⟨hrange, rfl⟩

/-- A shutdown that finds the context clears its slot and releases what it held; any other does nothing. -/
theorem shutdown_cases {closed : Bool} {r : ShutdownResult}
    (h : connectorContextShutdownFromReadThread cfg closed t context = .ok r) :
    (Wrote cfg t r.table context .zero ∧ r.freed = (t.slot context).owned) ∨
      (¬ context.toNat < cfg.contextCount ∧ r.table = t ∧ r.freed = []) := by
  obtain ⟨hrange, pushed, hpush, rfl⟩ | ⟨hrange, rfl⟩ := contextShutdown_cases h
  · exact .inl ⟨⟨hrange, contextList_pushFree hpush⟩, rfl⟩
  · exact .inr ⟨hrange, rfl, rfl⟩

/-- Every call writes at most one slot. -/
theorem writes_run {call : Call} {r : Outcome} (h : call.run cfg t = .ok r) : Writes cfg t r.table call r.begun := by
  cases call with
  | request request =>
    obtain ⟨a, ha, rfl⟩ := map_eq_ok.mp h
    cases request with
    | openContext o desc identifier => exact writes_open ha
    | connect o desc identifier => exact writes_connect ha
    | accept incoming listener identifier => exact writes_accept ha
  | close context =>
    obtain rfl := Except.ok.inj h
    exact writes_close context
  | writeHandshake o context =>
    obtain rfl := Except.ok.inj h
    exact writes_writeHandshake o context
  | shutdownFromReadThread closed context =>
    obtain ⟨a, ha, rfl⟩ := map_eq_ok.mp h
    obtain ⟨hwrote, -⟩ | ⟨-, hsame, -⟩ := shutdown_cases ha
    · exact .shut hwrote
    · exact .same (congrArg ContextTable.contextList hsame)

end writes

end SubstanceConnector.ContextSystem
