import SubstanceConnector.Context.Connection
import SubstanceConnector.Queue.UintQueue

/-!
# The context table

The static state of `context_queue.c` and `available_queue.c`: the array of contexts, the queue of
free identifiers and the queue of contexts waiting for a read thread; and the operations on it.
-/

namespace SubstanceConnector

structure ContextDesc where
  configuration : UInt64
  connectionData : Option CString
  port : UInt32

/-- `context_list`, `free_contexts` and `connection_queue`. -/
structure ContextTable where
  contextList : List ConnectorContext
  freeContexts : QueuePtr
  connectionQueue : QueuePtr
  deriving DecidableEq

namespace ContextTable

-- `context_list[context]`
def slot (t : ContextTable) (context : UInt32) : ConnectorContext :=
  t.contextList.getD context.toNat .zero

def setSlot (t : ContextTable) (context : UInt32) (c : ConnectorContext) : ContextTable :=
  { t with contextList := t.contextList.set context.toNat c }

def popFree (t : ContextTable) (retval : UInt32) : Except Fault (Retcode × UInt32 × ContextTable) := do
  let r ← connectorUintQueuePop t.freeContexts retval
  return (r.1, r.2.1, { t with freeContexts := r.2.2 })

/-- `connector_return_context`. -/
def pushFree (t : ContextTable) (context : UInt32) : Except Fault (Retcode × ContextTable) := do
  let r ← connectorUintQueuePush t.freeContexts context
  return (r.1, { t with freeContexts := r.2 })

end ContextTable

theorem slot_of_contextList {t u : ContextTable} (h : u.contextList = t.contextList) (context : UInt32) :
    u.slot context = t.slot context := by
  rw [ContextTable.slot, ContextTable.slot, h]

theorem slot_setSlot_of_ne (t : ContextTable) {context c : UInt32} (v : ConnectorContext) (h : c ≠ context) :
    (t.setSlot context v).slot c = t.slot c := by
  have hne : context.toNat ≠ c.toNat := fun heq => h (UInt32.toNat_inj.mp heq.symm)
  simp [ContextTable.slot, ContextTable.setSlot, List.getD_eq_getElem?_getD, List.getElem?_set_ne hne]

theorem slot_setSlot_self {t : ContextTable} {context : UInt32} (v : ConnectorContext)
    (h : context.toNat < t.contextList.length) : (t.setSlot context v).slot context = v := by
  simp [ContextTable.slot, ContextTable.setSlot, List.getD_eq_getElem?_getD, h]

def connectorAvailableQueuePush (t : ContextTable) (context : UInt32) : Except Fault (Retcode × ContextTable) :=
  if t.connectionQueue = .null then .ok (.error, t)
  else do
    let r ← connectorUintQueuePush t.connectionQueue context
    return (r.1, { t with connectionQueue := r.2 })

-- `SUBSTANCE_CONNECTOR_AVAILABLE_RETRIES`
def availableRetries : Nat := 5

/-- The loop of `connector_available_queue_pop`. -/
def availablePopLoop (t : ContextTable) : Nat → Except Fault (Option UInt32 × ContextTable)
  | 0 => .ok (none, t)
  | n + 1 => do
    let r ← connectorUintQueuePop t.connectionQueue 0
    let t' := { t with connectionQueue := r.2.2 }
    if r.1 = .success then return (some r.2.1, t') else availablePopLoop t' n

/-- `connector_available_queue_pop`; `none` is a failure. -/
def connectorAvailableQueuePop (t : ContextTable) : Except Fault (Option UInt32 × ContextTable) :=
  if t.connectionQueue = .null then .ok (none, t) else availablePopLoop t availableRetries

/-- `append_available`. Its result, which no caller reads, is left out, and so is the signal to the
read threads. -/
def appendAvailable (t : ContextTable) (context : UInt32) : Except Fault ContextTable := do
  let r ← connectorAvailableQueuePush t context
  return r.2

/-! ## Acquiring contexts -/

section acquire
variable (cfg : BuildConfig)

/-- `connector_context_open`. A null `identifier` is `none`; otherwise it is what `*identifier`
holds, before and after. -/
def connectorContextOpen (o : OpenOutcome) (t : ContextTable) (desc : Option ContextDesc)
    (identifier : Option UInt32) : Except Fault (Retcode × Option UInt32 × ContextTable) :=
  match desc, identifier with
  | some desc, some _ => do
    let popped ← t.popFree 0
    let context := popped.2.1
    let t := popped.2.2
    if popped.1 = .success then
      if context.toNat < cfg.contextCount then
        let copy ← connectorStrdup o.copy desc.connectionData
        let opened ← connectorOpenConnection cfg o
          { ConnectorContext.zero with
            configuration := (desc.configuration &&& commMask) ||| connOpen
            connectionData := copy
            port := desc.port.toNat }
        if opened.1 = .success then
          let t ← appendAvailable (t.setSlot context opened.2) context
          return (.success, some context, t)
        else
          let pushed ← (t.setSlot context .zero).pushFree context
          return (opened.1, identifier, pushed.2)
      else .error .bufferOverflow
    else return (popped.1, identifier, t)
  | _, _ => .ok (.error, identifier, t)

/-- `connector_context_connect`. The result of the pop is not tested. -/
def connectorContextConnect (o : ConnectOutcome) (t : ContextTable) (desc : Option ContextDesc)
    (identifier : Option UInt32) : Except Fault (Retcode × Option UInt32 × ContextTable) :=
  match desc, identifier with
  | some desc, some _ => do
    let popped ← t.popFree 0
    let context := popped.2.1
    let t := popped.2.2
    if context.toNat < cfg.contextCount then
      let bridged := connectorBridgeConnection cfg o
        { ConnectorContext.zero with
          configuration := (desc.configuration &&& commMask) ||| connOpen
          connectionData := desc.connectionData.map .borrowed
          port := desc.port.toNat }
      if bridged.1 = .success then
        let c := bridged.2
        let t ← appendAvailable
          (t.setSlot context { c with
            configuration := (c.configuration &&& ~~~connMask) ||| connConnected
            connectionData := none }) context
        return (.success, some context, t)
      else
        let pushed ← (t.setSlot context bridged.2).pushFree context
        return (bridged.1, identifier, pushed.2)
    else .error .bufferOverflow
  | _, _ => .ok (.error, identifier, t)

/-- `connector_context_accept`. The result of the pop is not tested, and the context taken keeps
what it held besides its configuration and descriptor. -/
def connectorContextAccept (accepted : Option Nat) (t : ContextTable) (context : UInt32)
    (identifier : Option UInt32) : Except Fault (Retcode × Option UInt32 × ContextTable) :=
  match identifier with
  | none => .ok (.invalid, identifier, t)
  | some _ =>
    if context.toNat < cfg.contextCount ∧ (t.slot context).state = connOpen then
      match connectorAcceptConnection accepted (t.slot context) with
      | none => .ok (.openFail, identifier, t)
      | some fd => do
        let popped ← t.popFree 0
        let contextId := popped.2.1
        let t := popped.2.2
        if contextId.toNat < cfg.contextCount then
          let t ← appendAvailable
            (t.setSlot contextId { t.slot contextId with
              configuration := (t.slot context).type ||| connConnected
              fd := fd }) contextId
          return (.success, some contextId, t)
        else .error .bufferOverflow
    else .ok (.invalid, identifier, t)

/-! ## Closing them -/

def connectorContextClose (t : ContextTable) (context : UInt32) : Retcode × ContextTable :=
  if context.toNat < cfg.contextCount then
    let c := t.slot context
    if c.state &&& connOpen ≠ 0 ∨ c.state &&& connConnected ≠ 0 then
      (.success, t.setSlot context { c with configuration := c.configuration ||| connShutdown })
    else (.error, t)
  else (.error, t)

/-- The pointers `clear_context_struct` releases. -/
def ConnectorContext.owned (c : ConnectorContext) : List Pointer :=
  c.applicationName.toList ++ c.connectionData.toList

/-- What `connector_context_shutdown_from_read_thread` leaves: the table, the application name the
trampolines were notified of, and the pointers it released. -/
structure ShutdownResult where
  retcode : Retcode
  table : ContextTable
  notified : Option Pointer
  freed : List Pointer

def connectorContextShutdownFromReadThread (closed : Bool) (t : ContextTable) (context : UInt32) :
    Except Fault ShutdownResult :=
  if context.toNat < cfg.contextCount then do
    let c := t.slot context
    let pushed ← (t.setSlot context .zero).pushFree context
    return ⟨connectorCloseConnection closed c, pushed.2, c.applicationName, c.owned⟩
  else .ok ⟨.error, t, none, []⟩

/-! ## The handshake -/

/-- Whether `connector_build_message` returned a message, and what sending it returned. -/
structure HandshakeOutcome where
  built : Bool
  written : Retcode

def connectorContextWriteHandshake (o : HandshakeOutcome) (t : ContextTable) (context : UInt32) :
    Retcode × ContextTable :=
  if context.toNat < cfg.contextCount then
    let c := t.slot context
    if c.configuration &&& handshakeMask = handshakeSent then (.success, t)
    else if c.state = connConnected then
      if o.built then
        let r := connectorWriteConnection o.written c
        if r = .success then
          (r, t.setSlot context { c with configuration := c.configuration ||| handshakeSent })
        else (r, t)
      else (.error, t)
    else (.success, t)
  else (.error, t)

/-- `connector_context_set_application_name`, with the block its copy is allocated in. -/
def connectorContextSetApplicationName (block : Option Nat) (t : ContextTable) (context : UInt32)
    (name : Option CString) : Except Fault (Retcode × ContextTable) :=
  if context.toNat < cfg.contextCount ∧ name ≠ none then do
    let copy ← connectorStrdup block name
    return (.success, t.setSlot context { t.slot context with applicationName := copy })
  else .ok (.error, t)

end acquire

/-! ## Starting and stopping -/

def pushAll : List UInt32 → ContextTable → Except Fault ContextTable
  | [], t => .ok t
  | i :: is, t => do
    let pushed ← t.pushFree i
    pushAll is pushed.2

/-- `connector_init_context_subsystem`, with the outcomes of the two allocations of its queue. -/
def connectorInitContextSubsystem (cfg : BuildConfig) (queueAllocated arrayAllocated : Bool)
    (t : ContextTable) : Except Fault (Retcode × ContextTable) := do
  let queue ← connectorUintQueueCreate (UInt32.ofNat cfg.contextCount) queueAllocated arrayAllocated
  let t := { t with contextList := List.replicate cfg.contextCount .zero, freeContexts := queue }
  if queue = .null then return (.error, t)
  else
    let t ← pushAll ((List.range cfg.contextCount).map UInt32.ofNat) t
    return (.success, t)

def connectorShutdownContextSubsystem (t : ContextTable) : Except Fault (Retcode × ContextTable) := do
  let r ← connectorUintQueueDestroy t.freeContexts
  return (r.1, { t with freeContexts := if r.1 = .success then .null else r.2 })

def connectorAvailableQueueInit (cfg : BuildConfig) (queueAllocated arrayAllocated : Bool) (t : ContextTable) :
    Except Fault (Retcode × ContextTable) :=
  if t.connectionQueue = .null then do
    let queue ← connectorUintQueueCreate (UInt32.ofNat cfg.contextCount) queueAllocated arrayAllocated
    return (if queue = .null then .error else .success, { t with connectionQueue := queue })
  else .ok (.error, t)

def connectorAvailableQueueShutdown (t : ContextTable) : Except Fault (Retcode × ContextTable) := do
  let r ← connectorUintQueueDestroy t.connectionQueue
  return (r.1, { t with connectionQueue := if r.1 = .success then .null else r.2 })

/-! ## The queues and the slots

An operation on a queue leaves the slots as they are.
-/

section slots
variable {t : ContextTable}

/-- A pop of the free queue changes the queue only. -/
theorem ContextTable.popFree_eq_ok {v context : UInt32} {retcode : Retcode} {u : ContextTable}
    (h : t.popFree v = .ok (retcode, context, u)) :
    ∃ p, connectorUintQueuePop t.freeContexts v = .ok (retcode, context, p) ∧ u = { t with freeContexts := p } := by
  obtain ⟨r, hr, h⟩ := bind_eq_ok.mp h
  obtain ⟨retcode', context', p⟩ := r
  cases h
  exact ⟨p, hr, rfl⟩

theorem contextList_popFree {v : UInt32} {r : Retcode × UInt32 × ContextTable} (h : t.popFree v = .ok r) :
    r.2.2.contextList = t.contextList := by
  obtain ⟨p, -, hr⟩ := bind_eq_ok.mp h
  obtain rfl := Except.ok.inj hr
  rfl

theorem contextList_pushFree {v : UInt32} {r : Retcode × ContextTable} (h : t.pushFree v = .ok r) :
    r.2.contextList = t.contextList := by
  obtain ⟨p, -, hr⟩ := bind_eq_ok.mp h
  obtain rfl := Except.ok.inj hr
  rfl

theorem contextList_pushAll {xs : List UInt32} {u : ContextTable} (h : pushAll xs t = .ok u) :
    u.contextList = t.contextList := by
  induction xs generalizing t with
  | nil =>
    obtain rfl := Except.ok.inj h
    rfl
  | cons x xs ih =>
    obtain ⟨pushed, hpush, h⟩ := bind_eq_ok.mp h
    rw [ih h, contextList_pushFree hpush]

theorem contextList_availableQueuePush {v : UInt32} {r : Retcode × ContextTable}
    (h : connectorAvailableQueuePush t v = .ok r) : r.2.contextList = t.contextList := by
  unfold connectorAvailableQueuePush at h
  split at h
  · obtain rfl := Except.ok.inj h
    rfl
  · obtain ⟨p, -, hr⟩ := bind_eq_ok.mp h
    obtain rfl := Except.ok.inj hr
    rfl

theorem contextList_appendAvailable {v : UInt32} {u : ContextTable} (h : appendAvailable t v = .ok u) :
    u.contextList = t.contextList := by
  obtain ⟨p, hp, hu⟩ := bind_eq_ok.mp h
  obtain rfl := Except.ok.inj hu
  exact contextList_availableQueuePush hp

theorem contextList_availablePopLoop {n : Nat} {r : Option UInt32 × ContextTable} (h : availablePopLoop t n = .ok r) :
    r.2.contextList = t.contextList := by
  induction n generalizing t with
  | zero =>
    obtain rfl := Except.ok.inj h
    rfl
  | succ n ih =>
    obtain ⟨p, -, h⟩ := bind_eq_ok.mp h
    dsimp only at h
    split at h
    · obtain rfl := Except.ok.inj h
      rfl
    · have hrest := ih h
      exact hrest

theorem contextList_availableQueuePop {r : Option UInt32 × ContextTable} (h : connectorAvailableQueuePop t = .ok r) :
    r.2.contextList = t.contextList := by
  unfold connectorAvailableQueuePop at h
  split at h
  · obtain rfl := Except.ok.inj h
    rfl
  · exact contextList_availablePopLoop h

/-- Pops of the available queue leave the free queue alone. -/
theorem freeContexts_availableQueuePop {r : Option UInt32 × ContextTable} (h : connectorAvailableQueuePop t = .ok r) :
    r.2.freeContexts = t.freeContexts := by
  have hloop : ∀ n, ∀ u : ContextTable, availablePopLoop u n = .ok r → r.2.freeContexts = u.freeContexts := by
    intro n
    induction n with
    | zero =>
      intro u h
      obtain rfl := Except.ok.inj h
      rfl
    | succ n ih =>
      intro u h
      obtain ⟨p, -, h⟩ := bind_eq_ok.mp h
      dsimp only at h
      split at h
      · obtain rfl := Except.ok.inj h
        rfl
      · have hrest := ih _ h
        exact hrest
  unfold connectorAvailableQueuePop at h
  split at h
  · obtain rfl := Except.ok.inj h
    rfl
  · exact hloop _ t h

end slots

end SubstanceConnector
