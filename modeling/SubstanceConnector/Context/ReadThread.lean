import SubstanceConnector.Context.Table

/-!
# What a read thread owns

`connector_read_thread_t` and the functions of `readstructimpl.c`. The two arrays are as long as
`SUBSTANCE_CONNECTOR_READ_CONTEXTS`; their first `assigned_contexts` entries are in use, and what a
removal leaves behind them stays there.
-/

namespace SubstanceConnector

/-- `connector_poll_t`. -/
structure PollEntry where
  fd : Nat
  events : UInt16
  revents : UInt16
  deriving DecidableEq

def pollIn : UInt16 := 0x0001

structure ReadThread where
  contexts : List PollEntry
  contextIds : List UInt32
  assignedContexts : Nat
  deriving DecidableEq

namespace ReadThread

-- the structure as it is zeroed before the thread starts
def zero (cfg : BuildConfig) : ReadThread where
  contexts := List.replicate cfg.readContexts ⟨0, 0, 0⟩
  contextIds := List.replicate cfg.readContexts 0
  assignedContexts := 0

/-- The contexts a thread polls: `context_ids[0..assigned_contexts)`. -/
def held (thread : ReadThread) : List UInt32 := thread.contextIds.take thread.assignedContexts

end ReadThread

def connectorReadThreadRemoveContext (thread : ReadThread) (index : Nat) : Retcode × ReadThread :=
  if index < thread.assignedContexts then
    let last := thread.assignedContexts - 1
    if 0 < last then
      (.success,
        { contexts := thread.contexts.set index (thread.contexts.getD last ⟨0, 0, 0⟩)
          contextIds := thread.contextIds.set index (thread.contextIds.getD last 0)
          assignedContexts := last })
    else (.success, { thread with assignedContexts := last })
  else (.error, thread)

section
variable (cfg : BuildConfig)

def connectorReadThreadCheckLoad (thread : ReadThread) : Bool := thread.assignedContexts < cfg.readContexts

/-- `connector_read_thread_try_acquire`. The entry keeps the `revents` of whatever was there before. -/
def connectorReadThreadTryAcquire (o : HandshakeOutcome) (thread : ReadThread) (t : ContextTable) :
    Except Fault (Retcode × ReadThread × ContextTable) := do
  let popped ← connectorAvailableQueuePop t
  match popped.1 with
  | none => return (.error, thread, popped.2)
  | some context =>
    let index := thread.assignedContexts
    if index < cfg.readContexts then
      let entry := thread.contexts.getD index ⟨0, 0, 0⟩
      let thread : ReadThread :=
        { contexts := thread.contexts.set index
            { entry with fd := (popped.2.slot context).fd, events := pollIn }
          contextIds := thread.contextIds.set index context
          assignedContexts := index + 1 }
      let written := connectorContextWriteHandshake cfg o popped.2 context
      return (written.1, thread, written.2)
    else .error .bufferOverflow

/-- The loop of `connector_read_thread_cleanup_connections`, from the entry below `i` downwards;
`closed` is the outcome of closing each descriptor. -/
def cleanupLoop (closed : UInt32 → Bool) : Nat → Retcode → ReadThread → ContextTable →
    Except Fault (Retcode × ReadThread × ContextTable)
  | 0, retcode, thread, t => .ok (retcode, thread, t)
  | i + 1, retcode, thread, t =>
    let context := thread.contextIds.getD i 0
    if (t.slot context).state &&& connShutdown ≠ 0 then
      let removed := connectorReadThreadRemoveContext thread i
      if removed.1 = .success then do
        let r ← connectorContextShutdownFromReadThread cfg (closed context) t context
        cleanupLoop closed i r.retcode removed.2 r.table
      else cleanupLoop closed i removed.1 removed.2 t
    else cleanupLoop closed i retcode thread t

def connectorReadThreadCleanupConnections (closed : UInt32 → Bool) (thread : ReadThread) (t : ContextTable) :
    Except Fault (Retcode × ReadThread × ContextTable) :=
  cleanupLoop cfg closed thread.assignedContexts .error thread t

end

end SubstanceConnector
