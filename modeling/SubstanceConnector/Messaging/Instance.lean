import SubstanceConnector.Context.Exhaustion
import SubstanceConnector.Messaging.Dispatch

/-!
# One instance of the library at work

The context table together with the two message queues and the threads that serve them. Every
operation on the table, every access to a queue and every action of a dispatch thread is a step, so
that the threads may interleave anywhere in between. Which queued message a write or dispatch thread
takes is part of the label.

A connection is one use of a context, from the call that fills its slot to the cleanup that clears it.
The state numbers the connections and keeps, beside the program's own data, the connection every
message in the queues was accepted for or read from, and a log of what happened.
-/

namespace SubstanceConnector

/-- An item with the connection it belongs to; `none` if its context was not in use. -/
structure Tagged (α : Type) where
  item : α
  origin : Option Nat
  deriving DecidableEq

inductive Event where
  | wrote (connection : Option Nat) (message : Tagged ConnectorMessage)
  | named (connection : Option Nat) (name : Tagged CString)
  | notified (context : UInt32) (type : Uuid) (message : Option CString)
  deriving DecidableEq

/-- A read thread, with the message it has read and not enqueued yet. -/
structure Reader where
  data : ReadThread
  reading : Option (Tagged ConnectorMessage)

structure Instance (cfg : BuildConfig) where
  applicationName : CString
  table : ContextTable
  readers : Fin cfg.inboundCount → Reader
  inbound : List (Tagged ConnectorMessage)
  outbound : List (Tagged ConnectorMessage)
  writers : Fin cfg.outboundCount → Option (Tagged ConnectorMessage)
  dispatchers : Fin cfg.dispatchCount → List (Tagged Action)
  -- the connection each context denotes, how many there have been, and where each name came from
  current : UInt32 → Option Nat
  connections : Nat
  nameOrigin : UInt32 → Option Nat
  log : List Event

namespace Instance

inductive Label (cfg : BuildConfig) where
  | request (r : ContextSystem.Request)
  | close (context : UInt32)
  | acquire (i : Fin cfg.inboundCount) (o : HandshakeOutcome)
  | read (i : Fin cfg.inboundCount) (k : Nat) (message : ConnectorMessage)
  | enqueueInbound (i : Fin cfg.inboundCount)
  | cleanup (i : Fin cfg.inboundCount) (k : Nat) (closed : Bool)
  | writeMessage (built : Bool) (context : UInt32) (type : Option Uuid) (message : Option CString)
  | acquireOutbound (j : Fin cfg.outboundCount) (k : Nat)
  | send (j : Fin cfg.outboundCount) (written : Retcode)
  | acquireInbound (j : Fin cfg.dispatchCount) (k : Nat) (o : CallbackOutcome)
  | act (j : Fin cfg.dispatchCount) (block : Option Nat)

end Instance

/-- `context_message_op_generic`. -/
def contextMessageOpGeneric (cfg : BuildConfig) (t : ContextTable) (context : UInt32)
    (op : ConnectorContext → Retcode) : Retcode :=
  if context.toNat < cfg.contextCount then
    if (t.slot context).state = connConnected then op (t.slot context) else .invalid
  else .error

/-- The message `connector_context_write_handshake` puts on the connection, if it does. -/
def handshakeWritten (cfg : BuildConfig) (applicationName : CString) (o : HandshakeOutcome) (t : ContextTable)
    (context : UInt32) : Option ConnectorMessage :=
  if (t.slot context).configuration &&& handshakeMask ≠ handshakeSent ∧
      contextMessageOpGeneric cfg t context (connectorWriteConnection o.written) = .success then
    (connectorBuildMessage o.built context (some connectorInternalHandshakeUuid) (some applicationName)).map
      ConnectorMessage.markInternal
  else none

namespace Instance

variable {cfg : BuildConfig}

/-- A new connection on the context a request returned. -/
def begun (x : Instance cfg) (r : Retcode × Option UInt32 × ContextTable) : Instance cfg :=
  match r with
  | (.success, some context, table) =>
    { x with
      table := table
      current := Function.update x.current context (some x.connections)
      connections := x.connections + 1 }
  | (_, _, table) => { x with table := table }

/-- `connector_read_thread_try_acquire` of thread `i`. -/
def acquire (x : Instance cfg) (i : Fin cfg.inboundCount) (o : HandshakeOutcome) : Option (Instance cfg) :=
  let thread := (x.readers i).data
  if connectorReadThreadCheckLoad cfg thread then
    (connectorReadThreadTryAcquire cfg o thread x.table).toOption.map fun r =>
      -- the identifier acquired, if there was one, is the last entry
      let context := r.2.1.contextIds.getD thread.assignedContexts 0
      let written := if r.2.1.assignedContexts = thread.assignedContexts then none
        else handshakeWritten cfg x.applicationName o x.table context
      { x with
        table := r.2.2
        readers := Function.update x.readers i { x.readers i with data := r.2.1 }
        log := x.log ++ written.toList.map fun m => .wrote (x.current context) ⟨m, x.current context⟩ }
  else none

/-- A message arrives on the `k`-th context of thread `i`. -/
def read (x : Instance cfg) (i : Fin cfg.inboundCount) (k : Nat) (message : ConnectorMessage) : Option (Instance cfg) :=
  let reader := x.readers i
  let context := reader.data.contextIds.getD k 0
  if k < reader.data.assignedContexts ∧ reader.reading = none ∧
      contextMessageOpGeneric cfg x.table context (fun c => if c.supported then .success else .unsupported) =
        .success then
    some { x with
      readers := Function.update x.readers i
        { reader with reading := some ⟨{ message with context := context }, x.current context⟩ } }
  else none

def enqueueInbound (x : Instance cfg) (i : Fin cfg.inboundCount) : Option (Instance cfg) :=
  (x.readers i).reading.map fun m =>
    { x with
      readers := Function.update x.readers i { x.readers i with reading := none }
      inbound := x.inbound ++ [m] }

/-- The `k`-th entry in the loop of `connector_read_thread_cleanup_connections`. -/
def cleanup (x : Instance cfg) (i : Fin cfg.inboundCount) (k : Nat) (closed : Bool) : Option (Instance cfg) :=
  let reader := x.readers i
  let context := reader.data.contextIds.getD k 0
  let removed := connectorReadThreadRemoveContext reader.data k
  if reader.reading = none ∧ removed.1 = .success ∧ (x.table.slot context).state &&& connShutdown ≠ 0 then
    (connectorContextShutdownFromReadThread cfg closed x.table context).toOption.map fun r =>
      { x with
        table := r.table
        readers := Function.update x.readers i { reader with data := removed.2 }
        current := Function.update x.current context none
        log := x.log ++ r.notified.toList.map fun name =>
          .notified context connectorInternalConnectionClosedUuid (some name.text) }
  else none

/-- `substance_connector_write_message`, while the library is initialised. -/
def writeMessage (x : Instance cfg) (built : Bool) (context : UInt32) (type : Option Uuid) (message : Option CString) :
    Instance cfg :=
  let m := connectorBuildMessage built context type message
  { x with outbound := x.outbound ++ m.toList.map fun m => ⟨m, x.current context⟩ }

def acquireOutbound (x : Instance cfg) (j : Fin cfg.outboundCount) (k : Nat) : Option (Instance cfg) :=
  if x.writers j = none then
    (x.outbound[k]?).map fun m =>
      { x with outbound := x.outbound.eraseIdx k, writers := Function.update x.writers j (some m) }
  else none

/-- `connector_context_write` of the message write thread `j` holds. -/
def send (x : Instance cfg) (j : Fin cfg.outboundCount) (written : Retcode) : Option (Instance cfg) :=
  (x.writers j).map fun m =>
    let retcode := contextMessageOpGeneric cfg x.table m.item.context (connectorWriteConnection written)
    { x with
      writers := Function.update x.writers j none
      log := if retcode = .success then x.log ++ [.wrote (x.current m.item.context) m] else x.log }

def acquireInbound (x : Instance cfg) (j : Fin cfg.dispatchCount) (k : Nat) (o : CallbackOutcome) :
    Option (Instance cfg) :=
  if x.dispatchers j = [] then
    (x.inbound[k]?).map fun m =>
      { x with
        inbound := x.inbound.eraseIdx k
        dispatchers := Function.update x.dispatchers j
          ((dispatchMessage (some x.applicationName) o m.item).map (⟨·, m.origin⟩)) }
  else none

/-- One action, with the block `connector_context_set_application_name` copies the name into. -/
def perform (x : Instance cfg) (block : Option Nat) (origin : Option Nat) : Action → Option (Instance cfg)
  | .enqueueOutbound message => some { x with outbound := x.outbound ++ [⟨message, origin⟩] }
  | .setApplicationName context name =>
    (connectorContextSetApplicationName cfg block x.table context (some name)).toOption.map fun r =>
      { x with
        table := r.2
        nameOrigin := Function.update x.nameOrigin context origin
        log := x.log ++ [.named (x.current context) ⟨name, origin⟩] }
  | .notifyTrampolines context type message => some { x with log := x.log ++ [.notified context type message] }

def act (x : Instance cfg) (j : Fin cfg.dispatchCount) (block : Option Nat) : Option (Instance cfg) :=
  match x.dispatchers j with
  | [] => none
  | a :: rest => { x with dispatchers := Function.update x.dispatchers j rest }.perform block a.origin a.item

def next (x : Instance cfg) : Label cfg → Option (Instance cfg)
  | .request r => (r.run cfg x.table).toOption.map x.begun
  | .close context => some { x with table := (connectorContextClose cfg x.table context).2 }
  | .acquire i o => x.acquire i o
  | .read i k message => x.read i k message
  | .enqueueInbound i => x.enqueueInbound i
  | .cleanup i k closed => x.cleanup i k closed
  | .writeMessage built context type message => some (x.writeMessage built context type message)
  | .acquireOutbound j k => x.acquireOutbound j k
  | .send j written => x.send j written
  | .acquireInbound j k o => x.acquireInbound j k o
  | .act j block => x.act j block

/-- The instance after initialisation. -/
def start (cfg : BuildConfig) (applicationName : CString) : Instance cfg where
  applicationName := applicationName
  table := (ContextSystem.startTable cfg).toOption.getD ⟨[], .null, .null⟩
  readers _ := ⟨.zero cfg, none⟩
  inbound := []
  outbound := []
  writers _ := none
  dispatchers _ := []
  current _ := none
  connections := 0
  nameOrigin _ := none
  log := []

def system (cfg : BuildConfig) (applicationName : CString) : StepSystem (Instance cfg) (Label cfg) :=
  .ofNext (· = start cfg applicationName) next

/-! ## What an operation can do -/

variable {x x' : Instance cfg}

section begun
variable (x : Instance cfg) (r : Retcode × Option UInt32 × ContextTable)

@[simp] theorem readers_begun : (x.begun r).readers = x.readers := by
  unfold begun
  split <;> rfl

@[simp] theorem inbound_begun : (x.begun r).inbound = x.inbound := by
  unfold begun
  split <;> rfl

@[simp] theorem outbound_begun : (x.begun r).outbound = x.outbound := by
  unfold begun
  split <;> rfl

@[simp] theorem writers_begun : (x.begun r).writers = x.writers := by
  unfold begun
  split <;> rfl

@[simp] theorem dispatchers_begun : (x.begun r).dispatchers = x.dispatchers := by
  unfold begun
  split <;> rfl

@[simp] theorem log_begun : (x.begun r).log = x.log := by
  unfold begun
  split <;> rfl

end begun

theorem acquire_eq_some {i : Fin cfg.inboundCount} {o : HandshakeOutcome} (h : x.acquire i o = some x') :
    ∃ r context written, connectorReadThreadTryAcquire cfg o (x.readers i).data x.table = .ok r ∧
      context = r.2.1.contextIds.getD (x.readers i).data.assignedContexts 0 ∧
      written = (if r.2.1.assignedContexts = (x.readers i).data.assignedContexts then none
        else handshakeWritten cfg x.applicationName o x.table context) ∧
      x' = { x with
        table := r.2.2
        readers := Function.update x.readers i { x.readers i with data := r.2.1 }
        log := x.log ++ written.toList.map fun m => .wrote (x.current context) ⟨m, x.current context⟩ } := by
  obtain ⟨-, h⟩ := Option.ite_none_right_eq_some.mp h
  obtain ⟨r, hr, rfl⟩ := ContextSystem.toOption_map_eq_some.mp h
  exact ⟨r, _, _, hr, rfl, rfl, rfl⟩

theorem read_eq_some {i : Fin cfg.inboundCount} {k : Nat} {m : ConnectorMessage} (h : x.read i k m = some x') :
    k < (x.readers i).data.assignedContexts ∧ (x.readers i).reading = none ∧
      ∃ context, context = (x.readers i).data.contextIds.getD k 0 ∧
        x' = { x with
          readers := Function.update x.readers i
            ⟨(x.readers i).data, some ⟨{ m with context := context }, x.current context⟩⟩ } := by
  obtain ⟨⟨hassigned, hidle, -⟩, h⟩ := Option.ite_none_right_eq_some.mp h
  exact ⟨hassigned, hidle, _, rfl, (Option.some.inj h).symm⟩

theorem cleanup_eq_some {i : Fin cfg.inboundCount} {k : Nat} {closed : Bool} (h : x.cleanup i k closed = some x') :
    ∃ r context, connectorContextShutdownFromReadThread cfg closed x.table context = .ok r ∧
      context = (x.readers i).data.contextIds.getD k 0 ∧
      x' = { x with
        table := r.table
        readers := Function.update x.readers i
          { x.readers i with data := (connectorReadThreadRemoveContext (x.readers i).data k).2 }
        current := Function.update x.current context none
        log := x.log ++ r.notified.toList.map fun name =>
          .notified context connectorInternalConnectionClosedUuid (some name.text) } := by
  obtain ⟨-, h⟩ := Option.ite_none_right_eq_some.mp h
  obtain ⟨r, hr, rfl⟩ := ContextSystem.toOption_map_eq_some.mp h
  exact ⟨r, _, hr, rfl, rfl⟩

theorem acquireOutbound_eq_some {j : Fin cfg.outboundCount} {k : Nat} (h : x.acquireOutbound j k = some x') :
    x.writers j = none ∧ ∃ m, x.outbound[k]? = some m ∧
      x' = { x with outbound := x.outbound.eraseIdx k, writers := Function.update x.writers j (some m) } := by
  obtain ⟨hidle, h⟩ := Option.ite_none_right_eq_some.mp h
  obtain ⟨m, hm, rfl⟩ := Option.map_eq_some_iff.mp h
  exact ⟨hidle, m, hm, rfl⟩

theorem acquireInbound_eq_some {j : Fin cfg.dispatchCount} {k : Nat} {o : CallbackOutcome}
    (h : x.acquireInbound j k o = some x') :
    x.dispatchers j = [] ∧ ∃ m, x.inbound[k]? = some m ∧
      x' = { x with
        inbound := x.inbound.eraseIdx k
        dispatchers := Function.update x.dispatchers j
          ((dispatchMessage (some x.applicationName) o m.item).map (⟨·, m.origin⟩)) } := by
  obtain ⟨hidle, h⟩ := Option.ite_none_right_eq_some.mp h
  obtain ⟨m, hm, rfl⟩ := Option.map_eq_some_iff.mp h
  exact ⟨hidle, m, hm, rfl⟩

/-- The first of the actions is performed, the others stay. -/
theorem act_eq_some {j : Fin cfg.dispatchCount} {block : Option Nat} (h : x.act j block = some x') :
    ∃ a rest, x.dispatchers j = a :: rest ∧
      { x with dispatchers := Function.update x.dispatchers j rest }.perform block a.origin a.item = some x' := by
  unfold act at h
  split at h
  case h_1 => cases h
  case h_2 a rest hactions => exact ⟨a, rest, hactions, h⟩

/-- An action touches neither the threads nor what has been received. -/
theorem frame_perform {block origin : Option Nat} {a : Action} (h : x.perform block origin a = some x') :
    x'.readers = x.readers ∧ x'.inbound = x.inbound ∧ x'.dispatchers = x.dispatchers ∧ x'.current = x.current ∧
      x'.connections = x.connections ∧ ∃ es, x'.log = x.log ++ es := by
  cases a with
  | enqueueOutbound message =>
    obtain rfl := Option.some.inj h
    exact ⟨rfl, rfl, rfl, rfl, rfl, [], (List.append_nil _).symm⟩
  | setApplicationName context name =>
    obtain ⟨r, -, rfl⟩ := ContextSystem.toOption_map_eq_some.mp h
    exact ⟨rfl, rfl, rfl, rfl, rfl, _, rfl⟩
  | notifyTrampolines context type message =>
    obtain rfl := Option.some.inj h
    exact ⟨rfl, rfl, rfl, rfl, rfl, _, rfl⟩

end Instance

end SubstanceConnector
