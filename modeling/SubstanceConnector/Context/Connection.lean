import SubstanceConnector.Context.Struct

/-!
# Opening, connecting, accepting and closing

The operations of `connection.c` on one context structure, dispatched on its communication type to
the functions of `connection_unix.c` and `openconnectionimpl.c`. What the operating system answers
is an argument: each operation takes a record of the outcomes of the calls it may make.
-/

namespace SubstanceConnector

/-- `connector_strdup`, with the block its allocation returns. The copy is written without a test. -/
def connectorStrdup (block : Option Nat) (s : Option CString) : Except Fault (Option Pointer) :=
  match s with
  | none => .ok none
  | some s =>
    match block with
    | none => .error .nullDereference
    | some id => .ok (some (.block id s))

/-- The outcomes of the calls made while a context is opened. -/
structure OpenOutcome where
  copy : Option Nat
  directory : Bool
  defaultPath : Option Pointer
  socket : Option Nat
  bind : Bool
  boundPort : UInt16
  listen : Bool

structure ConnectOutcome where
  socket : Option Nat
  connect : Bool

def connectorOpenTcpImpl (o : OpenOutcome) (context : ConnectorContext) : Retcode × ConnectorContext :=
  if o.directory then
    match o.socket with
    | none => (.openFail, context)
    | some sock =>
      if o.bind then
        -- the port is read back before `listen`
        let context := { context with port := o.boundPort.toNat }
        if o.listen then (.success, { context with fd := sock }) else (.openFail, context)
      else (.openFail, context)
  else (.error, context)

/-- `connector_open_unix`. `local_result` is only ever set when no path was given. -/
def connectorOpenUnix (cfg : BuildConfig) (o : OpenOutcome) (context : ConnectorContext) :
    Except Fault (Retcode × ConnectorContext) :=
  match context.connectionData with
  | some _ => .ok (.invalid, context)
  | none =>
    let context := { context with connectionData := o.defaultPath }
    if o.directory then
      match o.defaultPath with
      | none => .error .nullDereference
      | some filepath =>
        if filepath.text.length + 1 ≥ cfg.sunPathSize then .ok (.invalid, context)
        else
          match o.socket with
          | none => .ok (.openFail, context)
          | some sock =>
            if o.bind && o.listen then .ok (.success, { context with fd := sock }) else .ok (.openFail, context)
    else .ok (.invalid, context)

def connectorConnectTcpImpl (o : ConnectOutcome) (context : ConnectorContext) : Retcode × ConnectorContext :=
  match o.socket with
  | none => (.openFail, context)
  | some sock => if o.connect then (.success, { context with fd := sock }) else (.openFail, context)

def connectorConnectUnix (cfg : BuildConfig) (o : ConnectOutcome) (context : ConnectorContext) :
    Retcode × ConnectorContext :=
  match context.connectionData with
  | none => (.invalid, context)
  | some filepath =>
    if filepath.text.length + 1 ≥ cfg.sunPathSize then (.invalid, context)
    else connectorConnectTcpImpl o context

/-! ## Dispatch on the communication type -/

/-- The index into the operation tables: types above the maximum select the default operation. -/
def ConnectorContext.connection (context : ConnectorContext) : UInt64 :=
  if context.type > commMax then 0 else context.type

def connectorOpenConnection (cfg : BuildConfig) (o : OpenOutcome) (context : ConnectorContext) :
    Except Fault (Retcode × ConnectorContext) :=
  if context.connection = commTcp then .ok (connectorOpenTcpImpl o context)
  else if context.connection = commUnix then connectorOpenUnix cfg o context
  else .ok (.unsupported, context)

def connectorBridgeConnection (cfg : BuildConfig) (o : ConnectOutcome) (context : ConnectorContext) :
    Retcode × ConnectorContext :=
  if context.connection = commTcp then connectorConnectTcpImpl o context
  else if context.connection = commUnix then connectorConnectUnix cfg o context
  else (.unsupported, context)

def ConnectorContext.supported (context : ConnectorContext) : Bool :=
  context.connection == commTcp || context.connection == commUnix

/-- `connector_accept_connection`; a negative descriptor is `none`. Unlike in the other tables, types
above the maximum select the last operation and not the default one. -/
def connectorAcceptConnection (accepted : Option Nat) (context : ConnectorContext) : Option Nat :=
  if context.type = 0 then none else accepted

/-- `connector_close_connection`, with whether `close` succeeds. -/
def connectorCloseConnection (closed : Bool) (context : ConnectorContext) : Retcode :=
  if context.supported then if closed then .success else .error else .unsupported

/-- `connector_write_connection`, with what `connector_send_message_generic` returns. -/
def connectorWriteConnection (written : Retcode) (context : ConnectorContext) : Retcode :=
  if context.supported then written else .unsupported

end SubstanceConnector
