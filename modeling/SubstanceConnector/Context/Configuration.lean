import SubstanceConnector.Context.Calls

/-!
# The configuration word

Three bit fields share the 64-bit `configuration` of a context: the communication type, the connection state and
whether the handshake has been sent. A context is closed, open or connected, the last two over TCP or over a Unix
socket, and only these phases have a word (`Phase.word`); every call takes slots with such words to slots with such
words, also when it fails or finds no free context.
-/

namespace SubstanceConnector.ContextSystem

/-! ## Phases -/

inductive Transport where
  | tcp
  | unix

def Transport.word : Transport → UInt64
  | .tcp => commTcp
  | .unix => commUnix

/-- What the fields of a configuration say together. -/
inductive Phase where
  | closed
  | listening (transport : Transport) (shut : Bool)
  | connected (transport : Transport) (shut sent : Bool)

def flag (bit : UInt64) (set : Bool) : UInt64 := if set then bit else 0

def Phase.word : Phase → UInt64
  | .closed => connClosed
  | .listening transport shut => transport.word ||| connOpen ||| flag connShutdown shut
  | .connected transport shut sent =>
    transport.word ||| connConnected ||| flag connShutdown shut ||| flag handshakeSent sent

-- the twelve bits the fields take up
def configurationMask : UInt64 := 0xfff

structure WellFormed (configuration : UInt64) : Prop where
  bits : configuration &&& ~~~configurationMask = 0
  exclusive : configuration &&& connOpen = 0 ∨ configuration &&& connConnected = 0
  shutdown : configuration &&& connShutdown ≠ 0 →
    configuration &&& connOpen ≠ 0 ∨ configuration &&& connConnected ≠ 0
  handshake : configuration &&& handshakeMask = handshakeSent → configuration &&& connConnected ≠ 0
  type : configuration &&& connMask ≠ connClosed →
    configuration &&& commMask = commTcp ∨ configuration &&& commMask = commUnix

instance (configuration : UInt64) : Decidable (WellFormed configuration) :=
  decidable_of_iff (configuration &&& ~~~configurationMask = 0 ∧
    (configuration &&& connOpen = 0 ∨ configuration &&& connConnected = 0) ∧
    (configuration &&& connShutdown ≠ 0 → configuration &&& connOpen ≠ 0 ∨ configuration &&& connConnected ≠ 0) ∧
    (configuration &&& handshakeMask = handshakeSent → configuration &&& connConnected ≠ 0) ∧
    (configuration &&& connMask ≠ connClosed →
      configuration &&& commMask = commTcp ∨ configuration &&& commMask = commUnix))
    ⟨fun ⟨bits, exclusive, shutdown, handshake, type⟩ => ⟨bits, exclusive, shutdown, handshake, type⟩,
      fun h => ⟨h.bits, h.exclusive, h.shutdown, h.handshake, h.type⟩⟩

theorem Phase.wellFormed (phase : Phase) : WellFormed phase.word := by
  cases phase with
  | closed => decide
  | listening transport shut =>
    cases transport <;> cases shut <;> decide
  | connected transport shut sent =>
    cases transport <;> cases shut <;> cases sent <;> decide

/-- A context that is open and nothing else is listening. -/
theorem Phase.listening_of_state {phase : Phase} (h : phase.word &&& connMask = connOpen) :
    ∃ transport, phase = .listening transport false := by
  cases phase with
  | closed => exact absurd h (by decide)
  | listening transport shut =>
    cases shut with
    | false => exact ⟨transport, rfl⟩
    | true => cases transport <;> exact absurd h (by decide)
  | connected transport shut sent =>
    cases transport <;> cases shut <;> cases sent <;> exact absurd h (by decide)

theorem Phase.connected_of_state {phase : Phase} (h : phase.word &&& connMask = connConnected) :
    ∃ transport sent, phase = .connected transport false sent := by
  cases phase with
  | closed => exact absurd h (by decide)
  | listening transport shut => cases transport <;> cases shut <;> exact absurd h (by decide)
  | connected transport shut sent =>
    cases shut with
    | false => exact ⟨transport, sent, rfl⟩
    | true => cases transport <;> cases sent <;> exact absurd h (by decide)

/-- Closing a context that is open or connected flags it. -/
theorem Phase.word_or_shutdown {phase : Phase} (h : phase ≠ .closed) :
    ∃ phase' : Phase, phase.word ||| connShutdown = phase'.word := by
  cases phase with
  | closed => exact absurd rfl h
  | listening transport shut =>
    refine ⟨.listening transport true, ?_⟩
    cases transport <;> cases shut <;> decide
  | connected transport shut sent =>
    refine ⟨.connected transport true sent, ?_⟩
    cases transport <;> cases shut <;> cases sent <;> decide

theorem Phase.word_or_sent (transport : Transport) (sent : Bool) :
    (Phase.connected transport false sent).word ||| handshakeSent = (Phase.connected transport false true).word := by
  cases transport <;> cases sent <;> decide

/-! ## The calls with a type -/

section typed
variable (cfg : BuildConfig)

def connectorContextOpenTcp (o : OpenOutcome) (t : ContextTable) (port : UInt32) (identifier : Option UInt32) :
    Except Fault (Retcode × Option UInt32 × ContextTable) :=
  connectorContextOpen cfg o t (some ⟨commTcp, none, port⟩) identifier

def connectorContextOpenUnix (o : OpenOutcome) (t : ContextTable) (filepath : Option CString)
    (identifier : Option UInt32) : Except Fault (Retcode × Option UInt32 × ContextTable) :=
  connectorContextOpen cfg o t (some ⟨commUnix, filepath, 0⟩) identifier

def connectorContextConnectTcp (o : ConnectOutcome) (t : ContextTable) (port : UInt32) (identifier : Option UInt32) :
    Except Fault (Retcode × Option UInt32 × ContextTable) :=
  connectorContextConnect cfg o t (some ⟨commTcp, none, port⟩) identifier

def connectorContextConnectUnix (o : ConnectOutcome) (t : ContextTable) (filepath : Option CString)
    (identifier : Option UInt32) : Except Fault (Retcode × Option UInt32 × ContextTable) :=
  connectorContextConnect cfg o t (some ⟨commUnix, filepath, 0⟩) identifier

end typed

inductive TypedCall where
  | openTcp (o : OpenOutcome) (port : UInt32) (identifier : Option UInt32)
  | openUnix (o : OpenOutcome) (filepath : Option CString) (identifier : Option UInt32)
  | connectTcp (o : ConnectOutcome) (port : UInt32) (identifier : Option UInt32)
  | connectUnix (o : ConnectOutcome) (filepath : Option CString) (identifier : Option UInt32)
  | accept (incoming : Option Nat) (listener : UInt32) (identifier : Option UInt32)
  | close (context : UInt32)
  | writeHandshake (o : HandshakeOutcome) (context : UInt32)
  | shutdownFromReadThread (closed : Bool) (context : UInt32)

namespace TypedCall

def run (cfg : BuildConfig) (t : ContextTable) : TypedCall → Except Fault ContextTable
  | openTcp o port identifier => (connectorContextOpenTcp cfg o t port identifier).map (·.2.2)
  | openUnix o filepath identifier => (connectorContextOpenUnix cfg o t filepath identifier).map (·.2.2)
  | connectTcp o port identifier => (connectorContextConnectTcp cfg o t port identifier).map (·.2.2)
  | connectUnix o filepath identifier => (connectorContextConnectUnix cfg o t filepath identifier).map (·.2.2)
  | accept incoming listener identifier => (connectorContextAccept cfg incoming t listener identifier).map (·.2.2)
  | close context => .ok (connectorContextClose cfg t context).2
  | writeHandshake o context => .ok (connectorContextWriteHandshake cfg o t context).2
  | shutdownFromReadThread closed context =>
    (connectorContextShutdownFromReadThread cfg closed t context).map (·.table)

def call : TypedCall → Call
  | openTcp o port identifier => .request (.openContext o (some ⟨commTcp, none, port⟩) identifier)
  | openUnix o filepath identifier => .request (.openContext o (some ⟨commUnix, filepath, 0⟩) identifier)
  | connectTcp o port identifier => .request (.connect o (some ⟨commTcp, none, port⟩) identifier)
  | connectUnix o filepath identifier => .request (.connect o (some ⟨commUnix, filepath, 0⟩) identifier)
  | accept incoming listener identifier => .request (.accept incoming listener identifier)
  | close context => .close context
  | writeHandshake o context => .writeHandshake o context
  | shutdownFromReadThread closed context => .shutdownFromReadThread closed context

end TypedCall

/-- The tables after `connector_init_context_subsystem`, whatever was there before and whatever its allocations
return. -/
def Initialised (cfg : BuildConfig) (t : ContextTable) : Prop :=
  ∃ queueAllocated arrayAllocated before retcode,
    connectorInitContextSubsystem cfg queueAllocated arrayAllocated before = .ok (retcode, t)

def typedSystem (cfg : BuildConfig) : StepSystem ContextTable TypedCall :=
  .ofNext (Initialised cfg) fun t a => (a.run cfg t).toOption

/-! ## Every slot has the word of a phase -/

/-- The descriptions name a type that exists. -/
def Typed : Call → Prop
  | .request (.openContext _ (some desc) _) => ∃ transport : Transport, desc.configuration = transport.word
  | .request (.connect _ (some desc) _) => ∃ transport : Transport, desc.configuration = transport.word
  | _ => True

structure Phased (cfg : BuildConfig) (t : ContextTable) : Prop where
  length : t.contextList.length = cfg.contextCount
  phase : ∀ c, ∃ phase : Phase, (t.slot c).configuration = phase.word

section phased
variable {cfg : BuildConfig} {t u : ContextTable}

theorem typed_call (a : TypedCall) : Typed a.call := by
  cases a with
  | openTcp | connectTcp => exact ⟨.tcp, rfl⟩
  | openUnix | connectUnix => exact ⟨.unix, rfl⟩
  | _ => trivial

theorem writes_typed {a : TypedCall} (h : a.run cfg t = .ok u) : ∃ begun, Writes cfg t u a.call begun := by
  cases a with
  | openTcp | openUnix =>
    obtain ⟨r, hr, rfl⟩ := map_eq_ok.mp h
    exact ⟨_, writes_open hr⟩
  | connectTcp | connectUnix =>
    obtain ⟨r, hr, rfl⟩ := map_eq_ok.mp h
    exact ⟨_, writes_connect hr⟩
  | accept =>
    obtain ⟨r, hr, rfl⟩ := map_eq_ok.mp h
    exact ⟨_, writes_accept hr⟩
  | close context =>
    obtain rfl := Except.ok.inj h
    exact ⟨_, writes_close context⟩
  | writeHandshake o context =>
    obtain rfl := Except.ok.inj h
    exact ⟨_, writes_writeHandshake o context⟩
  | shutdownFromReadThread closed context =>
    obtain ⟨r, hr, rfl⟩ := map_eq_ok.mp h
    have hrun : (Call.shutdownFromReadThread closed context).run cfg t = .ok ⟨r.table, none, r.freed⟩ :=
      map_eq_ok.mpr ⟨r, hr, rfl⟩
    exact ⟨_, writes_run hrun⟩

/-- What an open or a connect fills in is open. -/
theorem described_word {desc : ContextDesc} {transport : Transport} (h : desc.configuration = transport.word)
    (connectionData : Option Pointer) :
    (described desc connectionData).configuration = (Phase.listening transport false).word := by
  show (desc.configuration &&& commMask) ||| connOpen = _
  rw [h]
  cases transport <;> decide

theorem Phased.wrote {context : UInt32} {c : ConnectorContext} (hs : Phased cfg t) (hwrote : Wrote cfg t u context c)
    (phase : Phase) (hc : c.configuration = phase.word) : Phased cfg u := by
  refine ⟨hwrote.length.trans hs.length, fun d => ?_⟩
  by_cases hd : d = context
  · rw [hd, hwrote.slot_self hs.length]
    exact ⟨phase, hc⟩
  · rw [hwrote.slot_of_ne hd]
    exact hs.phase d

theorem Phased.writes {call : Call} {begun : Option UInt32} (hs : Phased cfg t) (htyped : Typed call)
    (h : Writes cfg t u call begun) : Phased cfg u := by
  cases h with
  | same h =>
    refine ⟨by rw [h]; exact hs.length, fun d => ?_⟩
    rw [slot_of_contextList h]
    exact hs.phase d
  | opened htaken hpopped hcopy hopen hsuccess hwrote =>
    obtain ⟨transport, htransport⟩ := htyped
    exact hs.wrote hwrote (.listening transport false)
      ((configuration_openConnection hopen).trans (described_word htransport _))
  | openFailed htaken hwrote => exact hs.wrote hwrote .closed rfl
  | @connected o desc identifier context r htaken hbridge hsuccess hwrote =>
    obtain ⟨transport, htransport⟩ := htyped
    refine hs.wrote hwrote (.connected transport false false) ?_
    show (r.2.configuration &&& ~~~connMask) ||| connConnected = _
    rw [← hbridge, configuration_bridgeConnection, described_word htransport]
    cases transport <;> decide
  | connectFailed htaken hbridge hfailed hwrote =>
    obtain ⟨transport, htransport⟩ := htyped
    refine hs.wrote hwrote (.listening transport false) ?_
    rw [← hbridge, configuration_bridgeConnection, described_word htransport]
  | @accepted incoming listener identifier context fd htaken hlistener hincoming hwrote =>
    obtain ⟨phase, hphase⟩ := hs.phase listener
    have hstate := hlistener.2
    rw [ConnectorContext.state, hphase] at hstate
    obtain ⟨transport, rfl⟩ := Phase.listening_of_state hstate
    refine hs.wrote hwrote (.connected transport false false) ?_
    show (t.slot listener).type ||| connConnected = _
    rw [ConnectorContext.type, hphase]
    cases transport <;> decide
  | @closed context huse hwrote =>
    obtain ⟨phase, hphase⟩ := hs.phase context
    have hopen : phase ≠ .closed := by
      rintro rfl
      rw [ConnectorContext.state, hphase] at huse
      exact absurd huse (by decide)
    obtain ⟨phase', hword⟩ := Phase.word_or_shutdown hopen
    refine hs.wrote hwrote phase' ?_
    rw [← hword, ← hphase]
  | @sent o context hstate hwrote =>
    obtain ⟨phase, hphase⟩ := hs.phase context
    rw [ConnectorContext.state, hphase] at hstate
    obtain ⟨transport, sent, rfl⟩ := Phase.connected_of_state hstate
    refine hs.wrote hwrote (.connected transport false true) ?_
    rw [← Phase.word_or_sent transport sent, ← hphase]
  | shut hwrote => exact hs.wrote hwrote .closed rfl

theorem Phased.of_initialised (h : Initialised cfg t) : Phased cfg t := by
  obtain ⟨queueAllocated, arrayAllocated, before, retcode, h⟩ := h
  have hlist : t.contextList = List.replicate cfg.contextCount .zero := by
    unfold connectorInitContextSubsystem at h
    obtain ⟨queue, -, h⟩ := bind_eq_ok.mp h
    dsimp only at h
    split at h
    · obtain ⟨-, rfl⟩ := Prod.mk.inj (Except.ok.inj h)
      rfl
    · obtain ⟨pushed, hpush, h⟩ := bind_eq_ok.mp h
      obtain ⟨-, rfl⟩ := Prod.mk.inj (Except.ok.inj h)
      rw [contextList_pushAll hpush]
  refine ⟨by rw [hlist, List.length_replicate], fun c => ⟨.closed, ?_⟩⟩
  have hzero : t.slot c = .zero := by
    rw [ContextTable.slot, hlist, List.getD_eq_getElem?_getD]
    by_cases hc : c.toNat < cfg.contextCount
    · simp [hc]
    · simp [hc]
  rw [hzero]
  rfl

end phased

/-- **Every configuration is well formed** in every state of every run. -/
theorem configuration_well_formed (cfg : BuildConfig) (t : ContextTable) (h : (typedSystem cfg).Reachable t)
    (c : UInt32) : WellFormed (t.slot c).configuration := by
  have hphased : Phased cfg t := by
    refine h.invariant (P := Phased cfg) (fun t ht => .of_initialised ht) fun t a u _ hs hstep => ?_
    have hrun : a.run cfg t = .ok u := by
      revert hstep
      show (a.run cfg t).toOption = some u → _
      cases a.run cfg t with
      | error fault => simp [Except.toOption]
      | ok v => exact fun hstep => congrArg Except.ok (Option.some.inj hstep)
    obtain ⟨begun, hwrites⟩ := writes_typed hrun
    exact hs.writes (typed_call a) hwrites
  obtain ⟨phase, hphase⟩ := hphased.phase c
  rw [hphase]
  exact phase.wellFormed

/-- A port is opened, a connection accepted and greeted, and closed. -/
def greetedRun : List TypedCall :=
  [.openTcp ⟨none, true, none, some 4, true, 8080, true⟩ 8080 (some 0), .accept (some 5) 0 (some 0),
    .writeHandshake ⟨true, .success⟩ 1, .close 1]

/-- The table of a fresh library. -/
def freshTable : ContextTable :=
  ((connectorInitContextSubsystem .default true true ⟨[], .null, .null⟩).toOption.map (·.2)).getD ⟨[], .null, .null⟩

theorem initialised_freshTable : Initialised .default freshTable :=
  ⟨true, true, ⟨[], .null, .null⟩, .success, rfl⟩

theorem configuration_well_formed_run :
    ∃ t : ContextTable, (t.slot 1).configuration = 0xe01 ∧ WellFormed (t.slot 1).configuration := by
  have hrun : (StepSystem.runList (fun t a => (TypedCall.run .default t a).toOption) freshTable greetedRun).map
      (fun t => (t.slot 1).configuration) = some 0xe01 := by
    decide +kernel
  obtain ⟨t, ht, hword⟩ := Option.map_eq_some_iff.mp hrun
  have hstart : (typedSystem .default).Reachable freshTable := .init initialised_freshTable
  have hreach : (typedSystem .default).Reachable t := StepSystem.reachable_runList hstart ht
  exact ⟨t, hword, configuration_well_formed .default t hreach 1⟩

end SubstanceConnector.ContextSystem
