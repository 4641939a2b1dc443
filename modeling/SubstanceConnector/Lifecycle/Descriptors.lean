import SubstanceConnector.Library.Ledger
import SubstanceConnector.Context.Calls
import SubstanceConnector.Context.Ownership
import SubstanceConnector.Threads.ReadWakeup
import SubstanceConnector.Lifecycle.Shutdown

/-!
# Descriptors and port files

The run of an initialised library with the descriptors that successful calls obtain and that are closed, and the
port files that `connector_open_tcp_impl` writes and `connector_close_tcp` removes. A descriptor belongs to the
context it is stored in, from the call that fills the slot until a read thread clears it; between `accept` and the
filling it is with the thread that accepts.

The contexts in use and their descriptors form a ledger (`books`), and every step of the run is a step of it.
A context that is still in the available queue when `connector_available_queue_shutdown` destroys it is never
cleared (`left_open`); otherwise everything is closed (`closed_exactly_once`).
-/

namespace SubstanceConnector

namespace ReadThreads

/-- The descriptor a thread has accepted and not stored yet. -/
def Pc.accepted : Pc → List Nat
  | .acceptPop _ fd _ => [fd]
  | _ => []

/-- The context a thread has filled and not appended yet. -/
def Pc.appending : Pc → List UInt32
  | .acceptAppend context _ => [context]
  | _ => []

/-- The context a thread has cleared and not returned yet. -/
def Pc.releasing : Pc → List UInt32
  | .release context _ _ => [context]
  | _ => []

/-- The contexts in use that are with the thread. -/
def Thread.engaged (thread : Thread) : List UInt32 := thread.data.held ++ thread.pc.appending

end ReadThreads

/-- The port file of a context: `connector_close_tcp` deletes the one of an open context only. -/
def ConnectorContext.portFile (c : ConnectorContext) : Option Nat :=
  if c.connection = commTcp ∧ c.configuration &&& connOpen ≠ 0 then some c.port else none

namespace Descriptors

open ReadThreads RingIndex
open ContextSystem (ring ids freeEmpty pushesSince Proper)

/-! ## The model -/

structure State (cfg : BuildConfig) where
  run : ReadThreads.State cfg
  obtained : List Nat
  closed : List Nat
  portFiles : List Nat
  -- pushes made so far on the free queue and on the available queue
  freePushes : Nat
  availablePushes : Nat

section model
variable {cfg : BuildConfig}

/-- The structure a successful open or connect has filled. -/
def filled (r : Retcode × Option UInt32 × ContextTable) : Option ConnectorContext :=
  match r with
  | (.success, some context, table) => some (table.slot context)
  | _ => none

def requested (s : ReadThreads.State cfg) : Label cfg → Option ConnectorContext
  | .openContext o desc identifier => (connectorContextOpen cfg o s.table desc identifier).toOption.bind filled
  | .connect o desc identifier => (connectorContextConnect cfg o s.table desc identifier).toOption.bind filled
  | _ => none

/-- The descriptor a step obtains. -/
def obtainedBy (s s' : ReadThreads.State cfg) (a : Label cfg) : List Nat :=
  match a with
  | .thread i _ => (s'.threads i).pc.accepted
  | a => ((requested s a).map (·.fd)).toList

/-- `connector_commit_open_tcp_port`. -/
def committed (s : ReadThreads.State cfg) (a : Label cfg) : List Nat :=
  match a with
  | .openContext o desc identifier =>
    ((requested s (.openContext o desc identifier)).bind fun c =>
      if c.connection = commTcp then some c.port else none).toList
  | _ => []

/-- The structure that `connector_context_shutdown_from_read_thread` closes and clears in a step. -/
def cleared (s s' : ReadThreads.State cfg) : Label cfg → Option ConnectorContext
  | .thread i _ => ((s'.threads i).pc.releasing.head?).map s.table.slot
  | _ => none

/-- `close_fd_connection`, for the types that have a close operation. -/
def closedBy (s s' : ReadThreads.State cfg) (a : Label cfg) : List Nat :=
  (((cleared s s' a).filter (·.supported)).map (·.fd)).toList

/-- `connector_remove_open_tcp_port`. -/
def remove (removed : Option Nat) (portFiles : List Nat) : List Nat :=
  portFiles.filter fun port => removed ≠ some port

def State.after (x : State cfg) (run : ReadThreads.State cfg) (a : Label cfg) : State cfg where
  run := run
  obtained := x.obtained ++ obtainedBy x.run run a
  closed := x.closed ++ closedBy x.run run a
  portFiles := remove ((cleared x.run run a).bind (·.portFile)) (x.portFiles ++ committed x.run a)
  freePushes := x.freePushes + pushesSince x.run.table.freeContexts run.table.freeContexts
  availablePushes := x.availablePushes + pushesSince x.run.table.connectionQueue run.table.connectionQueue

def next (x : State cfg) (a : Label cfg) : Option (State cfg) := (ReadThreads.next x.run a).map (x.after · a)

def State.start (cfg : BuildConfig) : State cfg where
  run := .start cfg
  obtained := []
  closed := []
  portFiles := []
  freePushes := cfg.contextCount
  availablePushes := 0

def system (cfg : BuildConfig) : StepSystem (State cfg) (Label cfg) := .ofNext (· = .start cfg) next

-- the most pushes a step makes on each queue
def freeCost (s : ReadThreads.State cfg) : Label cfg → Nat
  | .openContext _ _ _ => 1
  | .connect _ _ _ => 1
  | .thread i _ => (s.threads i).pc.releasing.length
  | _ => 0

def availableCost (s : ReadThreads.State cfg) : Label cfg → Nat
  | .openContext _ _ _ => 1
  | .connect _ _ _ => 1
  | .thread i _ => (s.threads i).pc.appending.length
  | _ => 0

/-- The step brings no counter to 2^32, or the ring size divides 2^32. -/
def Unwrapped (x : State cfg) (a : Label cfg) : Prop :=
  Faithful (2 ^ 32) (ring cfg).toNat (x.freePushes + freeCost x.run a) ∧
    Faithful (2 ^ 32) (ring cfg).toNat (x.availablePushes + availableCost x.run a)

/-- No connect and no accept takes a context when there is none, and no context waits for a read thread when
the available queue is destroyed. -/
def Attended (s : ReadThreads.State cfg) : Label cfg → Prop
  | .connect _ (some _) (some _) => freeEmpty s.table = false
  | .thread i _ => (s.threads i).pc.accepted ≠ [] → freeEmpty s.table = false
  | .shutdown => s.caller = .stopAvailable → s.table.connectionQueue.contents = []
  | _ => True

/-- No thread has crashed. -/
def Alive (s : ReadThreads.State cfg) : Prop := ∀ i fault, (s.threads i).pc ≠ .crashed fault

/-- When the shutdown is over, every descriptor has been closed as often as it was obtained, and no port file is
left. -/
def Released (x : State cfg) : Prop :=
  x.run.caller = .finished → (∀ fd, x.closed.count fd = x.obtained.count fd) ∧ x.portFiles = []

end model

/-! ## Context structures -/

/-- The structure keeps what it says about its descriptor, and is not opened again. -/
structure Keeps (v w : ConnectorContext) : Prop where
  fd : w.fd = v.fd
  port : w.port = v.port
  type : w.type = v.type
  opened : w.configuration &&& connOpen = v.configuration &&& connOpen
  connected : w.configuration &&& connConnected = v.configuration &&& connConnected
  shutdown : v.configuration &&& connShutdown ≠ 0 → w.configuration &&& connShutdown ≠ 0

/-- A structure with a descriptor: a cleanup closes it once it is shut down, and a close shuts it down. -/
structure Engaged (c : ConnectorContext) : Prop where
  supported : c.supported = true
  inUse : c.configuration &&& connOpen ≠ 0 ∨ c.configuration &&& connConnected ≠ 0

section structures
variable {v w : ConnectorContext}

theorem Keeps.refl (v : ConnectorContext) : Keeps v v := ⟨rfl, rfl, rfl, rfl, rfl, id⟩

theorem and_eq_zero_of_le {bits mask part : UInt64} (h : bits &&& mask = 0) (hpart : mask &&& part = part) :
    bits &&& part = 0 := by
  rw [← hpart, ← UInt64.and_assoc, h, UInt64.zero_and]

theorem keeps_or {bits : UInt64} (h : bits &&& (commMask ||| connOpen ||| connConnected) = 0) :
    Keeps v { v with configuration := v.configuration ||| bits } := by
  have htype : bits &&& commMask = 0 := and_eq_zero_of_le h (by decide)
  have hopen : bits &&& connOpen = 0 := and_eq_zero_of_le h (by decide)
  have hconnected : bits &&& connConnected = 0 := and_eq_zero_of_le h (by decide)
  refine ⟨rfl, rfl, ?_, ?_, ?_, fun hshut hzero => hshut ?_⟩
  · rw [ConnectorContext.type, ConnectorContext.type, or_and_distrib, htype, UInt64.or_zero]
  · rw [or_and_distrib, hopen, UInt64.or_zero]
  · rw [or_and_distrib, hconnected, UInt64.or_zero]
  · rw [or_and_distrib] at hzero
    exact (UInt64.or_eq_zero_iff.mp hzero).1

theorem Keeps.connection (h : Keeps v w) : w.connection = v.connection := by
  rw [ConnectorContext.connection, ConnectorContext.connection, h.type]

theorem Keeps.portFile (h : Keeps v w) : w.portFile = v.portFile := by
  rw [ConnectorContext.portFile, ConnectorContext.portFile, h.connection, h.opened, h.port]

theorem Engaged.keeps (hv : Engaged v) (h : Keeps v w) : Engaged w := by
  refine ⟨?_, ?_⟩
  · rw [ConnectorContext.supported, h.connection]
    exact hv.supported
  · rw [h.opened, h.connected]
    exact hv.inUse

theorem state_and {c : ConnectorContext} {bit : UInt64} (h : connMask &&& bit = bit) :
    c.state &&& bit = c.configuration &&& bit := by
  rw [ConnectorContext.state, UInt64.and_assoc, h]

end structures

/-! ## The queues -/

section queues
variable {cfg : BuildConfig} {p : QueuePtr} {k : Nat} {v : UInt32}

/-- The queue stands for what its counters address. -/
def Stands (cfg : BuildConfig) (p : QueuePtr) (pushes : Nat) : Prop := p.Rep (ring cfg) p.contents pushes

/-- The same, unless the queue has been destroyed. -/
def Kept (cfg : BuildConfig) (p : QueuePtr) (pushes : Nat) : Prop := IsLive p → Stands cfg p pushes

theorem Stands.of_rep {items : List UInt32} (h : p.Rep (ring cfg) items k) : Stands cfg p k := by
  rw [Stands, h.contents_eq]
  exact h

theorem pushesSince_self (p : QueuePtr) : pushesSince p p = 0 := by
  cases p with
  | live q => simp [pushesSince]
  | _ => rfl

theorem Stands.same (h : Stands cfg p k) : Stands cfg p (k + pushesSince p p) := by
  rw [pushesSince_self]
  exact h

theorem Kept.same (h : Kept cfg p k) : Kept cfg p (k + pushesSince p p) := by
  rw [pushesSince_self]
  exact h

theorem isLive_of_pop {r : Retcode × UInt32 × QueuePtr} (hpop : connectorUintQueuePop p v = .ok r) : IsLive p := by
  cases uintQueuePop_cases hpop with
  | empty q => exact ⟨q, rfl⟩
  | taken q => exact ⟨q, rfl⟩

/-- A pop takes the first element, or finds nothing. -/
theorem kept_pop (h : Kept cfg p k) {r : Retcode × UInt32 × QueuePtr} (hpop : connectorUintQueuePop p v = .ok r) :
    Kept cfg r.2.2 (k + pushesSince p r.2.2) ∧
      ((r.1 = .error ∧ r.2.2 = p ∧ p.contents = []) ∨ (r.1 = .success ∧ p.contents = r.2.1 :: r.2.2.contents)) := by
  have hrep : p.Rep (ring cfg) p.contents k := h (isLive_of_pop hpop)
  cases hcontents : p.contents with
  | nil =>
    rw [hcontents] at hrep
    obtain rfl := Except.ok.inj (hpop.symm.trans (hrep.pop_nil v))
    exact ⟨h.same, .inl ⟨rfl, rfl, rfl⟩⟩
  | cons x rest =>
    rw [hcontents] at hrep
    obtain ⟨p', hpop', hrep'⟩ := hrep.pop_cons v
    obtain rfl := Except.ok.inj (hpop.symm.trans hpop')
    have hsince := ContextSystem.pushesSince_eq (d := 0) hrep hrep' (by decide)
    refine ⟨fun _ => ?_, .inr ⟨rfl, ?_⟩⟩
    · rw [hsince]
      exact .of_rep hrep'
    · rw [hrep'.contents_eq]

/-- A push on a ring with room appends. -/
theorem Stands.push (h : Stands cfg p k) (hf : Faithful (2 ^ 32) (ring cfg).toNat (k + 1))
    (hroom : p.contents.length < cfg.contextCount) {r : Retcode × QueuePtr} (hpush : connectorUintQueuePush p v = .ok r) :
    Stands cfg r.2 (k + pushesSince p r.2) ∧ r.1 = .success ∧ r.2.contents = p.contents ++ [v] := by
  obtain ⟨p', hpush', hrep'⟩ := QueuePtr.Rep.push h hf (ContextSystem.room_of_lt cfg hroom) v
  obtain rfl := Except.ok.inj (hpush.symm.trans hpush')
  have hsince := ContextSystem.pushesSince_eq (d := 1) h hrep' (by decide)
  refine ⟨?_, rfl, hrep'.contents_eq⟩
  rw [hsince]
  exact .of_rep hrep'

/-- On the null pointer it does nothing. -/
theorem kept_push (h : Kept cfg p k) (hf : Faithful (2 ^ 32) (ring cfg).toNat (k + 1))
    (hroom : p.contents.length < cfg.contextCount) {r : Retcode × QueuePtr} (hpush : connectorUintQueuePush p v = .ok r) :
    Kept cfg r.2 (k + pushesSince p r.2) ∧ (r.2 = p ∨ r.2.contents = p.contents ++ [v]) := by
  cases hp : p with
  | null =>
    rw [hp] at hpush
    obtain rfl := Except.ok.inj hpush
    rw [hp] at h
    exact ⟨h.same, .inl rfl⟩
  | released =>
    rw [hp] at hpush
    cases hpush
  | live q =>
    obtain ⟨hstands, -, hcontents⟩ := (h ⟨q, hp⟩).push hf hroom hpush
    rw [← hp]
    exact ⟨fun _ => hstands, .inr hcontents⟩

/-- An identifier is taken from the queue and put back behind the others. -/
theorem kept_returned (h : Kept cfg p k) (hf : Faithful (2 ^ 32) (ring cfg).toNat (k + 1))
    (hroom : p.contents.length ≤ cfg.contextCount) {c : UInt32} {p' : QueuePtr} {r : Retcode × QueuePtr}
    (hpop : connectorUintQueuePop p v = .ok (.success, c, p')) (hpush : connectorUintQueuePush p' c = .ok r) :
    Kept cfg r.2 (k + pushesSince p r.2) ∧ r.2.contents.Perm p.contents := by
  have hrep : p.Rep (ring cfg) p.contents k := h (isLive_of_pop hpop)
  cases hcontents : p.contents with
  | nil =>
    rw [hcontents] at hrep
    cases hpop.symm.trans (hrep.pop_nil v)
  | cons x rest =>
    rw [hcontents] at hrep hroom
    obtain ⟨q, hpop', hq⟩ := hrep.pop_cons v
    obtain ⟨rfl, rfl⟩ : x = c ∧ q = p' := by
      have hpair := Except.ok.inj (hpop'.symm.trans hpop)
      exact ⟨congrArg (·.2.1) hpair, congrArg (·.2.2) hpair⟩
    obtain ⟨p', hpush', hrep'⟩ := hq.push hf (ContextSystem.room_of_lt cfg hroom) x
    obtain rfl := Except.ok.inj (hpush.symm.trans hpush')
    have hsince := ContextSystem.pushesSince_eq (d := 1) hrep hrep' (by decide)
    refine ⟨fun _ => ?_, ?_⟩
    · rw [hsince]
      exact .of_rep hrep'
    · rw [hrep'.contents_eq]
      exact List.perm_append_singleton x rest

end queues

/-! ## What a request leaves -/

section requests
variable {cfg : BuildConfig} {t : ContextTable}

/-- How an open or a connect leaves the table: as it was, with an identifier taken and put back, or with one handed
to the read threads whose slot has the given bit. -/
inductive Taken (cfg : BuildConfig) (bit : UInt64) (t : ContextTable) : Option ConnectorContext → ContextTable → Prop
  | refused (u : ContextTable) (hlist : u.contextList = t.contextList) (hqueue : u.connectionQueue = t.connectionQueue)
      (hfree : u.freeContexts = t.freeContexts) : Taken cfg bit t none u
  | returned (context : UInt32) (v : ConnectorContext) {popped : ContextTable} {pushed : Retcode × ContextTable}
      (hpop : t.popFree 0 = .ok (.success, context, popped))
      (hpush : (popped.setSlot context v).pushFree context = .ok pushed) : Taken cfg bit t none pushed.2
  | published (context : UInt32) (c : ConnectorContext) {popped u : ContextTable}
      (hpop : t.popFree 0 = .ok (.success, context, popped)) (hrange : context.toNat < cfg.contextCount)
      (hengaged : Engaged c) (hbit : c.configuration &&& bit ≠ 0)
      (happend : appendAvailable (popped.setSlot context c) context = .ok u) : Taken cfg bit t (some (u.slot context)) u

theorem popFree_failed {v : UInt32} {r : Retcode × UInt32 × ContextTable} (hpop : t.popFree v = .ok r)
    (hfailed : r.1 ≠ .success) : r.2.2 = t := by
  obtain ⟨p, hp, hr⟩ := bind_eq_ok.mp hpop
  obtain rfl := Except.ok.inj hr
  obtain ⟨contextList, freeContexts, connectionQueue⟩ := t
  cases uintQueuePop_cases hp with
  | empty => rfl
  | taken => exact absurd rfl hfailed

theorem filled_failed {r : Retcode × Option UInt32 × ContextTable} (h : r.1 ≠ .success) : filled r = none := by
  unfold filled
  split
  · exact absurd rfl h
  · rfl

theorem openConnection_success {o : OpenOutcome} {c : ConnectorContext} {r : Retcode × ConnectorContext}
    (h : connectorOpenConnection cfg o c = .ok r) (hsuccess : r.1 = .success) :
    r.2.configuration = c.configuration ∧ c.supported = true := by
  refine ⟨ContextSystem.configuration_openConnection h, ?_⟩
  unfold connectorOpenConnection at h
  split_ifs at h with htcp hunix
  · simp [ConnectorContext.supported, htcp]
  · simp [ConnectorContext.supported, hunix]
  · obtain rfl := Except.ok.inj h
    cases hsuccess

theorem bridgeConnection_success {o : ConnectOutcome} {c d : ConnectorContext}
    (h : connectorBridgeConnection cfg o c = (.success, d)) : d.configuration = c.configuration ∧ c.supported = true := by
  refine ⟨?_, ?_⟩
  · rw [← ContextSystem.configuration_bridgeConnection o c, h]
  · by_cases htcp : c.connection = commTcp
    · simp [ConnectorContext.supported, htcp]
    · by_cases hunix : c.connection = commUnix
      · simp [ConnectorContext.supported, hunix]
      · rw [connectorBridgeConnection, if_neg htcp, if_neg hunix] at h
        cases h

/-- A structure is supported or not by its type alone. -/
theorem supported_of_type {v w : ConnectorContext} (h : w.type = v.type) (hv : v.supported = true) : w.supported = true := by
  rw [ConnectorContext.supported, ConnectorContext.connection, h]
  exact hv

theorem taken_open {o : OpenOutcome} {desc : Option ContextDesc} {identifier : Option UInt32}
    {r : Retcode × Option UInt32 × ContextTable} (h : connectorContextOpen cfg o t desc identifier = .ok r) :
    Taken cfg connOpen t (filled r) r.2.2 := by
  cases contextOpen_cases h with
  | invalid => exact .refused _ rfl rfl rfl
  | exhausted hpop hretcode =>
    have hsame := popFree_failed hpop hretcode
    rw [filled_failed hretcode]
    exact .refused _ (congrArg _ hsame) (congrArg _ hsame) (congrArg _ hsame)
  | @opened desc v context copy c u w hpop hrange hcopy hopen happend =>
    obtain ⟨hconfiguration, hsupported⟩ := openConnection_success hopen rfl
    have hbit : c.configuration &&& connOpen ≠ 0 := by
      rw [hconfiguration, ContextSystem.described, or_and_distrib]
      exact fun hall => absurd (UInt64.or_eq_zero_iff.mp hall).2 (by decide)
    refine .published context c hpop hrange ⟨supported_of_type ?_ hsupported, .inl hbit⟩ hbit happend
    rw [ConnectorContext.type, hconfiguration]
    rfl
  | @failed desc v context retcode u pushed hpop hrange hretcode hpush =>
    rw [filled_failed hretcode]
    exact .returned context .zero hpop hpush

theorem or_connected_ne_zero (v : UInt64) : (v ||| connConnected) &&& connConnected ≠ 0 := by
  rw [or_and_distrib]
  exact fun hall => absurd (UInt64.or_eq_zero_iff.mp hall).2 (by decide)

theorem engaged_connected {c : ConnectorContext} (h : c.supported = true) (connectionData : Option Pointer) :
    Engaged { c with
      configuration := (c.configuration &&& ~~~connMask) ||| connConnected
      connectionData := connectionData } := by
  have hmask : ~~~connMask &&& commMask = commMask := by decide
  have hzero : connConnected &&& commMask = 0 := by decide
  refine ⟨supported_of_type ?_ h, .inr (or_connected_ne_zero _)⟩
  show ((c.configuration &&& ~~~connMask) ||| connConnected) &&& commMask = c.configuration &&& commMask
  rw [or_and_distrib, UInt64.and_assoc, hmask, hzero, UInt64.or_zero]

/-- A live queue that is not empty has something to take. -/
theorem popFree_supplied {v : UInt32} {r : Retcode × UInt32 × ContextTable} (hpop : t.popFree v = .ok r)
    (hsupplied : freeEmpty t = false) : r.1 = .success := by
  obtain ⟨p, hp, hr⟩ := bind_eq_ok.mp hpop
  obtain rfl := Except.ok.inj hr
  obtain ⟨contextList, freeContexts, connectionQueue⟩ := t
  cases uintQueuePop_cases hp with
  | empty _ _ hempty =>
    have hnot : ¬ _ = true := Bool.eq_false_iff.mp hsupplied
    exact absurd hempty hnot
  | taken => rfl

theorem taken_connect {o : ConnectOutcome} {desc : Option ContextDesc} {identifier : Option UInt32}
    {r : Retcode × Option UInt32 × ContextTable} (h : connectorContextConnect cfg o t desc identifier = .ok r)
    (hsupplied : desc.isSome → identifier.isSome → freeEmpty t = false) :
    Taken cfg connConnected t (filled r) r.2.2 := by
  cases contextConnect_cases h with
  | invalid => exact .refused _ rfl rfl rfl
  | @connected desc v context popped c u w hpop hrange hbridge happend =>
    obtain rfl : popped = .success := popFree_supplied hpop (hsupplied rfl rfl)
    obtain ⟨hconfiguration, hsupported⟩ := bridgeConnection_success hbridge
    refine .published context (bridged c) hpop hrange (engaged_connected (supported_of_type ?_ hsupported) none)
      (or_connected_ne_zero _) happend
    rw [ConnectorContext.type, hconfiguration]
    rfl
  | @failed desc v context popped retcode c u pushed hpop hrange hbridge hretcode hpush =>
    obtain rfl : popped = .success := popFree_supplied hpop (hsupplied rfl rfl)
    rw [filled_failed hretcode]
    exact .returned context c hpop hpush

end requests

/-! ## What the operations of a read thread leave -/

section operations
variable {cfg : BuildConfig} {t u : ContextTable}

theorem keeps_setSlot {context : UInt32} {v : ConnectorContext} (h : Keeps (t.slot context) v) (c : UInt32) :
    Keeps (t.slot c) ((t.setSlot context v).slot c) := by
  by_cases hc : c = context
  · rw [hc]
    by_cases hlt : context.toNat < t.contextList.length
    · rw [slot_setSlot_self v hlt]
      exact h
    · have hout : (t.setSlot context v).contextList = t.contextList := List.set_eq_of_length_le (Nat.le_of_not_lt hlt)
      rw [slot_of_contextList hout]
      exact .refl _
  · rw [slot_setSlot_of_ne t v hc]
    exact .refl _

theorem keeps_close (context c : UInt32) : Keeps (t.slot c) ((connectorContextClose cfg t context).2.slot c) := by
  obtain h | ⟨-, -, h⟩ := contextClose_cases cfg t context <;> rw [h]
  · exact .refl _
  · exact keeps_setSlot (keeps_or (by decide)) c

theorem keeps_writeHandshake (o : HandshakeOutcome) (context c : UInt32) :
    Keeps (t.slot c) ((connectorContextWriteHandshake cfg o t context).2.slot c) := by
  obtain h | ⟨-, -, h⟩ := contextWriteHandshake_cases cfg t o context <;> rw [h]
  · exact .refl _
  · exact keeps_setSlot (keeps_or (by decide)) c

/-- A close shuts an engaged context down. -/
theorem shutdown_close {c : UInt32} (h : Engaged (t.slot c)) (hrange : c.toNat < cfg.contextCount)
    (hlength : t.contextList.length = cfg.contextCount) :
    ((connectorContextClose cfg t c).2.slot c).configuration &&& connShutdown ≠ 0 := by
  have huse : (t.slot c).state &&& connOpen ≠ 0 ∨ (t.slot c).state &&& connConnected ≠ 0 := by
    rw [state_and (by decide), state_and (by decide)]
    exact h.inUse
  rw [connectorContextClose, if_pos hrange]
  dsimp only
  rw [if_pos huse, slot_setSlot_self _ (by omega), or_and_distrib]
  exact fun hall => absurd (UInt64.or_eq_zero_iff.mp hall).2 (by decide)

theorem table_close (context : UInt32) :
    ∃ list, list.length = t.contextList.length ∧ (connectorContextClose cfg t context).2 = { t with contextList := list } := by
  obtain h | ⟨-, -, h⟩ := contextClose_cases cfg t context <;> rw [h]
  · exact ⟨_, rfl, rfl⟩
  · exact ⟨_, List.length_set, rfl⟩

theorem table_writeHandshake (o : HandshakeOutcome) (context : UInt32) :
    ∃ list, list.length = t.contextList.length ∧
      (connectorContextWriteHandshake cfg o t context).2 = { t with contextList := list } := by
  obtain h | ⟨-, -, h⟩ := contextWriteHandshake_cases cfg t o context <;> rw [h]
  · exact ⟨_, rfl, rfl⟩
  · exact ⟨_, List.length_set, rfl⟩

/-- The available queue gives its first identifier, or nothing. -/
theorem stands_availablePop {k : Nat} (h : Stands cfg t.connectionQueue k) {r : Option UInt32 × ContextTable}
    (hpop : connectorAvailableQueuePop t = .ok r) :
    ∃ p, r.2 = { t with connectionQueue := p } ∧ Stands cfg p (k + pushesSince t.connectionQueue p) ∧
      t.connectionQueue.contents = r.1.toList ++ p.contents := by
  unfold Stands at h
  cases hcontents : t.connectionQueue.contents with
  | nil =>
    rw [hcontents] at h
    obtain rfl := Except.ok.inj (hpop.symm.trans (ContextSystem.availablePop_nil h))
    exact ⟨t.connectionQueue, rfl, (Stands.of_rep h).same, hcontents.symm⟩
  | cons context rest =>
    rw [hcontents] at h
    obtain ⟨p, hpop', hrep'⟩ := ContextSystem.availablePop_cons h
    obtain rfl := Except.ok.inj (hpop.symm.trans hpop')
    have hsince := ContextSystem.pushesSince_eq (d := 0) h hrep' (by decide)
    refine ⟨p, rfl, ?_, ?_⟩
    · rw [hsince]
      exact .of_rep hrep'
    · rw [hrep'.contents_eq]
      rfl

/-- What acquiring leaves: the first available identifier, if there is one, is with the thread. -/
structure Acquired (cfg : BuildConfig) (t : ContextTable) (k : Nat) (thread : ReadThread)
    (r : Retcode × ReadThread × ContextTable) : Prop where
  proper : Proper cfg r.2.1
  free : r.2.2.freeContexts = t.freeContexts
  length : r.2.2.contextList.length = t.contextList.length
  keeps : ∀ c, Keeps (t.slot c) (r.2.2.slot c)
  available : Stands cfg r.2.2.connectionQueue (k + pushesSince t.connectionQueue r.2.2.connectionQueue)
  taken : ∃ taken, t.connectionQueue.contents = taken ++ r.2.2.connectionQueue.contents ∧ r.2.1.held = thread.held ++ taken

theorem acquired {k : Nat} {o : HandshakeOutcome} {thread : ReadThread} {r : Retcode × ReadThread × ContextTable}
    (h : Stands cfg t.connectionQueue k) (hp : Proper cfg thread)
    (hacquire : connectorReadThreadTryAcquire cfg o thread t = .ok r) : Acquired cfg t k thread r := by
  obtain ⟨u, hpop, rfl⟩ | ⟨context, u, hpop, hroom, rfl⟩ := readThreadTryAcquire_cases hacquire
  · obtain ⟨p, rfl, hstands, hcontents⟩ := stands_availablePop h hpop
    exact ⟨hp, rfl, rfl, fun c => .refl _, hstands, [], hcontents, (List.append_nil _).symm⟩
  · obtain ⟨p, rfl, hstands, hcontents⟩ := stands_availablePop h hpop
    obtain ⟨list, hlength, hwritten⟩ := @table_writeHandshake cfg { t with connectionQueue := p } o context
    have hkeeps := fun c => @keeps_writeHandshake cfg { t with connectionQueue := p } o context c
    rw [hwritten] at hkeeps ⊢
    exact ⟨hp.acquired hroom _ context, rfl, hlength, hkeeps, hstands, [context], hcontents,
      hp.held_acquired hroom _ context⟩

end operations

end Descriptors

end SubstanceConnector
