import Mathlib.Data.Fintype.Basic
import Mathlib.Logic.Relation
import SubstanceConnector.Context.System

/-!
# The read threads

`read_thread_routine` with everything it calls, as a machine of small steps: the tests of the
shutdown flag, the wait for a context, acquiring, polling, accepting, cleaning up and leaving. The
threads share the context table, the inbound lock with its condition, and the flag; the caller of
`substance_connector_shutdown` destroys the context subsystem and then stops the threads. Until the
shutdown starts, other threads may open and connect contexts; they may close contexts at any time.

A wait ends by a broadcast, or spuriously as POSIX allows.
-/

namespace SubstanceConnector.ReadThreads

def pollErr : UInt16 := 0x0008
def pollHup : UInt16 := 0x0010

-- what follows a cleanup: the next poll, the next round, or the end of the thread
inductive After where
  | poll
  | loop
  | exit
  deriving DecidableEq

/-- Where a read thread is, named after what it does next. -/
inductive Pc where
  | loopTest
  | lock
  | waitTest
  | wait
  | waiting
  | woken
  | wokenTest
  | wokenAcquire
  | unlock
  | exitTest
  | acquire
  | pollEntry
  | cleanup (i : Nat) (after : After)
  | release (context : UInt32) (i : Nat) (after : After)
  | pollTest
  | poll
  | handle (i : Nat)
  | acceptPop (listener : UInt32) (fd : Nat) (i : Nat)
  | acceptAppend (context : UInt32) (i : Nat)
  | acceptSignal (times : Nat) (i : Nat)
  | exitClose (i : Nat)
  | done
  | crashed (fault : Fault)
  deriving DecidableEq

structure Thread where
  pc : Pc
  data : ReadThread
  deriving DecidableEq

/-- The caller of `substance_connector_shutdown`, up to the end of the communication subsystem. -/
inductive Caller where
  | running
  | destroy
  | storeNull
  | stopWriters
  | setFlag
  | broadcast
  | join
  | clearFlag
  | stopAvailable
  | finished
  deriving DecidableEq

/-- The shared state. `owed` counts the other threads that have pushed a context on the available queue
and not broadcast yet; `uses` records the value of `free_contexts` at each pop and push a read thread
makes on it. -/
structure State (cfg : BuildConfig) where
  table : ContextTable
  threads : Fin cfg.inboundCount → Thread
  flag : Bool
  holder : Option (Fin cfg.inboundCount)
  caller : Caller
  owed : Nat
  uses : List QueuePtr

inductive PollAnswer where
  | timeout
  | failed
  | ready (revents : List UInt16)

/-- What the environment answers to the step of a thread. -/
structure Answer where
  handshake : HandshakeOutcome
  polled : PollAnswer
  accepted : Option Nat

inductive Label (cfg : BuildConfig) where
  | openContext (o : OpenOutcome) (desc : Option ContextDesc) (identifier : Option UInt32)
  | connect (o : ConnectOutcome) (desc : Option ContextDesc) (identifier : Option UInt32)
  | close (context : UInt32)
  | signal
  | spurious (i : Fin cfg.inboundCount)
  | thread (i : Fin cfg.inboundCount) (answer : Answer)
  | shutdown

variable {cfg : BuildConfig}

namespace State

def setThread (s : State cfg) (i : Fin cfg.inboundCount) (thread : Thread) : State cfg :=
  { s with threads := Function.update s.threads i thread }

def goto (s : State cfg) (i : Fin cfg.inboundCount) (pc : Pc) : State cfg :=
  s.setThread i { s.threads i with pc := pc }

/-- `connector_condition_broadcast`: every waiting thread wakes. -/
def broadcast (s : State cfg) : State cfg :=
  { s with threads := fun i =>
      if (s.threads i).pc = .waiting then { s.threads i with pc := .woken } else s.threads i }

/-- `connector_read_thread_try_acquire`, then on to `pc`. -/
def tryAcquire (s : State cfg) (i : Fin cfg.inboundCount) (o : HandshakeOutcome) (pc : Pc) : State cfg :=
  match connectorReadThreadTryAcquire cfg o (s.threads i).data s.table with
  | .ok r => { s with table := r.2.2 }.setThread i ⟨pc, r.2.1⟩
  | .error fault => s.goto i (.crashed fault)

/-- The entry below `i + 1` in the loop of `connector_read_thread_cleanup_connections`: a context that
is shut down leaves the thread and is cleared, and goes back to the free queue in the next step. -/
def cleanupEntry (s : State cfg) (t : Fin cfg.inboundCount) (i : Nat) (after : After) : State cfg :=
  let data := (s.threads t).data
  let context := data.contextIds.getD i 0
  if (s.table.slot context).state &&& connShutdown ≠ 0 then
    let removed := connectorReadThreadRemoveContext data i
    if removed.1 = .success ∧ context.toNat < cfg.contextCount then
      { s with table := s.table.setSlot context .zero }.setThread t ⟨.release context i after, removed.2⟩
    else s.setThread t ⟨.cleanup i after, removed.2⟩
  else s.goto t (.cleanup i after)

def releaseEntry (s : State cfg) (t : Fin cfg.inboundCount) (context : UInt32) (i : Nat) (after : After) : State cfg :=
  let s := { s with uses := s.uses ++ [s.table.freeContexts] }
  match s.table.pushFree context with
  | .ok r => { s with table := r.2 }.goto t (.cleanup i after)
  | .error fault => s.goto t (.crashed fault)

/-- One entry of the loop over the polled events. -/
def handleEntry (s : State cfg) (t : Fin cfg.inboundCount) (i : Nat) (accepted : Option Nat) : State cfg :=
  let data := (s.threads t).data
  let context := data.contextIds.getD i 0
  let revents := (data.contexts.getD i ⟨0, 0, 0⟩).revents
  if revents &&& pollErr ≠ 0 ∨ revents &&& pollHup ≠ 0 then
    { s with table := (connectorContextClose cfg s.table context).2 }.goto t (.handle (i + 1))
  else if revents &&& pollIn ≠ 0 ∧ context.toNat < cfg.contextCount ∧ (s.table.slot context).state = connOpen then
    match connectorAcceptConnection accepted (s.table.slot context) with
    | some fd => s.goto t (.acceptPop context fd i)
    | none => s.goto t (.handle (i + 1))
  -- a read of a connected context leaves the table as it is
  else s.goto t (.handle (i + 1))

/-- The pop of `connector_context_accept`, whose result is not tested, and the filling of the slot. -/
def acceptPop (s : State cfg) (t : Fin cfg.inboundCount) (listener : UInt32) (fd i : Nat) : State cfg :=
  let s := { s with uses := s.uses ++ [s.table.freeContexts] }
  match s.table.popFree 0 with
  | .ok r =>
    let context := r.2.1
    if context.toNat < cfg.contextCount then
      { s with table := r.2.2.setSlot context { r.2.2.slot context with
          configuration := (r.2.2.slot listener).type ||| connConnected
          fd := fd } }.goto t (.acceptAppend context i)
    else s.goto t (.crashed .bufferOverflow)
  | .error fault => s.goto t (.crashed fault)

/-- The push of `append_available`; it broadcasts if it succeeds, and its caller does again. -/
def acceptAppend (s : State cfg) (t : Fin cfg.inboundCount) (context : UInt32) (i : Nat) : State cfg :=
  match connectorAvailableQueuePush s.table context with
  | .ok r => { s with table := r.2 }.goto t (.acceptSignal (if r.1 = Retcode.success then 2 else 1) i)
  | .error fault => s.goto t (.crashed fault)

def polled (s : State cfg) (t : Fin cfg.inboundCount) (answer : PollAnswer) : State cfg :=
  let data := (s.threads t).data
  if data.assignedContexts = 0 then s.goto t (.handle 0)
  else
    match answer with
    | .timeout =>
      let contexts := data.contexts.mapIdx fun k e => if k < data.assignedContexts then { e with revents := 0 } else e
      s.setThread t ⟨.cleanup data.assignedContexts .poll, { data with contexts := contexts }⟩
    | .failed => s.goto t (.handle 0)
    | .ready revents =>
      let contexts := data.contexts.mapIdx fun k e =>
        if k < data.assignedContexts then { e with revents := revents.getD k 0 } else e
      s.setThread t ⟨.handle 0, { data with contexts := contexts }⟩

end State

/-- The next step of a read thread; a thread that waits, has ended or has crashed makes none. -/
def stepThread (s : State cfg) (i : Fin cfg.inboundCount) (a : Answer) : Option (State cfg) :=
  match (s.threads i).pc with
  | .loopTest => some (s.goto i (if s.flag then .exitClose 0 else .lock))
  | .lock => if s.holder = none then some ({ s with holder := some i }.goto i .waitTest) else none
  | .waitTest =>
    some (s.goto i (if (s.threads i).data.assignedContexts = 0 ∧ s.flag = false then .wait else .unlock))
  | .wait => some ({ s with holder := none }.goto i .waiting)
  | .waiting => none
  | .woken => if s.holder = none then some ({ s with holder := some i }.goto i .wokenTest) else none
  | .wokenTest => some (s.goto i (if s.flag then .unlock else .wokenAcquire))
  | .wokenAcquire => some (s.tryAcquire i a.handshake .waitTest)
  | .unlock => some ({ s with holder := none }.goto i .exitTest)
  | .exitTest => some (s.goto i (if s.flag then .exitClose 0 else .acquire))
  | .acquire =>
    if connectorReadThreadCheckLoad cfg (s.threads i).data then some (s.tryAcquire i a.handshake .pollEntry)
    else some (s.goto i .pollEntry)
  | .pollEntry =>
    let assigned := (s.threads i).data.assignedContexts
    some (s.goto i (if 0 < assigned then .cleanup assigned .poll else .handle 0))
  | .cleanup 0 .poll => some (s.goto i .pollTest)
  | .cleanup 0 .loop => some (s.goto i .loopTest)
  | .cleanup 0 .exit => some (s.goto i .done)
  | .cleanup (k + 1) after => some (s.cleanupEntry i k after)
  | .release context k after => some (s.releaseEntry i context k after)
  | .pollTest => some (s.goto i (if s.flag then .exitClose 0 else .poll))
  | .poll => some (s.polled i a.polled)
  | .handle k =>
    if k < (s.threads i).data.assignedContexts then some (s.handleEntry i k a.accepted)
    else some (s.goto i (.cleanup (s.threads i).data.assignedContexts .loop))
  | .acceptPop listener fd k => some (s.acceptPop i listener fd k)
  | .acceptAppend context k => some (s.acceptAppend i context k)
  | .acceptSignal 0 k => some (s.goto i (.handle (k + 1)))
  | .acceptSignal (n + 1) k => if s.holder = none then some (s.broadcast.goto i (.acceptSignal n k)) else none
  | .exitClose k =>
    if k < (s.threads i).data.assignedContexts then
      some ({ s with
        table := (connectorContextClose cfg s.table ((s.threads i).data.contextIds.getD k 0)).2 }.goto i
          (.exitClose (k + 1)))
    else some (s.goto i (.cleanup (s.threads i).data.assignedContexts .exit))
  | .done => none
  | .crashed _ => none

/-- The next step of the caller of `substance_connector_shutdown`. -/
def stepCaller (s : State cfg) : Option (State cfg) :=
  match s.caller with
  | .running => some { s with caller := .destroy }
  | .destroy =>
    (connectorUintQueueDestroy s.table.freeContexts).toOption.map fun r =>
      { s with
        table := { s.table with freeContexts := r.2 }
        caller := if r.1 = .success then .storeNull else .stopWriters }
  | .storeNull => some { s with table := { s.table with freeContexts := .null }, caller := .stopWriters }
  | .stopWriters => some { s with caller := .setFlag }
  | .setFlag => some (if s.flag then { s with caller := .stopAvailable } else { s with flag := true, caller := .broadcast })
  | .broadcast => if s.holder = none then some { s.broadcast with caller := .join } else none
  | .join => if ∀ i, (s.threads i).pc = .done then some { s with caller := .clearFlag } else none
  | .clearFlag => some { s with flag := false, caller := .stopAvailable }
  | .stopAvailable =>
    (connectorAvailableQueueShutdown s.table).toOption.map fun r => { s with table := r.2, caller := .finished }
  | .finished => none

/-- Whether a call pushed a context: `append_available` broadcasts only after a push that succeeded. -/
def appended (t u : ContextTable) : Nat := if u.connectionQueue = t.connectionQueue then 0 else 1

/-- Another thread has opened or connected a context, up to the broadcast. -/
def State.requested (s : State cfg) (r : Retcode × Option UInt32 × ContextTable) : State cfg :=
  { s with table := r.2.2, owed := s.owed + appended s.table r.2.2 }

def next (s : State cfg) : Label cfg → Option (State cfg)
  | .openContext o desc identifier =>
    if s.caller = .running then
      (connectorContextOpen cfg o s.table desc identifier).toOption.map s.requested
    else none
  | .connect o desc identifier =>
    if s.caller = .running then
      (connectorContextConnect cfg o s.table desc identifier).toOption.map s.requested
    else none
  -- `substance_connector_close_context` does not look at the state of the library
  | .close context => some { s with table := (connectorContextClose cfg s.table context).2 }
  | .signal => if 0 < s.owed ∧ s.holder = none then some { s.broadcast with owed := s.owed - 1 } else none
  | .spurious i => if (s.threads i).pc = .waiting then some (s.goto i .woken) else none
  | .thread i answer => stepThread s i answer
  | .shutdown => stepCaller s

def State.start (cfg : BuildConfig) : State cfg where
  table := (ContextSystem.startTable cfg).toOption.getD ⟨[], .null, .null⟩
  threads _ := ⟨.loopTest, .zero cfg⟩
  flag := false
  holder := none
  caller := .running
  owed := 0
  uses := []

/-- The read threads of an initialised library and one shutdown. -/
def system (cfg : BuildConfig) : StepSystem (State cfg) (Label cfg) := .ofNext (· = .start cfg) next

theorem connectionQueue_close (t : ContextTable) (context : UInt32) :
    (connectorContextClose cfg t context).2.connectionQueue = t.connectionQueue := by
  obtain h | ⟨-, -, h⟩ := contextClose_cases cfg t context <;> rw [h]
  rfl

/-- Everything the caller of the shutdown can do. -/
inductive CallerStep (s : State cfg) : State cfg → Prop
  | running (hcaller : s.caller = .running) : CallerStep s { s with caller := .destroy }
  | destroy {r : Retcode × QueuePtr} (hcaller : s.caller = .destroy)
      (hdestroy : connectorUintQueueDestroy s.table.freeContexts = .ok r) :
      CallerStep s { s with
        table := { s.table with freeContexts := r.2 }
        caller := if r.1 = .success then .storeNull else .stopWriters }
  | storeNull (hcaller : s.caller = .storeNull) :
      CallerStep s { s with table := { s.table with freeContexts := .null }, caller := .stopWriters }
  | stopWriters (hcaller : s.caller = .stopWriters) : CallerStep s { s with caller := .setFlag }
  | setFlag (hcaller : s.caller = .setFlag) (hflag : s.flag = false) :
      CallerStep s { s with flag := true, caller := .broadcast }
  | flagSet (hcaller : s.caller = .setFlag) (hflag : s.flag = true) : CallerStep s { s with caller := .stopAvailable }
  | broadcast (hcaller : s.caller = .broadcast) (hfree : s.holder = none) :
      CallerStep s { s.broadcast with caller := .join }
  | join (hcaller : s.caller = .join) (hdone : ∀ i, (s.threads i).pc = .done) : CallerStep s { s with caller := .clearFlag }
  | clearFlag (hcaller : s.caller = .clearFlag) : CallerStep s { s with flag := false, caller := .stopAvailable }
  | stopAvailable {r : Retcode × ContextTable} (hcaller : s.caller = .stopAvailable)
      (hshutdown : connectorAvailableQueueShutdown s.table = .ok r) :
      CallerStep s { s with table := r.2, caller := .finished }

theorem callerStep {s s' : State cfg} (h : stepCaller s = some s') : CallerStep s s' := by
  cases hcaller : s.caller with
  | running =>
    simp only [stepCaller, hcaller] at h
    exact Option.some.inj h ▸ .running hcaller
  | destroy =>
    simp only [stepCaller, hcaller] at h
    obtain ⟨r, hdestroy, rfl⟩ := ContextSystem.toOption_map_eq_some.mp h
    exact .destroy hcaller hdestroy
  | storeNull =>
    simp only [stepCaller, hcaller] at h
    exact Option.some.inj h ▸ .storeNull hcaller
  | stopWriters =>
    simp only [stepCaller, hcaller] at h
    exact Option.some.inj h ▸ .stopWriters hcaller
  | setFlag =>
    simp only [stepCaller, hcaller] at h
    by_cases hflag : s.flag = true
    · rw [if_pos hflag] at h
      exact Option.some.inj h ▸ .flagSet hcaller hflag
    · rw [if_neg hflag] at h
      exact Option.some.inj h ▸ .setFlag hcaller (by simpa using hflag)
  | broadcast =>
    simp only [stepCaller, hcaller] at h
    obtain ⟨hfree, h⟩ := Option.ite_none_right_eq_some.mp h
    exact Option.some.inj h ▸ .broadcast hcaller hfree
  | join =>
    simp only [stepCaller, hcaller] at h
    obtain ⟨hdone, h⟩ := Option.ite_none_right_eq_some.mp h
    exact Option.some.inj h ▸ .join hcaller hdone
  | clearFlag =>
    simp only [stepCaller, hcaller] at h
    exact Option.some.inj h ▸ .clearFlag hcaller
  | stopAvailable =>
    simp only [stepCaller, hcaller] at h
    obtain ⟨r, hshutdown, rfl⟩ := ContextSystem.toOption_map_eq_some.mp h
    exact .stopAvailable hcaller hshutdown
  | finished => simp [stepCaller, hcaller] at h

/-! ## Calls run alone

When nobody else moves, the small steps of a call come to what the call computes as one function. -/

section alone
variable {s s' : State cfg} {i : Fin cfg.inboundCount} {a : Answer}

/-- Thread `i` takes any number of steps. -/
def Alone (i : Fin cfg.inboundCount) (a : Answer) : State cfg → State cfg → Prop :=
  Relation.ReflTransGen fun s s' => stepThread s i a = some s'

theorem threads_setThread (s : State cfg) (i : Fin cfg.inboundCount) (thread : Thread) :
    (s.setThread i thread).threads i = thread := by
  unfold State.setThread
  exact Function.update_self i thread s.threads

theorem threads_goto (s : State cfg) (i : Fin cfg.inboundCount) (pc : Pc) :
    (s.goto i pc).threads i = { s.threads i with pc := pc } := threads_setThread s i _

theorem stepThread_release {context : UInt32} {k : Nat} {after : After} {r : Retcode × ContextTable}
    (hpc : (s.threads i).pc = .release context k after) (h : s.table.pushFree context = .ok r) :
    stepThread s i a =
      some ({ s with uses := s.uses ++ [s.table.freeContexts], table := r.2 }.goto i (.cleanup k after)) := by
  simp only [stepThread, hpc, State.releaseEntry, h]

/-- `connector_read_thread_cleanup_connections`. -/
theorem alone_cleanup {closed : UInt32 → Bool} {n : Nat} {after : After} {retcode : Retcode}
    {r : Retcode × ReadThread × ContextTable} (hpc : (s.threads i).pc = .cleanup n after)
    (h : cleanupLoop cfg closed n retcode (s.threads i).data s.table = .ok r) :
    ∃ s', Alone i a s s' ∧ s'.threads i = ⟨.cleanup 0 after, r.2.1⟩ ∧ s'.table = r.2.2 := by
  induction n generalizing s retcode with
  | zero =>
    obtain rfl := Except.ok.inj h
    exact ⟨s, .refl, by rw [← hpc], rfl⟩
  | succ n ih =>
    have hstep : stepThread s i a = some (s.cleanupEntry i n after) := by
      simp only [stepThread, hpc]
    -- the rest of the loop, once the entry is dealt with
    have hrest : ∀ {t : State cfg} {retcode : Retcode} {data : ReadThread}, Alone i a s t →
        t.threads i = ⟨.cleanup n after, data⟩ → cleanupLoop cfg closed n retcode data t.table = .ok r →
        ∃ s', Alone i a s s' ∧ s'.threads i = ⟨.cleanup 0 after, r.2.1⟩ ∧ s'.table = r.2.2 := by
      intro t retcode data hst hthread hloop
      obtain ⟨s', ht, hend⟩ := @ih t retcode (by rw [hthread]) (by rw [hthread]; exact hloop)
      exact ⟨s', hst.trans ht, hend⟩
    unfold cleanupLoop at h
    unfold State.cleanupEntry at hstep
    dsimp only at h hstep
    split at h
    · rename_i hflag
      rw [if_pos hflag] at hstep
      split at h
      · rename_i hremoved
        obtain ⟨shut, hshut, h⟩ := bind_eq_ok.mp h
        obtain ⟨hrange, pushed, hpush, rfl⟩ | ⟨hrange, rfl⟩ := contextShutdown_cases hshut
        · rw [if_pos ⟨hremoved, hrange⟩] at hstep
          refine hrest (.tail (.single hstep) (stepThread_release (congrArg Thread.pc (threads_setThread _ _ _)) hpush)) ?_ h
          rw [threads_goto]
          exact congrArg (fun t : Thread => { t with pc := .cleanup n after }) (threads_setThread _ _ _)
        · rw [if_neg fun hboth => hrange hboth.2] at hstep
          exact hrest (.single hstep) (threads_setThread _ _ _) h
      · rename_i hfailed
        rw [if_neg fun hboth => hfailed hboth.1] at hstep
        exact hrest (.single hstep) (threads_setThread _ _ _) h
    · rename_i hflag
      rw [if_neg hflag] at hstep
      exact hrest (.single hstep) (threads_goto _ _ _) h

end alone

end SubstanceConnector.ReadThreads
