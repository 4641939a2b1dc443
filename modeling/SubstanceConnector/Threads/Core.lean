import Mathlib.Data.Fintype.Sum
import Mathlib.Tactic.DeriveFintype
import SubstanceConnector.Base
import SubstanceConnector.Library.LockOrder
import SubstanceConnector.Library.StepSystem

/-!
# All the threads of the core and all its locks

One machine for the whole core: the dispatch, write and read threads, the thread that calls `substance_connector_init`,
works, and calls `substance_connector_shutdown`, and the other threads of the application. Between them stand seven mutexes
(`dispatch_lock`, `dispatch_main_lock`, `outbound_lock`, `inbound_lock`, `read_main_lock`, and one in each message queue) and
five condition variables.

The machine has what the locks depend on: the shutdown codes, the numbers of messages in the queues, of contexts in the
available queue and of contexts of each read thread, who has been created, initialized and has ended, and what the shutdown
has destroyed. What the messages hold, what the application does in a callback and what `poll` finds is the environment's
choice. A function that is one critical section, as `connector_flag_dispatch`, is a `Section`; a `Site` is a call of one, with
what follows it.

The shutdown destroys the queue of the free contexts before it joins any thread, and that of the available contexts and most
mutexes before it has joined all those that may use them. A step that uses what is gone has no meaning in C; the machine goes
on as if nothing had happened, and `intact` says which steps do not use it. A call on one of the two queues is one step.
-/

namespace SubstanceConnector.CoreThreads

open LockOrder (Instr)

inductive Queue where
  | inbound
  | outbound
  deriving DecidableEq

inductive Mutex where
  | dispatch
  | dispatchMain
  | outbound
  | inbound
  | readMain
  | queue (q : Queue)
  deriving DecidableEq

inductive Condition where
  | dispatch
  | dispatchMain
  | outbound
  | inbound
  | readMain
  deriving DecidableEq

inductive Kind where
  | dispatcher
  | writer
  | reader
  deriving DecidableEq

/-- The threads: the one that initializes and shuts down, those of the three pools, and others of the application. -/
inductive Name (cfg : BuildConfig) (users : Nat) where
  | main
  | dispatcher (i : Fin cfg.dispatchCount)
  | writer (i : Fin cfg.outboundCount)
  | reader (i : Fin cfg.inboundCount)
  | user (i : Fin users)
  deriving DecidableEq, Fintype

/-- The number of a thread in its pool. -/
def Name.index {cfg : BuildConfig} {users : Nat} : Name cfg users → Nat
  | main => 0
  | dispatcher i => i
  | writer i => i
  | reader i => i
  | user i => i

/-- The number of threads in a pool. -/
def count (cfg : BuildConfig) : Kind → Nat
  | .dispatcher => cfg.dispatchCount
  | .writer => cfg.outboundCount
  | .reader => cfg.inboundCount

structure Shared where
  -- the module state is SUBSTANCE_CONNECTOR_STATE_INIT_FINISHED
  ready : Bool
  dispatchCode : Bool
  writeFlag : Bool
  readFlag : Bool
  inbound : Nat
  outbound : Nat
  available : Nat
  -- `dispatch_threads[i].initialized`
  initialized : Nat → Bool
  -- how many threads of a pool have been created, in the order of their numbers
  created : Kind → Nat
  ended : Kind → Nat → Bool
  -- `free_contexts` is not destroyed yet, nor the queue of the available contexts
  freeContexts : Bool
  availableQueue : Bool
  destroyed : Mutex → Bool

namespace Shared

def length (g : Shared) : Queue → Nat
  | .inbound => g.inbound
  | .outbound => g.outbound

def setLength (g : Shared) (n : Nat) : Queue → Shared
  | .inbound => { g with inbound := n }
  | .outbound => { g with outbound := n }

def setFlag (g : Shared) (value : Bool) : Kind → Shared
  | .dispatcher => { g with dispatchCode := value }
  | .writer => { g with writeFlag := value }
  | .reader => { g with readFlag := value }

def create (g : Shared) (k : Kind) (n : Nat) : Shared := { g with created := Function.update g.created k n }

def finished (g : Shared) (k : Kind) (i : Nat) : Shared :=
  { g with ended := Function.update g.ended k (Function.update (g.ended k) i true) }

/-- `connector_mutex_destroy`. -/
def destroy (g : Shared) (m : Mutex) : Shared := { g with destroyed := Function.update g.destroyed m true }

end Shared

/-- Whose thread runs the code of the application. A read thread does so when it has cleaned up a context, in its loop or while it
exits; it has `assigned` contexts left. -/
inductive Host where
  | dispatcher
  | reader (assigned : Nat)
  | leaver (assigned : Nat)
  | user
  | main
  deriving DecidableEq

/-- What the environment answers: what the application does next, what a dispatched message is, what a read thread finds. -/
inductive Answer where
  | nothing
  | write
  | connect
  | await
  | shutdown
  | handshake
  | callback
  | accept
  | read
  | close
  | acquire
  | exit
  deriving DecidableEq, Inhabited

/-! ## Functions that are one critical section -/

inductive Op where
  | enqueue (q : Queue)
  | dequeue (q : Queue)
  | signal (c : Condition)
  | broadcast (c : Condition)
  | setCode (value : Bool)
  deriving DecidableEq

/-- The functions, and parts of functions, that lock a mutex, do something, and unlock it. -/
inductive Section where
  | lockedEnqueue (q : Queue)
  | lockedDequeue (q : Queue)
  | flagDispatch
  | flagWriteImpl
  | flagReadImpl
  | dispatchSignalMainCondition
  | readSignalMain
  | terminateDispatch
  | terminateDispatchEnd
  | shutdownWriteThreads
  | shutdownReadThreads
  deriving DecidableEq

namespace Section

def mutex : Section → Mutex
  | lockedEnqueue q => .queue q
  | lockedDequeue q => .queue q
  | flagDispatch => .dispatch
  | flagWriteImpl => .outbound
  | flagReadImpl => .inbound
  | dispatchSignalMainCondition => .dispatchMain
  | readSignalMain => .readMain
  | terminateDispatch => .dispatch
  | terminateDispatchEnd => .dispatch
  | shutdownWriteThreads => .outbound
  | shutdownReadThreads => .inbound

def body : Section → List Op
  | lockedEnqueue q => [.enqueue q]
  | lockedDequeue q => [.dequeue q]
  | flagDispatch => [.signal .dispatch]
  | flagWriteImpl => [.signal .outbound]
  | flagReadImpl => [.broadcast .inbound]
  | dispatchSignalMainCondition => [.broadcast .dispatchMain]
  | readSignalMain => [.broadcast .readMain]
  | terminateDispatch => [.setCode true, .broadcast .dispatch]
  | terminateDispatchEnd => [.setCode false]
  | shutdownWriteThreads => [.broadcast .outbound]
  | shutdownReadThreads => [.broadcast .inbound]

end Section

/-- The calls of these functions. A read thread remembers how many contexts it has. -/
inductive Site where
  -- `dispatch_routine`: the three acquires, the two signals to main, and the answer to a handshake
  | acquireFirst
  | acquireSecond
  | acquireNext
  | signalIdle
  | signalRound
  | answerEnqueue
  | answerFlag
  -- `write_thread_routine`
  | acquireWoken
  | acquireWritten
  -- `connector_read_thread_await_condition`, `append_available`, `connector_read_thread_handle_open` and `_connected`
  | notify (assigned : Nat)
  | acceptAppend (assigned : Nat)
  | acceptFlag (assigned : Nat)
  | readEnqueue (assigned : Nat)
  | readFlag (assigned : Nat)
  -- the calls of the application
  | writeEnqueue (host : Host)
  | writeFlag (host : Host)
  | connectFlag (host : Host)
  -- `connector_await_dispatch`
  | awaitFlag
  -- the shutdown
  | stopWriters
  | stopReaders
  | stopDispatchers
  | dispatchersStopped
  deriving DecidableEq

namespace Site

def function : Site → Section
  | acquireFirst | acquireSecond | acquireNext => .lockedDequeue .inbound
  | signalIdle | signalRound => .dispatchSignalMainCondition
  | answerEnqueue => .lockedEnqueue .outbound
  | answerFlag => .flagWriteImpl
  | acquireWoken | acquireWritten => .lockedDequeue .outbound
  | notify _ => .readSignalMain
  | acceptAppend _ | acceptFlag _ => .flagReadImpl
  | readEnqueue _ => .lockedEnqueue .inbound
  | readFlag _ => .flagDispatch
  | writeEnqueue _ => .lockedEnqueue .outbound
  | writeFlag _ => .flagWriteImpl
  | connectFlag _ => .flagReadImpl
  | awaitFlag => .flagDispatch
  | stopWriters => .shutdownWriteThreads
  | stopReaders => .shutdownReadThreads
  | stopDispatchers => .terminateDispatch
  | dispatchersStopped => .terminateDispatchEnd

/-- The mutexes that the caller has already. -/
def under : Site → List Mutex
  | acquireWoken => [.outbound]
  | notify _ => [.inbound]
  | awaitFlag => [.dispatchMain]
  | _ => []

end Site

/-! ## Where the threads are -/

/-- `dispatch_routine`; `message` is whether it has one, and `kind` what becomes of it. -/
inductive DispatchPc where
  | loopTest
  | lock (message : Bool)
  | waitTest (message : Bool)
  | wait
  | wokenUnlock
  | wokenTest
  | unlock (message : Bool)
  | handleTest (message : Bool)
  | handle (kind : Answer)
  | roundEnd
  | exit
  deriving DecidableEq

/-- `write_thread_routine`. -/
inductive WritePc where
  | loopTest
  | lock
  | waitTest (message : Bool)
  | wokenTest
  | unlock
  | unlockExit
  | write (message : Bool)
  | exit
  deriving DecidableEq

/-- `read_thread_routine`; in `connector_context_accept` with a connection that it has accepted. -/
inductive ReadPc where
  | loopTest
  | lock
  | waitTest
  | wait
  | wokenTest
  | unlock
  | exitTest
  | poll
  | accepted
  | exit
  deriving DecidableEq

/-- `substance_connector_init`, `connector_await_dispatch`, `substance_connector_shutdown`. -/
inductive MainPc where
  | createDispatchers (i : Nat)
  | spinLock
  | spinTest (i : Nat)
  | spinUnlock (initialized : Bool)
  | createWriters (i : Nat)
  | readersLock
  | createReaders (i : Nat)
  | readersWait (i : Nat)
  | readersUnlock
  | finish
  | awaitLock
  | awaitWait
  | awaitUnlock
  | shutdownContexts
  | setFlag (k : Kind)
  | shutdownAvailable
  | join (k : Kind) (i : Nat)
  | destroy (m : Mutex)
  | clearLock (q : Queue)
  | clearTest (q : Queue)
  | clear (q : Queue) (left : Nat)
  | clearUnlock (q : Queue)
  deriving DecidableEq

/-- All the threads; in a call of the application that opens or connects contexts, which may be several, before each of them,
before it is made available, and after. -/
inductive Pc where
  | enter (site : Site)
  | inside (site : Site) (todo : List Op) (message : Bool)
  | unborn (k : Kind)
  | dispatch (pc : DispatchPc)
  | write (pc : WritePc)
  | read (pc : ReadPc) (assigned : Nat)
  | main (pc : MainPc)
  | application (host : Host)
  | connecting (host : Host)
  | appending (host : Host)
  | connected (host : Host)
  | done (k : Option Kind)
  deriving DecidableEq

/-! ## The routines -/

section routines
variable (cfg : BuildConfig) (signalMain : Bool)

/-- What follows a call; `message` is what a dequeue returned. -/
def resume (message : Bool) : Site → Pc
  | .acquireFirst => .dispatch (.lock message)
  | .acquireSecond => if !message && signalMain then .enter .signalIdle else .dispatch (.lock message)
  | .acquireNext => .dispatch (.handleTest message)
  | .signalIdle => .dispatch (.lock false)
  | .signalRound => .dispatch .loopTest
  | .answerEnqueue => .enter .answerFlag
  | .answerFlag => .enter .acquireNext
  | .acquireWoken => .write (.waitTest message)
  | .acquireWritten => .write (.write message)
  | .notify assigned => .read .waitTest assigned
  | .acceptAppend assigned => .enter (.acceptFlag assigned)
  | .acceptFlag assigned => .read .poll assigned
  | .readEnqueue assigned => .enter (.readFlag assigned)
  | .readFlag assigned => .read .poll assigned
  | .writeEnqueue host => .enter (.writeFlag host)
  | .writeFlag host => .application host
  | .connectFlag host => .connected host
  | .awaitFlag => .main .awaitWait
  | .stopWriters => .main (.join .writer 0)
  | .stopReaders => .main (.join .reader 0)
  | .stopDispatchers => .main (.join .dispatcher 0)
  | .dispatchersStopped => .main (.destroy .dispatch)

abbrev Step := Instr Answer Mutex Condition Pc Shared

def insideRoutine (site : Site) (message : Bool) : List Op → Step
  | [] => .unlock site.function.mutex (resume signalMain message site)
  | .enqueue q :: todo => .act fun _ g => (g.setLength (g.length q + 1) q, .inside site todo true)
  | .dequeue q :: todo => .act fun _ g => (g.setLength (g.length q - 1) q, .inside site todo (decide (0 < g.length q)))
  | .signal c :: todo => .signal c (.inside site todo message)
  | .broadcast c :: todo => .broadcast c (.inside site todo message)
  | .setCode value :: todo => .act fun _ g => (g.setFlag value .dispatcher, .inside site todo message)

def dispatchRoutine (i : Nat) : DispatchPc → Step
  | .loopTest => .act fun _ g => (g, if g.dispatchCode then .dispatch .exit else .enter .acquireFirst)
  | .lock message => .lock .dispatch (.dispatch (.waitTest message))
  | .waitTest message => .act fun _ g =>
      if !message && !g.dispatchCode then
        ({ g with initialized := Function.update g.initialized i true }, .dispatch .wait)
      else (g, .dispatch (.unlock message))
  | .wait => .wait .dispatch .dispatch (.dispatch .wokenUnlock)
  | .wokenUnlock => .unlock .dispatch (.dispatch .wokenTest)
  | .wokenTest => .act fun _ g => (g, if g.dispatchCode then .dispatch .exit else .enter .acquireSecond)
  | .unlock message => .unlock .dispatch (.dispatch (.handleTest message))
  | .handleTest message => .act fun a g =>
      (g, if message && !g.dispatchCode then .dispatch (.handle a) else .dispatch .roundEnd)
  -- the internal handler answers a handshake; trampolines run code of the application
  | .handle kind => .act fun _ g => (g,
      match kind with
      | .handshake => .enter .answerEnqueue
      | .callback => .application .dispatcher
      | _ => .enter .acquireNext)
  | .roundEnd => .act fun _ g => (g, if signalMain then .enter .signalRound else .dispatch .loopTest)
  | .exit => .act fun _ g => (g.finished .dispatcher i, .done (some .dispatcher))

def writeRoutine (i : Nat) : WritePc → Step
  | .loopTest => .act fun _ g => (g, if g.writeFlag then .write .exit else .write .lock)
  | .lock => .lock .outbound (.write (.waitTest false))
  | .waitTest message =>
      if message then .act fun _ g => (g, .write .unlock) else .wait .outbound .outbound (.write .wokenTest)
  | .wokenTest => .act fun _ g => (g, if g.writeFlag then .write .unlockExit else .enter .acquireWoken)
  | .unlock => .unlock .outbound (.write (.write true))
  | .unlockExit => .unlock .outbound (.write .exit)
  | .write message => .act fun _ g => (g, if message then .enter .acquireWritten else .write .loopTest)
  | .exit => .act fun _ g => (g.finished .writer i, .done (some .writer))

/-- `connector_read_thread_try_acquire`: the pop of the available queue may fail. -/
def tryAcquire (a : Answer) (g : Shared) (assigned : Nat) : Shared × Nat :=
  if a = .acquire ∧ 0 < g.available then ({ g with available := g.available - 1 }, assigned + 1) else (g, assigned)

def readRoutine (i assigned : Nat) : ReadPc → Step
  | .loopTest => .act fun _ g => (g, if g.readFlag then .read .exit assigned else .read .lock assigned)
  | .lock => .lock .inbound (.enter (.notify assigned))
  | .waitTest => .act fun _ g =>
      (g, if assigned = 0 ∧ g.readFlag = false then .read .wait assigned else .read .unlock assigned)
  | .wait => .wait .inbound .inbound (.read .wokenTest assigned)
  | .wokenTest => .act fun a g =>
      if g.readFlag then (g, .read .unlock assigned)
      else ((tryAcquire a g assigned).1, .read .waitTest (tryAcquire a g assigned).2)
  | .unlock => .unlock .inbound (.read .exitTest assigned)
  | .exitTest => .act fun a g =>
      if g.readFlag then (g, .read .exit assigned)
      else ((tryAcquire a g assigned).1, .read .poll (tryAcquire a g assigned).2)
  -- the rest of a round: only a thread that has contexts finds anything to do, and it may close any of them
  | .poll => .act fun a g =>
      if assigned = 0 then (g, .read .loopTest assigned)
      else
        match a with
        | .accept => (g, .read .accepted assigned)
        | .read => (g, .enter (.readEnqueue assigned))
        | .close => (g, .application (.reader (assigned - 1)))
        | .exit => (g, if g.readFlag then .read .exit assigned else .read .poll assigned)
        | _ => (g, .read .loopTest assigned)
  -- a context is popped from the queue of the free ones, and appended to that of the available ones, which is still there
  | .accepted => .act fun _ g => ({ g with available := g.available + 1 }, .enter (.acceptAppend assigned))
  | .exit => .act fun _ g =>
      if assigned = 0 then (g.finished .reader i, .done (some .reader))
      else (g, .application (.leaver (assigned - 1)))

/-- Where a callback returns to. -/
def returned : Host → Pc
  | .dispatcher => .enter .acquireNext
  | .reader assigned => .read .poll assigned
  | .leaver assigned => .read .exit assigned
  | .user => .application .user
  | .main => .application .main

/-- The calls of the API take effect only once the initialization has finished. -/
def applicationRoutine (host : Host) : Step :=
  .act fun a g =>
    match a with
    | .write => (g, if g.ready then .enter (.writeEnqueue host) else .application host)
    | .connect => (g, if g.ready then .connecting host else .application host)
    | .await => (g, if host = .main ∧ signalMain then .main .awaitLock else .application host)
    | .shutdown =>
      if host = .main ∧ g.ready then ({ g with ready := false }, .main .shutdownContexts) else (g, .application host)
    | _ => (g, returned host)

/-- A context is popped from the queue of the free ones. It is given back after a failure, if the queue is still there. -/
def connectingRoutine (host : Host) : Step :=
  .act fun a g => (g, if a = .connect then .appending host else .connected host)

/-- `append_available`, which tests whether the queue of the available contexts is still there. -/
def appendingRoutine (host : Host) : Step :=
  .act fun _ g =>
    if g.availableQueue then ({ g with available := g.available + 1 }, .enter (.connectFlag host)) else (g, .connected host)

/-- A broadcast may go on to the next one. -/
def connectedRoutine (host : Host) : Step :=
  .act fun a g => (g, if a = .connect then .connecting host else .application host)

/-- What follows the destruction of a mutex. That of `dispatch_main_lock` is left out in the source. -/
def afterDestroy : Mutex → Pc
  | .outbound => .main (.setFlag .reader)
  | .inbound => .main (.destroy .readMain)
  | .readMain => .main .shutdownAvailable
  | .dispatch => .main (.clearLock .inbound)
  | .queue .inbound => .main (.destroy (.queue .outbound))
  | .queue .outbound | .dispatchMain => .done none

def mainRoutine : MainPc → Step
  | .createDispatchers i => .act fun _ g =>
      if i < cfg.dispatchCount then (g.create .dispatcher (i + 1), .main (.createDispatchers (i + 1)))
      else (g, .main .spinLock)
  | .spinLock => .lock .dispatch (.main (.spinTest 0))
  | .spinTest i => .act fun _ g => (g,
      if i < cfg.dispatchCount then
        if g.initialized i then .main (.spinTest (i + 1)) else .main (.spinUnlock false)
      else .main (.spinUnlock true))
  | .spinUnlock initialized => .unlock .dispatch (.main (if initialized then .createWriters 0 else .spinLock))
  | .createWriters i => .act fun _ g =>
      if i < cfg.outboundCount then (g.create .writer (i + 1), .main (.createWriters (i + 1)))
      else (g, .main .readersLock)
  | .readersLock => .lock .readMain (.main (.createReaders 0))
  | .createReaders i => .act fun _ g =>
      if i < cfg.inboundCount then (g.create .reader (i + 1), .main (.readersWait i)) else (g, .main .readersUnlock)
  | .readersWait i => .wait .readMain .readMain (.main (.createReaders (i + 1)))
  | .readersUnlock => .unlock .readMain (.main .finish)
  | .finish => .act fun _ g => ({ g with ready := true }, .application .main)
  | .awaitLock => .lock .dispatchMain (.enter .awaitFlag)
  | .awaitWait => .wait .dispatchMain .dispatchMain (.main .awaitUnlock)
  | .awaitUnlock => .unlock .dispatchMain (.application .main)
  -- `connector_shutdown_context_subsystem`
  | .shutdownContexts => .act fun _ g => ({ g with freeContexts := false }, .main (.setFlag .writer))
  | .setFlag k => .act fun _ g => (g.setFlag true k, .enter (if k = .writer then .stopWriters else .stopReaders))
  | .join k i =>
      if i < count cfg k then .await (fun g => g.ended k i) (.main (.join k (i + 1)))
      else
        match k with
        | .writer => .act fun _ g => (g.setFlag false .writer, .main (.destroy .outbound))
        | .reader => .act fun _ g => (g.setFlag false .reader, .main (.destroy .inbound))
        | .dispatcher => .act fun _ g => (g, .enter .dispatchersStopped)
  | .destroy m => .act fun _ g => (g.destroy m, afterDestroy m)
  -- `connector_available_queue_shutdown`
  | .shutdownAvailable => .act fun _ g => ({ g with availableQueue := false }, .enter .stopDispatchers)
  | .clearLock q => .lock (.queue q) (.main (.clearTest q))
  | .clearTest q => .act fun _ g => (g, .main (.clear q (g.length q)))
  | .clear q left => .act fun _ g =>
      match left with
      | 0 => (g, .main (.clearUnlock q))
      | left + 1 => (g.setLength left q, .main (.clear q left))
  | .clearUnlock q =>
      .unlock (.queue q) (.main (if q = .inbound then .clearLock .outbound else .destroy (.queue .inbound)))

def born : Kind → Pc
  | .dispatcher => .dispatch .loopTest
  | .writer => .write .loopTest
  | .reader => .read .loopTest 0

/-- The next step of a thread; a thread of a pool waits until it is created. -/
def routine {users : Nat} (name : Name cfg users) : Pc → Step
  | .enter site => .lock site.function.mutex (.inside site site.function.body true)
  | .inside site todo message => insideRoutine signalMain site message todo
  | .unborn k => .await (fun g => decide (name.index < g.created k)) (born k)
  | .dispatch pc => dispatchRoutine signalMain name.index pc
  | .write pc => writeRoutine name.index pc
  | .read pc assigned => readRoutine name.index assigned pc
  | .main pc => mainRoutine cfg pc
  | .application host => applicationRoutine signalMain host
  | .connecting host => connectingRoutine host
  | .appending host => appendingRoutine host
  | .connected host => connectedRoutine host
  | .done _ => .stop

end routines

/-! ## The system -/

section system
variable (cfg : BuildConfig) (signalMain : Bool) (users : Nat)

abbrev State := LockOrder.State (Name cfg users) Mutex Condition Pc Shared

def Name.start {cfg : BuildConfig} {users : Nat} : Name cfg users → Pc
  | main => .main (.createDispatchers 0)
  | dispatcher _ => .unborn .dispatcher
  | writer _ => .unborn .writer
  | reader _ => .unborn .reader
  | user _ => .application .user

/-- In `substance_connector_init`, before it creates the first thread. -/
def start : State cfg users where
  threads name := .running name.start
  holder _ := none
  shared := ⟨false, false, false, false, 0, 0, 0, fun _ => false, fun _ => 0, fun _ _ => false, true, true,
    fun _ => false⟩

/-- The runs of the core: `signalMain` is the argument of `connector_init_dispatch_subsystem`. -/
def system : StepSystem (State cfg users) (LockOrder.Label (Name cfg users) Answer) :=
  .ofNext (· = start cfg users) (LockOrder.next (routine cfg signalMain))

/-! ## What is gone -/

variable {cfg users}

/-- What the next step uses besides mutexes: it pops from the queue of the free contexts, or destroys a mutex, which no thread
may have then. -/
def Pc.sound (s : State cfg users) : Pc → Bool
  | .connecting _ | .read .accepted _ => s.shared.freeContexts
  | .main (.destroy m) => (s.holder m).isNone
  | _ => true

/-- The step uses nothing that has been destroyed. -/
def intact (s : State cfg users) : LockOrder.Label (Name cfg users) Answer → Bool
  | .spurious _ => true
  | .step name _ _ =>
    match s.threads name with
    | .blocked _ _ _ => true
    | .woken m _ => !s.shared.destroyed m
    | .running pc => pc.sound s && ((routine cfg signalMain name pc).mutex.all fun m => !s.shared.destroyed m)

abbrev Intact (s : State cfg users) (a : LockOrder.Label (Name cfg users) Answer) : Prop := intact signalMain s a = true

end system

end SubstanceConnector.CoreThreads
