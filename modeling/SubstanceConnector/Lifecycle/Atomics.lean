import SubstanceConnector.Lifecycle.Allocators

/-!
# The builds of the atomic operations

`atomic.h` defines its macros three times: by the intrinsics of GNU compilers, by those of Windows and, with
`SUBSTANCE_CONNECTOR_NO_ATOMIC`, in plain C. All have the same effect on the target. In the plain build the result of
`OR` and `AND` is the new value and not the old one, and an exchange that fails leaves the result as it was.

The callers that share one thread, on the process of `Lifecycle.Allocators`, are run with each of the builds. A result
variable starts with a value that means failure in `message_queue.c` and in the shutdown, but with
`SUBSTANCE_CONNECTOR_STATE_SHUTDOWN` where the initialisation and `substance_connector_set_allocators` test for it: in
the plain build these go on in every state (`builds_agree_iff`).
-/

namespace SubstanceConnector.Atomics

open Lifecycle (ModuleState Subsystem initCalls shutdownCalls)
open Allocators (Process Allocations)

/-- Definitions of the macros: what they leave in the target and in the result, from the target, the operands and what
the result held before. -/
structure AtomicOps where
  compareExchange (target expected new result : UInt32) : UInt32 × UInt32
  or (target val result : UInt32) : UInt32 × UInt32
  and (target val result : UInt32) : UInt32 × UInt32

namespace AtomicOps

/-- `__atomic_compare_exchange_n` writes the target back into its second argument if the two differ. -/
def gnu : AtomicOps where
  compareExchange target expected new _ :=
    let result := expected
    if target = result then (new, result) else (target, target)
  or target val _ := (target ||| val, target)
  and target val _ := (target &&& val, target)

/-- The `Interlocked` functions return what the target held before. -/
def win32 : AtomicOps where
  compareExchange target expected new _ := (if target = expected then new else target, target)
  or target val _ := (target ||| val, target)
  and target val _ := (target &&& val, target)

def noAtomic : AtomicOps where
  compareExchange target expected new result := if target = expected then (new, target) else (target, result)
  or target val _ := (target ||| val, target ||| val)
  and target val _ := (target &&& val, target &&& val)

end AtomicOps

/-! ## The callers -/

/-- `enum SubstanceConnectorState` as numbers. -/
def stateWord : ModuleState → UInt32
  | .shutdown => 0
  | .initStarted => 1
  | .initFinished => 2
  | .shutdownStarted => 3
  | .allocatorStarted => 4
  | .internalError => 0x128

def stateOfWord (word : UInt32) : ModuleState :=
  if word = 0 then .shutdown else if word = 1 then .initStarted else if word = 2 then .initFinished
  else if word = 3 then .shutdownStarted else if word = 4 then .allocatorStarted else .internalError

/-- The values of `enum MessageQueueState`. -/
def messageQueueShutdown : UInt32 := 0
def messageQueueInitStarted : UInt32 := 1
def messageQueueInitialized : UInt32 := 2
def messageQueueShutdownStarted : UInt32 := 3
def messageQueueInvalid : UInt32 := 4

/-- The process, the words of the other files that are exchanged, and a queue. -/
structure Library (A D : Type) where
  process : Process A D
  messageQueueState : UInt32
  dispatchShutdownCode : UInt32
  writeThreadShutdownFlag : UInt32
  readThreadShutdownFlag : UInt32
  queue : UintQueue

inductive Call (A D : Type) where
  | init (name : Option CString) (o : Allocations)
  | shutdown
  | setAllocators (allocator : Option A) (deallocator : Option D)
  | push (elem : UInt32)
  | pop (retval : UInt32)

/-- A return code, and what `*retval` holds after a pop. -/
structure Reply where
  code : Retcode
  retval : Option UInt32 := none
  deriving DecidableEq

section callers
variable {A D : Type} (ops : AtomicOps)

/-- An exchange of the module's state. -/
def exchangeState (state expected new : ModuleState) (result : UInt32) : ModuleState × UInt32 :=
  let r := ops.compareExchange (stateWord state) (stateWord expected) (stateWord new) result
  (stateOfWord r.1, r.2)

def connectorInitMessageQueueSubsystem (l : Library A D) : Library A D × Retcode :=
  let r := ops.compareExchange l.messageQueueState messageQueueShutdown messageQueueInitStarted messageQueueInvalid
  let l := { l with messageQueueState := r.1 }
  if r.2 = messageQueueShutdown then
    let r := ops.compareExchange l.messageQueueState messageQueueInitStarted messageQueueInitialized r.2
    ({ l with messageQueueState := r.1 }, .success)
  else (l, .error)

def connectorShutdownMessageQueueSubsystem (l : Library A D) : Library A D × Retcode :=
  let r := ops.compareExchange l.messageQueueState messageQueueInitialized messageQueueShutdownStarted
    messageQueueInvalid
  let l := { l with messageQueueState := r.1 }
  if r.2 = messageQueueInitialized then
    let r := ops.compareExchange l.messageQueueState messageQueueShutdownStarted messageQueueShutdown r.2
    ({ l with messageQueueState := r.1 }, .success)
  else (l, .error)

/-- `terminate_dispatch`. -/
def terminateDispatch (l : Library A D) : Library A D × Retcode :=
  let r := ops.compareExchange l.dispatchShutdownCode 0 1 1
  let r := ops.compareExchange r.1 1 0 r.2
  ({ l with dispatchShutdownCode := r.1 }, .success)

/-- What the shutdowns of the write and of the read threads do to their flags. -/
def shutdownThreads (flag : UInt32) : UInt32 × Retcode :=
  let r := ops.compareExchange flag 0 1 0
  if r.2 = 0 then ((ops.compareExchange r.1 1 0 r.2).1, .success) else (r.1, .error)

def connectorShutdownWriteThreads (l : Library A D) : Library A D × Retcode :=
  let r := shutdownThreads ops l.writeThreadShutdownFlag
  ({ l with writeThreadShutdownFlag := r.1 }, r.2)

def connectorShutdownReadThreads (l : Library A D) : Library A D × Retcode :=
  let r := shutdownThreads ops l.readThreadShutdownFlag
  ({ l with readThreadShutdownFlag := r.1 }, r.2)

def connectorTerminateComm (l : Library A D) : Library A D × Retcode :=
  let written := connectorShutdownWriteThreads ops l
  let read := connectorShutdownReadThreads ops written.1
  (read.1, if written.2 = .success then read.2 else written.2)

/-- The calls of `substance_connector_init`. -/
def initCall (name : Option CString) (o : Allocations) (l : Library A D) :
    Subsystem → Library A D × Except Fault Retcode
  | .initMessageQueueSubsystem =>
    let r := connectorInitMessageQueueSubsystem ops l
    (r.1, .ok r.2)
  | call =>
    let r := l.process.initCall name o call
    ({ l with process := r.1 }, r.2)

def runInit (name : Option CString) (o : Allocations) :
    List Subsystem → Library A D → Library A D × Except Fault Retcode
  | [], l => (l, .ok .success)
  | call :: calls, l =>
    match initCall ops name o l call with
    | (l, .ok .success) => runInit name o calls l
    | ended => ended

def setState (l : Library A D) (state : ModuleState) : Library A D :=
  { l with process := { l.process with state } }

def substanceConnectorInit (name : Option CString) (o : Allocations) (l : Library A D) :
    Library A D × Except Fault Retcode :=
  let entered := exchangeState ops l.process.state .shutdown .initStarted 0
  let l := setState l entered.1
  if entered.2 = stateWord .shutdown then
    match runInit ops name o initCalls l with
    | (l, .ok retcode) =>
      let new := if retcode = .success then .initFinished else .internalError
      (setState l (exchangeState ops l.process.state .initStarted new entered.2).1, .ok retcode)
    | (l, .error fault) => (l, .error fault)
  else (l, .ok .error)

variable (malloc : A) (free : D)

/-- The calls of `substance_connector_shutdown`. The result of `connector_terminate_comm` is not used. -/
def shutdownCall (l : Library A D) : Subsystem → Library A D × Except Fault Retcode
  | .shutdownCommSubsystem =>
    let l := (connectorTerminateComm ops l).1
    let r := l.process.shutdownCall malloc free .shutdownCommSubsystem
    ({ l with process := r.1 }, r.2)
  | .shutdownDispatchSubsystem =>
    let r := terminateDispatch ops l
    (r.1, .ok r.2)
  | .shutdownMessageQueueSubsystem =>
    let r := connectorShutdownMessageQueueSubsystem ops l
    (r.1, .ok r.2)
  | call =>
    let r := l.process.shutdownCall malloc free call
    ({ l with process := r.1 }, r.2)

def runShutdown : List Subsystem → Retcode → Library A D → Library A D × Except Fault Retcode
  | [], retcode, l => (l, .ok retcode)
  | call :: calls, retcode, l =>
    match shutdownCall ops malloc free l call with
    | (l, .ok result) => runShutdown calls (if retcode = .success then result else retcode) l
    | (l, .error fault) => (l, .error fault)

def substanceConnectorShutdown (l : Library A D) : Library A D × Except Fault Retcode :=
  let entered := exchangeState ops l.process.state .initFinished .shutdownStarted 0
  let l := setState l entered.1
  if entered.2 = stateWord .initFinished then
    match runShutdown ops malloc free shutdownCalls .success l with
    | (l, .ok retcode) => (setState l (exchangeState ops l.process.state .shutdownStarted .shutdown entered.2).1, .ok retcode)
    | (l, .error fault) => (l, .error fault)
  else (setState l (exchangeState ops l.process.state .shutdownStarted .shutdown entered.2).1, .ok .error)

def substanceConnectorSetAllocators (allocator : Option A) (deallocator : Option D) (l : Library A D) :
    Library A D × Except Fault Retcode :=
  let entered := exchangeState ops l.process.state .shutdown .allocatorStarted 0
  let l := setState l entered.1
  if entered.2 = stateWord .shutdown then
    let r : Library A D × Retcode :=
      match allocator, deallocator with
      | some allocator, some deallocator =>
        ({ l with process := { l.process with
            connectorMemoryAllocate := allocator, connectorMemoryFree := deallocator } }, .success)
      | _, _ => (l, .invalid)
    (setState r.1 (exchangeState ops r.1.process.state .allocatorStarted .shutdown entered.2).1, .ok r.2)
  else (l, .ok .invalid)

/-- The loop of a push that reserves a position: the return code, the position, the result variable and the queue. -/
def reserveLoop (q : UintQueue) : Nat → UInt32 → Option (Retcode × UInt32 × UInt32 × UintQueue)
  | 0, _ => none
  | rounds + 1, atomicResult =>
    let writeIndex := q.writeIndex
    let readIndex := q.readIndex
    if q.looksFull writeIndex readIndex then some (.error, writeIndex, atomicResult, q)
    else
      let r := ops.compareExchange q.writeIndex writeIndex (writeIndex + 1) atomicResult
      if r.2 = writeIndex then some (.success, writeIndex, r.2, { q with writeIndex := r.1 })
      else reserveLoop { q with writeIndex := r.1 } rounds r.2

/-- The loop of a push that commits the position. -/
def commitLoop (q : UintQueue) (writeIndex : UInt32) : Nat → UInt32 → Option UintQueue
  | 0, _ => none
  | rounds + 1, atomicResult =>
    let r := ops.compareExchange q.maxIndex writeIndex (writeIndex + 1) atomicResult
    if r.2 = writeIndex then some { q with maxIndex := r.1 }
    else commitLoop { q with maxIndex := r.1 } writeIndex rounds r.2

def connectorUintQueuePush (rounds : Nat) (q : UintQueue) (elem : UInt32) : Except Stop (Retcode × UintQueue) :=
  if q.size = 0 then .error (.fault .divisionByZero)
  else
    match reserveLoop ops q rounds 0 with
    | none => .error .rounds
    | some (.success, writeIndex, atomicResult, q) =>
      match commitLoop ops (q.store writeIndex elem) writeIndex rounds atomicResult with
      | none => .error .rounds
      | some q => .ok (.success, q)
    | some (retcode, _, _, q) => .ok (retcode, q)

/-- The loop of a pop, with what `*retval` holds before. -/
def popLoop (q : UintQueue) (retval : UInt32) : Nat → UInt32 → Option (Retcode × UInt32 × UintQueue)
  | 0, _ => none
  | rounds + 1, atomicResult =>
    let readIndex := q.readIndex
    let maxIndex := q.maxIndex
    if q.looksEmpty readIndex maxIndex then some (.error, retval, q)
    else
      let data := q.load readIndex
      let r := ops.compareExchange q.readIndex readIndex (readIndex + 1) atomicResult
      if r.2 = readIndex then some (.success, data, { q with readIndex := r.1 })
      else popLoop { q with readIndex := r.1 } retval rounds r.2

def connectorUintQueuePop (rounds : Nat) (q : UintQueue) (retval : UInt32) :
    Except Stop (Retcode × UInt32 × UintQueue) :=
  if q.size = 0 then .error (.fault .divisionByZero)
  else
    match popLoop ops q retval rounds 0 with
    | none => .error .rounds
    | some r => .ok r

/-- One call: the library after it, and the reply. -/
def call (rounds : Nat) (l : Library A D) : Call A D → Library A D × Except Stop Reply
  | .init name o =>
    let r := substanceConnectorInit ops name o l
    (r.1, (r.2.map fun code => { code }).mapError .fault)
  | .shutdown =>
    let r := substanceConnectorShutdown ops malloc free l
    (r.1, (r.2.map fun code => { code }).mapError .fault)
  | .setAllocators allocator deallocator =>
    let r := substanceConnectorSetAllocators ops allocator deallocator l
    (r.1, (r.2.map fun code => { code }).mapError .fault)
  | .push elem =>
    match connectorUintQueuePush ops rounds l.queue elem with
    | .ok (code, queue) => ({ l with queue }, .ok { code })
    | .error stop => (l, .error stop)
  | .pop retval =>
    match connectorUintQueuePop ops rounds l.queue retval with
    | .ok (code, retval, queue) => ({ l with queue }, .ok { code, retval })
    | .error stop => (l, .error stop)

/-- The replies of a sequence of calls and the states they reach. A call that does not return is the last one. -/
def trace (rounds : Nat) : Library A D → List (Call A D) → List (Except Stop Reply × Library A D)
  | _, [] => []
  | l, c :: calls =>
    let r := call ops malloc free rounds l c
    match r.2 with
    | .ok _ => (r.2, r.1) :: trace rounds r.1 calls
    | .error _ => [(r.2, r.1)]

end callers

/-- Before the first call, with a queue just created. -/
def Library.start {A D : Type} (malloc : A) (free : D) (size : UInt32) : Library A D where
  process := .start malloc free
  messageQueueState := messageQueueShutdown
  dispatchShutdownCode := 0
  writeThreadShutdownFlag := 0
  readThreadShutdownFlag := 0
  queue := .empty size

/-! ## One word -/

section words
variable {target expected new result : UInt32}

theorem win32_eq_gnu : AtomicOps.win32 = AtomicOps.gnu := by
  unfold AtomicOps.win32 AtomicOps.gnu
  congr
  funext target expected new result
  by_cases h : target = expected
  · simp [h]
  · simp [h]

theorem gnu_of_eq (h : target = expected) : AtomicOps.gnu.compareExchange target expected new result = (new, target) := by
  simp [AtomicOps.gnu, h]

theorem gnu_of_ne (h : target ≠ expected) :
    AtomicOps.gnu.compareExchange target expected new result = (target, target) := if_neg h

theorem noAtomic_of_eq (h : target = expected) :
    AtomicOps.noAtomic.compareExchange target expected new result = (new, target) := if_pos h

theorem noAtomic_of_ne (h : target ≠ expected) :
    AtomicOps.noAtomic.compareExchange target expected new result = (target, result) := if_neg h

/-- An exchange that succeeds has the same effect. -/
theorem compareExchange_of_eq (h : target = expected) :
    AtomicOps.noAtomic.compareExchange target expected new result =
      AtomicOps.gnu.compareExchange target expected new result := by
  rw [gnu_of_eq h, noAtomic_of_eq h]

/-- The target is the same in any case. -/
theorem target_compareExchange (target expected new result result' : UInt32) :
    (AtomicOps.noAtomic.compareExchange target expected new result).1 =
      (AtomicOps.gnu.compareExchange target expected new result').1 := by
  by_cases h : target = expected
  · rw [gnu_of_eq h, noAtomic_of_eq h]
  · rw [gnu_of_ne h, noAtomic_of_ne h]

theorem compareExchange_agrees_iff :
    AtomicOps.noAtomic.compareExchange target expected new result =
      AtomicOps.gnu.compareExchange target expected new result ↔ target = expected ∨ result = target := by
  by_cases h : target = expected
  · exact iff_of_true (compareExchange_of_eq h) (.inl h)
  · simp [gnu_of_ne h, noAtomic_of_ne h, h]

theorem or_agrees_iff {val : UInt32} :
    AtomicOps.noAtomic.or target val result = AtomicOps.gnu.or target val result ↔ target ||| val = target := by
  simp [AtomicOps.noAtomic, AtomicOps.gnu]

theorem and_agrees_iff {val : UInt32} :
    AtomicOps.noAtomic.and target val result = AtomicOps.gnu.and target val result ↔ target &&& val = target := by
  simp [AtomicOps.noAtomic, AtomicOps.gnu]

theorem stateOfWord_stateWord (state : ModuleState) : stateOfWord (stateWord state) = state := by
  cases state <;> decide

theorem stateWord_inj {state state' : ModuleState} : stateWord state = stateWord state' ↔ state = state' := by
  refine ⟨fun h => ?_, congrArg stateWord⟩
  rw [← stateOfWord_stateWord state, h, stateOfWord_stateWord]

theorem exchangeState_of_eq {ops : AtomicOps} (hops : ops = .gnu ∨ ops = .noAtomic) (state new : ModuleState)
    (result : UInt32) : exchangeState ops state state new result = (new, stateWord state) := by
  obtain rfl | rfl := hops
  · rw [exchangeState, gnu_of_eq rfl, stateOfWord_stateWord]
  · rw [exchangeState, noAtomic_of_eq rfl, stateOfWord_stateWord]

theorem exchangeState_gnu_of_ne {state expected : ModuleState} (h : state ≠ expected) (new : ModuleState)
    (result : UInt32) : exchangeState .gnu state expected new result = (state, stateWord state) := by
  rw [exchangeState, gnu_of_ne fun heq => h (stateWord_inj.mp heq), stateOfWord_stateWord]

theorem exchangeState_noAtomic_of_ne {state expected : ModuleState} (h : state ≠ expected) (new : ModuleState)
    (result : UInt32) : exchangeState .noAtomic state expected new result = (state, result) := by
  rw [exchangeState, noAtomic_of_ne fun heq => h (stateWord_inj.mp heq), stateOfWord_stateWord]

theorem exchangeState_fst (state expected new : ModuleState) (result result' : UInt32) :
    (exchangeState .noAtomic state expected new result).1 = (exchangeState .gnu state expected new result').1 :=
  congrArg stateOfWord (target_compareExchange _ _ _ _ _)

end words

/-! ## The subsystems -/

section subsystems
variable {A D : Type} {l : Library A D} {malloc : A} {free : D}

/-- Between two calls no body is running, no thread is being shut down, and the queue is settled. -/
structure Resting (l : Library A D) : Prop where
  initStarted : l.process.state ≠ .initStarted
  shutdownStarted : l.process.state ≠ .shutdownStarted
  allocatorStarted : l.process.state ≠ .allocatorStarted
  writeFlag : l.writeThreadShutdownFlag = 0
  readFlag : l.readThreadShutdownFlag = 0
  settled : l.queue.maxIndex = l.queue.writeIndex

/-- A result variable that starts with `MESSAGE_QUEUE_INVALID` means failure in either build. -/
theorem initMessageQueue_agrees (l : Library A D) :
    connectorInitMessageQueueSubsystem .noAtomic l = connectorInitMessageQueueSubsystem .gnu l := by
  unfold connectorInitMessageQueueSubsystem
  by_cases h : l.messageQueueState = messageQueueShutdown
  · simp [h, noAtomic_of_eq, gnu_of_eq]
  · have hinvalid : messageQueueInvalid ≠ messageQueueShutdown := by decide
    simp [noAtomic_of_ne h, gnu_of_ne h, h, hinvalid]

theorem shutdownMessageQueue_agrees (l : Library A D) :
    connectorShutdownMessageQueueSubsystem .noAtomic l = connectorShutdownMessageQueueSubsystem .gnu l := by
  unfold connectorShutdownMessageQueueSubsystem
  by_cases h : l.messageQueueState = messageQueueInitialized
  · simp [h, noAtomic_of_eq, gnu_of_eq]
  · have hinvalid : messageQueueInvalid ≠ messageQueueInitialized := by decide
    simp [noAtomic_of_ne h, gnu_of_ne h, h, hinvalid]

theorem terminateDispatch_agrees (l : Library A D) : terminateDispatch .noAtomic l = terminateDispatch .gnu l := by
  unfold terminateDispatch
  simp only [target_compareExchange l.dispatchShutdownCode 0 1 1 1]
  rw [target_compareExchange]

/-- The flag is found down, taken up and down again. -/
theorem shutdownThreads_zero {ops : AtomicOps} (hops : ops = .gnu ∨ ops = .noAtomic) :
    shutdownThreads ops 0 = (0, .success) := by
  obtain rfl | rfl := hops <;> rfl

theorem terminateComm_eq {ops : AtomicOps} (hops : ops = .gnu ∨ ops = .noAtomic) (hwrite : l.writeThreadShutdownFlag = 0)
    (hread : l.readThreadShutdownFlag = 0) : connectorTerminateComm ops l = (l, .success) := by
  cases l
  obtain rfl : _ = (0 : UInt32) := hwrite
  obtain rfl : _ = (0 : UInt32) := hread
  simp [connectorTerminateComm, connectorShutdownWriteThreads, connectorShutdownReadThreads, shutdownThreads_zero hops]

theorem initCall_agrees (name : Option CString) (o : Allocations) (l : Library A D) (c : Subsystem) :
    initCall .noAtomic name o l c = initCall .gnu name o l c := by
  cases c <;> simp only [initCall, initMessageQueue_agrees]

theorem runInit_agrees (name : Option CString) (o : Allocations) (calls : List Subsystem) (l : Library A D) :
    runInit .noAtomic name o calls l = runInit .gnu name o calls l := by
  induction calls generalizing l with
  | nil => rfl
  | cons c calls ih => simp only [runInit, initCall_agrees, ih]

/-- What the allocations and releases of a subsystem leave alone. -/
structure Kept (p p' : Process A D) : Prop where
  state : p'.state = p.state
  applicationName : p'.applicationName = p.applicationName
  released : p.released <+: p'.released

theorem Kept.refl (p : Process A D) : Kept p p := ⟨rfl, rfl, List.prefix_rfl⟩

theorem Kept.trans {p p' p'' : Process A D} (h : Kept p p') (h' : Kept p' p'') : Kept p p'' :=
  ⟨h'.state.trans h.state, h'.applicationName.trans h.applicationName, h.released.trans h'.released⟩

theorem kept_free (p : Process A D) (b : Option (Allocators.Block A D)) : Kept p (p.connectorFree b) := by
  cases b with
  | none => exact .refl p
  | some b => exact ⟨rfl, rfl, List.prefix_append _ _⟩

theorem kept_create (p : Process A D) (queueAllocated arrayAllocated : Bool) :
    Kept p (p.connectorUintQueueCreate queueAllocated arrayAllocated).1 := by
  unfold Process.connectorUintQueueCreate Process.connectorAllocate
  cases queueAllocated with
  | false => exact .refl p
  | true =>
    cases arrayAllocated with
    | false => exact kept_free p (some _)
    | true => exact .refl p

theorem kept_destroy (p : Process A D) (q : Allocators.QueueBlocks A D) : Kept p (p.connectorUintQueueDestroy q).1 := by
  cases q with
  | null => exact .refl p
  | released => exact .refl p
  | live queue array => exact (kept_free p (some array)).trans (kept_free _ (some queue))

theorem kept_initContextSubsystem (p : Process A D) (queueAllocated arrayAllocated : Bool) :
    Kept p (p.connectorInitContextSubsystem queueAllocated arrayAllocated).1 := by
  have hkept := kept_create p queueAllocated arrayAllocated
  unfold Process.connectorInitContextSubsystem
  dsimp only
  split <;> exact ⟨hkept.state, hkept.applicationName, hkept.released⟩

theorem kept_initCommSubsystem (p : Process A D) (queueAllocated arrayAllocated : Bool) :
    Kept p (p.connectorInitCommSubsystem queueAllocated arrayAllocated).1 := by
  have hkept := kept_create p queueAllocated arrayAllocated
  unfold Process.connectorInitCommSubsystem
  split
  · exact ⟨hkept.state, hkept.applicationName, hkept.released⟩
  · exact .refl p

theorem kept_shutdownContextSubsystem (p : Process A D) : Kept p p.connectorShutdownContextSubsystem.1 := by
  have hkept := kept_destroy p p.freeContexts
  unfold Process.connectorShutdownContextSubsystem
  dsimp only
  split
  · exact ⟨hkept.state, hkept.applicationName, hkept.released⟩
  · exact hkept

theorem kept_shutdownCommSubsystem (p : Process A D) : Kept p p.connectorShutdownCommSubsystem.1 := by
  have hkept := kept_destroy p p.connectionQueue
  unfold Process.connectorShutdownCommSubsystem
  dsimp only
  split
  · exact ⟨hkept.state, hkept.applicationName, hkept.released⟩
  · exact hkept

theorem kept_initCall (name : Option CString) (o : Allocations) (p : Process A D) {c : Subsystem}
    (hc : c ≠ .setApplicationName) : Kept p (p.initCall name o c).1 := by
  cases c
  case setApplicationName => exact absurd rfl hc
  case initContextSubsystem => exact kept_initContextSubsystem p o.freeContexts o.freeContextsArray
  case initCommSubsystem => exact kept_initCommSubsystem p o.connectionQueue o.connectionQueueArray
  all_goals exact .refl p

theorem state_setApplicationName (p : Process A D) (allocated : Bool) (name : Option CString) :
    (p.connectorSetApplicationName allocated name).1.state = p.state := by
  have hkept := kept_free p (p.applicationName.map Prod.fst)
  unfold Process.connectorSetApplicationName
  cases name with
  | none => exact hkept.state
  | some name => cases allocated <;> exact hkept.state

theorem kept_shutdownCall (malloc : A) (free : D) (p : Process A D) (c : Subsystem) :
    Kept p (p.shutdownCall malloc free c).1 := by
  cases c
  case shutdownContextSubsystem => exact kept_shutdownContextSubsystem p
  case shutdownCommSubsystem => exact kept_shutdownCommSubsystem p
  case clearAllocators => exact ⟨rfl, rfl, List.prefix_rfl⟩
  all_goals exact .refl p

/-- The calls of the subsystems touch neither the module's state nor the queue, and leave the flags down. -/
structure Frame (l l' : Library A D) : Prop where
  state : l'.process.state = l.process.state
  writeFlag : l'.writeThreadShutdownFlag = l.writeThreadShutdownFlag
  readFlag : l'.readThreadShutdownFlag = l.readThreadShutdownFlag
  queue : l'.queue = l.queue

theorem Frame.refl (l : Library A D) : Frame l l := ⟨rfl, rfl, rfl, rfl⟩

theorem Frame.trans {l' l'' : Library A D} (h : Frame l l') (h' : Frame l' l'') : Frame l l'' :=
  ⟨h'.state.trans h.state, h'.writeFlag.trans h.writeFlag, h'.readFlag.trans h.readFlag, h'.queue.trans h.queue⟩

theorem frame_initMessageQueue (ops : AtomicOps) (l : Library A D) :
    Frame l (connectorInitMessageQueueSubsystem ops l).1 := by
  unfold connectorInitMessageQueueSubsystem
  dsimp only
  split <;> exact ⟨rfl, rfl, rfl, rfl⟩

theorem frame_shutdownMessageQueue (ops : AtomicOps) (l : Library A D) :
    Frame l (connectorShutdownMessageQueueSubsystem ops l).1 := by
  unfold connectorShutdownMessageQueueSubsystem
  dsimp only
  split <;> exact ⟨rfl, rfl, rfl, rfl⟩

theorem frame_initCall (ops : AtomicOps) (name : Option CString) (o : Allocations) (l : Library A D) (c : Subsystem) :
    Frame l (initCall ops name o l c).1 := by
  by_cases hqueue : c = .initMessageQueueSubsystem
  · rw [hqueue]
    exact frame_initMessageQueue ops l
  · have hcall : initCall ops name o l c =
        ({ l with process := (l.process.initCall name o c).1 }, (l.process.initCall name o c).2) := by
      cases c <;> first | rfl | exact absurd rfl hqueue
    rw [hcall]
    refine ⟨?_, rfl, rfl, rfl⟩
    by_cases hname : c = .setApplicationName
    · rw [hname]
      exact state_setApplicationName l.process o.name name
    · exact (kept_initCall name o l.process hname).state

theorem frame_runInit (ops : AtomicOps) (name : Option CString) (o : Allocations) (calls : List Subsystem)
    (l : Library A D) : Frame l (runInit ops name o calls l).1 := by
  induction calls generalizing l with
  | nil => exact .refl l
  | cons c calls ih =>
    have hfirst := frame_initCall ops name o l c
    unfold runInit
    split
    · rename_i l' heq
      rw [heq] at hfirst
      exact hfirst.trans (ih l')
    · exact hfirst

theorem frame_shutdownCall {ops : AtomicOps} (hops : ops = .gnu ∨ ops = .noAtomic)
    (hwrite : l.writeThreadShutdownFlag = 0) (hread : l.readThreadShutdownFlag = 0) (c : Subsystem) :
    Frame l (shutdownCall ops malloc free l c).1 := by
  have hkept := kept_shutdownCall malloc free l.process
  cases c
  case shutdownCommSubsystem =>
    unfold shutdownCall
    rw [terminateComm_eq hops hwrite hread]
    exact ⟨(hkept .shutdownCommSubsystem).state, rfl, rfl, rfl⟩
  case shutdownDispatchSubsystem => exact ⟨rfl, rfl, rfl, rfl⟩
  case shutdownMessageQueueSubsystem => exact frame_shutdownMessageQueue ops l
  case shutdownContextSubsystem => exact ⟨(hkept .shutdownContextSubsystem).state, rfl, rfl, rfl⟩
  all_goals exact ⟨rfl, rfl, rfl, rfl⟩

theorem shutdownCall_agrees (hwrite : l.writeThreadShutdownFlag = 0) (hread : l.readThreadShutdownFlag = 0)
    (c : Subsystem) : shutdownCall .noAtomic malloc free l c = shutdownCall .gnu malloc free l c := by
  cases c
  case shutdownCommSubsystem =>
    simp only [shutdownCall, terminateComm_eq (.inl rfl) hwrite hread, terminateComm_eq (.inr rfl) hwrite hread]
  case shutdownDispatchSubsystem => simp only [shutdownCall, terminateDispatch_agrees]
  case shutdownMessageQueueSubsystem => simp only [shutdownCall, shutdownMessageQueue_agrees]
  all_goals rfl

theorem runShutdown_agrees (calls : List Subsystem) (retcode : Retcode) (hwrite : l.writeThreadShutdownFlag = 0)
    (hread : l.readThreadShutdownFlag = 0) :
    runShutdown .noAtomic malloc free calls retcode l = runShutdown .gnu malloc free calls retcode l ∧
      Frame l (runShutdown .gnu malloc free calls retcode l).1 := by
  induction calls generalizing l retcode with
  | nil => exact ⟨rfl, .refl l⟩
  | cons c calls ih =>
    have hfirst : Frame l (shutdownCall .gnu malloc free l c).1 := frame_shutdownCall (.inl rfl) hwrite hread c
    unfold runShutdown
    rw [shutdownCall_agrees hwrite hread]
    split
    · rename_i l' result heq
      rw [heq] at hfirst
      obtain ⟨hrest, hframe⟩ := ih (if retcode = .success then result else retcode) (hfirst.writeFlag.trans hwrite)
        (hfirst.readFlag.trans hread)
      exact ⟨hrest, hfirst.trans hframe⟩
    · rename_i l' fault heq
      rw [heq] at hfirst
      exact ⟨rfl, hfirst⟩

end subsystems

/-! ## One call -/

section calls
variable {A D : Type} {l : Library A D} {malloc : A} {free : D} {name : Option CString} {o : Allocations}

theorem setState_self (l : Library A D) : setState l l.process.state = l := rfl

theorem init_agrees_of_shutdown (h : l.process.state = .shutdown) :
    substanceConnectorInit .noAtomic name o l = substanceConnectorInit .gnu name o l := by
  unfold substanceConnectorInit
  rw [h, exchangeState_of_eq (.inr rfl), exchangeState_of_eq (.inl rfl)]
  simp only [runInit_agrees]
  split
  · split
    · rw [exchangeState_fst]
    · rfl
  · rfl

theorem init_gnu_of_ne (h : l.process.state ≠ .shutdown) :
    substanceConnectorInit .gnu name o l = (l, .ok .error) := by
  unfold substanceConnectorInit
  rw [exchangeState_gnu_of_ne h]
  exact if_neg fun heq => h (stateWord_inj.mp heq)

/-- The plain build goes on in any state. -/
theorem init_noAtomic_of_ne (h : l.process.state ≠ .shutdown) :
    substanceConnectorInit .noAtomic name o l =
      match runInit .noAtomic name o initCalls l with
      | (l', .ok retcode) =>
        (setState l' (exchangeState .noAtomic l'.process.state .initStarted
          (if retcode = .success then .initFinished else .internalError) 0).1, .ok retcode)
      | (l', .error fault) => (l', .error fault) := by
  unfold substanceConnectorInit
  rw [exchangeState_noAtomic_of_ne h]
  exact if_pos rfl

theorem kept_runInit (ops : AtomicOps) (name : Option CString) (o : Allocations) {calls : List Subsystem}
    (hcalls : .setApplicationName ∉ calls) (l : Library A D) : Kept l.process (runInit ops name o calls l).1.process := by
  induction calls generalizing l with
  | nil => exact .refl l.process
  | cons c calls ih =>
    rw [List.mem_cons, not_or] at hcalls
    have hfirst : Kept l.process (initCall ops name o l c).1.process := by
      cases c
      case setApplicationName => exact absurd rfl hcalls.1
      case initMessageQueueSubsystem =>
        unfold initCall connectorInitMessageQueueSubsystem
        dsimp only
        split <;> exact .refl l.process
      all_goals exact kept_initCall name o l.process (by simp)
    unfold runInit
    split
    · rename_i l' heq
      rw [heq] at hfirst
      exact hfirst.trans (ih hcalls.2 l')
    · exact hfirst

/-- Naming the application leaves a trace unless there is neither a name to store nor one to release. -/
theorem setApplicationName_trace {p p' : Process A D} {allocated : Bool}
    (hname : ¬ (name = none ∧ p.applicationName = none))
    (hkept : Kept (p.connectorSetApplicationName allocated name).1 p')
    (hok : ∀ f, (p.connectorSetApplicationName allocated name).2 ≠ .error f) :
    p'.applicationName ≠ p.applicationName ∨ p'.released ≠ p.released := by
  cases hstored : p.applicationName with
  | some stored =>
    right
    have hlonger : p.released.length < (p.connectorSetApplicationName allocated name).1.released.length := by
      unfold Process.connectorSetApplicationName
      rw [hstored]
      cases name with
      | none => simp [Process.connectorFree]
      | some name => cases allocated <;> simp [Process.connectorFree, Process.connectorAllocate]
    intro heq
    have hle := hkept.released.length_le
    rw [heq] at hle
    omega
  | none =>
    left
    cases name with
    | none => exact absurd ⟨rfl, hstored⟩ hname
    | some name =>
      cases allocated with
      | false => exact absurd rfl (hok .nullDereference)
      | true =>
        rw [hkept.applicationName]
        simp [Process.connectorSetApplicationName, Process.connectorAllocate]

/-- The calls after the first one. -/
def laterCalls : List Subsystem :=
  [.setupDefaultTcpDirectory, .initContextSubsystem, .initMessageQueueSubsystem, .initTrampolineSubsystem,
    .initDispatchSubsystem, .initCommSubsystem]

theorem runInit_initCalls (ops : AtomicOps) (name : Option CString) (o : Allocations) (l : Library A D) :
    Kept (l.process.connectorSetApplicationName o.name name).1 (runInit ops name o initCalls l).1.process ∧
      ∀ f, (l.process.connectorSetApplicationName o.name name).2 = .error f →
        (runInit ops name o initCalls l).2 = .error f := by
  change Kept _ (runInit ops name o (.setApplicationName :: laterCalls) l).1.process ∧
    ∀ f, _ → (runInit ops name o (.setApplicationName :: laterCalls) l).2 = _
  have hlater : .setApplicationName ∉ laterCalls := by decide
  unfold runInit
  split
  · rename_i l' heq
    obtain ⟨rfl, hcode⟩ := Prod.mk.inj heq
    have hkept := kept_runInit ops name o hlater
      { l with process := (l.process.connectorSetApplicationName o.name name).1 }
    refine ⟨hkept, fun f hf => ?_⟩
    exact absurd (hcode.symm.trans hf) (by simp)
  · exact ⟨.refl _, fun f hf => hf⟩

theorem init_agrees_iff (hl : Resting l) :
    substanceConnectorInit .noAtomic name o l = substanceConnectorInit .gnu name o l ↔
      l.process.state = .shutdown ∨ name = none ∧ l.process.applicationName = none := by
  by_cases hstate : l.process.state = .shutdown
  · exact iff_of_true (init_agrees_of_shutdown hstate) (.inl hstate)
  rw [init_gnu_of_ne hstate, init_noAtomic_of_ne hstate]
  by_cases hname : name = none ∧ l.process.applicationName = none
  · refine iff_of_true ?_ (.inr hname)
    obtain ⟨rfl, hstored⟩ := hname
    have hprocess : (l.process.connectorSetApplicationName o.name none).1 = l.process := by
      unfold Process.connectorSetApplicationName
      rw [hstored]
      exact congrArg (fun stored => { l.process with applicationName := stored }) hstored.symm
    have hrun : runInit .noAtomic none o initCalls l = (l, .ok .error) := by
      change ({ l with process := (l.process.connectorSetApplicationName o.name none).1 }, _) = _
      rw [hprocess]
    rw [hrun]
    simp only [exchangeState_noAtomic_of_ne hl.initStarted, setState_self]
  · refine iff_of_false ?_ (not_or.mpr ⟨hstate, hname⟩)
    obtain ⟨hkept, hfault⟩ := runInit_initCalls .noAtomic name o l
    intro heq
    split at heq
    · rename_i l' retcode hrun
      rw [hrun] at hkept hfault
      have hstored : l'.process.applicationName = l.process.applicationName :=
        congrArg (fun r => r.1.process.applicationName) heq
      have hreleased : l'.process.released = l.process.released := congrArg (fun r => r.1.process.released) heq
      obtain htrace | htrace := setApplicationName_trace hname hkept fun f hf => absurd (hfault f hf) (by simp)
      · exact htrace hstored
      · exact htrace hreleased
    · simp at heq

theorem setAllocators_agrees_iff (hl : Resting l) {allocator : Option A} {deallocator : Option D} :
    substanceConnectorSetAllocators .noAtomic allocator deallocator l =
        substanceConnectorSetAllocators .gnu allocator deallocator l ↔
      l.process.state = .shutdown ∨ allocator = none ∨ deallocator = none := by
  by_cases hstate : l.process.state = .shutdown
  · refine iff_of_true ?_ (.inl hstate)
    unfold substanceConnectorSetAllocators
    rw [hstate, exchangeState_of_eq (.inr rfl), exchangeState_of_eq (.inl rfl)]
    simp only [exchangeState_fst _ _ _ _ (stateWord .shutdown)]
  · have hgnu : substanceConnectorSetAllocators .gnu allocator deallocator l = (l, .ok .invalid) := by
      unfold substanceConnectorSetAllocators
      rw [exchangeState_gnu_of_ne hstate]
      exact if_neg fun heq => hstate (stateWord_inj.mp heq)
    have hleft : ∀ new result, exchangeState .noAtomic l.process.state .allocatorStarted new result =
        (l.process.state, result) := exchangeState_noAtomic_of_ne hl.allocatorStarted
    rw [hgnu]
    unfold substanceConnectorSetAllocators
    rw [exchangeState_noAtomic_of_ne hstate]
    cases allocator with
    | none => simp [setState_self, hleft, stateWord]
    | some allocator =>
      cases deallocator with
      | none => simp [setState_self, hleft, stateWord]
      | some deallocator => simp [hstate, stateWord]

theorem shutdown_agrees (hl : Resting l) :
    substanceConnectorShutdown .noAtomic malloc free l = substanceConnectorShutdown .gnu malloc free l := by
  unfold substanceConnectorShutdown
  by_cases hstate : l.process.state = .initFinished
  · rw [hstate, exchangeState_of_eq (.inr rfl), exchangeState_of_eq (.inl rfl)]
    have hagrees : runShutdown .noAtomic malloc free shutdownCalls .success (setState l .shutdownStarted) =
        runShutdown .gnu malloc free shutdownCalls .success (setState l .shutdownStarted) :=
      (runShutdown_agrees (l := setState l .shutdownStarted) shutdownCalls .success hl.writeFlag hl.readFlag).1
    simp only [hagrees, exchangeState_fst _ _ _ _ (stateWord .initFinished)]
  · have hdown : (0 : UInt32) ≠ stateWord .initFinished := by decide
    have hword : stateWord l.process.state ≠ stateWord .initFinished := fun heq => hstate (stateWord_inj.mp heq)
    rw [exchangeState_noAtomic_of_ne hstate, exchangeState_gnu_of_ne hstate]
    simp only [if_neg hdown, if_neg hword]
    rw [exchangeState_fst]

end calls

/-! ## The queue -/

section queue
variable {ops : AtomicOps} {q : UintQueue}

/-- In one thread each exchange of a settled queue succeeds at once, in either build. -/
theorem exchange_self (hops : ops = .gnu ∨ ops = .noAtomic) (target new result : UInt32) :
    ops.compareExchange target target new result = (new, target) := by
  obtain rfl | rfl := hops
  · exact gnu_of_eq rfl
  · exact noAtomic_of_eq rfl

theorem push_eq (hops : ops = .gnu ∨ ops = .noAtomic) (hsettled : q.maxIndex = q.writeIndex) (rounds : Nat)
    (elem : UInt32) :
    connectorUintQueuePush ops (rounds + 1) q elem =
      if q.size = 0 then .error (.fault .divisionByZero) else .ok (q.push elem) := by
  have hself := exchange_self hops
  unfold connectorUintQueuePush reserveLoop
  by_cases hfull : q.looksFull q.writeIndex q.readIndex
  · simp [hfull, UintQueue.push]
  · simp only [if_neg hfull, hself, if_true]
    have hcommit : commitLoop ops (({ q with writeIndex := q.writeIndex + 1 } : UintQueue).store q.writeIndex elem)
        q.writeIndex (rounds + 1) q.writeIndex = some (q.push elem).2 := by
      have hmax : (({ q with writeIndex := q.writeIndex + 1 } : UintQueue).store q.writeIndex elem).maxIndex =
        q.writeIndex := hsettled
      unfold commitLoop
      simp only [hmax, hself, if_true]
      simp only [UintQueue.push, hfull, Bool.false_eq_true, if_false, Option.some.injEq]
      rfl
    simp [hcommit, UintQueue.push, hfull]

theorem pop_eq (hops : ops = .gnu ∨ ops = .noAtomic) (rounds : Nat) (retval : UInt32) :
    connectorUintQueuePop ops (rounds + 1) q retval =
      if q.size = 0 then .error (.fault .divisionByZero)
      else .ok (if q.pop.1.isSome then .success else .error, q.pop.1.getD retval, q.pop.2) := by
  unfold connectorUintQueuePop popLoop
  by_cases hempty : q.looksEmpty q.readIndex q.maxIndex
  · simp [hempty, UintQueue.pop]
  · simp [hempty, UintQueue.pop, exchange_self hops]

end queue

/-! ## Sequences of calls -/

section sequences
variable {A D : Type} {l : Library A D} {malloc : A} {free : D}

/-- An initialisation finds the module shut down, or has neither a name to store nor one to release; the allocators
are set while it is shut down, or one of them is missing. -/
def Entitled (l : Library A D) : Call A D → Prop
  | .init name _ => l.process.state = .shutdown ∨ name = none ∧ l.process.applicationName = none
  | .setAllocators allocator deallocator => l.process.state = .shutdown ∨ allocator = none ∨ deallocator = none
  | .shutdown | .push _ | .pop _ => True

/-- Each call that is made, in the build with intrinsics, is. -/
def EachEntitled (malloc : A) (free : D) (rounds : Nat) : Library A D → List (Call A D) → Prop
  | _, [] => True
  | l, c :: calls =>
    Entitled l c ∧ ((call .gnu malloc free rounds l c).2.isOk →
      EachEntitled malloc free rounds (call .gnu malloc free rounds l c).1 calls)

/-- The replies differ if the return codes do. -/
theorem reply_inj {r r' : Library A D × Except Fault Retcode} :
    (r.1, (r.2.map fun code => ({ code } : Reply)).mapError Stop.fault) =
        (r'.1, (r'.2.map fun code => ({ code } : Reply)).mapError Stop.fault) ↔ r = r' := by
  obtain ⟨l, result⟩ := r
  obtain ⟨l', result'⟩ := r'
  cases result <;> cases result' <;> simp [Except.map, Except.mapError]

theorem push_agrees (hl : Resting l) (rounds : Nat) (elem : UInt32) :
    connectorUintQueuePush .noAtomic rounds l.queue elem = connectorUintQueuePush .gnu rounds l.queue elem := by
  cases rounds with
  | zero => rfl
  | succ rounds => rw [push_eq (.inr rfl) hl.settled, push_eq (.inl rfl) hl.settled]

theorem pop_agrees (l : Library A D) (rounds : Nat) (retval : UInt32) :
    connectorUintQueuePop .noAtomic rounds l.queue retval = connectorUintQueuePop .gnu rounds l.queue retval := by
  cases rounds with
  | zero => rfl
  | succ rounds => rw [pop_eq (.inr rfl), pop_eq (.inl rfl)]

theorem call_agrees_iff (hl : Resting l) (rounds : Nat) (c : Call A D) :
    call .noAtomic malloc free rounds l c = call .gnu malloc free rounds l c ↔ Entitled l c := by
  cases c with
  | init name o => exact reply_inj.trans (init_agrees_iff hl)
  | shutdown => exact iff_of_true (reply_inj.mpr (shutdown_agrees hl)) trivial
  | setAllocators allocator deallocator => exact reply_inj.trans (setAllocators_agrees_iff hl)
  | push elem =>
    refine iff_of_true ?_ trivial
    simp only [call, push_agrees hl]
  | pop retval =>
    refine iff_of_true ?_ trivial
    simp only [call, pop_agrees]

theorem settled_push {q q' : UintQueue} (h : q.maxIndex = q.writeIndex) {rounds : Nat} {elem : UInt32}
    {code : Retcode} (hpush : connectorUintQueuePush .gnu rounds q elem = .ok (code, q')) :
    q'.maxIndex = q'.writeIndex := by
  cases rounds with
  | zero =>
    simp [connectorUintQueuePush, reserveLoop] at hpush
    split at hpush <;> cases hpush
  | succ rounds =>
    rw [push_eq (.inl rfl) h] at hpush
    split at hpush
    · cases hpush
    · have hq : q' = (q.push elem).2 := (congrArg Prod.snd (Except.ok.inj hpush)).symm
      rw [hq]
      unfold UintQueue.push
      split
      · exact h
      · rfl

theorem settled_pop {q q' : UintQueue} (h : q.maxIndex = q.writeIndex) {rounds : Nat} {retval retval' : UInt32}
    {code : Retcode} (hpop : connectorUintQueuePop .gnu rounds q retval = .ok (code, retval', q')) :
    q'.maxIndex = q'.writeIndex := by
  cases rounds with
  | zero =>
    simp [connectorUintQueuePop, popLoop] at hpop
    split at hpop <;> cases hpop
  | succ rounds =>
    rw [pop_eq (.inl rfl)] at hpop
    split at hpop
    · cases hpop
    · have hq : q' = q.pop.2 := (congrArg (·.2.2) (Except.ok.inj hpop)).symm
      rw [hq]
      unfold UintQueue.pop
      split <;> exact h

/-- A body of the module leaves what the other calls rely on. -/
theorem Resting.of_frame {l' : Library A D} (hl : Resting l) (hframe : Frame (setState l l'.process.state) l')
    (hstate : l'.process.state = .shutdown ∨ l'.process.state = .initFinished ∨ l'.process.state = .internalError) :
    Resting l' := by
  refine ⟨?_, ?_, ?_, hframe.writeFlag.trans hl.writeFlag, hframe.readFlag.trans hl.readFlag, ?_⟩
  · rintro heq
    simp [heq] at hstate
  · rintro heq
    simp [heq] at hstate
  · rintro heq
    simp [heq] at hstate
  · rw [hframe.queue]
    exact hl.settled

theorem resting_init (hl : Resting l) {name : Option CString} {o : Allocations} {l' : Library A D} {retcode : Retcode}
    (h : substanceConnectorInit .gnu name o l = (l', .ok retcode)) : Resting l' := by
  by_cases hstate : l.process.state = .shutdown
  · unfold substanceConnectorInit at h
    rw [hstate, exchangeState_of_eq (.inl rfl)] at h
    simp only [if_true] at h
    have hframe := frame_runInit .gnu name o initCalls (setState l .initStarted)
    split at h
    · rename_i l₁ code hrun
      rw [hrun] at hframe
      have hstarted : l₁.process.state = .initStarted := hframe.state
      rw [hstarted, exchangeState_of_eq (.inl rfl)] at h
      obtain ⟨rfl, -⟩ := Prod.mk.inj h
      refine hl.of_frame ⟨rfl, hframe.writeFlag, hframe.readFlag, hframe.queue⟩ ?_
      by_cases hcode : code = .success
      · exact .inr (.inl (if_pos hcode))
      · exact .inr (.inr (if_neg hcode))
    · simp at h
  · rw [init_gnu_of_ne hstate] at h
    obtain ⟨rfl, -⟩ := Prod.mk.inj h
    exact hl

theorem resting_shutdown (hl : Resting l) {l' : Library A D} {retcode : Retcode}
    (h : substanceConnectorShutdown .gnu malloc free l = (l', .ok retcode)) : Resting l' := by
  unfold substanceConnectorShutdown at h
  by_cases hstate : l.process.state = .initFinished
  · rw [hstate, exchangeState_of_eq (.inl rfl)] at h
    simp only [if_true] at h
    have hframe : Frame (setState l .shutdownStarted)
        (runShutdown .gnu malloc free shutdownCalls .success (setState l .shutdownStarted)).1 :=
      (runShutdown_agrees (l := setState l .shutdownStarted) shutdownCalls .success hl.writeFlag hl.readFlag).2
    split at h
    · rename_i l₁ code hrun
      rw [hrun] at hframe
      have hstarted : l₁.process.state = .shutdownStarted := hframe.state
      rw [hstarted, exchangeState_of_eq (.inl rfl)] at h
      obtain ⟨rfl, -⟩ := Prod.mk.inj h
      exact hl.of_frame ⟨rfl, hframe.writeFlag, hframe.readFlag, hframe.queue⟩ (.inl rfl)
    · simp at h
  · have hword : stateWord l.process.state ≠ stateWord .initFinished := fun heq => hstate (stateWord_inj.mp heq)
    rw [exchangeState_gnu_of_ne hstate] at h
    simp only [if_neg hword] at h
    obtain ⟨rfl, -⟩ := Prod.mk.inj h
    change Resting (setState l (exchangeState .gnu l.process.state .shutdownStarted .shutdown _).1)
    rw [exchangeState_gnu_of_ne hl.shutdownStarted]
    exact hl

theorem resting_setAllocators (hl : Resting l) {allocator : Option A} {deallocator : Option D} {l' : Library A D}
    {result : Except Fault Retcode} (h : substanceConnectorSetAllocators .gnu allocator deallocator l = (l', result)) :
    Resting l' := by
  unfold substanceConnectorSetAllocators at h
  by_cases hstate : l.process.state = .shutdown
  · rw [hstate, exchangeState_of_eq (.inl rfl)] at h
    simp only [if_true] at h
    obtain ⟨rfl, -⟩ := Prod.mk.inj h
    cases allocator with
    | none => exact hl.of_frame (.refl _) (.inl rfl)
    | some allocator =>
      cases deallocator with
      | none => exact hl.of_frame (.refl _) (.inl rfl)
      | some deallocator => exact hl.of_frame ⟨rfl, rfl, rfl, rfl⟩ (.inl rfl)
  · have hword : stateWord l.process.state ≠ stateWord .shutdown := fun heq => hstate (stateWord_inj.mp heq)
    rw [exchangeState_gnu_of_ne hstate] at h
    simp only [if_neg hword] at h
    obtain ⟨rfl, -⟩ := Prod.mk.inj h
    exact hl

theorem isOk_reply {result : Except Fault Retcode}
    (h : ((result.map fun code => ({ code } : Reply)).mapError Stop.fault).isOk) : ∃ code, result = .ok code := by
  cases result with
  | error fault => cases h
  | ok code => exact ⟨code, rfl⟩

theorem resting_call (hl : Resting l) (rounds : Nat) (c : Call A D)
    (hok : (call .gnu malloc free rounds l c).2.isOk) : Resting (call .gnu malloc free rounds l c).1 := by
  cases c with
  | init name o =>
    obtain ⟨code, hcode⟩ := isOk_reply hok
    exact resting_init hl (Prod.ext rfl hcode)
  | shutdown =>
    obtain ⟨code, hcode⟩ := isOk_reply hok
    exact resting_shutdown hl (Prod.ext rfl hcode)
  | setAllocators allocator deallocator => exact resting_setAllocators hl rfl
  | push elem =>
    simp only [call]
    cases hpush : connectorUintQueuePush .gnu rounds l.queue elem with
    | error stop => exact hl
    | ok pushed =>
      exact ⟨hl.initStarted, hl.shutdownStarted, hl.allocatorStarted, hl.writeFlag, hl.readFlag,
        settled_push hl.settled hpush⟩
  | pop retval =>
    simp only [call]
    cases hpop : connectorUintQueuePop .gnu rounds l.queue retval with
    | error stop => exact hl
    | ok popped =>
      exact ⟨hl.initStarted, hl.shutdownStarted, hl.allocatorStarted, hl.writeFlag, hl.readFlag,
        settled_pop hl.settled hpop⟩

theorem trace_cons (ops : AtomicOps) (malloc : A) (free : D) (rounds : Nat) (l : Library A D) (c : Call A D)
    (calls : List (Call A D)) :
    trace ops malloc free rounds l (c :: calls) =
      ((call ops malloc free rounds l c).2, (call ops malloc free rounds l c).1) ::
        if (call ops malloc free rounds l c).2.isOk then trace ops malloc free rounds (call ops malloc free rounds l c).1 calls
        else [] := by
  rw [trace]
  cases (call ops malloc free rounds l c).2 with
  | ok reply => rfl
  | error stop => rfl

/-- The two builds reply and move alike as long as each call is entitled to. -/
theorem trace_agrees_iff (hl : Resting l) (rounds : Nat) (calls : List (Call A D)) :
    trace .noAtomic malloc free rounds l calls = trace .gnu malloc free rounds l calls ↔
      EachEntitled malloc free rounds l calls := by
  induction calls generalizing l with
  | nil => exact iff_of_true rfl trivial
  | cons c calls ih =>
    rw [trace_cons, trace_cons, EachEntitled, List.cons.injEq, ← call_agrees_iff hl rounds c]
    have hhead : ((call .noAtomic malloc free rounds l c).2, (call .noAtomic malloc free rounds l c).1) =
        ((call .gnu malloc free rounds l c).2, (call .gnu malloc free rounds l c).1) ↔
          call .noAtomic malloc free rounds l c = call .gnu malloc free rounds l c :=
      Prod.swap_inj
    rw [hhead]
    apply and_congr_right
    intro heq
    rw [heq]
    by_cases hok : (call .gnu malloc free rounds l c).2.isOk
    · simp only [hok, if_true, true_implies]
      exact ih (resting_call hl rounds c hok)
    · simp [hok]

theorem resting_start (malloc : A) (free : D) (size : UInt32) : Resting (Library.start malloc free size) :=
  ⟨by simp [Library.start, Process.start], by simp [Library.start, Process.start],
    by simp [Library.start, Process.start], rfl, rfl, rfl⟩

/-- The plain build has the effect of the intrinsics on a word exactly if an exchange succeeds or its result variable
happens to hold the word, and for `OR` and `AND` if they change nothing; on the calls of one thread exactly if each is
entitled to go on where it does. -/
theorem builds_agree_iff (malloc : A) (free : D) (size : UInt32) (rounds : Nat) (calls : List (Call A D)) :
    AtomicOps.win32 = AtomicOps.gnu ∧
      (∀ target expected new result,
        AtomicOps.noAtomic.compareExchange target expected new result =
          AtomicOps.gnu.compareExchange target expected new result ↔ target = expected ∨ result = target) ∧
      (∀ target val result, AtomicOps.noAtomic.or target val result = AtomicOps.gnu.or target val result ↔
        target ||| val = target) ∧
      (∀ target val result, AtomicOps.noAtomic.and target val result = AtomicOps.gnu.and target val result ↔
        target &&& val = target) ∧
      (trace .noAtomic malloc free rounds (.start malloc free size) calls =
          trace .gnu malloc free rounds (.start malloc free size) calls ↔
        EachEntitled malloc free rounds (.start malloc free size) calls) :=
  ⟨win32_eq_gnu, fun _ _ _ _ => compareExchange_agrees_iff, fun _ _ _ => or_agrees_iff, fun _ _ _ => and_agrees_iff,
    trace_agrees_iff (resting_start malloc free size) rounds calls⟩

/-- The allocators are set while the module is initialised. -/
def lateAllocators : List (Call Bool Bool) :=
  [.init (some Allocators.viewer) ⟨true, true, true, true, true⟩, .setAllocators (some true) (some true)]

/-- A failed exchange leaves the old result, `OR` and `AND` give the new value, and the allocators can be replaced
under a running library. -/
theorem builds_differ :
    AtomicOps.noAtomic.compareExchange 0x17 0 0x32 0 ≠ AtomicOps.gnu.compareExchange 0x17 0 0x32 0 ∧
      AtomicOps.noAtomic.or 0 1 0 ≠ AtomicOps.gnu.or 0 1 0 ∧ AtomicOps.noAtomic.and 1 0 0 ≠ AtomicOps.gnu.and 1 0 0 ∧
      (trace .gnu false false 1 (.start false false 4) lateAllocators).map Prod.fst =
        [.ok { code := .success }, .ok { code := .invalid }] ∧
      (trace .noAtomic false false 1 (.start false false 4) lateAllocators).map Prod.fst =
        [.ok { code := .success }, .ok { code := .success }] := by
  decide

end sequences

end SubstanceConnector.Atomics
