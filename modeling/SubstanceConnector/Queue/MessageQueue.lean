import SubstanceConnector.Library.Linearization
import SubstanceConnector.Library.StepSystem
import SubstanceConnector.Lifecycle.Atomics
import SubstanceConnector.Queue.LockedQueue

/-!
# The message queues under any interleaving

`message_queue.c` over `locked_queue.c`, statement by statement: every load and every store of a field of a queue or of
a node is a step of its thread, so a thread may be stopped between any two of them. Messages are pointers the queue does
not look into. Nodes are names of memory that `connector_allocate` hands out and `connector_free` takes back, for the
next allocation to hand out again; an access to a node that is not allocated is a fault.

The core initializes the subsystem before it starts a thread that uses it, and shuts it down after the last of them
(`Permitted`). Both run alone, so each is one step; the loops of the shutdown are given the rounds they may take.
-/

namespace SubstanceConnector.MessageQueue

open Linearization LockedQueue Atomics

/-- `inbound_queue` and `outbound_queue`. -/
inductive QueueName where
  | inbound
  | outbound
  deriving DecidableEq

section model
variable {ι Node Message : Type} [DecidableEq ι] [DecidableEq Node]

/-! ## The nodes -/

/-- The fields of `connector_locked_queue_node_t` at every name, and which names are allocated. -/
structure Memory (Node Message : Type) where
  next : Node → Option Node
  contents : Node → Message
  allocated : Node → Bool
  faulted : Bool

namespace Memory

/-- Any access through a pointer. -/
def access (μ : Memory Node Message) (node : Option Node) : Memory Node Message :=
  { μ with faulted := μ.faulted || !node.any μ.allocated }

/-- `node->next = value`. -/
def storeNext (μ : Memory Node Message) (node value : Option Node) : Memory Node Message :=
  match node with
  | none => μ.access none
  | some n => { μ.access (some n) with next := Function.update μ.next n value }

/-- `node->contents = message`. -/
def storeContents (μ : Memory Node Message) (node : Option Node) (message : Message) : Memory Node Message :=
  match node with
  | none => μ.access none
  | some n => { μ.access (some n) with contents := Function.update μ.contents n message }

def connectorFree (μ : Memory Node Message) (node : Option Node) : Memory Node Message :=
  match node with
  | none => μ
  | some n => { μ.access (some n) with allocated := Function.update μ.allocated n false }

end Memory

/-! ## The threads -/

/-- The statements of `connector_locked_enqueue`, with the locals that are set before them. -/
inductive EnqueuePc (Node : Type) where
  | lock
  | clearNext
  | loadEnd
  | storeEnd (last : Option Node)
  | testFront (last : Option Node)
  | loadNewEnd (last : Option Node)
  | storeFront (last value : Option Node)
  | testEnd (last : Option Node)
  | link (last : Option Node)
  | unlock

/-- The statements of `connector_locked_dequeue`. -/
inductive DequeuePc (Node : Type) where
  | lock
  | testFront
  | loadFront
  | loadNext (node : Option Node)
  | storeFront (node value : Option Node)
  | testNewFront (node : Option Node)
  | clearEnd (node : Option Node)
  | unlock (node : Option Node)

inductive Op (Message : Type) where
  | enqueue (queue : QueueName) (message : Message)
  | dequeue (queue : QueueName)
  | init
  | shutdown
  deriving DecidableEq

/-- What a call returns; a shutdown also with the messages it has cleared. -/
inductive Res (Message : Type) where
  | void
  | message (m : Option Message)
  | code (retcode : Retcode)
  | cleared (retcode : Retcode) (messages : List Message)
  deriving DecidableEq

/-- Where a thread is: outside, in `enqueue_message` up to the call of `connector_locked_enqueue`, in this call, in
`dequeue_message` up to the end of `connector_locked_dequeue`, after it, or about to return. -/
inductive Pc (Node Message : Type) where
  | idle
  | allocate (queue : QueueName) (message : Message)
  | initNext (queue : QueueName) (message : Message) (node : Option Node)
  | initContents (queue : QueueName) (message : Message) (node : Option Node)
  | enqueue (queue : QueueName) (message : Message) (node : Option Node) (pc : EnqueuePc Node)
  | dequeue (queue : QueueName) (pc : DequeuePc Node)
  | testNode (queue : QueueName) (node : Option Node)
  | loadContents (queue : QueueName) (node : Option Node)
  | freeNode (queue : QueueName) (node : Option Node) (message : Option Message)
  | done (op : Op Message) (res : Res Message)

structure State (ι Node Message : Type) where
  messageQueueState : UInt32
  queue : QueueName → Queue Node
  holder : QueueName → Option ι
  memory : Memory Node Message
  pc : ι → Pc Node Message
  history : List (Event ι (Op Message) (Res Message))

namespace State

def goto (s : State ι Node Message) (i : ι) (pc : Pc Node Message) : State ι Node Message :=
  { s with pc := Function.update s.pc i pc }

def setQueue (s : State ι Node Message) (name : QueueName) (queue : Queue Node) : State ι Node Message :=
  { s with queue := Function.update s.queue name queue }

def setHolder (s : State ι Node Message) (name : QueueName) (holder : Option ι) : State ι Node Message :=
  { s with holder := Function.update s.holder name holder }

def setMemory (s : State ι Node Message) (memory : Memory Node Message) : State ι Node Message :=
  { s with memory := memory }

end State

def connectorLockedEnqueue (s : State ι Node Message) (i : ι) (q : QueueName) (m : Message) (node : Option Node) :
    EnqueuePc Node → Option (State ι Node Message)
  | .lock => if s.holder q = none then some ((s.setHolder q (some i)).goto i (.enqueue q m node .clearNext)) else none
  | .clearNext => some ((s.setMemory (s.memory.storeNext node none)).goto i (.enqueue q m node .loadEnd))
  | .loadEnd => some (s.goto i (.enqueue q m node (.storeEnd (s.queue q).endNode)))
  | .storeEnd last =>
    some ((s.setQueue q { s.queue q with endNode := node }).goto i (.enqueue q m node (.testFront last)))
  | .testFront last =>
    some (s.goto i (.enqueue q m node (if (s.queue q).front = none then .loadNewEnd last else .testEnd last)))
  | .loadNewEnd last => some (s.goto i (.enqueue q m node (.storeFront last (s.queue q).endNode)))
  | .storeFront last value =>
    some ((s.setQueue q { s.queue q with front := value }).goto i (.enqueue q m node (.testEnd last)))
  | .testEnd last => some (s.goto i (.enqueue q m node (if last = none then .unlock else .link last)))
  | .link last => some ((s.setMemory (s.memory.storeNext last node)).goto i (.enqueue q m node .unlock))
  | .unlock => some ((s.setHolder q none).goto i (.done (.enqueue q m) .void))

def connectorLockedDequeue (s : State ι Node Message) (i : ι) (q : QueueName) :
    DequeuePc Node → Option (State ι Node Message)
  | .lock => if s.holder q = none then some ((s.setHolder q (some i)).goto i (.dequeue q .testFront)) else none
  | .testFront => some (s.goto i (.dequeue q (if (s.queue q).front = none then .unlock none else .loadFront)))
  | .loadFront => some (s.goto i (.dequeue q (.loadNext (s.queue q).front)))
  | .loadNext node =>
    some ((s.setMemory (s.memory.access node)).goto i (.dequeue q (.storeFront node (node.bind s.memory.next))))
  | .storeFront node value =>
    some ((s.setQueue q { s.queue q with front := value }).goto i (.dequeue q (.testNewFront node)))
  | .testNewFront node =>
    some (s.goto i (.dequeue q (if (s.queue q).front = none then .clearEnd node else .unlock node)))
  | .clearEnd node => some ((s.setQueue q { s.queue q with endNode := none }).goto i (.dequeue q (.unlock node)))
  | .unlock node => some ((s.setHolder q none).goto i (.testNode q node))

/-- The next statement of a thread. The answer is for `connector_allocate`, which may return NULL or any name that is
not allocated. -/
def statement (s : State ι Node Message) (i : ι) (answer : Option Node) : Option (State ι Node Message) :=
  match s.pc i with
  | .idle => none
  | .allocate q m =>
    match answer with
    | none => some (s.goto i (.initNext q m none))
    | some node =>
      if s.memory.allocated node then none else
        some ((s.setMemory { s.memory with allocated := Function.update s.memory.allocated node true }).goto i
          (.initNext q m (some node)))
  | .initNext q m node => some ((s.setMemory (s.memory.storeNext node none)).goto i (.initContents q m node))
  | .initContents q m node => some ((s.setMemory (s.memory.storeContents node m)).goto i (.enqueue q m node .lock))
  | .enqueue q m node pc => connectorLockedEnqueue s i q m node pc
  | .dequeue q pc => connectorLockedDequeue s i q pc
  | .testNode q node =>
    some (s.goto i (if node = none then .done (.dequeue q) (.message none) else .loadContents q node))
  | .loadContents q node =>
    some ((s.setMemory (s.memory.access node)).goto i (.freeNode q node (node.map s.memory.contents)))
  | .freeNode q node m => some ((s.setMemory (s.memory.connectorFree node)).goto i (.done (.dequeue q) (.message m)))
  | .done op res => some { s.goto i .idle with history := s.history ++ [.ret i op res] }

/-! ## Initialization and shutdown -/

structure Cleared (Node Message : Type) where
  queue : Queue Node
  memory : Memory Node Message
  messages : List Message

/-- The loop of `connector_locked_queue_clear` with `handle_message`. -/
def clearLoop (queue : Queue Node) (memory : Memory Node Message) : Nat → Option (Cleared Node Message)
  | 0 => if queue.front = none then some ⟨queue, memory, []⟩ else none
  | rounds + 1 =>
    match queue.front with
    | none => some ⟨queue, memory, []⟩
    | some front =>
      let queue := { queue with front := memory.next front }
      let memory := memory.access (some front)
      let message := memory.contents front
      (clearLoop queue (memory.connectorFree (some front)) rounds).map fun r =>
        { r with messages := message :: r.messages }

def connectorInitMessageQueueSubsystem (s : State ι Node Message) (i : ι) : State ι Node Message :=
  if s.messageQueueState = messageQueueShutdown then
    { s with
      messageQueueState := messageQueueInitialized
      queue := fun _ => connectorLockedQueueInit
      holder := fun _ => none
      history := s.history ++ [.call i .init, .ret i .init (.code .success)] }
  else { s with history := s.history ++ [.call i .init, .ret i .init (.code .error)] }

def connectorShutdownMessageQueueSubsystem (s : State ι Node Message) (i : ι) (rounds : Nat) :
    Option (State ι Node Message) :=
  if s.messageQueueState = messageQueueInitialized then
    (clearLoop (s.queue .inbound) s.memory rounds).bind fun inbound =>
    (clearLoop (s.queue .outbound) inbound.memory rounds).map fun outbound =>
      { s with
        messageQueueState := messageQueueShutdown
        queue := fun q => match q with
          | .inbound => inbound.queue
          | .outbound => outbound.queue
        memory := outbound.memory
        history := s.history ++
          [.call i .shutdown, .ret i .shutdown (.cleared .success (inbound.messages ++ outbound.messages))] }
  else some { s with history := s.history ++ [.call i .shutdown, .ret i .shutdown (.cleared .error [])] }

/-! ## Runs -/

inductive Label (ι Node Message : Type) where
  | enqueue (i : ι) (queue : QueueName) (message : Message)
  | acquire (i : ι) (queue : QueueName)
  | statement (i : ι) (answer : Option Node)
  | init (i : ι)
  | shutdown (i : ι) (rounds : Nat)

def isIdle : Pc Node Message → Bool
  | .idle => true
  | _ => false

/-- A thread that is in no call begins one, or a thread that is in a call executes a statement. -/
def next (s : State ι Node Message) : Label ι Node Message → Option (State ι Node Message)
  | .enqueue i q m =>
    if isIdle (s.pc i) then
      some { s.goto i (.allocate q m) with history := s.history ++ [.call i (.enqueue q m)] } else none
  | .acquire i q =>
    if isIdle (s.pc i) then
      some { s.goto i (.dequeue q .lock) with history := s.history ++ [.call i (.dequeue q)] } else none
  | .statement i answer => statement s i answer
  | .init i => if isIdle (s.pc i) then some (connectorInitMessageQueueSubsystem s i) else none
  | .shutdown i rounds => if isIdle (s.pc i) then connectorShutdownMessageQueueSubsystem s i rounds else none

def Starts (s : State ι Node Message) : Prop :=
  s.messageQueueState = messageQueueShutdown ∧ (∀ n, s.memory.allocated n = false) ∧ s.memory.faulted = false ∧
    (∀ q, s.holder q = none) ∧ (∀ i, s.pc i = .idle) ∧ s.history = []

def system (ι Node Message : Type) [DecidableEq ι] [DecidableEq Node] :
    StepSystem (State ι Node Message) (Label ι Node Message) :=
  StepSystem.ofNext Starts next

def isAllocating : Pc Node Message → Bool
  | .allocate _ _ => true
  | _ => false

/-- The queues are used while they are initialized, are shut down when nobody uses them, and memory does not run out. -/
def Permitted (s : State ι Node Message) : Label ι Node Message → Prop
  | .enqueue _ _ _ | .acquire _ _ => s.messageQueueState = messageQueueInitialized
  | .statement i answer => isAllocating (s.pc i) = true → answer ≠ none
  | .init _ => True
  | .shutdown _ _ => ∀ i, isIdle (s.pc i) = true

instance [Fintype ι] (s : State ι Node Message) : (a : Label ι Node Message) → Decidable (Permitted s a)
  | .enqueue _ _ _ | .acquire _ _ => inferInstanceAs (Decidable (_ = _))
  | .statement _ _ => inferInstanceAs (Decidable (_ → _))
  | .init _ => inferInstanceAs (Decidable True)
  | .shutdown _ _ => inferInstanceAs (Decidable (∀ _, _))

/-! ## What the queues are for -/

/-- The messages that wait in each queue. -/
structure Fifos (Message : Type) where
  initialized : Bool
  items : QueueName → List Message

/-- Two first-in-first-out lists. -/
def fifos (Message : Type) : Object (Fifos Message) (Op Message) (Res Message) where
  init := ⟨false, fun _ => []⟩
  apply x
    | .enqueue q m => ({ x with items := Function.update x.items q (x.items q ++ [m]) }, .void)
    | .dequeue q => ({ x with items := Function.update x.items q (x.items q).tail }, .message (x.items q).head?)
    | .init => if x.initialized then (x, .code .error) else (⟨true, fun _ => []⟩, .code .success)
    | .shutdown =>
      if x.initialized then (⟨false, fun _ => []⟩, .cleared .success (x.items .inbound ++ x.items .outbound))
      else (x, .cleared .error [])

end model

end SubstanceConnector.MessageQueue
