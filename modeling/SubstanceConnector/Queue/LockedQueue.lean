import SubstanceConnector.Library.LinkedChain
import SubstanceConnector.Library.StepSystem
import SubstanceConnector.Base

/-!
# The queue behind a lock

`locked_queue.c`: a linked list with a pointer to its first and one to its last node. Every operation holds the lock
from its first access to its last, so it is one step here. Nodes are names of memory; whoever holds a node that is not
in the queue may write to it at any time.

The queue stands for the list of nodes that were enqueued and have neither been dequeued nor cleared. A dequeue that
takes the last node resets both pointers, `connector_locked_queue_clear` resets only the first: afterwards an enqueue
writes into the node that was last before (`clear_never_ends`). In the runs that clear only an empty queue it is a FIFO
list, also when it is cleared with nodes in it (`first_in_first_out`).
-/

namespace SubstanceConnector.LockedQueue

section model
variable {Node : Type} [DecidableEq Node]

/-- `connector_locked_queue_t` without its lock. -/
structure Queue (Node : Type) where
  front : Option Node
  -- the source's `end`
  endNode : Option Node

/-- `connector_locked_queue_node_handler_fp`: what a handler does to the node it is given. -/
structure Handler (Node : Type) where
  run : Node → (Node → Option Node) → Node → Option Node
  frame : ∀ node next x, x ≠ node → run node next x = next x

def dummyHandler : Handler Node := ⟨fun _ next => next, fun _ _ _ _ => rfl⟩

def connectorLockedQueueInit : Queue Node := ⟨none, none⟩

/-- What an enqueue leaves: the queue, the `next` fields, and the nodes it wrote to. -/
structure Enqueued (Node : Type) where
  queue : Queue Node
  next : Node → Option Node
  written : List Node

def connectorLockedEnqueue (queue : Queue Node) (next : Node → Option Node) (node : Node) : Enqueued Node :=
  let next := Function.update next node none
  let last := queue.endNode
  let queue := { queue with endNode := some node }
  let queue := if queue.front = none then { queue with front := queue.endNode } else queue
  match last with
  | none => ⟨queue, next, [node]⟩
  | some last => ⟨queue, Function.update next last (some node), [node, last]⟩

def connectorLockedDequeue (queue : Queue Node) (next : Node → Option Node) : Option Node × Queue Node :=
  match queue.front with
  | none => (none, queue)
  | some node =>
    let queue := { queue with front := next node }
    (some node, if queue.front = none then { queue with endNode := none } else queue)

/-- What a clear leaves, and the nodes it gave to the handler. -/
structure Cleared (Node : Type) where
  queue : Queue Node
  next : Node → Option Node
  passed : List Node

/-- The loop of `connector_locked_queue_clear`; `none` if the rounds do not suffice. -/
def clearLoop (handler : Handler Node) (queue : Queue Node) (next : Node → Option Node) :
    Nat → Option (Cleared Node)
  | 0 => if queue.front = none then some ⟨queue, next, []⟩ else none
  | rounds + 1 =>
    match queue.front with
    | none => some ⟨queue, next, []⟩
    | some front =>
      (clearLoop handler { queue with front := next front } (handler.run front next) rounds).map fun r =>
        { r with passed := front :: r.passed }

def ConnectorLockedQueueClear (handler : Handler Node) (queue : Queue Node) (next : Node → Option Node)
    (r : Cleared Node) : Prop :=
  ∃ rounds, clearLoop handler queue next rounds = some r

/-! ## Sequences of calls -/

/-- The queue, the `next` fields of all nodes, and the list the queue is to stand for. -/
structure State (Node : Type) where
  queue : Queue Node
  next : Node → Option Node
  items : List Node

inductive Call (Node : Type) where
  | enqueue (node : Node)
  | dequeue
  | clear
  | touch (node : Node) (value : Option Node)

/-- A node is enqueued, or written to by somebody else, only when it is not in the queue. -/
def Permitted (s : State Node) : Call Node → Prop
  | .enqueue node | .touch node _ => node ∉ s.items
  | .dequeue | .clear => True

def Step (handler : Handler Node) (s : State Node) : Call Node → State Node → Prop
  | .enqueue node, s' =>
    let r := connectorLockedEnqueue s.queue s.next node
    s' = ⟨r.queue, r.next, s.items ++ [node]⟩
  | .dequeue, s' => s' = ⟨(connectorLockedDequeue s.queue s.next).2, s.next, s.items.tail⟩
  | .clear, s' => ∃ r, ConnectorLockedQueueClear handler s.queue s.next r ∧ s' = ⟨r.queue, r.next, []⟩
  | .touch node value, s' => s' = { s with next := Function.update s.next node value }

def system (handler : Handler Node) : StepSystem (State Node) (Call Node) where
  init s := s.queue = connectorLockedQueueInit ∧ s.items = []
  step s a s' := Permitted s a ∧ Step handler s a s'

/-- The pointers lead from `front` through the nodes of the list, and `end` is the last of them. -/
structure Consistent (s : State Node) : Prop where
  chain : Linked s.next s.queue.front s.items
  endNode : s.queue.endNode = s.items.getLast?

/-- What each call has to do: a dequeue returns the first node or NULL, a clear ends and passes every node on in
order, an enqueue writes only to its own node and to nodes of the queue. -/
def Answers (handler : Handler Node) (s : State Node) : Call Node → Prop
  | .enqueue node => ∀ x ∈ (connectorLockedEnqueue s.queue s.next node).written, x = node ∨ x ∈ s.items
  | .dequeue => (connectorLockedDequeue s.queue s.next).1 = s.items.head?
  | .clear => ∃ r, ConnectorLockedQueueClear handler s.queue s.next r ∧ r.passed = s.items ∧ r.queue.front = none
  | .touch _ _ => True

/-- The queue is its list. -/
structure Fifo (handler : Handler Node) (s : State Node) : Prop where
  consistent : Consistent s
  nodup : s.items.Nodup
  front_iff : s.queue.front = none ↔ s.queue.endNode = none
  answers : ∀ a, Permitted s a → Answers handler s a

/-- A clear finds the queue empty. -/
def ClearsNothing (s : State Node) (a : Call Node) : Prop := a = .clear → s.items = []

end model

/-! ## One call at a time -/

section calls
variable {Node : Type} {handler : Handler Node} {queue : Queue Node} {next : Node → Option Node} {items : List Node}
  {s : State Node}

theorem Consistent.front (h : Consistent s) : s.queue.front = s.items.head? := h.chain.head?_eq.symm

theorem Consistent.front_none_iff (h : Consistent s) : s.queue.front = none ↔ s.queue.endNode = none := by
  rw [h.front, h.endNode, List.head?_eq_none_iff, List.getLast?_eq_none_iff]

theorem Consistent.dequeue (h : Consistent s) :
    Consistent ⟨(connectorLockedDequeue s.queue s.next).2, s.next, s.items.tail⟩ ∧
      (connectorLockedDequeue s.queue s.next).1 = s.items.head? := by
  obtain ⟨⟨front, endNode⟩, next, items⟩ := s
  obtain ⟨hchain, hend⟩ := h
  obtain rfl : endNode = items.getLast? := hend
  cases items with
  | nil =>
    obtain rfl : front = none := hchain
    exact ⟨⟨rfl, rfl⟩, rfl⟩
  | cons node rest =>
    obtain ⟨hfront, hrest⟩ := hchain
    obtain rfl : front = some node := hfront
    refine ⟨?_, rfl⟩
    cases rest with
    | nil =>
      -- the node was the last one
      have hnone : next node = none := hrest
      simp only [connectorLockedDequeue, if_pos hnone]
      exact ⟨hrest, rfl⟩
    | cons node' rest' =>
      have hsome : next node ≠ none := by
        rw [show next node = some node' from hrest.1]
        exact Option.some_ne_none node'
      simp only [connectorLockedDequeue, if_neg hsome]
      exact ⟨hrest, List.getLast?_cons_cons⟩

/-- The loop takes a round for each node. A handler has only the node it was given, which is off the chain by then. -/
theorem clearLoop_of_linked (handler : Handler Node) (h : Linked next queue.front items) :
    ∃ next', clearLoop handler queue next items.length = some ⟨{ queue with front := none }, next', items⟩ := by
  induction items generalizing queue next with
  | nil =>
    obtain ⟨front, endNode⟩ := queue
    obtain rfl : front = none := h
    exact ⟨next, rfl⟩
  | cons node rest ih =>
    have hnodup := h.nodup
    obtain ⟨front, endNode⟩ := queue
    obtain ⟨hfront, hrest⟩ := h
    obtain rfl : front = some node := hfront
    have hkept : Linked (handler.run node next) (next node) rest := by
      refine hrest.congr fun x hx => handler.frame node next x ?_
      rintro rfl
      exact (List.nodup_cons.mp hnodup).1 hx
    obtain ⟨next', hloop⟩ := @ih ⟨next node, endNode⟩ (handler.run node next) hkept
    refine ⟨next', ?_⟩
    simp only [List.length_cons, clearLoop, hloop]
    rfl

/-- More rounds do not change the outcome. -/
theorem clearLoop_unique {m n : Nat} {r r' : Cleared Node} (h : clearLoop handler queue next m = some r)
    (h' : clearLoop handler queue next n = some r') : r = r' := by
  induction m generalizing queue next n r r' with
  | zero =>
    obtain ⟨hfront, hr⟩ := Option.ite_none_right_eq_some.mp h
    obtain ⟨front, endNode⟩ := queue
    obtain rfl : front = none := hfront
    cases n with
    | zero => exact Option.some.inj (hr.symm.trans h')
    | succ n => exact Option.some.inj (hr.symm.trans h')
  | succ m ih =>
    obtain ⟨front, endNode⟩ := queue
    cases front with
    | none =>
      cases n with
      | zero => exact Option.some.inj (h.symm.trans h')
      | succ n => exact Option.some.inj (h.symm.trans h')
    | some node =>
      cases n with
      | zero => cases h'
      | succ n =>
        obtain ⟨rest, hrest, rfl⟩ := Option.map_eq_some_iff.mp h
        obtain ⟨rest', hrest', rfl⟩ := Option.map_eq_some_iff.mp h'
        rw [ih hrest hrest']

theorem Consistent.clear (h : Consistent s) (handler : Handler Node) :
    ∃ next', ConnectorLockedQueueClear handler s.queue s.next ⟨{ s.queue with front := none }, next', s.items⟩ := by
  obtain ⟨next', hloop⟩ := clearLoop_of_linked handler h.chain
  exact ⟨next', s.items.length, hloop⟩

variable [DecidableEq Node]

theorem Consistent.enqueue (h : Consistent s) {node : Node} (hnode : node ∉ s.items) :
    Consistent ⟨(connectorLockedEnqueue s.queue s.next node).queue, (connectorLockedEnqueue s.queue s.next node).next,
        s.items ++ [node]⟩ ∧
      ∀ x ∈ (connectorLockedEnqueue s.queue s.next node).written, x = node ∨ x ∈ s.items := by
  obtain ⟨⟨front, endNode⟩, next, items⟩ := s
  obtain ⟨hchain, hend⟩ := h
  obtain rfl : endNode = items.getLast? := hend
  cases hlast : items.getLast? with
  | none =>
    obtain rfl : items = [] := List.getLast?_eq_none_iff.mp hlast
    obtain rfl : front = none := hchain
    refine ⟨⟨⟨rfl, ?_⟩, rfl⟩, fun x hx => .inl (List.mem_singleton.mp hx)⟩
    exact Function.update_self node none next
  | some last =>
    have hmem : last ∈ items := List.mem_of_getLast? hlast
    have hfront : front ≠ none := by
      rw [← (show items.head? = front from hchain.head?_eq), ne_eq, List.head?_eq_none_iff]
      exact List.ne_nil_of_mem hmem
    simp only [connectorLockedEnqueue, if_neg hfront]
    refine ⟨⟨hchain.concat hlast hnode, by simp⟩, fun x hx => ?_⟩
    rcases List.mem_pair.mp hx with rfl | rfl
    · exact .inl rfl
    · exact .inr hmem

theorem Consistent.touch (h : Consistent s) {node : Node} (hnode : node ∉ s.items) (value : Option Node) :
    Consistent { s with next := Function.update s.next node value } := by
  refine ⟨h.chain.congr fun x hx => Function.update_of_ne ?_ _ _, h.endNode⟩
  rintro rfl
  exact hnode hx

theorem Consistent.answers (h : Consistent s) {a : Call Node} (ha : Permitted s a) : Answers handler s a := by
  cases a with
  | enqueue node => exact (h.enqueue ha).2
  | dequeue => exact h.dequeue.2
  | clear =>
    obtain ⟨next', hclear⟩ := h.clear handler
    exact ⟨_, hclear, rfl, rfl⟩
  | touch node value => trivial

omit [DecidableEq Node] in
theorem clearsNothing_of_ne {a : Call Node} (h : a ≠ .clear) : ClearsNothing s a := fun hclear => absurd hclear h

/-- A consistent queue stays consistent unless it is cleared with nodes in it. -/
theorem Consistent.step_iff (h : Consistent s) {a : Call Node} {s' : State Node} (hstep : (system handler).step s a s') :
    Consistent s' ↔ ClearsNothing s a := by
  obtain ⟨ha, hstep⟩ := hstep
  cases a with
  | enqueue node =>
    obtain rfl := hstep
    exact ⟨fun _ => clearsNothing_of_ne (by simp), fun _ => (h.enqueue ha).1⟩
  | dequeue =>
    obtain rfl := hstep
    exact ⟨fun _ => clearsNothing_of_ne (by simp), fun _ => h.dequeue.1⟩
  | clear =>
    obtain ⟨r, ⟨rounds, hloop⟩, rfl⟩ := hstep
    obtain ⟨next', rounds', hloop'⟩ := h.clear handler
    obtain rfl := clearLoop_unique hloop hloop'
    refine ⟨fun hconsistent _ => ?_, fun hnothing => ⟨rfl, ?_⟩⟩
    · -- the pointer to the last node is still there
      have hend : s.queue.endNode = none := hconsistent.endNode
      rw [h.endNode] at hend
      exact List.getLast?_eq_none_iff.mp hend
    · show s.queue.endNode = none
      rw [h.endNode, hnothing rfl]
      rfl
  | touch node value =>
    obtain rfl := hstep
    exact ⟨fun _ => clearsNothing_of_ne (by simp), fun _ => h.touch ha value⟩

end calls

/-! ## Runs -/

/-- **A FIFO list.** In every run that clears only an empty queue the queue is its list, and every call answers
accordingly, a clear with nodes in the queue included; such a clear is the only call that leaves it inconsistent. -/
theorem first_in_first_out {Node : Type} [DecidableEq Node] (handler : Handler Node) {s : State Node}
    (h : ((system handler).guarded ClearsNothing).Reachable s) :
    Fifo handler s ∧ ∀ a s', (system handler).step s a s' → (Consistent s' ↔ ClearsNothing s a) := by
  have hs : Consistent s := by
    refine h.guarded_invariant (P := Consistent) ?_ fun s a s' hs hnothing hstep => (hs.step_iff hstep).mpr hnothing
    rintro ⟨queue, next, items⟩ ⟨hqueue, hitems⟩
    obtain rfl : queue = connectorLockedQueueInit := hqueue
    obtain rfl : items = [] := hitems
    exact ⟨rfl, rfl⟩
  exact ⟨⟨hs, hs.chain.nodup, hs.front_none_iff, fun a ha => hs.answers ha⟩, fun a s' hstep => hs.step_iff hstep⟩

/-- Two nodes are enqueued, the first is dequeued and enqueued again. -/
theorem first_in_first_out_twice :
    ∃ s : State Nat, s.items = [1, 0] ∧ Fifo dummyHandler s := by
  let S := (system (dummyHandler : Handler Nat)).guarded ClearsNothing
  have h0 : S.Reachable ⟨connectorLockedQueueInit, fun _ => none, []⟩ := .init ⟨rfl, rfl⟩
  have h1 : S.Reachable ⟨⟨some 0, some 0⟩, _, [0]⟩ :=
    .step h0 (a := .enqueue 0) ⟨clearsNothing_of_ne (by simp), by simp [Permitted], rfl⟩
  have h2 : S.Reachable ⟨⟨some 0, some 1⟩, _, [0, 1]⟩ :=
    .step h1 (a := .enqueue 1) ⟨clearsNothing_of_ne (by simp), by simp [Permitted], rfl⟩
  have h3 : S.Reachable ⟨⟨some 1, some 1⟩, _, [1]⟩ :=
    .step h2 (a := .dequeue) ⟨clearsNothing_of_ne (by simp), trivial, rfl⟩
  have h4 : S.Reachable ⟨⟨some 1, some 0⟩, _, [1, 0]⟩ :=
    .step h3 (a := .enqueue 0) ⟨clearsNothing_of_ne (by simp), by simp [Permitted], rfl⟩
  exact ⟨_, rfl, (first_in_first_out dummyHandler h4).1⟩

/-- A node that is its own successor. -/
theorem clearLoop_cycle {next : Nat → Option Nat} {endNode : Option Nat} (hcycle : next 0 = some 0) (rounds : Nat) :
    clearLoop dummyHandler ⟨some 0, endNode⟩ next rounds = none := by
  induction rounds with
  | zero => rfl
  | succ rounds ih =>
    simp only [clearLoop, hcycle]
    rw [show (dummyHandler : Handler Nat).run 0 next = next from rfl, ih]
    rfl

/-- A node is enqueued, cleared and enqueued again: the next clear does not end. -/
theorem clear_never_ends :
    ¬ ∀ s : State Nat, (system dummyHandler).Reachable s → Fifo dummyHandler s := by
  intro hall
  let S := system (dummyHandler : Handler Nat)
  have h0 : S.Reachable ⟨connectorLockedQueueInit, fun _ => none, []⟩ := .init ⟨rfl, rfl⟩
  have h1 : S.Reachable ⟨⟨some 0, some 0⟩, _, [0]⟩ :=
    .step h0 (a := .enqueue 0) ⟨by simp [Permitted], rfl⟩
  have h2 : S.Reachable ⟨⟨none, some 0⟩, _, []⟩ :=
    .step h1 (a := .clear) ⟨trivial, _, ⟨1, rfl⟩, rfl⟩
  have h3 : S.Reachable ⟨⟨some 0, some 0⟩, _, [0]⟩ :=
    .step h2 (a := .enqueue 0) ⟨by simp [Permitted], rfl⟩
  obtain ⟨r, ⟨rounds, hloop⟩, -⟩ := (hall _ h3).answers .clear trivial
  rw [clearLoop_cycle (by simp [connectorLockedEnqueue]) rounds] at hloop
  cases hloop

end SubstanceConnector.LockedQueue
