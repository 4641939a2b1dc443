import Mathlib.Data.Fintype.Basic
import SubstanceConnector.Queue.MessageQueue

/-!
# The message queues are first-in-first-out lists

Every node that is allocated has a place: in one of the queues, or with the thread that has just taken it from
`connector_allocate` or out of a queue. A thread that holds the lock of a queue is the only one to touch its nodes;
`EnqueueMid` and `DequeueMid` say how far it has got with them. An enqueue and a dequeue take effect when they release
the lock.
-/

namespace SubstanceConnector.MessageQueue

open Linearization LockedQueue Atomics

section assertions
variable {Node Message : Type}

/-- The node that is with the thread. -/
def owns : Pc Node Message → Option Node
  | .initNext _ _ node | .initContents _ _ node | .enqueue _ _ node _ | .testNode _ node | .loadContents _ node
  | .freeNode _ node _ => node
  | _ => none

/-- The queue whose lock the thread holds. -/
def inside : Pc Node Message → Option QueueName
  | .enqueue q _ _ pc => match pc with
    | .lock => none
    | _ => some q
  | .dequeue q pc => match pc with
    | .lock => none
    | _ => some q
  | _ => none

def phase (contents : Node → Message) : Pc Node Message → Phase (Op Message) (Res Message)
  | .idle => .idle
  | .allocate q m | .initNext q m _ | .initContents q m _ | .enqueue q m _ _ => .called (.enqueue q m)
  | .dequeue q _ => .called (.dequeue q)
  | .testNode q node | .loadContents q node => .decided (.dequeue q) (.message (node.map contents))
  | .freeNode q _ m => .decided (.dequeue q) (.message m)
  | .done op res => .decided op res

/-- What a thread knows of the node that is with it. -/
def Local (contents : Node → Message) : Pc Node Message → Prop
  | .initNext _ _ node | .initContents _ _ node | .loadContents _ node | .freeNode _ node _ => node ≠ none
  | .enqueue _ m node _ => ∃ n, node = some n ∧ contents n = m
  | _ => True

/-- The chain of the queue before its front is tested. -/
structure Appending (Q : Queue Node) (next : Node → Option Node) (items : List Node) (node last : Option Node) :
    Prop where
  chain : Linked next items.head? items
  endNode : Q.endNode = node
  terminal : node.bind next = none
  last : last = items.getLast?

def EnqueueMid (Q : Queue Node) (next : Node → Option Node) (items : List Node) (node : Option Node) :
    EnqueuePc Node → Prop
  | .lock => True
  | .clearNext => Consistent ⟨Q, next, items⟩
  | .loadEnd => Consistent ⟨Q, next, items⟩ ∧ node.bind next = none
  | .storeEnd last => Consistent ⟨Q, next, items⟩ ∧ node.bind next = none ∧ last = Q.endNode
  | .testFront last => Appending Q next items node last ∧ Q.front = items.head?
  | .loadNewEnd last => Appending Q next items node last ∧ items = []
  | .storeFront last value => Appending Q next items node last ∧ items = [] ∧ value = node
  | .testEnd last => Appending Q next items node last ∧ Q.front = items.head?.or node
  | .link last => Appending Q next items node last ∧ Q.front = items.head?.or node ∧ last ≠ none
  | .unlock => ∀ n, node = some n → Consistent ⟨Q, next, items ++ [n]⟩

/-- The first node is off the queue, which still ends where it did. -/
structure Taking (Q : Queue Node) (next : Node → Option Node) (items : List Node) (node : Option Node) : Prop where
  first : node = items.head?
  chain : Linked next node items
  rest : Linked next Q.front items.tail

def DequeueMid (Q : Queue Node) (next : Node → Option Node) (items : List Node) : DequeuePc Node → Prop
  | .lock => True
  | .testFront => Consistent ⟨Q, next, items⟩
  | .loadFront => Consistent ⟨Q, next, items⟩ ∧ items ≠ []
  | .loadNext node => Consistent ⟨Q, next, items⟩ ∧ items ≠ [] ∧ node = items.head?
  | .storeFront node value => Consistent ⟨Q, next, items⟩ ∧ items ≠ [] ∧ node = items.head? ∧ value = node.bind next
  | .testNewFront node => Taking Q next items node ∧ Q.endNode = items.getLast? ∧ items ≠ []
  | .clearEnd node => Taking Q next items node ∧ items.tail = []
  | .unlock node => Taking Q next items node ∧ Q.endNode = items.tail.getLast?

def Mid (Q : Queue Node) (next : Node → Option Node) (items : List Node) : Pc Node Message → Prop
  | .enqueue _ _ node pc => EnqueueMid Q next items node pc
  | .dequeue _ pc => DequeueMid Q next items pc
  | _ => True

variable {Q : Queue Node} {next next' : Node → Option Node} {items : List Node} {node : Option Node}
  {contents contents' : Node → Message} {pc : Pc Node Message}

/-! ## Writes elsewhere -/

theorem consistent_congr (h : Consistent ⟨Q, next, items⟩) (hitems : ∀ n ∈ items, next' n = next n) :
    Consistent ⟨Q, next', items⟩ := ⟨h.chain.congr hitems, h.endNode⟩

theorem bind_congr (hnode : ∀ n, node = some n → next' n = next n) : node.bind next' = node.bind next := by
  cases node with
  | none => rfl
  | some n => exact hnode n rfl

theorem Appending.congr {last : Option Node} (h : Appending Q next items node last)
    (hitems : ∀ n ∈ items, next' n = next n) (hnode : ∀ n, node = some n → next' n = next n) :
    Appending Q next' items node last :=
  ⟨h.chain.congr hitems, h.endNode, (bind_congr hnode).trans h.terminal, h.last⟩

theorem Taking.congr (h : Taking Q next items node) (hitems : ∀ n ∈ items, next' n = next n) :
    Taking Q next' items node :=
  ⟨h.first, h.chain.congr hitems, h.rest.congr fun n hn => hitems n (List.mem_of_mem_tail hn)⟩

theorem EnqueueMid.congr {pc : EnqueuePc Node} (h : EnqueueMid Q next items node pc)
    (hitems : ∀ n ∈ items, next' n = next n) (hnode : ∀ n, node = some n → next' n = next n) :
    EnqueueMid Q next' items node pc := by
  cases pc with
  | lock => trivial
  | clearNext => exact consistent_congr h hitems
  | loadEnd => exact ⟨consistent_congr h.1 hitems, (bind_congr hnode).trans h.2⟩
  | storeEnd last => exact ⟨consistent_congr h.1 hitems, (bind_congr hnode).trans h.2.1, h.2.2⟩
  | testFront last => exact ⟨h.1.congr hitems hnode, h.2⟩
  | loadNewEnd last => exact ⟨h.1.congr hitems hnode, h.2⟩
  | storeFront last value => exact ⟨h.1.congr hitems hnode, h.2⟩
  | testEnd last => exact ⟨h.1.congr hitems hnode, h.2⟩
  | link last => exact ⟨h.1.congr hitems hnode, h.2⟩
  | unlock =>
    intro n hn
    refine consistent_congr (h n hn) fun x hx => ?_
    rcases List.mem_append.mp hx with hx | hx
    · exact hitems x hx
    · exact hnode x (by rw [hn, List.mem_singleton.mp hx])

theorem DequeueMid.congr {pc : DequeuePc Node} (h : DequeueMid Q next items pc)
    (hitems : ∀ n ∈ items, next' n = next n) : DequeueMid Q next' items pc := by
  cases pc with
  | lock => trivial
  | testFront => exact consistent_congr h hitems
  | loadFront => exact ⟨consistent_congr h.1 hitems, h.2⟩
  | loadNext node => exact ⟨consistent_congr h.1 hitems, h.2⟩
  | storeFront node value =>
    obtain ⟨hconsistent, hne, hnode, hvalue⟩ := h
    refine ⟨consistent_congr hconsistent hitems, hne, hnode, hvalue.trans (bind_congr fun n hn => ?_).symm⟩
    exact hitems n (List.mem_of_mem_head? (hnode ▸ hn))
  | testNewFront node => exact ⟨h.1.congr hitems, h.2⟩
  | clearEnd node => exact ⟨h.1.congr hitems, h.2⟩
  | unlock node => exact ⟨h.1.congr hitems, h.2⟩

theorem Mid.congr (h : Mid Q next items pc) (hitems : ∀ n ∈ items, next' n = next n)
    (howned : ∀ n, owns pc = some n → next' n = next n) : Mid Q next' items pc := by
  cases pc with
  | enqueue q m node pc => exact EnqueueMid.congr h hitems howned
  | dequeue q pc => exact DequeueMid.congr h hitems
  | _ => trivial

theorem Local.congr (h : Local contents pc) (howned : ∀ n, owns pc = some n → contents' n = contents n) :
    Local contents' pc := by
  cases pc with
  | enqueue q m node pc =>
    obtain ⟨n, hn, hm⟩ := h
    exact ⟨n, hn, (howned n hn).trans hm⟩
  | _ => exact h

theorem phase_congr (howned : ∀ n, owns pc = some n → contents' n = contents n) :
    phase contents' pc = phase contents pc := by
  have hmap (node : Option Node) (h : ∀ n, node = some n → contents' n = contents n) :
      node.map contents' = node.map contents := by
    cases node with
    | none => rfl
    | some n => exact congrArg some (h n rfl)
  cases pc with
  | testNode q node => simp only [phase, hmap node howned]
  | loadContents q node => simp only [phase, hmap node howned]
  | _ => rfl

end assertions

/-! ## The statements under the lock -/

section statements
variable {ι Node Message : Type} [DecidableEq ι] [DecidableEq Node] {s s' : State ι Node Message} {i : ι}
  {q : QueueName} {m : Message} {n : Node} {items : List Node} {μ : Memory Node Message}

omit [DecidableEq Node] in
theorem access_eq (hsound : μ.faulted = false) (hn : μ.allocated n = true) : μ.access (some n) = μ := by
  obtain ⟨next, contents, allocated, faulted⟩ := μ
  obtain rfl : faulted = false := hsound
  have hn : allocated n = true := hn
  simp [Memory.access, hn]

theorem storeNext_eq (hsound : μ.faulted = false) (hn : μ.allocated n = true) (value : Option Node) :
    μ.storeNext (some n) value = { μ with next := Function.update μ.next n value } := by
  rw [Memory.storeNext, access_eq hsound hn]

theorem storeContents_eq (hsound : μ.faulted = false) (hn : μ.allocated n = true) (m : Message) :
    μ.storeContents (some n) m = { μ with contents := Function.update μ.contents n m } := by
  rw [Memory.storeContents, access_eq hsound hn]

/-- What a statement of the thread that holds the lock may do: change the fields of the queue, and the `next` of its
own node and of those in the queue. -/
def Within (s s' : State ι Node Message) (i : ι) (q : QueueName) (items : List Node) (own : Option Node)
    (pc' : Pc Node Message) : Prop :=
  ∃ Q' next', s' = { s with
      queue := Function.update s.queue q Q'
      memory := { s.memory with next := next' }
      pc := Function.update s.pc i pc' } ∧
    (∀ x, next' x ≠ s.memory.next x → own = some x ∨ x ∈ items) ∧ Mid Q' next' items pc'

omit [DecidableEq Node] in
theorem Within.goto {own : Option Node} {pc' : Pc Node Message} (h : Mid (s.queue q) s.memory.next items pc') :
    Within s (s.goto i pc') i q items own pc' := by
  refine ⟨s.queue q, s.memory.next, ?_, fun x hx => absurd rfl hx, h⟩
  rw [Function.update_eq_self]
  rfl

omit [DecidableEq Node] in
theorem Within.setQueue {own : Option Node} {Q' : Queue Node} {pc' : Pc Node Message}
    (h : Mid Q' s.memory.next items pc') : Within s ((s.setQueue q Q').goto i pc') i q items own pc' :=
  ⟨Q', s.memory.next, rfl, fun _ hx => absurd rfl hx, h⟩

theorem Within.storeNext {own : Option Node} {value : Option Node} {pc' : Pc Node Message}
    (hsound : s.memory.faulted = false) (hn : s.memory.allocated n = true) (hmine : own = some n ∨ n ∈ items)
    (h : Mid (s.queue q) (Function.update s.memory.next n value) items pc') :
    Within s ((s.setMemory (s.memory.storeNext (some n) value)).goto i pc') i q items own pc' := by
  refine ⟨s.queue q, Function.update s.memory.next n value, ?_, fun x hx => ?_, h⟩
  · rw [storeNext_eq hsound hn, Function.update_eq_self]
    rfl
  · by_cases hxn : x = n
    · rw [hxn]
      exact hmine
    · exact absurd (Function.update_of_ne hxn value s.memory.next) hx

omit [DecidableEq ι] [DecidableEq Node] in
/-- The first node of an empty queue is its front and its end. -/
theorem consistent_single {Q : Queue Node} {next : Node → Option Node} {last : Option Node}
    (h : Appending Q next items (some n) last) (hfront : Q.front = items.head?.or (some n)) (hlast : last = none) :
    Consistent ⟨Q, next, items ++ [n]⟩ := by
  obtain rfl : items = [] := List.getLast?_eq_none_iff.mp (h.last.symm.trans hlast)
  exact ⟨⟨hfront, h.terminal⟩, h.endNode⟩

omit [DecidableEq ι] in
/-- The last node leads to the new one. -/
theorem consistent_linked {Q : Queue Node} {next : Node → Option Node} {last : Node}
    (h : Appending Q next items (some n) (some last)) (hfront : Q.front = items.head?.or (some n)) (hn : n ∉ items) :
    Consistent ⟨Q, Function.update next last (some n), items ++ [n]⟩ := by
  have hmem : last ∈ items := List.mem_of_getLast? h.last.symm
  have hconcat := h.chain.concat h.last.symm hn
  have hsame : Function.update next n none = next := Function.update_eq_self_iff.mpr h.terminal.symm
  rw [hsame] at hconcat
  have hhead : Q.front = items.head? := by
    cases items with
    | nil => cases hmem
    | cons a rest => exact hfront
  exact ⟨hhead ▸ hconcat, by simp [h.endNode]⟩

theorem enqueue_statement {pc : EnqueuePc Node} (hlock : pc ≠ .lock) (hunlock : pc ≠ .unlock)
    (hmid : EnqueueMid (s.queue q) s.memory.next items (some n) pc) (hsound : s.memory.faulted = false)
    (hn : n ∉ items) (hallocated : s.memory.allocated n = true) (hall : ∀ x ∈ items, s.memory.allocated x = true)
    (h : connectorLockedEnqueue s i q m (some n) pc = some s') :
    ∃ pc' ≠ .lock, Within s s' i q items (some n) (.enqueue q m (some n) pc') := by
  cases pc with
  | lock => exact absurd rfl hlock
  | unlock => exact absurd rfl hunlock
  | clearNext =>
    obtain rfl := Option.some.inj h
    refine ⟨.loadEnd, by simp, .storeNext hsound hallocated (.inl rfl) ⟨consistent_congr hmid fun x hx => ?_, ?_⟩⟩
    · exact Function.update_of_ne (ne_of_mem_of_not_mem hx hn) _ _
    · exact Function.update_self ..
  | loadEnd =>
    obtain rfl := Option.some.inj h
    exact ⟨.storeEnd (s.queue q).endNode, by simp, .goto ⟨hmid.1, hmid.2, rfl⟩⟩
  | storeEnd last =>
    obtain rfl := Option.some.inj h
    obtain ⟨hconsistent, hterminal, hlast⟩ := hmid
    have hhead := hconsistent.chain.head?_eq
    refine ⟨.testFront last, by simp, .setQueue ⟨⟨?_, rfl, hterminal, hlast.trans hconsistent.endNode⟩, hhead.symm⟩⟩
    exact hhead.symm ▸ hconsistent.chain
  | testFront last =>
    obtain rfl := Option.some.inj h
    obtain ⟨happending, hfront⟩ := hmid
    by_cases hnone : (s.queue q).front = none
    · rw [if_pos hnone]
      exact ⟨.loadNewEnd last, by simp, .goto ⟨happending, List.head?_eq_none_iff.mp (hfront.symm.trans hnone)⟩⟩
    · rw [if_neg hnone]
      refine ⟨.testEnd last, by simp, .goto ⟨happending, ?_⟩⟩
      rw [Option.or_of_isSome (Option.isSome_iff_ne_none.mpr (hfront ▸ hnone)), hfront]
  | loadNewEnd last =>
    obtain rfl := Option.some.inj h
    exact ⟨.storeFront last _, by simp, .goto ⟨hmid.1, hmid.2, hmid.1.endNode⟩⟩
  | storeFront last value =>
    obtain rfl := Option.some.inj h
    obtain ⟨⟨hchain, hend, hterminal, hlast⟩, rfl, rfl⟩ := hmid
    exact ⟨.testEnd last, by simp, .setQueue ⟨⟨hchain, hend, hterminal, hlast⟩, rfl⟩⟩
  | testEnd last =>
    obtain rfl := Option.some.inj h
    obtain ⟨happending, hfront⟩ := hmid
    by_cases hnone : last = none
    · rw [if_pos hnone]
      refine ⟨.unlock, by simp, .goto fun x hx => ?_⟩
      obtain rfl := Option.some.inj hx
      exact consistent_single happending hfront hnone
    · rw [if_neg hnone]
      exact ⟨.link last, by simp, .goto ⟨happending, hfront, hnone⟩⟩
  | link last =>
    obtain rfl := Option.some.inj h
    obtain ⟨happending, hfront, hsome⟩ := hmid
    obtain ⟨l, rfl⟩ := Option.ne_none_iff_exists'.mp hsome
    have hmem : l ∈ items := List.mem_of_getLast? happending.last.symm
    refine ⟨.unlock, by simp, .storeNext hsound (hall l hmem) (.inr hmem) fun x hx => ?_⟩
    obtain rfl := Option.some.inj hx
    exact consistent_linked happending hfront hn

omit [DecidableEq Node] in
theorem dequeue_statement {pc : DequeuePc Node} (hlock : pc ≠ .lock) (hunlock : ∀ node, pc ≠ .unlock node)
    (hmid : DequeueMid (s.queue q) s.memory.next items pc) (hsound : s.memory.faulted = false)
    (hall : ∀ x ∈ items, s.memory.allocated x = true) (h : connectorLockedDequeue s i q pc = some s') :
    ∃ pc' ≠ .lock, Within s s' i q items none (.dequeue q pc') := by
  cases pc with
  | lock => exact absurd rfl hlock
  | unlock node => exact absurd rfl (hunlock node)
  | testFront =>
    obtain rfl := Option.some.inj h
    have hmid : Consistent ⟨s.queue q, s.memory.next, items⟩ := hmid
    have hhead := hmid.chain.head?_eq
    by_cases hnone : (s.queue q).front = none
    · obtain rfl : items = [] := List.head?_eq_none_iff.mp (hhead.trans hnone)
      rw [if_pos hnone]
      exact ⟨.unlock none, by simp, .goto ⟨⟨rfl, rfl, hnone⟩, hmid.endNode⟩⟩
    · rw [if_neg hnone]
      refine ⟨.loadFront, by simp, .goto ⟨hmid, ?_⟩⟩
      rintro rfl
      exact hnone hhead.symm
  | loadFront =>
    obtain rfl := Option.some.inj h
    exact ⟨.loadNext _, by simp, .goto ⟨hmid.1, hmid.2, hmid.1.chain.head?_eq.symm⟩⟩
  | loadNext node =>
    obtain rfl := Option.some.inj h
    obtain ⟨hconsistent, hne, hnode⟩ := hmid
    obtain ⟨first, rest, rfl⟩ := List.exists_cons_of_ne_nil hne
    obtain rfl : node = some first := hnode
    rw [access_eq hsound (hall first List.mem_cons_self)]
    exact ⟨.storeFront (some first) _, by simp, .goto ⟨hconsistent, hne, rfl, rfl⟩⟩
  | storeFront node value =>
    obtain rfl := Option.some.inj h
    obtain ⟨hconsistent, hne, hnode, rfl⟩ := hmid
    obtain ⟨first, rest, rfl⟩ := List.exists_cons_of_ne_nil hne
    obtain rfl : node = some first := hnode
    have hchain := hconsistent.chain
    refine ⟨.testNewFront (some first), by simp, .setQueue ⟨⟨rfl, ⟨rfl, hchain.2⟩, hchain.2⟩, ?_, hne⟩⟩
    exact hconsistent.endNode
  | testNewFront node =>
    obtain rfl := Option.some.inj h
    obtain ⟨htaking, hend, hne⟩ := hmid
    by_cases hnone : (s.queue q).front = none
    · rw [if_pos hnone]
      exact ⟨.clearEnd node, by simp, .goto ⟨htaking, List.head?_eq_none_iff.mp (htaking.rest.head?_eq.trans hnone)⟩⟩
    · rw [if_neg hnone]
      refine ⟨.unlock node, by simp, .goto ⟨htaking, hend.trans ?_⟩⟩
      obtain ⟨first, rest, rfl⟩ := List.exists_cons_of_ne_nil hne
      cases rest with
      | nil => exact absurd htaking.rest hnone
      | cons second rest => exact List.getLast?_cons_cons
  | clearEnd node =>
    obtain rfl := Option.some.inj h
    obtain ⟨htaking, hnil⟩ := hmid
    refine ⟨.unlock node, by simp, .setQueue ⟨⟨htaking.first, htaking.chain, htaking.rest⟩, ?_⟩⟩
    rw [hnil]
    rfl

end statements

/-! ## The invariant -/

section invariant
variable {ι Node Message : Type} [DecidableEq ι]

/-- A thread has the locks and the node its statement says, and the queue and the node are as it has left them. -/
structure Thread (s : State ι Node Message) (items : QueueName → List Node) (place : Node → Option (QueueName ⊕ ι))
    (i : ι) (pc : Pc Node Message) : Prop where
  owned : ∀ n, owns pc = some n ↔ place n = some (.inr i)
  locked : ∀ q, s.holder q = some i ↔ inside pc = some q
  mid : ∀ q, inside pc = some q → Mid (s.queue q) s.memory.next (items q) pc
  own : Local s.memory.contents pc

/-- The lists the queues stand for, given the nodes in them. -/
def fifosOf (s : State ι Node Message) (items : QueueName → List Node) : Fifos Message :=
  ⟨decide (s.messageQueueState = messageQueueInitialized), fun q => (items q).map s.memory.contents⟩

/-- The nodes of each queue, and where each node is. -/
structure Inv (s : State ι Node Message) (items : QueueName → List Node) (place : Node → Option (QueueName ⊕ ι)) :
    Prop where
  sound : s.memory.faulted = false
  allocated : ∀ n, s.memory.allocated n = (place n).isSome
  queued : ∀ q n, n ∈ items q ↔ place n = some (.inl q)
  threads : ∀ i, Thread s items place i (s.pc i)
  unlocked : s.messageQueueState = messageQueueInitialized → ∀ q, s.holder q = none →
    Consistent ⟨s.queue q, s.memory.next, items q⟩
  explained : Explains (fifos Message) s.history (fifosOf s items) fun i => phase s.memory.contents (s.pc i)
  shut : s.messageQueueState ≠ messageQueueInitialized →
    s.messageQueueState = messageQueueShutdown ∧ (∀ i, s.pc i = .idle) ∧ ∀ q, items q = []

variable {s s' : State ι Node Message} {items items' : QueueName → List Node}
  {place place' : Node → Option (QueueName ⊕ ι)} {i j : ι} {q : QueueName} {m : Message} {n : Node}
  {pc pc' : Pc Node Message}

omit [DecidableEq ι] in
/-- What a thread relies on is not touched. -/
theorem Thread.frame (h : Thread s items place i pc) (hplace : ∀ n, place' n = some (.inr i) ↔ place n = some (.inr i))
    (hholder : ∀ q, s'.holder q = some i ↔ s.holder q = some i)
    (hqueue : ∀ q, inside pc = some q → s'.queue q = s.queue q ∧ items' q = items q ∧
      ∀ n ∈ items q, s'.memory.next n = s.memory.next n)
    (hnode : ∀ n, owns pc = some n →
      s'.memory.next n = s.memory.next n ∧ s'.memory.contents n = s.memory.contents n) :
    Thread s' items' place' i pc where
  owned n := (h.owned n).trans (hplace n).symm
  locked q := (hholder q).trans (h.locked q)
  mid q hq := by
    obtain ⟨hsame, hitems, hnext⟩ := hqueue q hq
    rw [hsame, hitems]
    exact (h.mid q hq).congr hnext fun n hn => (hnode n hn).1
  own := h.own.congr fun n hn => (hnode n hn).2

namespace Inv

theorem initialized (hi : Inv s items place) (hpc : s.pc i ≠ .idle) :
    s.messageQueueState = messageQueueInitialized := by
  by_contra hne
  exact hpc ((hi.shut hne).2.1 i)

theorem allocated_of_mem (hi : Inv s items place) (hn : n ∈ items q) : s.memory.allocated n = true := by
  rw [hi.allocated, (hi.queued q n).mp hn]
  rfl

theorem allocated_of_owns (hi : Inv s items place) (hn : owns (s.pc i) = some n) : s.memory.allocated n = true := by
  rw [hi.allocated, ((hi.threads i).owned n).mp hn]
  rfl

theorem not_mem_of_owns (hi : Inv s items place) (hn : owns (s.pc i) = some n) : n ∉ items q := by
  intro hmem
  have hplace := (((hi.threads i).owned n).mp hn).symm.trans ((hi.queued q n).mp hmem)
  cases hplace

theorem owner_unique (hi : Inv s items place) (hn : owns (s.pc i) = some n) (hj : owns (s.pc j) = some n) : i = j := by
  have hplace := (((hi.threads i).owned n).mp hn).symm.trans (((hi.threads j).owned n).mp hj)
  cases hplace
  rfl

theorem holder_unique (hi : Inv s items place) (hq : inside (s.pc i) = some q) (hj : inside (s.pc j) = some q) :
    i = j := by
  have hholder := (((hi.threads i).locked q).mpr hq).symm.trans (((hi.threads j).locked q).mpr hj)
  cases hholder
  rfl

theorem queue_unique (hi : Inv s items place) {q' : QueueName} (hn : n ∈ items q) (hn' : n ∈ items q') : q = q' := by
  have hplace := ((hi.queued q n).mp hn).symm.trans ((hi.queued q' n).mp hn')
  cases hplace
  rfl

theorem not_inside_of_free (hi : Inv s items place) (hfree : s.holder q = none) : inside (s.pc i) ≠ some q := by
  intro hq
  have hheld := ((hi.threads i).locked q).mpr hq
  rw [hfree] at hheld
  cases hheld

/-- The phases of the other threads do not change with the contents of a thread's own node. -/
theorem phases (hi : Inv s items place) {contents' : Node → Message}
    (hcontents : ∀ n, contents' n ≠ s.memory.contents n → owns (s.pc i) = some n) :
    (fun j => phase contents' (Function.update s.pc i pc' j)) =
      Function.update (fun j => phase s.memory.contents (s.pc j)) i (phase contents' pc') := by
  funext j
  by_cases hj : j = i
  · subst hj
    rw [Function.update_self, Function.update_self]
  · rw [Function.update_of_ne hj, Function.update_of_ne hj]
    refine phase_congr fun n hn => ?_
    by_contra hne
    exact hj (hi.owner_unique hn (hcontents n hne))

/-- A thread that neither takes nor releases a lock, nor a node, and writes only to its own node and to the queue whose
lock it holds. -/
theorem write (hi : Inv s items place) {queue' : QueueName → Queue Node} {next' : Node → Option Node}
    {contents' : Node → Message} (hpc : s.pc i ≠ .idle) (howns : owns pc' = owns (s.pc i))
    (hinside : inside pc' = inside (s.pc i)) (hphase : phase contents' pc' = phase s.memory.contents (s.pc i))
    (hqueue : ∀ q, inside (s.pc i) ≠ some q → queue' q = s.queue q)
    (hnext : ∀ n, next' n ≠ s.memory.next n →
      owns (s.pc i) = some n ∨ ∃ q, inside (s.pc i) = some q ∧ n ∈ items q)
    (hcontents : ∀ n, contents' n ≠ s.memory.contents n → owns (s.pc i) = some n)
    (hown : Local contents' pc')
    (hmid : ∀ q, inside (s.pc i) = some q → Mid (queue' q) next' (items q) pc') :
    Inv { s with
      queue := queue'
      memory := { s.memory with next := next', contents := contents' }
      pc := Function.update s.pc i pc' } items place := by
  have hitems {q : QueueName} (hq : inside (s.pc i) ≠ some q) : ∀ n ∈ items q, next' n = s.memory.next n := by
    intro n hn
    by_contra hne
    rcases hnext n hne with hmine | ⟨q', hq', hn'⟩
    · exact hi.not_mem_of_owns hmine hn
    · exact hq (hi.queue_unique hn hn' ▸ hq')
  have hmine := hi.threads i
  refine ⟨hi.sound, hi.allocated, hi.queued, ?_, fun hinit q hfree => ?_, ?_,
    fun hshut => absurd (hi.initialized hpc) hshut⟩
  · refine (Function.forall_update_iff s.pc (p := fun j pc => Thread _ items place j pc)).mpr ⟨?_, fun j hj => ?_⟩
    · exact ⟨fun n => howns ▸ hmine.owned n, fun q => hinside ▸ hmine.locked q, fun q hq => hmid q (hinside ▸ hq), hown⟩
    · refine (hi.threads j).frame (fun n => .rfl) (fun q => .rfl) (fun q hq => ?_) fun n hn => ⟨?_, ?_⟩
      · have hne : inside (s.pc i) ≠ some q := fun hq' => hj (hi.holder_unique hq hq')
        exact ⟨hqueue q hne, rfl, hitems hne⟩
      · by_contra hne
        rcases hnext n hne with hn' | ⟨q', -, hn'⟩
        · exact hj (hi.owner_unique hn hn')
        · exact hi.not_mem_of_owns hn hn'
      · by_contra hne
        exact hj (hi.owner_unique hn (hcontents n hne))
  · have hq := hi.not_inside_of_free (i := i) hfree
    show Consistent ⟨queue' q, next', items q⟩
    rw [hqueue q hq]
    exact consistent_congr (hi.unlocked hinit q hfree) (hitems hq)
  · have hqueued : (fun q => (items q).map contents') = fun q => (items q).map s.memory.contents := by
      refine funext fun q => List.map_congr_left fun n hn => ?_
      by_contra hne
      exact hi.not_mem_of_owns (hcontents n hne) hn
    show Explains (fifos Message) s.history ⟨_, fun q => (items q).map contents'⟩ _
    rw [hqueued, hi.phases hcontents, hphase, Function.update_eq_self]
    exact hi.explained

/-- A thread that takes or releases a lock or a node, or is at the end of a call, and writes nothing. -/
theorem move (hi : Inv s items place) (pc' : Pc Node Message) {holder' : QueueName → Option ι}
    {allocated' : Node → Bool} {history' : List (Event ι (Op Message) (Res Message))}
    (hinit : s.messageQueueState = messageQueueInitialized)
    (hallocated : ∀ n, allocated' n = (place' n).isSome) (hqueued : ∀ q n, n ∈ items' q ↔ place' n = some (.inl q))
    (hmine : Thread { s with holder := holder' } items' place' i pc')
    (hplace : ∀ j ≠ i, ∀ n, place' n = some (.inr j) ↔ place n = some (.inr j))
    (hholder : ∀ j ≠ i, ∀ q, holder' q = some j ↔ s.holder q = some j)
    (hitems : ∀ j ≠ i, ∀ q, inside (s.pc j) = some q → items' q = items q)
    (hunlocked : ∀ q, holder' q = none → Consistent ⟨s.queue q, s.memory.next, items' q⟩)
    (hexplained : Explains (fifos Message) history' (fifosOf s items')
      (Function.update (fun j => phase s.memory.contents (s.pc j)) i (phase s.memory.contents pc'))) :
    Inv { s with
      holder := holder'
      memory := { s.memory with allocated := allocated' }
      pc := Function.update s.pc i pc'
      history := history' } items' place' := by
  refine ⟨hi.sound, hallocated, hqueued, ?_, fun _ => hunlocked, ?_, fun hshut => absurd hinit hshut⟩
  · refine (Function.forall_update_iff s.pc (p := fun j pc => Thread _ items' place' j pc)).mpr ⟨?_, fun j hj => ?_⟩
    · exact ⟨hmine.owned, hmine.locked, hmine.mid, hmine.own⟩
    · refine (hi.threads j).frame (hplace j hj) (hholder j hj) (fun q hq => ?_) fun n hn => ⟨rfl, rfl⟩
      exact ⟨rfl, hitems j hj q hq, fun n hn => rfl⟩
  · rw [← hi.phases fun n hn => absurd rfl hn] at hexplained
    exact hexplained

theorem lock (hi : Inv s items place) (hpc : s.pc i ≠ .idle) (hfree : s.holder q = none)
    (hout : inside (s.pc i) = none) (howns : owns pc' = owns (s.pc i)) (hinside : inside pc' = some q)
    (hphase : phase s.memory.contents pc' = phase s.memory.contents (s.pc i)) (hown : Local s.memory.contents pc')
    (hmid : Consistent ⟨s.queue q, s.memory.next, items q⟩ → Mid (s.queue q) s.memory.next (items q) pc') :
    Inv ((s.setHolder q (some i)).goto i pc') items place := by
  have hinit := hi.initialized hpc
  have hmine := hi.threads i
  refine hi.move pc' hinit hi.allocated hi.queued ⟨fun n => howns ▸ hmine.owned n, fun q' => ?_, fun q' hq' => ?_, hown⟩
    (fun j hj n => .rfl) (fun j hj q' => ?_) (fun j hj q' hq' => rfl) (fun q' hq' => ?_) ?_
  · rw [hinside]
    by_cases hq' : q' = q
    · subst hq'
      simp [State.setHolder]
    · have hnot : s.holder q' ≠ some i := fun hheld => by simpa [hout] using (hmine.locked q').mp hheld
      simp [State.setHolder, hq', hnot, Ne.symm hq']
  · obtain rfl : q = q' := Option.some.inj (hinside.symm.trans hq')
    exact hmid (hi.unlocked hinit q hfree)
  · by_cases hq' : q' = q
    · subst hq'
      simp [State.setHolder, hfree, Ne.symm hj]
    · simp [State.setHolder, hq']
  · by_cases hqq : q' = q
    · subst hqq
      simp [State.setHolder] at hq'
    · exact hi.unlocked hinit q' ((Function.update_of_ne hqq _ s.holder).symm.trans hq')
  · rw [hphase, Function.update_eq_self]
    exact hi.explained

/-- The call takes effect when its thread releases the lock. -/
theorem unlock (hi : Inv s items place) (op : Op Message) {res : Res Message} (hinside : inside (s.pc i) = some q)
    (hout : inside pc' = none) (hconsistent : Consistent ⟨s.queue q, s.memory.next, items' q⟩)
    (hitems : ∀ q' ≠ q, items' q' = items q') (hallocated : ∀ n, (place' n).isSome = (place n).isSome)
    (hqueued : ∀ q n, n ∈ items' q ↔ place' n = some (.inl q))
    (howned : ∀ n, owns pc' = some n ↔ place' n = some (.inr i))
    (hplace : ∀ j ≠ i, ∀ n, place' n = some (.inr j) ↔ place n = some (.inr j)) (hown : Local s.memory.contents pc')
    (hcalled : phase s.memory.contents (s.pc i) = .called op)
    (happly : (fifos Message).apply (fifosOf s items) op = (fifosOf s items', res))
    (hdecided : phase s.memory.contents pc' = .decided op res) :
    Inv ((s.setHolder q none).goto i pc') items' place' := by
  have hpc : s.pc i ≠ .idle := by
    intro hidle
    rw [hidle] at hinside
    cases hinside
  have hinit := hi.initialized hpc
  have hheld : s.holder q = some i := ((hi.threads i).locked q).mpr hinside
  refine hi.move pc' hinit (fun n => (hi.allocated n).trans (hallocated n).symm) hqueued
    ⟨howned, fun q' => ?_, fun q' hq' => ?_, hown⟩ hplace (fun j hj q' => ?_) (fun j hj q' hq' => hitems q' ?_)
    (fun q' hq' => ?_) ?_
  · rw [hout]
    by_cases hq' : q' = q
    · subst hq'
      simp [State.setHolder]
    · have hnot : s.holder q' ≠ some i := by
        intro hheld'
        exact hq' (Option.some.inj ((((hi.threads i).locked q').mp hheld').symm.trans hinside))
      simp [State.setHolder, hq', hnot]
  · rw [hout] at hq'
    cases hq'
  · by_cases hq' : q' = q
    · subst hq'
      simp [State.setHolder, hheld, Ne.symm hj]
    · simp [State.setHolder, hq']
  · rintro rfl
    exact hj (hi.holder_unique hq' hinside)
  · by_cases hqq : q' = q
    · exact hqq ▸ hconsistent
    · rw [hitems q' hqq]
      exact hi.unlocked hinit q' ((Function.update_of_ne hqq _ s.holder).symm.trans hq')
  · have hpoint := hi.explained.point hcalled
    rw [happly] at hpoint
    rw [hdecided]
    exact hpoint

/-- The ends of a call: nothing changes but the history. -/
theorem turn (hi : Inv s items place) {history' : List (Event ι (Op Message) (Res Message))}
    (hinit : s.messageQueueState = messageQueueInitialized) (hin : inside (s.pc i) = none) (hout : inside pc' = none)
    (howns : owns pc' = owns (s.pc i)) (hown : Local s.memory.contents pc')
    (hexplained : Explains (fifos Message) history' (fifosOf s items)
      (Function.update (fun j => phase s.memory.contents (s.pc j)) i (phase s.memory.contents pc'))) :
    Inv { s.goto i pc' with history := history' } items place := by
  have hmine := hi.threads i
  refine hi.move pc' hinit hi.allocated hi.queued ⟨fun n => howns ▸ hmine.owned n, fun q => ?_, fun q hq => ?_, hown⟩
    (fun j hj n => .rfl) (fun j hj q => .rfl) (fun j hj q hq => rfl) (hi.unlocked hinit) hexplained
  · rw [hout, ← hin]
    exact hmine.locked q
  · rw [hout] at hq
    cases hq

/-- A thread takes a node that is nowhere, or gives its own away. -/
theorem transfer [DecidableEq Node] (hi : Inv s items place) (hpc : s.pc i ≠ .idle) {here : Bool}
    (hbefore : ∀ x, owns (s.pc i) = some x ↔ here = false ∧ x = n) (hplace : here = true → place n = none)
    (hafter : ∀ x, owns pc' = some x ↔ here = true ∧ x = n) (hin : inside (s.pc i) = none) (hout : inside pc' = none)
    (hown : Local s.memory.contents pc')
    (hphase : phase s.memory.contents pc' = phase s.memory.contents (s.pc i)) :
    Inv ((s.setMemory { s.memory with allocated := Function.update s.memory.allocated n here }).goto i pc') items
      (Function.update place n (if here then some (.inr i) else none)) := by
  have hinit := hi.initialized hpc
  have hmine := hi.threads i
  have hwas (a : QueueName ⊕ ι) (ha : a ≠ .inr i) : place n ≠ some a := by
    cases here with
    | true => simp [hplace rfl]
    | false =>
      rw [(hmine.owned n).mp ((hbefore n).mpr ⟨rfl, rfl⟩)]
      exact fun h => ha (Option.some.inj h).symm
  have hnow (a : QueueName ⊕ ι) (ha : a ≠ .inr i) : (if here then some (.inr i) else none) ≠ some a := by
    cases here with
    | true => exact fun h => ha (Option.some.inj h).symm
    | false => simp
  have hother (a : QueueName ⊕ ι) (ha : a ≠ .inr i) (x : Node) :
      Function.update place n (if here then some (.inr i) else none) x = some a ↔ place x = some a := by
    by_cases hx : x = n
    · rw [hx, Function.update_self]
      exact ⟨fun h => absurd h (hnow a ha), fun h => absurd h (hwas a ha)⟩
    · rw [Function.update_of_ne hx]
  refine hi.move pc' hinit (fun x => ?_) (fun q x => ?_) ⟨fun x => ?_, fun q => ?_, fun q hq => ?_, hown⟩
    (fun j hj x => hother (.inr j) (fun h => hj (Sum.inr.inj h)) x) (fun j hj q => .rfl) (fun j hj q hq => rfl)
    (hi.unlocked hinit) ?_
  · by_cases hx : x = n
    · rw [hx, Function.update_self, Function.update_self]
      cases here <;> rfl
    · rw [Function.update_of_ne hx, Function.update_of_ne hx]
      exact hi.allocated x
  · exact (hi.queued q x).trans (hother (.inl q) (by simp) x).symm
  · rw [hafter]
    by_cases hx : x = n
    · rw [hx, Function.update_self]
      cases here <;> simp
    · rw [Function.update_of_ne hx]
      have hnot : place x ≠ some (.inr i) := fun h => hx ((hbefore x).mp ((hmine.owned x).mpr h)).2
      simp [hx, hnot]
  · rw [hout, ← hin]
    exact hmine.locked q
  · rw [hout] at hq
    cases hq
  · rw [hphase, Function.update_eq_self]
    exact hi.explained

end Inv

end invariant

/-! ## The two effects -/

section effects
variable {ι Node Message : Type} [DecidableEq ι] [DecidableEq Node] {s : State ι Node Message}
  {items : QueueName → List Node} {place : Node → Option (QueueName ⊕ ι)} {i : ι} {q : QueueName} {m : Message}
  {n : Node}

omit [DecidableEq ι] [DecidableEq Node] in
theorem items_update (xs : List Node) :
    (fun q' => (Function.update items q xs q').map s.memory.contents) =
      Function.update (fun q' => (items q').map s.memory.contents) q (xs.map s.memory.contents) := by
  funext q'
  by_cases hq : q' = q
  · subst hq
    rw [Function.update_self, Function.update_self]
  · rw [Function.update_of_ne hq, Function.update_of_ne hq]

omit [DecidableEq ι] in
/-- A node goes from its thread into the queue, or back. -/
theorem place_update_of_ne {a b : QueueName ⊕ ι} (hn : place n ≠ some a) (hab : b ≠ a) (x : Node) :
    Function.update place n (some b) x = some a ↔ place x = some a := by
  by_cases hx : x = n
  · rw [hx, Function.update_self]
    exact ⟨fun h => absurd (Option.some.inj h) hab, fun h => absurd h hn⟩
  · rw [Function.update_of_ne hx]

omit [DecidableEq ι] in
theorem isSome_place_update {b : QueueName ⊕ ι} (hn : (place n).isSome = true) (x : Node) :
    (Function.update place n (some b) x).isSome = (place x).isSome := by
  by_cases hx : x = n
  · rw [hx, Function.update_self, hn]
    rfl
  · rw [Function.update_of_ne hx]

theorem Inv.enqueue_unlock (hi : Inv s items place) (hpc : s.pc i = .enqueue q m (some n) .unlock) :
    Inv ((s.setHolder q none).goto i (.done (.enqueue q m) .void)) (Function.update items q (items q ++ [n]))
      (Function.update place n (some (.inl q))) := by
  have hmine := hi.threads i
  have howns : owns (s.pc i) = some n := by rw [hpc]; rfl
  have hinside : inside (s.pc i) = some q := by rw [hpc]; rfl
  have hplace : place n = some (.inr i) := (hmine.owned n).mp howns
  have hmid := hmine.mid q hinside
  have hown := hmine.own
  rw [hpc] at hmid hown
  obtain ⟨n', hn', hcontents⟩ := hown
  obtain rfl := Option.some.inj hn'
  refine hi.unlock (.enqueue q m) hinside rfl ?_ (fun q' hq' => Function.update_of_ne hq' _ _)
    (isSome_place_update (by rw [hplace]; rfl)) (fun q' x => ?_) (fun x => ?_) (fun j hj => ?_) trivial
    (by rw [hpc]; rfl) ?_ rfl
  · rw [Function.update_self]
    exact hmid n rfl
  · by_cases hx : x = n
    · subst hx
      rw [Function.update_self]
      by_cases hq' : q' = q
      · subst hq'
        simp
      · rw [Function.update_of_ne hq']
        exact ⟨fun h => absurd h (hi.not_mem_of_owns howns), fun h => absurd (Sum.inl.inj (Option.some.inj h)).symm hq'⟩
    · rw [Function.update_of_ne hx, ← hi.queued q' x]
      by_cases hq' : q' = q
      · subst hq'
        simp [hx]
      · rw [Function.update_of_ne hq']
  · refine ⟨nofun, fun h => ?_⟩
    by_cases hx : x = n
    · rw [hx, Function.update_self] at h
      cases h
    · rw [Function.update_of_ne hx] at h
      exact absurd (Option.some.inj (howns.symm.trans ((hmine.owned x).mpr h))).symm hx
  · refine place_update_of_ne ?_ (by simp)
    rw [hplace]
    exact fun h => hj (Sum.inr.inj (Option.some.inj h)).symm
  · simp only [fifos, fifosOf, items_update, List.map_append, List.map_cons, List.map_nil, hcontents]

theorem Inv.dequeue_unlock (hi : Inv s items place) {node : Option Node} (hpc : s.pc i = .dequeue q (.unlock node)) :
    ∃ items' place', Inv ((s.setHolder q none).goto i (.testNode q node)) items' place' := by
  have hmine := hi.threads i
  have howns : owns (s.pc i) = none := by rw [hpc]; rfl
  have hinside : inside (s.pc i) = some q := by rw [hpc]; rfl
  have hnot (x : Node) : place x ≠ some (.inr i) := by
    intro h
    have hx := (hmine.owned x).mpr h
    rw [howns] at hx
    cases hx
  have hmid := hmine.mid q hinside
  rw [hpc] at hmid
  obtain ⟨⟨hfirst, hchain, hrest⟩, hend⟩ := hmid
  have hconsistent : Consistent ⟨s.queue q, s.memory.next, (items q).tail⟩ := ⟨hrest, hend⟩
  have happly : (fifos Message).apply (fifosOf s items) (.dequeue q) =
      (fifosOf s (Function.update items q (items q).tail), .message (node.map s.memory.contents)) := by
    simp only [fifos, fifosOf, items_update, List.map_tail, List.head?_map, hfirst]
  have hqueue : ∀ q' ≠ q, Function.update items q (items q).tail q' = items q' := fun q' hq' =>
    Function.update_of_ne hq' _ _
  cases hitems : items q with
  | nil =>
    rw [hitems] at hfirst happly hqueue hconsistent
    obtain rfl : node = none := hfirst
    refine ⟨_, place, hi.unlock (.dequeue q) hinside rfl ?_ hqueue (fun x => rfl) (fun q' x => ?_) (fun x => ?_)
      (fun j hj x => .rfl) trivial (by rw [hpc]; rfl) happly rfl⟩
    · rw [Function.update_self]
      exact hconsistent
    · rw [show Function.update items q [].tail = items from Function.update_eq_self_iff.mpr hitems.symm]
      exact hi.queued q' x
    · exact ⟨nofun, fun h => absurd h (hnot x)⟩
  | cons n rest =>
    have hnodup := hchain.nodup
    rw [hitems] at hfirst happly hqueue hconsistent hnodup
    obtain rfl : node = some n := hfirst
    have hplace : place n = some (.inl q) := (hi.queued q n).mp (hitems ▸ List.mem_cons_self)
    refine ⟨_, Function.update place n (some (.inr i)), hi.unlock (.dequeue q) hinside rfl ?_ hqueue
      (isSome_place_update (by rw [hplace]; rfl)) (fun q' x => ?_) (fun x => ?_) (fun j hj => ?_) trivial
      (by rw [hpc]; rfl) happly rfl⟩
    · rw [Function.update_self]
      exact hconsistent
    · by_cases hx : x = n
      · subst hx
        rw [Function.update_self]
        refine ⟨fun h => ?_, fun h => by cases h⟩
        by_cases hq' : q' = q
        · subst hq'
          rw [Function.update_self] at h
          exact absurd h (List.nodup_cons.mp hnodup).1
        · rw [Function.update_of_ne hq'] at h
          exact absurd (hi.queue_unique h (hitems ▸ List.mem_cons_self)) hq'
      · rw [Function.update_of_ne hx, ← hi.queued q' x]
        by_cases hq' : q' = q
        · subst hq'
          rw [Function.update_self, hitems]
          simp [hx]
        · rw [Function.update_of_ne hq']
    · by_cases hx : x = n
      · subst hx
        simp [owns]
      · rw [Function.update_of_ne hx]
        exact ⟨fun h => absurd (Option.some.inj h).symm hx, fun h => absurd h (hnot x)⟩
    · refine place_update_of_ne (by rw [hplace]; simp) fun h => hj (Sum.inr.inj h).symm

end effects

/-! ## One step -/

section step
variable {ι Node Message : Type} [DecidableEq ι] [DecidableEq Node] {s s' : State ι Node Message}
  {items : QueueName → List Node} {place : Node → Option (QueueName ⊕ ι)} {i : ι} {q : QueueName} {m : Message}
  {n : Node}
  {pc' : Pc Node Message}

omit [DecidableEq Node] in
theorem Inv.within (hi : Inv s items place) {own : Option Node} (hinside : inside (s.pc i) = some q)
    (howns : owns (s.pc i) = own) (howns' : owns pc' = own) (hinside' : inside pc' = some q)
    (hphase : phase s.memory.contents pc' = phase s.memory.contents (s.pc i)) (hown : Local s.memory.contents pc')
    (h : Within s s' i q (items q) own pc') : Inv s' items place := by
  obtain ⟨Q', next', rfl, hnext, hmid⟩ := h
  subst howns
  have hpc : s.pc i ≠ .idle := by
    intro hidle
    rw [hidle] at hinside
    cases hinside
  refine hi.write hpc howns' (hinside'.trans hinside.symm) hphase (fun q' hq' => ?_) (fun x hx => ?_)
    (fun x hx => absurd rfl hx) hown fun q' hq' => ?_
  · refine Function.update_of_ne ?_ _ _
    rintro rfl
    exact hq' hinside
  · exact (hnext x hx).imp id fun hmem => ⟨q, hinside, hmem⟩
  · obtain rfl : q = q' := Option.some.inj (hinside.symm.trans hq')
    rw [Function.update_self]
    exact hmid

omit [DecidableEq Node] in
/-- Outside the locks, with writes only to the thread's own node. -/
theorem Inv.writeOwn (hi : Inv s items place) {next' : Node → Option Node} {contents' : Node → Message}
    (hpc : s.pc i ≠ .idle) (hin : inside (s.pc i) = none) (hout : inside pc' = none) (howns : owns pc' = owns (s.pc i))
    (hphase : phase contents' pc' = phase s.memory.contents (s.pc i))
    (hnext : ∀ n, next' n ≠ s.memory.next n → owns (s.pc i) = some n)
    (hcontents : ∀ n, contents' n ≠ s.memory.contents n → owns (s.pc i) = some n) (hown : Local contents' pc') :
    Inv ((s.setMemory { s.memory with next := next', contents := contents' }).goto i pc') items place := by
  refine hi.write hpc howns (hout.trans hin.symm) hphase (fun q hq => rfl) (fun x hx => .inl (hnext x hx)) hcontents
    hown fun q hq => ?_
  rw [hin] at hq
  cases hq

theorem Inv.enqueue_step (hi : Inv s items place) {node : Option Node} {pc : EnqueuePc Node}
    (hpc : s.pc i = .enqueue q m node pc) (h : connectorLockedEnqueue s i q m node pc = some s') :
    ∃ items' place', Inv s' items' place' := by
  have hown := (hi.threads i).own
  have hmid := (hi.threads i).mid
  rw [hpc] at hown hmid
  obtain ⟨n, rfl, hm⟩ := hown
  have howns : owns (s.pc i) = some n := by rw [hpc]; rfl
  by_cases hlock : pc = .lock
  · subst hlock
    obtain ⟨hfree, hs'⟩ := Option.ite_none_right_eq_some.mp h
    obtain rfl := Option.some.inj hs'
    exact ⟨items, place, hi.lock (by simp [hpc]) hfree (by rw [hpc]; rfl) (by rw [hpc]; rfl) rfl (by rw [hpc]; rfl)
      ⟨n, rfl, hm⟩ id⟩
  by_cases hunlock : pc = .unlock
  · subst hunlock
    obtain rfl := Option.some.inj h
    exact ⟨_, _, hi.enqueue_unlock hpc⟩
  have hinside {pc : EnqueuePc Node} (hpc : pc ≠ .lock) : inside (.enqueue q m (some n) pc) = some q := by
    cases pc <;> first | rfl | exact absurd rfl hpc
  obtain ⟨pc', hpc', hwithin⟩ := enqueue_statement hlock hunlock (hmid q (hinside hlock)) hi.sound
    (hi.not_mem_of_owns howns) (hi.allocated_of_owns howns) (fun x hx => hi.allocated_of_mem hx) h
  exact ⟨items, place, hi.within (hpc ▸ hinside hlock) howns rfl (hinside hpc') (by rw [hpc]; rfl) ⟨n, rfl, hm⟩
    hwithin⟩

theorem Inv.dequeue_step (hi : Inv s items place) {pc : DequeuePc Node} (hpc : s.pc i = .dequeue q pc)
    (h : connectorLockedDequeue s i q pc = some s') : ∃ items' place', Inv s' items' place' := by
  have hmid := (hi.threads i).mid
  rw [hpc] at hmid
  have howns : owns (s.pc i) = none := by rw [hpc]; rfl
  by_cases hlock : pc = .lock
  · subst hlock
    obtain ⟨hfree, hs'⟩ := Option.ite_none_right_eq_some.mp h
    obtain rfl := Option.some.inj hs'
    exact ⟨items, place, hi.lock (by simp [hpc]) hfree (by rw [hpc]; rfl) (by rw [hpc]; rfl) rfl (by rw [hpc]; rfl)
      trivial id⟩
  by_cases hunlock : ∃ node, pc = .unlock node
  · obtain ⟨node, rfl⟩ := hunlock
    obtain rfl := Option.some.inj h
    exact hi.dequeue_unlock hpc
  have hinside {pc : DequeuePc Node} (hpc : pc ≠ .lock) : inside (.dequeue q pc : Pc Node Message) = some q := by
    cases pc <;> first | rfl | exact absurd rfl hpc
  obtain ⟨pc', hpc', hwithin⟩ := dequeue_statement hlock (fun node hnode => hunlock ⟨node, hnode⟩)
    (hmid q (hinside hlock)) hi.sound (fun x hx => hi.allocated_of_mem hx) h
  exact ⟨items, place, hi.within (hpc ▸ hinside hlock) howns rfl (hinside hpc') (by rw [hpc]; rfl) trivial hwithin⟩

omit [DecidableEq ι] in
theorem update_ne {α : Type} {f : Node → α} {value : α} {x : Node} (h : Function.update f n value x ≠ f x) : x = n := by
  by_contra hne
  exact h (Function.update_of_ne hne value f)

theorem inv_statement (hi : Inv s items place) {answer : Option Node}
    (hanswer : isAllocating (s.pc i) = true → answer ≠ none) (h : statement s i answer = some s') :
    ∃ items' place', Inv s' items' place' := by
  have hown := (hi.threads i).own
  cases hpc : s.pc i with
  | idle =>
    rw [statement, hpc] at h
    cases h
  | allocate q m =>
    rw [hpc] at hanswer
    obtain ⟨node, rfl⟩ := Option.ne_none_iff_exists'.mp (hanswer rfl)
    simp only [statement, hpc, Option.ite_none_left_eq_some] at h
    obtain ⟨hfree, hs'⟩ := h
    obtain rfl := Option.some.inj hs'
    have hplace : place node = none := by
      rw [hi.allocated, Option.not_isSome_iff_eq_none] at hfree
      exact hfree
    refine ⟨items, _, hi.transfer (by simp [hpc]) (fun x => ?_) (fun _ => hplace) (fun x => ?_) (by rw [hpc]; rfl) rfl
      (by simp [Local]) (by rw [hpc]; rfl)⟩
    · simp [hpc, owns]
    · simp [owns, eq_comm]
  | initNext q m node =>
    rw [hpc] at hown
    obtain ⟨n, rfl⟩ := Option.ne_none_iff_exists'.mp hown
    have howns : owns (s.pc i) = some n := by rw [hpc]; rfl
    simp only [statement, hpc, storeNext_eq hi.sound (hi.allocated_of_owns howns)] at h
    obtain rfl := Option.some.inj h
    refine ⟨items, place, hi.writeOwn (by simp [hpc]) (by rw [hpc]; rfl) rfl (by rw [hpc]; rfl) (by rw [hpc]; rfl)
      (fun x hx => ?_) (fun x hx => absurd rfl hx) (Option.some_ne_none n)⟩
    rw [update_ne hx]
    exact howns
  | initContents q m node =>
    rw [hpc] at hown
    obtain ⟨n, rfl⟩ := Option.ne_none_iff_exists'.mp hown
    have howns : owns (s.pc i) = some n := by rw [hpc]; rfl
    simp only [statement, hpc, storeContents_eq hi.sound (hi.allocated_of_owns howns)] at h
    obtain rfl := Option.some.inj h
    refine ⟨items, place, hi.writeOwn (by simp [hpc]) (by rw [hpc]; rfl) rfl (by rw [hpc]; rfl) (by rw [hpc]; rfl)
      (fun x hx => absurd rfl hx) (fun x hx => ?_) ⟨n, rfl, Function.update_self ..⟩⟩
    rw [update_ne hx]
    exact howns
  | enqueue q m node pc =>
    simp only [statement, hpc] at h
    exact hi.enqueue_step hpc h
  | dequeue q pc =>
    simp only [statement, hpc] at h
    exact hi.dequeue_step hpc h
  | testNode q node =>
    simp only [statement, hpc] at h
    obtain rfl := Option.some.inj h
    cases node with
    | none =>
      exact ⟨items, place, hi.writeOwn (by simp [hpc]) (by rw [hpc]; rfl) rfl (by rw [hpc]; rfl) (by rw [hpc]; rfl)
        (fun x hx => absurd rfl hx) (fun x hx => absurd rfl hx) trivial⟩
    | some n =>
      exact ⟨items, place, hi.writeOwn (by simp [hpc]) (by rw [hpc]; rfl) rfl (by rw [hpc]; rfl) (by rw [hpc]; rfl)
        (fun x hx => absurd rfl hx) (fun x hx => absurd rfl hx) (Option.some_ne_none n)⟩
  | loadContents q node =>
    rw [hpc] at hown
    obtain ⟨n, rfl⟩ := Option.ne_none_iff_exists'.mp hown
    have howns : owns (s.pc i) = some n := by rw [hpc]; rfl
    simp only [statement, hpc, access_eq hi.sound (hi.allocated_of_owns howns)] at h
    obtain rfl := Option.some.inj h
    exact ⟨items, place, hi.writeOwn (by simp [hpc]) (by rw [hpc]; rfl) rfl (by rw [hpc]; rfl) (by rw [hpc]; rfl)
      (fun x hx => absurd rfl hx) (fun x hx => absurd rfl hx) (Option.some_ne_none n)⟩
  | freeNode q node message =>
    rw [hpc] at hown
    obtain ⟨n, rfl⟩ := Option.ne_none_iff_exists'.mp hown
    have howns : owns (s.pc i) = some n := by rw [hpc]; rfl
    simp only [statement, hpc, Memory.connectorFree, access_eq hi.sound (hi.allocated_of_owns howns)] at h
    obtain rfl := Option.some.inj h
    refine ⟨items, _, hi.transfer (by simp [hpc]) (fun x => ?_) nofun (fun x => ?_) (by rw [hpc]; rfl) rfl trivial
      (by rw [hpc]; rfl)⟩
    · simp [hpc, owns, eq_comm]
    · simp [owns]
  | done op res =>
    simp only [statement, hpc] at h
    obtain rfl := Option.some.inj h
    have hinit := hi.initialized (i := i) (by simp [hpc])
    refine ⟨items, place, hi.turn hinit (by rw [hpc]; rfl) rfl (by rw [hpc]; rfl) trivial ?_⟩
    exact hi.explained.ret (by rw [hpc]; rfl)

omit [DecidableEq ι] [DecidableEq Node] in
theorem eq_idle {pc : Pc Node Message} (h : isIdle pc = true) : pc = .idle := by
  cases pc with
  | idle => rfl
  | _ => cases h

omit [DecidableEq Node] in
theorem Inv.init (hi : Inv s items place) (hidle : s.pc i = .idle) :
    Inv (connectorInitMessageQueueSubsystem s i) items place := by
  have hwhole := hi.explained.whole (show phase _ (s.pc i) = .idle by rw [hidle]; rfl) .init
  by_cases hinit : s.messageQueueState = messageQueueInitialized
  · have hne : s.messageQueueState ≠ messageQueueShutdown := by rw [hinit]; decide
    rw [connectorInitMessageQueueSubsystem, if_neg hne]
    have happly : (fifos Message).apply (fifosOf s items) .init = (fifosOf s items, .code .error) := by
      simp [fifos, fifosOf, hinit]
    rw [happly] at hwhole
    exact ⟨hi.sound, hi.allocated, hi.queued, fun j => (hi.threads j).frame (fun n => .rfl) (fun q => .rfl)
      (fun q hq => ⟨rfl, rfl, fun n hn => rfl⟩) fun n hn => ⟨rfl, rfl⟩, hi.unlocked, hwhole, hi.shut⟩
  · obtain ⟨hshut, hall, hitems⟩ := hi.shut hinit
    rw [connectorInitMessageQueueSubsystem, if_pos hshut]
    have happly : (fifos Message).apply (fifosOf s items) .init = (⟨true, fun _ => []⟩, .code .success) := by
      simp [fifos, fifosOf, hinit]
    rw [happly] at hwhole
    refine ⟨hi.sound, hi.allocated, hi.queued, fun j => ⟨(hi.threads j).owned, fun q => ?_, fun q hq => ?_, ?_⟩,
      fun _ q _ => ?_, ?_, fun hne => absurd rfl hne⟩
    · show none = some j ↔ inside (s.pc j) = some q
      rw [hall j]
      exact ⟨nofun, nofun⟩
    · rw [show s.pc j = .idle from hall j] at hq
      cases hq
    · exact (hi.threads j).own
    · rw [hitems q]
      exact ⟨rfl, rfl⟩
    · have hempty : (⟨true, fun _ => []⟩ : Fifos Message) = ⟨true, fun q => (items q).map s.memory.contents⟩ := by
        simp [hitems]
      rw [hempty] at hwhole
      exact hwhole

/-! ## Shutdown -/

/-- The nodes are freed. -/
def Memory.release (μ : Memory Node Message) (nodes : List Node) : Memory Node Message :=
  { μ with allocated := fun n => μ.allocated n && decide (n ∉ nodes) }

/-- The loop takes a round for each node and frees every one of them once. -/
theorem clearLoop_of_chain {Q : Queue Node} {μ : Memory Node Message} {nodes : List Node}
    (hchain : Linked μ.next Q.front nodes) (hall : ∀ n ∈ nodes, μ.allocated n = true) (hsound : μ.faulted = false)
    (rounds : Nat) :
    clearLoop Q μ rounds = if nodes.length ≤ rounds then
      some ⟨{ Q with front := none }, μ.release nodes, nodes.map μ.contents⟩ else none := by
  induction nodes generalizing Q μ rounds with
  | nil =>
    have hfront : Q.front = none := hchain
    obtain ⟨front, endNode⟩ := Q
    obtain rfl : front = none := hfront
    have hrelease : μ.release [] = μ := by simp [Memory.release]
    rw [hrelease]
    cases rounds <;> rfl
  | cons node rest ih =>
    have hnodup := List.nodup_cons.mp hchain.nodup
    obtain ⟨hfront, hrest⟩ := hchain
    cases rounds with
    | zero => simp [clearLoop, hfront]
    | succ rounds =>
      have hnode : μ.allocated node = true := hall node List.mem_cons_self
      have hstep : ∀ n ∈ rest, (μ.connectorFree (some node)).allocated n = true := by
        intro n hn
        rw [Memory.connectorFree, access_eq hsound hnode]
        exact (Function.update_of_ne (ne_of_mem_of_not_mem hn hnodup.1) _ _).trans (hall n (List.mem_cons_of_mem _ hn))
      have hfree : (μ.connectorFree (some node)).faulted = false := by
        rw [Memory.connectorFree, access_eq hsound hnode]
        exact hsound
      have hloop := ih (Q := ⟨μ.next node, Q.endNode⟩) (μ := μ.connectorFree (some node)) hrest hstep hfree rounds
      have hrelease : (μ.connectorFree (some node)).release rest = μ.release (node :: rest) := by
        rw [Memory.connectorFree, access_eq hsound hnode]
        simp only [Memory.release, Memory.mk.injEq, true_and, and_true]
        funext n
        by_cases hn : n = node
        · simp [hn]
        · simp [hn]
      simp only [clearLoop, hfront, access_eq hsound hnode, hloop, hrelease, List.length_cons, Nat.add_le_add_iff_right]
      by_cases hlength : rest.length ≤ rounds
      · rw [if_pos hlength, if_pos hlength]
        rfl
      · rw [if_neg hlength, if_neg hlength]
        rfl

/-- What a shutdown leaves when nobody uses the queues. -/
def shutState (s : State ι Node Message) (i : ι) (items : QueueName → List Node) : State ι Node Message :=
  { s with
    messageQueueState := messageQueueShutdown
    queue := fun q => match q with
      | .inbound => { s.queue .inbound with front := none }
      | .outbound => { s.queue .outbound with front := none }
    memory := (s.memory.release (items .inbound)).release (items .outbound)
    history := s.history ++ [.call i .shutdown, .ret i .shutdown
      (.cleared .success ((items .inbound).map s.memory.contents ++ (items .outbound).map s.memory.contents))] }

omit [DecidableEq Node] in
theorem Inv.free_of_idle (hi : Inv s items place) (hall : ∀ i, s.pc i = .idle) (q : QueueName) : s.holder q = none := by
  cases hholder : s.holder q with
  | none => rfl
  | some j =>
    have hinside := ((hi.threads j).locked q).mp hholder
    rw [hall j] at hinside
    cases hinside

omit [DecidableEq Node] in
theorem Inv.place_eq_none (hi : Inv s items place) (hall : ∀ i, s.pc i = .idle) (hn : ∀ q, n ∉ items q) :
    place n = none := by
  cases hplace : place n with
  | none => rfl
  | some a =>
    cases a with
    | inl q => exact absurd ((hi.queued q n).mpr hplace) (hn q)
    | inr j =>
      have howns := ((hi.threads j).owned n).mpr hplace
      rw [hall j] at howns
      cases howns

theorem Inv.shutdown_eq (hi : Inv s items place) (hinit : s.messageQueueState = messageQueueInitialized)
    (hall : ∀ i, s.pc i = .idle) (rounds : Nat) :
    connectorShutdownMessageQueueSubsystem s i rounds =
      if (items .inbound).length ≤ rounds ∧ (items .outbound).length ≤ rounds then some (shutState s i items)
      else none := by
  have hin := hi.unlocked hinit .inbound (hi.free_of_idle hall _)
  have hout := hi.unlocked hinit .outbound (hi.free_of_idle hall _)
  have hfirst := clearLoop_of_chain hin.chain (fun n hn => hi.allocated_of_mem hn) hi.sound rounds
  have hkept : ∀ n ∈ items .outbound, (s.memory.release (items .inbound)).allocated n = true := by
    intro n hn
    have hnot : n ∉ items .inbound := fun hn' => nomatch hi.queue_unique hn hn'
    simp [Memory.release, hi.allocated_of_mem hn, hnot]
  have hsecond := clearLoop_of_chain (μ := s.memory.release (items .inbound)) hout.chain hkept hi.sound rounds
  rw [connectorShutdownMessageQueueSubsystem, if_pos hinit, hfirst]
  by_cases hle : (items .inbound).length ≤ rounds
  · rw [if_pos hle]
    simp only [Option.bind_some, hsecond, hle, true_and]
    by_cases hle' : (items .outbound).length ≤ rounds
    · rw [if_pos hle', if_pos hle']
      rfl
    · rw [if_neg hle', if_neg hle']
      rfl
  · rw [if_neg hle, if_neg fun h => hle h.1]
    rfl

/-- All nodes were in the queues. -/
theorem Inv.shutState (hi : Inv s items place) (hinit : s.messageQueueState = messageQueueInitialized)
    (hall : ∀ i, s.pc i = .idle) : Inv (shutState s i items) (fun _ => []) fun _ => none := by
  have hwhole := hi.explained.whole (i := i) (show phase _ (s.pc i) = .idle by rw [hall i]; rfl) .shutdown
  have happly : (fifos Message).apply (fifosOf s items) .shutdown = (⟨false, fun _ => []⟩,
      .cleared .success ((items .inbound).map s.memory.contents ++ (items .outbound).map s.memory.contents)) := by
    simp [fifos, fifosOf, hinit]
  rw [happly] at hwhole
  have hne : messageQueueShutdown ≠ messageQueueInitialized := by decide
  refine ⟨hi.sound, fun n => ?_, fun q n => ⟨nofun, nofun⟩, fun j => ⟨fun n => ?_, fun q => ?_, fun q hq => ?_, ?_⟩,
    fun h => absurd h hne, hwhole, fun _ => ⟨rfl, hall, fun q => rfl⟩⟩
  · show ((s.memory.allocated n && decide (n ∉ items .inbound)) && decide (n ∉ items .outbound)) = false
    by_cases hin : n ∈ items .inbound
    · simp [hin]
    by_cases hout : n ∈ items .outbound
    · simp [hout]
    have hnone : place n = none := hi.place_eq_none hall fun q => by cases q <;> assumption
    rw [hi.allocated, hnone]
    rfl
  · show owns (s.pc j) = some n ↔ none = some (Sum.inr j)
    rw [hall j]
    exact ⟨nofun, nofun⟩
  · exact (hi.threads j).locked q
  · rw [show (MessageQueue.shutState s i items).pc j = .idle from hall j] at hq
    cases hq
  · exact (hi.threads j).own

theorem Inv.shutdown (hi : Inv s items place) (hall : ∀ i, s.pc i = .idle) {rounds : Nat}
    (h : connectorShutdownMessageQueueSubsystem s i rounds = some s') : ∃ items' place', Inv s' items' place' := by
  by_cases hinit : s.messageQueueState = messageQueueInitialized
  · rw [hi.shutdown_eq hinit hall] at h
    obtain ⟨-, hs'⟩ := Option.ite_none_right_eq_some.mp h
    obtain rfl := Option.some.inj hs'
    exact ⟨_, _, hi.shutState hinit hall⟩
  · rw [connectorShutdownMessageQueueSubsystem, if_neg hinit] at h
    obtain rfl := Option.some.inj h
    have hwhole := hi.explained.whole (i := i) (show phase _ (s.pc i) = .idle by rw [hall i]; rfl) .shutdown
    have happly : (fifos Message).apply (fifosOf s items) .shutdown = (fifosOf s items, .cleared .error []) := by
      simp [fifos, fifosOf, hinit]
    rw [happly] at hwhole
    exact ⟨items, place, hi.sound, hi.allocated, hi.queued, fun j => (hi.threads j).frame (fun n => .rfl)
      (fun q => .rfl) (fun q hq => ⟨rfl, rfl, fun n hn => rfl⟩) (fun n hn => ⟨rfl, rfl⟩), hi.unlocked, hwhole,
      hi.shut⟩

theorem inv_next (hi : Inv s items place) {a : Label ι Node Message} (ha : Permitted s a) (h : next s a = some s') :
    ∃ items' place', Inv s' items' place' := by
  cases a with
  | enqueue i q m =>
    obtain ⟨hidle, hs'⟩ := Option.ite_none_right_eq_some.mp h
    obtain rfl := Option.some.inj hs'
    have hpc := eq_idle hidle
    refine ⟨items, place, hi.turn ha (by rw [hpc]; rfl) rfl (by rw [hpc]; rfl) trivial ?_⟩
    exact hi.explained.call (by rw [hpc]; rfl)
  | acquire i q =>
    obtain ⟨hidle, hs'⟩ := Option.ite_none_right_eq_some.mp h
    obtain rfl := Option.some.inj hs'
    have hpc := eq_idle hidle
    refine ⟨items, place, hi.turn ha (by rw [hpc]; rfl) rfl (by rw [hpc]; rfl) trivial ?_⟩
    exact hi.explained.call (by rw [hpc]; rfl)
  | statement i answer => exact inv_statement hi ha h
  | init i =>
    obtain ⟨hidle, hs'⟩ := Option.ite_none_right_eq_some.mp h
    obtain rfl := Option.some.inj hs'
    exact ⟨items, place, hi.init (eq_idle hidle)⟩
  | shutdown i rounds =>
    obtain ⟨-, hs'⟩ := Option.ite_none_right_eq_some.mp h
    exact hi.shutdown (fun j => eq_idle (ha j)) hs'

omit [DecidableEq Node] in
theorem inv_start (h : Starts s) : Inv s (fun _ => []) fun _ => none := by
  obtain ⟨hstate, hallocated, hsound, hholder, hidle, hhistory⟩ := h
  have hne : messageQueueShutdown ≠ messageQueueInitialized := by decide
  refine ⟨hsound, hallocated, fun q n => ⟨nofun, nofun⟩, fun j => ⟨fun n => ?_, fun q => ?_, fun q hq => ?_, ?_⟩,
    fun h => absurd (hstate.symm.trans h) hne, ?_, fun _ => ⟨hstate, hidle, fun q => rfl⟩⟩
  · rw [hidle j]
    exact ⟨nofun, nofun⟩
  · rw [hidle j, hholder q]
    exact ⟨nofun, nofun⟩
  · rw [hidle j] at hq
    cases hq
  · rw [hidle j]
    trivial
  · have hphases : (fun j => phase s.memory.contents (s.pc j)) = fun _ => .idle := by
      funext j
      rw [hidle j]
      rfl
    rw [hhistory, hphases, fifosOf, hstate]
    exact .init

theorem inv_of_reachable (h : ((system ι Node Message).guarded Permitted).Reachable s) :
    ∃ items place, Inv s items place := by
  refine h.guarded_invariant (P := fun s => ∃ items place, Inv s items place) (fun s hs => ⟨_, _, inv_start hs⟩) ?_
  rintro s a s' ⟨items, place, hi⟩ ha hstep
  exact inv_next hi ha hstep

/-- Under a lock every statement can be executed. -/
theorem statement_of_inside (hinside : inside (s.pc i) = some q) : (statement s i none).isSome = true := by
  cases hpc : s.pc i with
  | enqueue q' m node pc =>
    rw [hpc] at hinside
    rw [statement, hpc]
    cases pc with
    | lock => cases hinside
    | _ => rfl
  | dequeue q' pc =>
    rw [hpc] at hinside
    rw [statement, hpc]
    cases pc with
    | lock => cases hinside
    | _ => rfl
  | _ =>
    rw [hpc] at hinside
    cases hinside

/-- A thread in a call goes on, or waits for a lock. -/
theorem statement_or_waits (hpc : s.pc i ≠ .idle) :
    (statement s i none).isSome = true ∨ ∃ q j, s.holder q = some j := by
  have hlock (q : QueueName) {t : State ι Node Message} :
      (if s.holder q = none then some t else none).isSome = true ∨ ∃ q j, s.holder q = some j := by
    cases hq : s.holder q with
    | none => exact .inl rfl
    | some j => exact .inr ⟨q, j, hq⟩
  cases hs : s.pc i with
  | idle => exact absurd hs hpc
  | enqueue q m node pc =>
    rw [statement, hs]
    cases pc with
    | lock => exact hlock q
    | _ => exact .inl rfl
  | dequeue q pc =>
    rw [statement, hs]
    cases pc with
    | lock => exact hlock q
    | _ => exact .inl rfl
  | _ =>
    rw [statement, hs]
    exact .inl rfl

theorem Inv.exists_statement (hi : Inv s items place) (hpc : s.pc i ≠ .idle) :
    ∃ j, s.pc j ≠ .idle ∧ (statement s j none).isSome = true := by
  rcases statement_or_waits hpc with hgoes | ⟨q, j, hq⟩
  · exact ⟨i, hpc, hgoes⟩
  · have hinside := ((hi.threads j).locked q).mp hq
    refine ⟨j, fun hidle => ?_, statement_of_inside hinside⟩
    rw [hidle] at hinside
    cases hinside

end step

/-! ## Runs -/

/-- **The message queues are first-in-first-out lists** for any number of threads stopped between any two statements:
their calls are linearizable, no statement touches memory that is not allocated, while a thread is in a call some thread
can go on, and then a shutdown can free every node. -/
theorem message_queues_linearizable {ι Node Message : Type} [DecidableEq ι] [DecidableEq Node]
    {s : State ι Node Message} (h : ((system ι Node Message).guarded Permitted).Reachable s) :
    Linearizable (fifos Message) s.history ∧ s.memory.faulted = false ∧
      (∀ i, s.pc i ≠ .idle → ∃ j, s.pc j ≠ .idle ∧ (statement s j none).isSome = true) ∧
      (∀ i, (∀ j, s.pc j = .idle) → ∃ rounds s', next s (.shutdown i rounds) = some s') ∧
      (s.messageQueueState = messageQueueShutdown → ∀ n, s.memory.allocated n = false) := by
  obtain ⟨items, place, hi⟩ := inv_of_reachable h
  refine ⟨⟨_, _, hi.explained⟩, hi.sound, fun i hpc => hi.exists_statement hpc, fun i hall => ?_, fun hshut n => ?_⟩
  · have hidle : isIdle (s.pc i) = true := by rw [hall i]; rfl
    by_cases hinit : s.messageQueueState = messageQueueInitialized
    · refine ⟨max (items .inbound).length (items .outbound).length, shutState s i items, ?_⟩
      rw [next, if_pos hidle, hi.shutdown_eq hinit hall, if_pos ⟨Nat.le_max_left .., Nat.le_max_right ..⟩]
    · refine ⟨0, { s with history := s.history ++ [.call i .shutdown, .ret i .shutdown (.cleared .error [])] }, ?_⟩
      rw [next, if_pos hidle, connectorShutdownMessageQueueSubsystem, if_neg hinit]
  · have hne : s.messageQueueState ≠ messageQueueInitialized := by rw [hshut]; decide
    obtain ⟨-, hidle, hitems⟩ := hi.shut hne
    rw [hi.allocated, hi.place_eq_none hidle fun q => hitems q ▸ List.not_mem_nil]
    rfl

/-- A thread enqueues 7 while another waits to dequeue, and the subsystem is shut down with 8 in the queue. -/
def twoThreads : List (Label Bool Nat Nat) :=
  let first (n : Nat) : List (Label Bool Nat Nat) := List.replicate n (.statement true none)
  let second (n : Nat) : List (Label Bool Nat Nat) := List.replicate n (.statement false none)
  [.init true, .enqueue true .inbound 7, .statement true (some 0)] ++ first 5 ++ [.acquire false .inbound] ++ first 6 ++
    second 3 ++ first 1 ++ [.enqueue true .inbound 8, .statement true (some 1)] ++ first 2 ++ second 9 ++ first 10 ++
    [.shutdown false 1]

def twoThreadsStart : State Bool Nat Nat :=
  ⟨messageQueueShutdown, fun _ => connectorLockedQueueInit, fun _ => none, ⟨fun _ => none, id, fun _ => false, false⟩,
    fun _ => .idle, []⟩

theorem seven_dequeued_eight_cleared :
    ∃ s : State Bool Nat Nat, .ret false (.dequeue .inbound) (.message (some 7)) ∈ s.history ∧
      .ret false .shutdown (.cleared .success [8]) ∈ s.history ∧ Linearizable (fifos Nat) s.history := by
  have hrun : (StepSystem.runList (StepSystem.gate Permitted next) twoThreadsStart twoThreads).map (fun s => decide
      (.ret false (.dequeue .inbound) (.message (some 7)) ∈ s.history ∧
        .ret false .shutdown (.cleared .success [8]) ∈ s.history)) = some true := by
    decide +kernel
  obtain ⟨s, hs, hmem⟩ := Option.map_eq_some_iff.mp hrun
  obtain ⟨hseven, height⟩ := of_decide_eq_true hmem
  have hstart : Starts twoThreadsStart := ⟨rfl, fun _ => rfl, rfl, fun _ => rfl, fun _ => rfl, rfl⟩
  have hreach : ((system Bool Nat Nat).guarded Permitted).Reachable s :=
    StepSystem.guarded_reachable_runList (.init hstart) hs
  exact ⟨s, hseven, height, (message_queues_linearizable hreach).1⟩

end SubstanceConnector.MessageQueue
