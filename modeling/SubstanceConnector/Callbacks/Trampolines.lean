import SubstanceConnector.Library.LinkedChain
import SubstanceConnector.Base
import Mathlib.Order.Filter.AtTopBot.Basic

/-!
# The list of trampolines

`callbacks.c`: a singly linked list of function pointers with the most recently added one in front. The nodes are
named by the number of their allocation, so that a name is never used again, and a node that has been freed can not be
read. Functions that are notified may call back into the list; what they do is given for each turn of the walk.

`Registry` is what the list stands for, the occurrences that were added and not removed, and `Represents` connects the
two. Adding and removing refine the registry (`represents_perform`).
-/

namespace SubstanceConnector.Callbacks

open Filter (Eventually atTop eventually_gt_atTop eventually_ge_atTop)

/-- `connector_trampoline_node_t`. -/
structure TrampolineNode (F : Type) where
  trampoline : F
  next : Option Nat

/-- `trampoline_list`, with the nodes the allocator has given out and not got back. -/
structure TrampolineList (F : Type) where
  front : Option Nat
  nodes : Nat → Option (TrampolineNode F)
  allocated : Nat
  freed : List Nat

/-- The calls a function that is notified may make, with whether `connector_allocate` has memory for a new node. -/
inductive RegistryOp (F : Type) where
  | add (trampoline : Option F) (memory : Bool)
  | remove (trampoline : Option F)

/-- What the functions do when they are called, in each turn of the walk. -/
abbrev Behaviour (F : Type) := Nat → F → List (RegistryOp F)

/-- The parameters of `connector_notify_trampolines`. -/
structure Notification where
  context : UInt32
  type : Uuid
  message : Option CString

/-- A node and its function. -/
structure Occurrence (F : Type) where
  node : Nat
  trampoline : F
  deriving DecidableEq

structure TrampolineCall (F : Type) where
  callee : Occurrence F
  notification : Notification

section model
variable {F : Type}

namespace TrampolineList

/-- Reading a node. -/
def node (s : TrampolineList F) (i : Nat) : Except Stop (TrampolineNode F) :=
  match s.nodes i with
  | some node => .ok node
  | none => .error (.fault .useAfterFree)

def setNext (s : TrampolineList F) (i : Nat) (next : Option Nat) : Except Stop (TrampolineList F) := do
  let node ← s.node i
  return { s with nodes := Function.update s.nodes i (some { node with next }) }

/-- `connector_free` of a node. -/
def free (s : TrampolineList F) (i : Nat) : Except Stop (TrampolineList F) :=
  match s.nodes i with
  | some _ => .ok { s with nodes := Function.update s.nodes i none, freed := s.freed ++ [i] }
  | none => .error (.fault .invalidFree)

/-- A new node in front. -/
def push (s : TrampolineList F) (f : F) : TrampolineList F where
  front := some s.allocated
  nodes := Function.update s.nodes s.allocated (some ⟨f, s.front⟩)
  allocated := s.allocated + 1
  freed := s.freed

/-- The `next` fields. -/
def next (s : TrampolineList F) (i : Nat) : Option Nat := (s.nodes i).bind TrampolineNode.next

theorem free_of_live {s : TrampolineList F} {i : Nat} {node : TrampolineNode F} (h : s.nodes i = some node) :
    s.free i = .ok { s with nodes := Function.update s.nodes i none, freed := s.freed ++ [i] } := by
  rw [free, h]

theorem setNext_of_live {s : TrampolineList F} {i : Nat} {node : TrampolineNode F} (h : s.nodes i = some node)
    (next : Option Nat) :
    s.setNext i next = .ok { s with nodes := Function.update s.nodes i (some { node with next }) } := by
  rw [setNext, TrampolineList.node, h]
  rfl

theorem push_nodes_of_ne {s : TrampolineList F} {f : F} {i : Nat} (h : i ≠ s.allocated) :
    (s.push f).nodes i = s.nodes i :=
  Function.update_of_ne h _ _

theorem push_nodes_allocated (s : TrampolineList F) (f : F) :
    (s.push f).nodes s.allocated = some ⟨f, s.front⟩ :=
  Function.update_self ..

theorem next_congr {s s' : TrampolineList F} {i : Nat} (h : s'.nodes i = s.nodes i) : s'.next i = s.next i := by
  rw [next, next, h]

end TrampolineList

def connectorInitTrampolineSubsystem (s : TrampolineList F) : Retcode × TrampolineList F :=
  (.success, { s with front := none })

def shutdownLoop : Nat → Option Nat → TrampolineList F → Except Stop (TrampolineList F)
  | _, none, s => .ok s
  | 0, some _, _ => .error .rounds
  | rounds + 1, some i, s => do
    let node ← s.node i
    let s ← s.free i
    shutdownLoop rounds node.next s

def connectorShutdownTrampolineSubsystem (rounds : Nat) (s : TrampolineList F) :
    Except Stop (Retcode × TrampolineList F) := do
  let s ← shutdownLoop rounds s.front s
  return (.success, s)

def connectorAddTrampoline (memory : Bool) (trampoline : Option F) (s : TrampolineList F) :
    Except Stop (Retcode × TrampolineList F) :=
  match trampoline with
  | none => .ok (.invalid, s)
  | some f =>
    -- the node is written to without a look at the pointer
    if memory then .ok (.success, s.push f) else .error (.fault .nullDereference)

/-- What `connector_remove_trampoline` does with the node it has found. -/
def removeNode (prev : Option Nat) (i : Nat) (next : Option Nat) (s : TrampolineList F) :
    Except Stop (TrampolineList F) := do
  let s ←
    match prev with
    | some p => s.setNext p next
    | none => pure s
  let s := if some i = s.front then { s with front := next } else s
  s.free i

variable [DecidableEq F]

def removeLoop (trampoline : Option F) :
    Nat → Option Nat → Option Nat → TrampolineList F → Except Stop (Retcode × TrampolineList F)
  | _, _, none, s => .ok (.invalid, s)
  | 0, _, some _, _ => .error .rounds
  | rounds + 1, prev, some i, s =>
    match trampoline with
    | none => .ok (.invalid, s)
    | some f => do
      let node ← s.node i
      if node.trampoline = f then
        let s ← removeNode prev i node.next s
        return (.success, s)
      else removeLoop trampoline rounds (some i) node.next s

def connectorRemoveTrampoline (rounds : Nat) (trampoline : Option F) (s : TrampolineList F) :
    Except Stop (Retcode × TrampolineList F) :=
  removeLoop trampoline rounds none s.front s

def perform (rounds : Nat) (s : TrampolineList F) : RegistryOp F → Except Stop (Retcode × TrampolineList F)
  | .add trampoline memory => connectorAddTrampoline memory trampoline s
  | .remove trampoline => connectorRemoveTrampoline rounds trampoline s

/-- The calls one function makes, one after the other. -/
def performAll (rounds : Nat) (s : TrampolineList F) : List (RegistryOp F) → Except Stop (TrampolineList F)
  | [] => .ok s
  | op :: ops => do
    let r ← perform rounds s op
    performAll rounds r.2 ops

/-- The loop of `connector_notify_trampolines`: the calls it makes, and the list when it ends. -/
def notifyLoop (behaviour : Behaviour F) (notification : Notification) (opRounds : Nat) :
    Nat → Nat → Option Nat → TrampolineList F → Except Stop (List (TrampolineCall F) × TrampolineList F)
  | _, _, none, s => .ok ([], s)
  | 0, _, some _, _ => .error .rounds
  | rounds + 1, turn, some i, s => do
    let node ← s.node i
    let s ← performAll opRounds s (behaviour turn node.trampoline)
    -- `node->next` is read after the function has returned
    let left ← s.node i
    let (calls, s) ← notifyLoop behaviour notification opRounds rounds (turn + 1) left.next s
    return (⟨⟨i, node.trampoline⟩, notification⟩ :: calls, s)

def connectorNotifyTrampolines (rounds : Nat) (behaviour : Behaviour F) (notification : Notification)
    (s : TrampolineList F) : Except Stop (Retcode × List (TrampolineCall F) × TrampolineList F) := do
  let r ← notifyLoop behaviour notification rounds rounds 0 s.front s
  return (.success, r)

end model

/-! ## What the list stands for -/

/-- The occurrences that are registered, the most recent first, how many were added, and the nodes of those that were
removed, in order. Each node ever added is either registered or released, once. -/
structure Registry (F : Type) where
  entries : List (Occurrence F)
  added : Nat
  released : List Nat
  balance : (released ++ entries.map Occurrence.node).Perm (List.range added)

namespace Registry
variable {F : Type}

def empty : Registry F := ⟨[], 0, [], .refl _⟩

theorem node_lt (r : Registry F) {o : Occurrence F} (ho : o ∈ r.entries) : o.node < r.added := by
  apply List.mem_range.mp
  apply r.balance.subset
  exact List.mem_append_right _ (List.mem_map_of_mem ho)

theorem released_lt (r : Registry F) {i : Nat} (hi : i ∈ r.released) : i < r.added := by
  apply List.mem_range.mp
  apply r.balance.subset
  exact List.mem_append_left _ hi

theorem nodup_nodes (r : Registry F) : (r.released ++ r.entries.map Occurrence.node).Nodup :=
  r.balance.nodup_iff.mpr List.nodup_range

theorem nodup (r : Registry F) : r.entries.Nodup := (List.nodup_append.mp r.nodup_nodes).2.1.of_map _

theorem not_released (r : Registry F) {o : Occurrence F} (ho : o ∈ r.entries) : o.node ∉ r.released := fun hmem =>
  List.disjoint_of_nodup_append r.nodup_nodes hmem (List.mem_map_of_mem ho)

theorem eq_of_node_eq (r : Registry F) {o p : Occurrence F} (ho : o ∈ r.entries) (hp : p ∈ r.entries)
    (hnode : o.node = p.node) : o = p :=
  List.inj_on_of_nodup_map (List.nodup_append.mp r.nodup_nodes).2.1 ho hp hnode

def add (r : Registry F) (f : F) : Registry F where
  entries := ⟨r.added, f⟩ :: r.entries
  added := r.added + 1
  released := r.released
  balance := by
    rw [List.map_cons, List.range_succ]
    apply List.perm_middle.trans
    apply List.Perm.trans _ (List.perm_append_singleton r.added (List.range r.added)).symm
    exact r.balance.cons r.added

variable [DecidableEq F]

def release (r : Registry F) (o : Occurrence F) (ho : o ∈ r.entries) : Registry F where
  entries := r.entries.erase o
  added := r.added
  released := r.released ++ [o.node]
  balance := by
    rw [List.append_assoc]
    apply List.Perm.trans _ r.balance
    apply List.Perm.append_left
    exact ((List.perm_cons_erase ho).map Occurrence.node).symm

/-- The occurrence of a function that was added last. -/
def latest (r : Registry F) (f : F) : Option (Occurrence F) := r.entries.find? (·.trampoline = f)

def remove (r : Registry F) (f : F) : Registry F :=
  match h : r.latest f with
  | none => r
  | some o => r.release o (List.mem_of_find?_eq_some h)

/-- What the call leaves registered. -/
def after (r : Registry F) : RegistryOp F → Registry F
  | .add (some f) true => r.add f
  | .remove (some f) => r.remove f
  | .add (some _) false | .add none _ | .remove none => r

def reply (r : Registry F) : RegistryOp F → Retcode
  | .add (some _) _ => .success
  | .remove (some f) => if (r.latest f).isSome then .success else .invalid
  | .add none _ | .remove none => .invalid

def afterAll (r : Registry F) (ops : List (RegistryOp F)) : Registry F := ops.foldl after r

theorem remove_of_none {r : Registry F} {f : F} (h : r.latest f = none) : r.remove f = r := by
  unfold remove
  split
  · rfl
  · simp_all

theorem remove_of_some {r : Registry F} {f : F} {o : Occurrence F} (h : r.latest f = some o) :
    r.remove f = r.release o (List.mem_of_find?_eq_some h) := by
  unfold remove
  split
  · simp_all
  · rename_i o' h'
    obtain rfl : o' = o := Option.some.inj (h'.symm.trans h)
    rfl

/-- What one call can do to the registry. -/
theorem after_cases (r : Registry F) (op : RegistryOp F) :
    r.after op = r ∨ (∃ f, r.after op = r.add f) ∨ ∃ o, ∃ ho : o ∈ r.entries, r.after op = r.release o ho := by
  cases op with
  | add trampoline memory =>
    cases trampoline with
    | none => exact .inl rfl
    | some f =>
      cases memory with
      | false => exact .inl rfl
      | true => exact .inr (.inl ⟨f, rfl⟩)
  | remove trampoline =>
    cases trampoline with
    | none => exact .inl rfl
    | some f =>
      cases h : r.latest f with
      | none => exact .inl (remove_of_none h)
      | some o => exact .inr (.inr ⟨o, _, remove_of_some h⟩)

end Registry

/-- An addition gets its memory. -/
def RegistryOp.Provided {F : Type} : RegistryOp F → Prop
  | .add (some _) memory => memory = true
  | .add none _ | .remove _ => True

instance {F : Type} : DecidablePred (RegistryOp.Provided (F := F)) := fun op =>
  match op with
  | .add (some _) memory => inferInstanceAs (Decidable (memory = true))
  | .add none _ | .remove _ => .isTrue trivial

section refinement
variable {F : Type}

/-- The shutdown frees the nodes it comes to, in order. -/
theorem shutdownLoop_eq {s : TrampolineList F} {start : Option Nat} {nodes : List Nat}
    (hlinked : Linked s.next start nodes) (hlive : ∀ i ∈ nodes, ∃ node, s.nodes i = some node) :
    ∃ s', s'.freed = s.freed ++ nodes ∧ s'.allocated = s.allocated ∧
      ∀ rounds, nodes.length ≤ rounds → shutdownLoop rounds start s = .ok s' := by
  induction nodes generalizing s start with
  | nil =>
    obtain rfl : start = none := hlinked
    refine ⟨s, (List.append_nil _).symm, rfl, fun rounds _ => ?_⟩
    cases rounds <;> rfl
  | cons i rest ih =>
    have hnotin := (List.nodup_cons.mp hlinked.nodup).1
    obtain ⟨rfl, hrest⟩ := hlinked
    obtain ⟨node, hnode⟩ := hlive i List.mem_cons_self
    obtain ⟨s₁, hs₁⟩ : ∃ s₁ : TrampolineList F,
        s₁ = { s with nodes := Function.update s.nodes i none, freed := s.freed ++ [i] } := ⟨_, rfl⟩
    have hsame : ∀ j ∈ rest, s₁.nodes j = s.nodes j := by
      intro j hj
      rw [hs₁]
      apply Function.update_of_ne
      rintro rfl
      exact hnotin hj
    obtain ⟨s', hfreed, hallocated, hrun⟩ := ih
      (hrest.congr fun j hj => TrampolineList.next_congr (hsame j hj))
      (fun j hj => by rw [hsame j hj]; exact hlive j (List.mem_cons_of_mem i hj))
    refine ⟨s', ?_, ?_, fun rounds hrounds => ?_⟩
    · rw [hfreed, hs₁, List.append_assoc]
      rfl
    · rw [hallocated, hs₁]
    · cases rounds with
      | zero => simp at hrounds
      | succ rounds =>
        have hnext : node.next = s.next i := by
          rw [TrampolineList.next, hnode]
          rfl
        rw [← hrun rounds (Nat.le_of_succ_le_succ hrounds), shutdownLoop, TrampolineList.node, hnode,
          TrampolineList.free_of_live hnode, ← hs₁, ← hnext]
        rfl

/-- The nodes lead from the front through the occurrences that are registered, each with its function; the nodes of
those that were removed can not be read. -/
structure Represents (s : TrampolineList F) (r : Registry F) : Prop where
  linked : Linked s.next s.front (r.entries.map Occurrence.node)
  stored : ∀ o ∈ r.entries, ∃ node, s.nodes o.node = some node ∧ node.trampoline = o.trampoline
  gone : ∀ i ∈ r.released, s.nodes i = none
  allocated : s.allocated = r.added
  freed : s.freed = r.released

namespace Represents
variable {s : TrampolineList F} {r : Registry F} {o : Occurrence F}

theorem node_eq (h : Represents s r) (ho : o ∈ r.entries) :
    s.node o.node = .ok ⟨o.trampoline, s.next o.node⟩ := by
  obtain ⟨⟨trampoline, next⟩, hnode, rfl⟩ := h.stored o ho
  unfold TrampolineList.node TrampolineList.next
  rw [hnode]
  rfl

theorem node_ne_allocated (h : Represents s r) (ho : o ∈ r.entries) : o.node ≠ s.allocated := by
  rw [h.allocated]
  exact (r.node_lt ho).ne

theorem add (h : Represents s r) (f : F) : Represents (s.push f) (r.add f) := by
  refine ⟨⟨congrArg some h.allocated, ?_⟩, ?_, ?_, congrArg (· + 1) h.allocated, h.freed⟩
  · have hnext : (s.push f).next r.added = s.front := by
      rw [TrampolineList.next, ← h.allocated, s.push_nodes_allocated]
      rfl
    rw [hnext]
    apply h.linked.congr
    intro i hi
    obtain ⟨o, ho, rfl⟩ := List.mem_map.mp hi
    exact TrampolineList.next_congr (TrampolineList.push_nodes_of_ne (h.node_ne_allocated ho))
  · intro o ho
    obtain rfl | ho := List.mem_cons.mp ho
    · refine ⟨⟨f, s.front⟩, ?_, rfl⟩
      rw [← h.allocated]
      exact s.push_nodes_allocated f
    · obtain ⟨node, hnode, htrampoline⟩ := h.stored o ho
      exact ⟨node, (TrampolineList.push_nodes_of_ne (h.node_ne_allocated ho)).trans hnode, htrampoline⟩
  · intro i hi
    have hne : i ≠ s.allocated := by
      rw [h.allocated]
      exact (r.released_lt hi).ne
    exact (TrampolineList.push_nodes_of_ne hne).trans (h.gone i hi)

theorem node_gone (h : Represents s r) (ho : o.node ∈ r.released) : s.node o.node = .error (.fault .useAfterFree) := by
  rw [TrampolineList.node, h.gone o.node ho]

theorem shutdown (h : Represents s r) :
    ∃ s', s'.freed = r.released ++ r.entries.map Occurrence.node ∧ s'.allocated = r.added ∧
      ∀ᶠ rounds in atTop, connectorShutdownTrampolineSubsystem rounds s = .ok (.success, s') := by
  have hlive : ∀ i ∈ r.entries.map Occurrence.node, ∃ node, s.nodes i = some node := by
    intro i hi
    obtain ⟨o, ho, rfl⟩ := List.mem_map.mp hi
    obtain ⟨node, hnode, -⟩ := h.stored o ho
    exact ⟨node, hnode⟩
  obtain ⟨s', hfreed, hallocated, hrun⟩ := shutdownLoop_eq h.linked hlive
  refine ⟨s', by rw [hfreed, h.freed], by rw [hallocated, h.allocated], ?_⟩
  filter_upwards [eventually_ge_atTop (r.entries.map Occurrence.node).length] with rounds hrounds
  rw [connectorShutdownTrampolineSubsystem, hrun rounds hrounds]
  rfl

variable [DecidableEq F] {before rest : List (Occurrence F)}

theorem erase_split (r : Registry F) (hentries : r.entries = before ++ o :: rest) :
    r.entries.erase o = before ++ rest := by
  have hnodup := r.nodup
  rw [hentries] at hnodup ⊢
  have ho : o ∉ before := fun ho => (List.nodup_middle.mp hnodup |> List.nodup_cons.mp).1 (List.mem_append_left _ ho)
  rw [List.erase_append_right _ ho, List.erase_cons_head]

/-- A node that is on the chain no longer is freed. -/
theorem free (h : Represents s r) (s₁ : TrampolineList F) (hentries : r.entries = before ++ o :: rest)
    (ho : o ∈ r.entries) (hlinked : Linked s₁.next s₁.front ((before ++ rest).map Occurrence.node))
    (hstored : ∀ p ∈ r.entries, ∃ node, s₁.nodes p.node = some node ∧ node.trampoline = p.trampoline)
    (hgone : ∀ i ∈ r.released, s₁.nodes i = none) (hallocated : s₁.allocated = s.allocated)
    (hfreed : s₁.freed = s.freed) :
    ∃ s', s₁.free o.node = .ok s' ∧ Represents s' (r.release o ho) := by
  obtain ⟨node, hnode, -⟩ := hstored o ho
  have hrest : (r.release o ho).entries = before ++ rest := erase_split r hentries
  have hother : ∀ p ∈ before ++ rest, p ∈ r.entries ∧ p.node ≠ o.node := by
    intro p hp
    have hnodup := r.nodup
    have hmem : p ∈ r.entries := by
      rw [hentries]
      exact List.perm_middle.symm.subset (List.mem_cons_of_mem o hp)
    refine ⟨hmem, fun heq => ?_⟩
    obtain rfl := r.eq_of_node_eq hmem ho heq
    rw [hentries] at hnodup
    exact (List.nodup_cons.mp (List.nodup_middle.mp hnodup)).1 hp
  refine ⟨_, TrampolineList.free_of_live hnode, ?_, ?_, ?_, hallocated.trans h.allocated, ?_⟩
  · rw [hrest]
    apply hlinked.congr
    intro i hi
    obtain ⟨p, hp, rfl⟩ := List.mem_map.mp hi
    apply TrampolineList.next_congr
    exact Function.update_of_ne (hother p hp).2 _ _
  · intro p hp
    rw [hrest] at hp
    obtain ⟨node, hnode, htrampoline⟩ := hstored p (hother p hp).1
    exact ⟨node, (Function.update_of_ne (hother p hp).2 _ _).trans hnode, htrampoline⟩
  · intro i hi
    by_cases heq : i = o.node
    · rw [heq]
      exact Function.update_self ..
    · obtain hi | hi := List.mem_append.mp hi
      · exact (Function.update_of_ne heq _ _).trans (hgone i hi)
      · exact absurd (List.mem_singleton.mp hi) heq
  · change s₁.freed ++ [o.node] = r.released ++ [o.node]
    rw [hfreed, h.freed]

theorem latest_split {r : Registry F} {f : F} (hentries : r.entries = before ++ rest)
    (hbefore : ∀ o ∈ before, o.trampoline ≠ f) : r.latest f = rest.find? (·.trampoline = f) := by
  have hnone : before.find? (·.trampoline = f) = none := by
    apply List.find?_eq_none.mpr
    simpa using hbefore
  rw [Registry.latest, hentries, List.find?_append, hnone]
  rfl

/-- The removal of the occurrence the loop has come to. -/
theorem removeNode (h : Represents s r) (hentries : r.entries = before ++ o :: rest) (ho : o ∈ r.entries) :
    ∃ s', removeNode (before.getLast?.map Occurrence.node) o.node (s.next o.node) s = .ok s' ∧
      Represents s' (r.release o ho) := by
  have hlinked := h.linked
  rw [hentries, List.map_append, List.map_cons] at hlinked
  obtain rfl | ⟨first, p, rfl⟩ := before.eq_nil_or_concat'
  · -- the node is the first one, and the front becomes its successor
    have hfront : some o.node = s.front := hlinked.1.symm
    obtain ⟨s', hfree, hrep⟩ := h.free { s with front := s.next o.node } hentries ho hlinked.2 h.stored h.gone
      rfl rfl
    refine ⟨s', ?_, hrep⟩
    rw [← hfree]
    unfold Callbacks.removeNode
    simp [hfront, bind, Except.bind, pure, Except.pure]
  · have hp : p ∈ r.entries := by simp [hentries]
    obtain ⟨node, hnode, htrampoline⟩ := h.stored p hp
    obtain ⟨s₁, hs₁⟩ : ∃ s₁ : TrampolineList F,
        s₁ = { s with nodes := Function.update s.nodes p.node (some { node with next := s.next o.node }) } := ⟨_, rfl⟩
    have hnext : s₁.next = Function.update s.next p.node (s.next o.node) := by
      funext i
      by_cases hi : i = p.node
      · simp [hs₁, hi, TrampolineList.next]
      · rw [Function.update_of_ne hi]
        apply TrampolineList.next_congr
        simp [hs₁, hi]
    have hlast : ((first ++ [p]).map Occurrence.node).getLast? = some p.node := by simp
    have hunlinked : Linked s₁.next s₁.front ((first ++ [p] ++ rest).map Occurrence.node) := by
      rw [hnext, hs₁, List.map_append]
      exact hlinked.unlink hlast
    have hstored : ∀ q ∈ r.entries, ∃ node, s₁.nodes q.node = some node ∧ node.trampoline = q.trampoline := by
      intro q hq
      by_cases heq : q.node = p.node
      · obtain rfl := r.eq_of_node_eq hq hp heq
        exact ⟨{ node with next := s.next o.node }, by simp [hs₁], htrampoline⟩
      · obtain ⟨node', hnode', htrampoline'⟩ := h.stored q hq
        exact ⟨node', by simp [hs₁, heq, hnode'], htrampoline'⟩
    have hgone : ∀ i ∈ r.released, s₁.nodes i = none := by
      intro i hi
      have hne : i ≠ p.node := fun heq => r.not_released hp (heq ▸ hi)
      rw [hs₁]
      exact (Function.update_of_ne hne _ _).trans (h.gone i hi)
    obtain ⟨s', hfree, hrep⟩ := h.free s₁ hentries ho hunlinked hstored hgone (by rw [hs₁]) (by rw [hs₁])
    refine ⟨s', ?_, hrep⟩
    -- the first node is one before this one
    have hfront : some o.node ≠ s.front := by
      have hnodup := hlinked.nodup
      obtain ⟨q, others, hq⟩ := List.exists_cons_of_ne_nil (l := first ++ [p]) (by simp)
      rw [← hlinked.head?_eq]
      rw [hq] at hnodup ⊢
      rintro heq
      obtain heq : o.node = q.node := Option.some.inj heq
      apply List.disjoint_of_nodup_append hnodup List.mem_cons_self
      rw [← heq]
      exact List.mem_cons_self
    have hfront₁ : some o.node ≠ s₁.front := by rwa [hs₁]
    unfold Callbacks.removeNode
    simp only [List.getLast?_concat, Option.map_some, TrampolineList.setNext_of_live hnode, ← hs₁]
    change (if some o.node = s₁.front then _ else s₁).free o.node = .ok s'
    rw [if_neg hfront₁]
    exact hfree

theorem removeLoop (h : Represents s r) (f : F) (hentries : r.entries = before ++ rest)
    (hbefore : ∀ o ∈ before, o.trampoline ≠ f) :
    ∃ s', Represents s' (r.remove f) ∧ ∀ rounds, rest.length ≤ rounds →
      removeLoop (some f) rounds (before.getLast?.map Occurrence.node) (rest.head?.map Occurrence.node) s =
        .ok (r.reply (.remove (some f)), s') := by
  have hlatest := latest_split hentries hbefore
  induction rest generalizing before with
  | nil =>
    refine ⟨s, ?_, fun rounds _ => ?_⟩
    · rw [Registry.remove_of_none hlatest]
      exact h
    · rw [Registry.reply, hlatest]
      cases rounds <;> rfl
  | cons o rest ih =>
    have ho : o ∈ r.entries := by
      rw [hentries]
      exact List.mem_append_right _ List.mem_cons_self
    have hnext : s.next o.node = rest.head?.map Occurrence.node := by
      have hlinked := h.linked
      rw [hentries, List.map_append, List.map_cons] at hlinked
      rw [← hlinked.of_append.2.head?_eq, List.head?_map]
    by_cases hf : o.trampoline = f
    · have hfound : r.latest f = some o := by
        rw [hlatest]
        exact List.find?_cons_of_pos (by simpa using hf)
      obtain ⟨s', hremoved, hrep⟩ := h.removeNode hentries ho
      refine ⟨s', ?_, fun rounds hrounds => ?_⟩
      · rw [Registry.remove_of_some hfound]
        exact hrep
      · cases rounds with
        | zero => simp at hrounds
        | succ rounds =>
          change (do
            let node ← s.node o.node
            _) = _
          rw [h.node_eq ho, Registry.reply, hfound]
          simp [hf, hremoved, bind, Except.bind, pure, Except.pure]
    · have hentries' : r.entries = before ++ [o] ++ rest := by simp [hentries]
      have hbefore' : ∀ p ∈ before ++ [o], p.trampoline ≠ f := by
        intro p hp
        obtain hp | hp := List.mem_append.mp hp
        · exact hbefore p hp
        · rw [List.mem_singleton.mp hp]
          exact hf
      obtain ⟨s', hrep, hrun⟩ := ih hentries' hbefore' (latest_split hentries' hbefore')
      refine ⟨s', hrep, fun rounds hrounds => ?_⟩
      cases rounds with
      | zero => simp at hrounds
      | succ rounds =>
        rw [← hrun rounds (Nat.le_of_succ_le_succ hrounds), List.getLast?_concat, ← hnext]
        change (do
          let node ← s.node o.node
          _) = _
        rw [h.node_eq ho]
        simp [hf, bind, Except.bind]

/-- The two calls refine the registry, with enough rounds. -/
theorem perform (h : Represents s r) {op : RegistryOp F} (hprovided : op.Provided) :
    ∃ s', Represents s' (r.after op) ∧ ∀ᶠ rounds in atTop, perform rounds s op = .ok (r.reply op, s') := by
  cases op with
  | add trampoline memory =>
    cases trampoline with
    | none => exact ⟨s, h, .of_forall fun _ => rfl⟩
    | some f =>
      obtain rfl : memory = true := hprovided
      exact ⟨s.push f, h.add f, .of_forall fun _ => rfl⟩
  | remove trampoline =>
    cases trampoline with
    | none =>
      refine ⟨s, h, ?_⟩
      filter_upwards [eventually_gt_atTop 0] with rounds hrounds
      obtain ⟨rounds, rfl⟩ := Nat.exists_eq_add_one.mpr hrounds
      unfold Callbacks.perform connectorRemoveTrampoline
      cases s.front <;> rfl
    | some f =>
      obtain ⟨s', hrep, hrun⟩ := h.removeLoop f (show r.entries = [] ++ r.entries from rfl) (by simp)
      refine ⟨s', hrep, ?_⟩
      filter_upwards [eventually_ge_atTop r.entries.length] with rounds hrounds
      unfold Callbacks.perform connectorRemoveTrampoline
      rw [← h.linked.head?_eq, List.head?_map]
      exact hrun rounds hrounds

theorem perform_not_provided {op : RegistryOp F} (h : ¬ op.Provided) (rounds : Nat) (s : TrampolineList F) :
    Callbacks.perform rounds s op = .error (.fault .nullDereference) := by
  cases op with
  | add trampoline memory =>
    cases trampoline with
    | none => exact absurd trivial h
    | some f =>
      obtain rfl : memory = false := Bool.eq_false_of_not_eq_true h
      rfl
  | remove trampoline => exact absurd trivial h

theorem performAll (h : Represents s r) {ops : List (RegistryOp F)} (hprovided : ∀ op ∈ ops, op.Provided) :
    ∃ s', Represents s' (r.afterAll ops) ∧ ∀ᶠ rounds in atTop, performAll rounds s ops = .ok s' := by
  induction ops generalizing s r with
  | nil => exact ⟨s, h, .of_forall fun _ => rfl⟩
  | cons op ops ih =>
    obtain ⟨s₁, hrep₁, hfirst⟩ := h.perform (hprovided op List.mem_cons_self)
    obtain ⟨s', hrep, hrest⟩ := ih hrep₁ fun op hop => hprovided op (List.mem_cons_of_mem _ hop)
    refine ⟨s', hrep, ?_⟩
    filter_upwards [hfirst, hrest] with rounds hfirst hrest
    rw [Callbacks.performAll, hfirst]
    exact hrest

theorem performAll_not_provided (h : Represents s r) {ops : List (RegistryOp F)}
    (hprovided : ¬ ∀ op ∈ ops, op.Provided) :
    ∀ᶠ rounds in atTop, Callbacks.performAll rounds s ops = .error (.fault .nullDereference) := by
  induction ops generalizing s r with
  | nil => exact absurd (by simp) hprovided
  | cons op ops ih =>
    by_cases hop : op.Provided
    · obtain ⟨s₁, hrep₁, hfirst⟩ := h.perform hop
      have hrest := ih hrep₁ fun hall => hprovided (List.forall_mem_cons.mpr ⟨hop, hall⟩)
      filter_upwards [hfirst, hrest] with rounds hfirst hrest
      rw [Callbacks.performAll, hfirst]
      exact hrest
    · apply Eventually.of_forall
      intro rounds
      rw [Callbacks.performAll, perform_not_provided hop]
      rfl

end Represents

end refinement

end SubstanceConnector.Callbacks
