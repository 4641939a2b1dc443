import Mathlib.Algebra.Order.BigOperators.Group.Finset
import SubstanceConnector.Context.Cleanup
import SubstanceConnector.Threads.ReadRoutine

/-!
# One read thread and the rest of the world

`read_thread_routine` as the machine of a single thread: whatever the flag, the available queue, the states of the
contexts and `poll` answer, each answer is the world's choice at that step. The machine says which array positions a
step accesses and which events it acts on, so that what the routine itself guarantees can be stated without the other
threads. The positions stay inside the arrays (`accesses_in_bounds`): the routine tests the load before it acquires, and
while it waits it has no context at all.
-/

namespace SubstanceConnector.Routine

open ReadThreads (After PollAnswer pollErr pollHup)
open ContextSystem (Arrays entries)

/-! ## The model -/

/-- `SUBSTANCE_CONNECTOR_READ_CONTEXTS` for the counts of a build. It is not in parentheses; it is used as the bound of
a comparison and as the size of the two arrays, where it expands to this sum. -/
def readContexts (contextCount inboundCount : Nat) : Nat := contextCount / inboundCount + 1

inductive Pc where
  | loopTest
  | waitTest
  | wait
  | wokenTest
  | wokenAcquire
  | exitTest
  | acquire
  | pollEntry
  | cleanup (i : Nat) (after : After)
  | pollTest
  | poll
  | handle (i : Nat)
  | exitClose (i : Nat)
  | done
  deriving DecidableEq

/-- What the routine does about an event: disconnect and close, or `connector_read_thread_handle_context`. -/
inductive Action where
  | close
  | handleContext
  deriving DecidableEq

/-- The tests of the event loop, in their order. -/
def action (revents : UInt16) : Option Action :=
  if revents &&& pollErr ≠ 0 then some .close
  else if revents &&& pollHup ≠ 0 then some .close
  else if revents &&& pollIn ≠ 0 then some .handleContext
  else none

/-- The thread, and the events of the last successful poll it has not acted on yet. -/
structure State where
  pc : Pc
  data : ReadThread
  due : List (UInt32 × UInt16)
  deriving DecidableEq

/-- What everything outside the thread answers to one step. -/
structure World where
  -- `read_thread_shutdown_flag`
  flag : Bool
  -- `connector_available_queue_pop`
  popped : Option UInt32
  -- `connector_context_get_fd`
  fd : UInt32 → Nat
  -- whether `connector_context_state` has SUBSTANCE_CONNECTOR_CONN_SHUTDOWN set
  shutDown : UInt32 → Bool
  polled : PollAnswer

/-- The answers when nothing happens. -/
def quiet : World := ⟨false, none, fun _ => 0, fun _ => false, .timeout⟩

/-- What a step does to the arrays and about the polled events. -/
inductive Event where
  -- `contexts[index]` or `context_ids[index]` is read or written
  | access (index : Nat)
  -- `assigned_contexts` is decremented from this value
  | decrement (assigned : Nat)
  | acted (action : Action) (context : UInt32) (revents : UInt16)
  deriving DecidableEq

/-- `connector_read_thread_try_acquire`, which does not test the load. -/
def tryAcquire (w : World) (data : ReadThread) : ReadThread × List Event :=
  match w.popped with
  | none => (data, [])
  | some context =>
    let index := data.assignedContexts
    let entry := data.contexts.getD index ⟨0, 0, 0⟩
    ({ contexts := data.contexts.set index { entry with fd := w.fd context, events := pollIn }
       contextIds := data.contextIds.set index context
       assignedContexts := index + 1 }, [.access index])

/-- What `connector_read_thread_remove_context` accesses. -/
def removeEvents (data : ReadThread) (index : Nat) : List Event :=
  if index < data.assignedContexts then
    let last := data.assignedContexts - 1
    .decrement data.assignedContexts :: if 0 < last then [.access index, .access last] else []
  else []

/-- The events of the entries in use that the loop will act on. -/
def reported (data : ReadThread) : List (UInt32 × UInt16) :=
  ((entries data).map fun e => (e.1, e.2.revents)).filter fun e => (action e.2).isSome

def setRevents (data : ReadThread) (revents : Nat → UInt16) : ReadThread :=
  { data with contexts := data.contexts.mapIdx fun k e =>
      if k < data.assignedContexts then { e with revents := revents k } else e }

/-- `connector_poll_contexts`: a poll that fails leaves the entries, and only a timeout, which reports nothing, polls
again. -/
def poll (s : State) (answer : PollAnswer) : State × List Event :=
  let data := s.data
  if data.assignedContexts = 0 then ({ s with pc := .handle 0 }, [])
  else
    let accesses := (List.range data.assignedContexts).map Event.access
    match answer with
    | .timeout => (⟨.cleanup data.assignedContexts .poll, setRevents data fun _ => 0, []⟩, accesses)
    | .failed => ({ s with pc := .handle 0 }, accesses)
    | .ready revents =>
      let data := setRevents data fun k => revents.getD k 0
      (⟨.handle 0, data, reported data⟩, accesses)

/-- The next step; a thread that has ended makes none. -/
def step (capacity : Nat) (s : State) (w : World) : Option (State × List Event) :=
  let assigned := s.data.assignedContexts
  match s.pc with
  | .loopTest => some ({ s with pc := if w.flag then .exitClose 0 else .waitTest }, [])
  | .waitTest => some ({ s with pc := if assigned = 0 ∧ w.flag = false then .wait else .exitTest }, [])
  | .wait => some ({ s with pc := .wokenTest }, [])
  | .wokenTest => some ({ s with pc := if w.flag then .exitTest else .wokenAcquire }, [])
  | .wokenAcquire =>
    let acquired := tryAcquire w s.data
    some ({ s with pc := .waitTest, data := acquired.1 }, acquired.2)
  | .exitTest => some ({ s with pc := if w.flag then .exitClose 0 else .acquire }, [])
  | .acquire =>
    if assigned < capacity then
      let acquired := tryAcquire w s.data
      some ({ s with pc := .pollEntry, data := acquired.1 }, acquired.2)
    else some ({ s with pc := .pollEntry }, [])
  | .pollEntry => some ({ s with pc := if 0 < assigned then .cleanup assigned .poll else .handle 0 }, [])
  | .cleanup 0 .poll => some ({ s with pc := .pollTest }, [])
  | .cleanup 0 .loop => some ({ s with pc := .loopTest }, [])
  | .cleanup 0 .exit => some ({ s with pc := .done }, [])
  | .cleanup (k + 1) after =>
    let context := s.data.contextIds.getD k 0
    if w.shutDown context then
      -- the events of a context go with it
      some (⟨.cleanup k after, (connectorReadThreadRemoveContext s.data k).2, s.due.filter fun e => e.1 ≠ context⟩,
        .access k :: removeEvents s.data k)
    else some ({ s with pc := .cleanup k after }, [.access k])
  | .pollTest => some ({ s with pc := if w.flag then .exitClose 0 else .poll }, [])
  | .poll => some (poll s w.polled)
  | .handle k =>
    if k < assigned then
      let context := s.data.contextIds.getD k 0
      let revents := (s.data.contexts.getD k ⟨0, 0, 0⟩).revents
      match action revents with
      | some what =>
        some ({ s with pc := .handle (k + 1), due := s.due.erase (context, revents) },
          [.access k, .acted what context revents])
      | none => some ({ s with pc := .handle (k + 1) }, [.access k])
    else some ({ s with pc := .cleanup assigned .loop }, [])
  -- a context is closed here because the thread ends
  | .exitClose k =>
    if k < assigned then some ({ s with pc := .exitClose (k + 1) }, [.access k])
    else some ({ s with pc := .cleanup assigned .exit }, [])
  | .done => none

def next (capacity : Nat) (s : State) (w : World) : Option State := (step capacity s w).map Prod.fst

/-- `connector_init_read_threads` resets the count; what earlier threads have left in the arrays stays. -/
def Starts (capacity : Nat) (s : State) : Prop :=
  s.pc = .loopTest ∧ s.data.contextIds.length = capacity ∧ s.data.contexts.length = capacity ∧
    s.data.assignedContexts = 0 ∧ s.due = []

def system (capacity : Nat) : StepSystem State World := .ofNext (Starts capacity) (next capacity)

/-! ## The positions -/

/-- The position is inside the arrays, and the count does not fall below zero. -/
def Event.InBounds (capacity : Nat) : Event → Prop
  | .access index => index < capacity
  | .decrement assigned => 0 < assigned
  | .acted _ _ _ => True

/-- A thread that waits has no context, and a cleanup starts from the entries in use. -/
def Pc.Fits : Pc → Nat → Prop
  | .wait, assigned | .wokenTest, assigned | .wokenAcquire, assigned => assigned = 0
  | .cleanup i _, assigned => i ≤ assigned
  | _, _ => True

structure Inv (capacity : Nat) (s : State) : Prop where
  arrays : Arrays capacity s.data
  fits : s.pc.Fits s.data.assignedContexts

section bounds
variable {capacity : Nat} {data : ReadThread} {w : World}

theorem arrays_tryAcquire (h : Arrays capacity data) (hroom : data.assignedContexts < capacity) :
    Arrays capacity (tryAcquire w data).1 ∧ ∀ e ∈ (tryAcquire w data).2, e.InBounds capacity := by
  unfold tryAcquire
  cases w.popped with
  | none => exact ⟨h, fun e he => absurd he List.not_mem_nil⟩
  | some context =>
    refine ⟨⟨by rw [List.length_set, h.ids], by rw [List.length_set, h.contexts], hroom⟩, fun e he => ?_⟩
    obtain rfl := List.mem_singleton.mp he
    exact hroom

theorem arrays_setRevents (h : Arrays capacity data) (revents : Nat → UInt16) :
    Arrays capacity (setRevents data revents) := ⟨h.ids, by rw [setRevents, List.length_mapIdx, h.contexts], h.assigned⟩

theorem inBounds_removeEvents (h : Arrays capacity data) {k : Nat} (hk : k < data.assignedContexts) :
    ∀ e ∈ removeEvents data k, e.InBounds capacity := by
  have hassigned := h.assigned
  intro e he
  rw [removeEvents, if_pos hk] at he
  rcases List.mem_cons.mp he with rfl | he
  · exact Nat.lt_of_le_of_lt (Nat.zero_le k) hk
  · split at he
    · rcases List.mem_pair.mp he with rfl | rfl
      · exact Nat.lt_of_lt_of_le hk hassigned
      · show data.assignedContexts - 1 < capacity
        omega
    · exact absurd he List.not_mem_nil

theorem inv_poll {s : State} (hs : Inv capacity s) (answer : PollAnswer) :
    Inv capacity (poll s answer).1 ∧ ∀ e ∈ (poll s answer).2, e.InBounds capacity := by
  have haccesses : ∀ e ∈ (List.range s.data.assignedContexts).map Event.access, e.InBounds capacity := by
    intro e he
    obtain ⟨k, hk, rfl⟩ := List.mem_map.mp he
    exact Nat.lt_of_lt_of_le (List.mem_range.mp hk) hs.arrays.assigned
  unfold poll
  dsimp only
  split
  · exact ⟨⟨hs.arrays, trivial⟩, fun e he => absurd he List.not_mem_nil⟩
  · cases answer with
    | timeout => exact ⟨⟨arrays_setRevents hs.arrays _, Nat.le_refl _⟩, haccesses⟩
    | failed => exact ⟨⟨hs.arrays, trivial⟩, haccesses⟩
    | ready revents => exact ⟨⟨arrays_setRevents hs.arrays _, trivial⟩, haccesses⟩

theorem inv_step {s s' : State} {events : List Event} (hpos : 0 < capacity) (hs : Inv capacity s)
    (h : step capacity s w = some (s', events)) : Inv capacity s' ∧ ∀ e ∈ events, e.InBounds capacity := by
  obtain ⟨pc, data, due⟩ := s
  obtain ⟨harrays, hfits⟩ := hs
  replace harrays : Arrays capacity data := harrays
  have hassigned : data.assignedContexts ≤ capacity := harrays.assigned
  have hnone : ∀ e ∈ ([] : List Event), e.InBounds capacity := fun e he => absurd he List.not_mem_nil
  have hone : ∀ k < data.assignedContexts, ∀ e ∈ [Event.access k], e.InBounds capacity := by
    intro k hk e he
    obtain rfl := List.mem_singleton.mp he
    exact Nat.lt_of_lt_of_le hk hassigned
  cases pc with
  | loopTest =>
    obtain ⟨rfl, rfl⟩ := Prod.mk.inj (Option.some.inj h)
    refine ⟨⟨harrays, ?_⟩, hnone⟩
    cases w.flag <;> trivial
  | waitTest =>
    obtain ⟨rfl, rfl⟩ := Prod.mk.inj (Option.some.inj h)
    refine ⟨⟨harrays, ?_⟩, hnone⟩
    show Pc.Fits (if _ then _ else _) _
    split
    · rename_i hidle
      exact hidle.1
    · trivial
  | wait =>
    obtain ⟨rfl, rfl⟩ := Prod.mk.inj (Option.some.inj h)
    exact ⟨⟨harrays, hfits⟩, hnone⟩
  | wokenTest =>
    obtain ⟨rfl, rfl⟩ := Prod.mk.inj (Option.some.inj h)
    refine ⟨⟨harrays, ?_⟩, hnone⟩
    cases w.flag
    · exact hfits
    · trivial
  | wokenAcquire =>
    obtain ⟨rfl, rfl⟩ := Prod.mk.inj (Option.some.inj h)
    have hidle : data.assignedContexts = 0 := hfits
    obtain ⟨hafter, hevents⟩ := arrays_tryAcquire (w := w) harrays (hidle ▸ hpos)
    exact ⟨⟨hafter, trivial⟩, hevents⟩
  | exitTest =>
    obtain ⟨rfl, rfl⟩ := Prod.mk.inj (Option.some.inj h)
    refine ⟨⟨harrays, ?_⟩, hnone⟩
    cases w.flag <;> trivial
  | acquire =>
    simp only [step] at h
    split at h
    · rename_i hroom
      obtain ⟨rfl, rfl⟩ := Prod.mk.inj (Option.some.inj h)
      obtain ⟨hafter, hevents⟩ := arrays_tryAcquire (w := w) harrays hroom
      exact ⟨⟨hafter, trivial⟩, hevents⟩
    · obtain ⟨rfl, rfl⟩ := Prod.mk.inj (Option.some.inj h)
      exact ⟨⟨harrays, trivial⟩, hnone⟩
  | pollEntry =>
    obtain ⟨rfl, rfl⟩ := Prod.mk.inj (Option.some.inj h)
    refine ⟨⟨harrays, ?_⟩, hnone⟩
    show Pc.Fits (if _ then _ else _) _
    split
    · exact Nat.le_refl _
    · trivial
  | cleanup i after =>
    cases i with
    | zero =>
      cases after <;>
      · obtain ⟨rfl, rfl⟩ := Prod.mk.inj (Option.some.inj h)
        exact ⟨⟨harrays, trivial⟩, hnone⟩
    | succ k =>
      have hk : k < data.assignedContexts := hfits
      simp only [step] at h
      split at h
      · obtain ⟨rfl, rfl⟩ := Prod.mk.inj (Option.some.inj h)
        obtain ⟨-, hentries, hafter⟩ := ContextSystem.entries_removeContext harrays hk
        have hlength : (entries data).length = data.assignedContexts := harrays.length_entries
        refine ⟨⟨hafter, ?_⟩, fun e he => ?_⟩
        · show k ≤ (connectorReadThreadRemoveContext data k).2.assignedContexts
          rw [← hafter.length_entries, hentries, SwapRemove.length_swapRemove (by omega), hlength]
          omega
        · rcases List.mem_cons.mp he with rfl | he
          · exact Nat.lt_of_lt_of_le hk hassigned
          · exact inBounds_removeEvents harrays hk e he
      · obtain ⟨rfl, rfl⟩ := Prod.mk.inj (Option.some.inj h)
        exact ⟨⟨harrays, Nat.le_of_lt hk⟩, hone k hk⟩
  | pollTest =>
    obtain ⟨rfl, rfl⟩ := Prod.mk.inj (Option.some.inj h)
    refine ⟨⟨harrays, ?_⟩, hnone⟩
    cases w.flag <;> trivial
  | poll =>
    obtain ⟨rfl, rfl⟩ := Prod.mk.inj (Option.some.inj h)
    exact inv_poll ⟨harrays, hfits⟩ w.polled
  | handle k =>
    simp only [step] at h
    split at h
    · rename_i hk
      split at h
      · obtain ⟨rfl, rfl⟩ := Prod.mk.inj (Option.some.inj h)
        refine ⟨⟨harrays, trivial⟩, fun e he => ?_⟩
        rcases List.mem_pair.mp he with rfl | rfl
        · exact Nat.lt_of_lt_of_le hk hassigned
        · trivial
      · obtain ⟨rfl, rfl⟩ := Prod.mk.inj (Option.some.inj h)
        exact ⟨⟨harrays, trivial⟩, hone k hk⟩
    · obtain ⟨rfl, rfl⟩ := Prod.mk.inj (Option.some.inj h)
      exact ⟨⟨harrays, Nat.le_refl _⟩, hnone⟩
  | exitClose k =>
    simp only [step] at h
    split at h
    · rename_i hk
      obtain ⟨rfl, rfl⟩ := Prod.mk.inj (Option.some.inj h)
      exact ⟨⟨harrays, trivial⟩, hone k hk⟩
    · obtain ⟨rfl, rfl⟩ := Prod.mk.inj (Option.some.inj h)
      exact ⟨⟨harrays, Nat.le_refl _⟩, hnone⟩
  | done => cases h

theorem inv_of_reachable {s : State} (hpos : 0 < capacity) (h : (system capacity).Reachable s) : Inv capacity s := by
  refine h.invariant (P := Inv capacity) ?_ fun s w s' _ hs hnext => ?_
  · rintro ⟨pc, data, due⟩ ⟨hpc, hids, hcontexts, hzero, -⟩
    obtain rfl : pc = .loopTest := hpc
    exact ⟨⟨hids, hcontexts, Nat.le_trans (Nat.le_of_eq hzero) (Nat.zero_le _)⟩, trivial⟩
  · obtain ⟨⟨s'', events⟩, hstep, rfl⟩ := Option.map_eq_some_iff.mp hnext
    exact (inv_step hpos hs hstep).1

end bounds

/-! ## The capacity -/

/-- All threads together have room for all contexts. -/
theorem contextCount_le (contextCount : Nat) {inboundCount : Nat} (h : 1 ≤ inboundCount) :
    contextCount ≤ inboundCount * readContexts contextCount inboundCount :=
  Nat.le_of_lt (Nat.lt_mul_div_succ contextCount h)

/-- In 32-bit arithmetic the sum wraps only for the largest count and a single thread. -/
theorem toNat_readContexts {contextCount inboundCount : UInt32}
    (hlarge : contextCount.toNat + 1 < 2 ^ 32 ∨ 1 < inboundCount.toNat) :
    (contextCount / inboundCount + 1).toNat = readContexts contextCount.toNat inboundCount.toNat := by
  have hcount := contextCount.toNat_lt
  have hone : (1 : UInt32).toNat = 1 := rfl
  have hsmall : contextCount.toNat / inboundCount.toNat + 1 < 2 ^ 32 := by
    rcases hlarge with hcontexts | hthreads
    · exact Nat.lt_of_le_of_lt (Nat.succ_le_succ (Nat.div_le_self _ _)) hcontexts
    · have hhalf : contextCount.toNat / inboundCount.toNat ≤ contextCount.toNat / 2 :=
        Nat.div_le_div_left hthreads (by decide)
      omega
  rw [UInt32.toNat_add, UInt32.toNat_div, hone, Nat.mod_eq_of_lt hsmall]
  rfl

/-- **The arrays are never left.** For all counts and every run of a read thread, every position it accesses is inside
the arrays and its count stays between zero and their size; and as long as fewer contexts are assigned than there are,
some thread has room. -/
theorem accesses_in_bounds (contextCount inboundCount : Nat) (hinbound : 1 ≤ inboundCount) :
    (∀ s, (system (readContexts contextCount inboundCount)).Reachable s →
      s.data.assignedContexts ≤ readContexts contextCount inboundCount ∧
        ∀ w s' events, step (readContexts contextCount inboundCount) s w = some (s', events) →
          ∀ e ∈ events, e.InBounds (readContexts contextCount inboundCount)) ∧
      contextCount ≤ inboundCount * readContexts contextCount inboundCount ∧
      ∀ threads : Fin inboundCount → ReadThread, ∑ t, (threads t).assignedContexts < contextCount →
        ∃ t, (threads t).assignedContexts < readContexts contextCount inboundCount := by
  have hpos : 0 < readContexts contextCount inboundCount := Nat.succ_pos _
  have hcapacity := contextCount_le contextCount hinbound
  refine ⟨fun s hs => ?_, hcapacity, fun threads hfew => ?_⟩
  · have hinv := inv_of_reachable hpos hs
    exact ⟨hinv.arrays.assigned, fun w s' events hstep => (inv_step hpos hinv hstep).2⟩
  · by_contra hfull
    push Not at hfull
    have hall : ∑ _t : Fin inboundCount, readContexts contextCount inboundCount ≤
        ∑ t, (threads t).assignedContexts := Finset.sum_le_sum fun t _ => hfull t
    rw [Finset.sum_const, Finset.card_univ, Fintype.card_fin, Nat.nsmul_eq_mul] at hall
    omega

def contextReady (context : UInt32) : World := { quiet with popped := some context }

def start : State := ⟨.loopTest, ⟨List.replicate 17 ⟨0, 0, 0⟩, List.replicate 17 0, 0⟩, []⟩

theorem accesses_in_bounds_default :
    ∃ s : State, s.data.assignedContexts = 2 ∧ s.data.assignedContexts ≤ readContexts 32 2 := by
  have hrun : (StepSystem.runList (next 17) start (List.replicate 8 (contextReady 3))).map
      (·.data.assignedContexts) = some 2 := by
    decide +kernel
  obtain ⟨s, hs, hassigned⟩ := Option.map_eq_some_iff.mp hrun
  have hreach : (system (readContexts 32 2)).Reachable s :=
    StepSystem.reachable_runList (.init ⟨rfl, rfl, rfl, rfl, rfl⟩) hs
  exact ⟨s, hassigned, ((accesses_in_bounds 32 2 (by decide)).1 s hreach).1⟩

end SubstanceConnector.Routine
