import Mathlib.Logic.Function.Iterate
import SubstanceConnector.Library.StepSystem
import SubstanceConnector.Library.ThreadPool
import SubstanceConnector.Queue.UintQueue

/-!
# Pushes and pops, one memory access at a time

The body of `connector_uint_queue_push` and `connector_uint_queue_pop` as a machine: a program
counter names the next load, store or exchange of a thread and carries the locals that are live
there. Tests on locals are part of the access before them. The system interleaves any number of
such threads on one queue and records, in the order of the deciding exchanges, what was pushed and
what was popped.
-/

namespace SubstanceConnector.QueueMachine

/-- Where a thread is, named after the access it performs next. -/
inductive Pc where
  | idle
  | pushLoadWrite (elem : UInt32)
  | pushLoadRead (elem writeIndex : UInt32)
  | pushReserve (elem writeIndex : UInt32)
  | pushStore (elem writeIndex : UInt32)
  | pushCommit (elem writeIndex : UInt32)
  | pushDone (retcode : Retcode)
  | popLoadRead
  | popLoadMax (readIndex : UInt32)
  | popLoadData (readIndex : UInt32)
  | popExchange (readIndex data : UInt32)
  | popDone (retcode : Retcode) (retval : Option UInt32)
  deriving DecidableEq

/-- One access of a thread that is in a call. -/
def Pc.advance (q : UintQueue) : Pc → UintQueue × Pc
  | .idle => (q, .idle)
  | .pushLoadWrite elem => (q, .pushLoadRead elem q.writeIndex)
  | .pushLoadRead elem w =>
    if q.looksFull w q.readIndex then (q, .pushDone .error) else (q, .pushReserve elem w)
  | .pushReserve elem w =>
    if q.writeIndex = w then ({ q with writeIndex := w + 1 }, .pushStore elem w) else (q, .pushLoadWrite elem)
  | .pushStore elem w => (q.store w elem, .pushCommit elem w)
  | .pushCommit elem w =>
    if q.maxIndex = w then ({ q with maxIndex := w + 1 }, .pushDone .success) else (q, .pushCommit elem w)
  | .pushDone _ => (q, .idle)
  | .popLoadRead => (q, .popLoadMax q.readIndex)
  | .popLoadMax r => if q.looksEmpty r q.maxIndex then (q, .popDone .error none) else (q, .popLoadData r)
  | .popLoadData r => (q, .popExchange r (q.load r))
  | .popExchange r data =>
    if q.readIndex = r then ({ q with readIndex := r + 1 }, .popDone .success (some data)) else (q, .popLoadRead)
  | .popDone _ _ => (q, .idle)

/-! ## A call run alone -/

/-- Nobody is between its reservation and its commit. -/
def Settled (q : UintQueue) : Prop := q.maxIndex = q.writeIndex

theorem run_push (q : UintQueue) (h : Settled q) (elem : UInt32) :
    ∃ n, (fun x : UintQueue × Pc => x.2.advance x.1)^[n] (q, .pushLoadWrite elem) =
      ((q.push elem).2, .pushDone (q.push elem).1) := by
  unfold UintQueue.push
  by_cases hfull : q.looksFull q.writeIndex q.readIndex = true
  · rw [if_pos hfull]
    exact ⟨2, by simp [Pc.advance, hfull]⟩
  · rw [if_neg hfull]
    have hmax : q.maxIndex = q.writeIndex := h
    exact ⟨5, by simp [Pc.advance, hfull, hmax, UintQueue.store, UintQueue.cell]⟩

theorem run_pop (q : UintQueue) :
    ∃ n, (fun x : UintQueue × Pc => x.2.advance x.1)^[n] (q, .popLoadRead) =
      (q.pop.2, .popDone (if q.pop.1 = none then .error else .success) q.pop.1) := by
  unfold UintQueue.pop
  by_cases hempty : q.looksEmpty q.readIndex q.maxIndex = true
  · rw [if_pos hempty]
    exact ⟨2, by simp [Pc.advance, hempty]⟩
  · rw [if_neg hempty]
    exact ⟨4, by simp [Pc.advance, hempty]⟩

/-! ## Many threads -/

/-- The queue, the threads, and what happened so far: the pushed values in the order of their
exchanges on `write_index`, the popped values in the order of theirs on `read_index`, and the number
of calls of `connector_uint_queue_push`. -/
structure State (ι : Type) where
  queue : UintQueue
  pool : ι → Pc
  pushed : List UInt32
  popped : List UInt32
  pushCalls : Nat

inductive Label (ι : Type) where
  | push (i : ι) (elem : UInt32)
  | pop (i : ι)
  | advance (i : ι)

/-- The value an access pushes: that of a reservation that succeeds. -/
def pushedBy (q : UintQueue) : Pc → List UInt32
  | .pushReserve elem w => if q.writeIndex = w then [elem] else []
  | _ => []

/-- The value an access pops: that of an exchange that succeeds. -/
def poppedBy (q : UintQueue) : Pc → List UInt32
  | .popExchange r data => if q.readIndex = r then [data] else []
  | _ => []

variable {ι : Type} [DecidableEq ι]

def next (s : State ι) : Label ι → Option (State ι)
  | .push i elem =>
    if s.pool i = .idle then
      some { s with pool := Function.update s.pool i (.pushLoadWrite elem), pushCalls := s.pushCalls + 1 }
    else none
  | .pop i =>
    if s.pool i = .idle then some { s with pool := Function.update s.pool i .popLoadRead } else none
  | .advance i =>
    if s.pool i = .idle then none
    else
      some { s with
        queue := ((s.pool i).advance s.queue).1
        pool := Function.update s.pool i ((s.pool i).advance s.queue).2
        pushed := s.pushed ++ pushedBy s.queue (s.pool i)
        popped := s.popped ++ poppedBy s.queue (s.pool i) }

def State.start (ι : Type) (size : UInt32) : State ι := ⟨.empty (ringSize size), fun _ => .idle, [], [], 0⟩

/-- The threads of `ι` on a queue made by `connector_uint_queue_create(size)`. -/
def system (ι : Type) [DecidableEq ι] (size : UInt32) : StepSystem (State ι) (Label ι) :=
  .ofNext (· = .start ι size) next

section inversion
variable {s s' : State ι} {i : ι}

theorem next_push {elem : UInt32} (h : next s (.push i elem) = some s') :
    s.pool i = .idle ∧
      s' = { s with pool := Function.update s.pool i (.pushLoadWrite elem), pushCalls := s.pushCalls + 1 } := by
  simp only [next, Option.ite_none_right_eq_some, Option.some.injEq] at h
  exact ⟨h.1, h.2.symm⟩

theorem next_pop (h : next s (.pop i) = some s') :
    s.pool i = .idle ∧ s' = { s with pool := Function.update s.pool i .popLoadRead } := by
  simp only [next, Option.ite_none_right_eq_some, Option.some.injEq] at h
  exact ⟨h.1, h.2.symm⟩

theorem next_advance (h : next s (.advance i) = some s') :
    s.pool i ≠ .idle ∧
      s' = { s with
        queue := ((s.pool i).advance s.queue).1
        pool := Function.update s.pool i ((s.pool i).advance s.queue).2
        pushed := s.pushed ++ pushedBy s.queue (s.pool i)
        popped := s.popped ++ poppedBy s.queue (s.pool i) } := by
  simp only [next, Option.ite_none_left_eq_some, Option.some.injEq] at h
  exact ⟨h.1, h.2.symm⟩

end inversion

end SubstanceConnector.QueueMachine
