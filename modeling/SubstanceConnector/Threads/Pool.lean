import Mathlib.Data.Fintype.Sum
import Mathlib.Data.List.Infix
import Mathlib.Tactic.DeriveFintype
import SubstanceConnector.Library.Monitor
import SubstanceConnector.Library.StepSystem
import SubstanceConnector.Message.Header

/-!
# A message queue and the pool that serves it

What the dispatch threads and the write threads have in common. Messages are put on a queue that has a
lock of its own, so that every access to it is one step; a mutex and a condition variable beside it put
the workers to sleep and wake them. A producer enqueues, then signals under the mutex
(`connector_flag_dispatch`, `connector_flag_write_impl`); one caller shuts the pool down. The routines of
the workers and of the caller are parameters here.
-/

namespace SubstanceConnector.Pool

open Monitor

/-- A message in the queue, numbered in the order of enqueueing. -/
structure Queued where
  id : Nat
  message : ConnectorMessage
  deriving DecidableEq

inductive MessageEvent where
  | handed (m : Queued) (internal : Bool)
  | written (m : Queued)
  | freed (m : Queued)
  deriving DecidableEq

/-- The shutdown flag of the pool, its queue, the number of messages enqueued so far, and what happened
to them. -/
structure Shared where
  shutdown : Bool
  queue : List Queued
  enqueued : Nat
  log : List MessageEvent
  deriving DecidableEq

namespace Shared

/-- `enqueue_message`. -/
def enqueue (g : Shared) (m : ConnectorMessage) : Shared :=
  { g with queue := g.queue ++ [⟨g.enqueued, m⟩], enqueued := g.enqueued + 1 }

/-- `dequeue_message`; `none` is the null pointer. -/
def dequeue (g : Shared) : Option Queued × Shared :=
  match g.queue with
  | [] => (none, g)
  | m :: rest => (some m, { g with queue := rest })

/-- Something happens to the message behind a pointer. -/
def record (g : Shared) (e : Queued → MessageEvent) : Option Queued → Shared
  | some m => { g with log := g.log ++ [e m] }
  | none => g

/-- `connector_locked_queue_clear` with `handle_message`. -/
def clear (g : Shared) : Shared := { g with queue := [], log := g.log ++ g.queue.map .freed }

@[simp] theorem shutdown_dequeue (g : Shared) : g.dequeue.2.shutdown = g.shutdown := by
  unfold dequeue
  split <;> rfl

@[simp] theorem shutdown_record (g : Shared) (e : Queued → MessageEvent) (m : Option Queued) :
    (g.record e m).shutdown = g.shutdown := by
  cases m <;> rfl

@[simp] theorem queue_record (g : Shared) (e : Queued → MessageEvent) (m : Option Queued) :
    (g.record e m).queue = g.queue := by
  cases m <;> rfl

theorem dequeue_of_queue_eq_nil {g : Shared} (h : g.queue = []) : g.dequeue = (none, g) := by
  unfold dequeue
  rw [h]

theorem dequeue_of_queue_eq_cons {g : Shared} {m : Queued} {rest : List Queued} (h : g.queue = m :: rest) :
    g.dequeue = (some m, { g with queue := rest }) := by
  unfold dequeue
  rw [h]

end Shared

inductive Agent (n : Nat) (P : Type) where
  | worker (i : Fin n)
  | producer (p : P)
  | caller
  deriving DecidableEq, Fintype

/-- A worker: the next point of its routine and its variable `message`. -/
structure Worker (W : Type) where
  pc : W
  message : Option Queued
  deriving DecidableEq

inductive ProducerPc where
  | enqueue
  | lock
  | signal
  | unlock
  deriving DecidableEq

/-- The caller of the functions that stop a pool, named after what it does next. -/
inductive CallerPc where
  | start
  | lock
  | setFlag
  | broadcast
  | unlock
  | join (k : Nat)
  | relock
  | clearFlag
  | reunlock
  | clearQueue
  | finished
  deriving DecidableEq

@[reducible] def Local (W : Type) {n : Nat} {P : Type} : Agent n P → Type
  | .worker _ => Worker W
  | .producer _ => ProducerPc
  | .caller => CallerPc

/-- One instruction of a thread of the pool; what the environment answers is the next message to send. -/
abbrev Instr (n : Nat) (P L : Type) : Type := Monitor.Instr (Agent n P) ConnectorMessage L Shared

abbrev State (n : Nat) (P W : Type) : Type := Monitor.State (Agent n P) (Local W) Shared

abbrev Label (n : Nat) (P : Type) : Type := Monitor.Label (Agent n P) ConnectorMessage

/-- Enqueueing a message and flagging the pool. -/
def produce {n : Nat} {P : Type} : ProducerPc → Instr n P ProducerPc
  | .enqueue => .act fun m g => (g.enqueue m, .lock)
  | .lock => .lock .signal
  | .signal => .signal .unlock
  | .unlock => .unlock .enqueue

/-- The test of a loop, on the variable `message` and the shutdown flag. -/
def test {n : Nat} {P W : Type} (l : Worker W) (pc : Bool → Bool → W) : Instr n P (Worker W) :=
  .act fun _ g => (g, { l with pc := pc l.message.isSome g.shutdown })

/-- `message = dequeue_message(...)`. -/
def acquire {n : Nat} {P W : Type} (pc : W) : Instr n P (Worker W) :=
  .act fun _ g => (g.dequeue.2, ⟨pc, g.dequeue.1⟩)

/-- The loop that joins the workers. -/
def joinLoop {n : Nat} {P : Type} (k : Nat) (after : CallerPc) : Instr n P CallerPc :=
  if h : k < n then .join (.worker ⟨k, h⟩) (.join (k + 1)) else .act fun _ g => (g, after)

/-- What the workers and the caller of a pool do. -/
structure Routines (n : Nat) (P W : Type) where
  first : W
  work : Worker W → Instr n P (Worker W)
  call : CallerPc → Instr n P CallerPc

section pools
variable {n : Nat} {P W : Type}

def Routines.routine (r : Routines n P W) : (i : Agent n P) → Local W i → Instr n P (Local W i)
  | .worker _, l => r.work l
  | .producer _, pc => produce pc
  | .caller, pc => r.call pc

variable [DecidableEq P] [Fintype P]

def Routines.start (r : Routines n P W) : State n P W where
  threads
    | .worker _ => .running ⟨r.first, none⟩
    | .producer _ => .running .enqueue
    | .caller => .running .start
  holder := none
  shared := ⟨false, [], 0, []⟩

def Routines.system (r : Routines n P W) : StepSystem (State n P W) (Label n P) :=
  .ofNext (· = r.start) (Monitor.next r.routine)

end pools

end SubstanceConnector.Pool
