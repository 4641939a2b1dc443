import SubstanceConnector.Threads.Pool

/-!
# The write threads

`write_thread_routine` over the outbound queue, `connector_shutdown_write_threads`, and the clearing of
the queue by `connector_shutdown_message_queue_subsystem`. `connector_context_write` is one step.
-/

namespace SubstanceConnector.WritePool

open Monitor SubstanceConnector.Pool

/-- Where a write thread is, named after what it does next. -/
inductive Pc where
  | loopTest
  | lock
  | emptyTest
  | wait
  | wokenTest
  | exitUnlock
  | acquire
  | unlock
  | writeTest
  | write
  | clear
  | acquireNext
  | exit
  | done
  deriving DecidableEq

variable {n : Nat} {P : Type}

/-- `write_thread_routine`. -/
def writeThreadRoutine (l : Worker Pc) : Instr n P (Worker Pc) :=
  match l.pc with
  | .loopTest => test l fun _ shutdown => if shutdown then .exit else .lock
  | .lock => .lock { l with pc := .emptyTest }
  | .emptyTest => test l fun message _ => if message then .unlock else .wait
  | .wait => .wait { l with pc := .wokenTest }
  | .wokenTest => test l fun _ shutdown => if shutdown then .exitUnlock else .acquire
  | .exitUnlock => .unlock { l with pc := .exit }
  | .acquire => Pool.acquire .emptyTest
  | .unlock => .unlock { l with pc := .writeTest }
  | .writeTest => test l fun message _ => if message then .write else .loopTest
  | .write => .act fun _ g => (g.record .written l.message, { l with pc := .clear })
  | .clear => .act fun _ g => (g.record .freed l.message, { l with pc := .acquireNext })
  | .acquireNext => Pool.acquire .writeTest
  | .exit => .act fun _ g => (g.record .freed l.message, ⟨.done, none⟩)
  | .done => .stop

/-- `connector_shutdown_write_threads`, then `connector_locked_queue_clear` on the outbound queue. -/
def connectorShutdownWriteThreads : CallerPc → Instr n P CallerPc
  | .start => .act fun _ g => ({ g with shutdown := true }, .lock)
  | .lock => .lock .broadcast
  | .broadcast => .broadcast .unlock
  | .unlock => .unlock (.join 0)
  | .join k => joinLoop k .clearFlag
  | .clearFlag => .act fun _ g => ({ g with shutdown := false }, .clearQueue)
  | .clearQueue => .act fun _ g => (g.clear, .finished)
  | .setFlag | .relock | .reunlock | .finished => .stop

def routines : Routines n P Pc := ⟨.loopTest, writeThreadRoutine, connectorShutdownWriteThreads⟩

end SubstanceConnector.WritePool
