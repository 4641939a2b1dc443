import SubstanceConnector.Threads.Pool

/-!
# The dispatch threads

`dispatch_routine` over the inbound queue, `terminate_dispatch`, and the clearing of the queue by
`connector_shutdown_message_queue_subsystem`. Handing a message over is one step; whether it goes to the
internal handler or to the trampolines is recorded.
-/

namespace SubstanceConnector.DispatchPool

open Monitor SubstanceConnector.Pool

/-- Where a dispatch thread is, named after what it does next. -/
inductive Pc where
  | loopTest
  | acquireFirst
  | lock
  | waitTest
  | wait
  | wokenUnlock
  | wokenTest
  | acquireSecond
  | unlock
  | handleTest
  | handle
  | clear
  | acquireNext
  | exit
  | done
  deriving DecidableEq

variable {n : Nat} {P : Type}

/-- Which of the two a thread calls for a message. -/
def handed (m : Queued) : MessageEvent := .handed m (connectorIdentifyInternal m.message.header.description)

/-- `dispatch_routine`. -/
def dispatchRoutine (l : Worker Pc) : Instr n P (Worker Pc) :=
  match l.pc with
  | .loopTest => test l fun _ shutdown => if shutdown then .exit else .acquireFirst
  | .acquireFirst => acquire .lock
  | .lock => .lock { l with pc := .waitTest }
  | .waitTest => test l fun message shutdown => if !message && !shutdown then .wait else .unlock
  | .wait => .wait { l with pc := .wokenUnlock }
  | .wokenUnlock => .unlock { l with pc := .wokenTest }
  | .wokenTest => test l fun _ shutdown => if shutdown then .exit else .acquireSecond
  | .acquireSecond => acquire .lock
  | .unlock => .unlock { l with pc := .handleTest }
  | .handleTest => test l fun message shutdown => if message && !shutdown then .handle else .loopTest
  | .handle => .act fun _ g => (g.record handed l.message, { l with pc := .clear })
  | .clear => .act fun _ g => (g.record .freed l.message, { l with pc := .acquireNext })
  | .acquireNext => acquire .handleTest
  | .exit => .act fun _ g => (g.record .freed l.message, ⟨.done, none⟩)
  | .done => .stop

/-- `terminate_dispatch`, then `connector_locked_queue_clear` on the inbound queue. -/
def terminateDispatch : CallerPc → Instr n P CallerPc
  | .start => .lock .setFlag
  | .setFlag => .act fun _ g => ({ g with shutdown := true }, .broadcast)
  | .broadcast => .broadcast .unlock
  | .unlock => .unlock (.join 0)
  | .join k => joinLoop k .relock
  | .relock => .lock .clearFlag
  | .clearFlag => .act fun _ g => ({ g with shutdown := false }, .reunlock)
  | .reunlock => .unlock .clearQueue
  | .clearQueue => .act fun _ g => (g.clear, .finished)
  | .lock | .finished => .stop

def routines : Routines n P Pc := ⟨.loopTest, dispatchRoutine, terminateDispatch⟩

end SubstanceConnector.DispatchPool
