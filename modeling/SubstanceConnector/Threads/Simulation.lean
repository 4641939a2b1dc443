import SubstanceConnector.Threads.ReadWakeup
import SubstanceConnector.Threads.Routine

/-!
# A thread among the others

Every read thread of the whole library does what the single routine allows: its steps are steps of `Routine.step` with
the answers the shared state gives, or touch only what the routine leaves to the world (the lock, the slots, the queue of
free contexts). So what holds of the routine in every world holds of each thread (`assigned_le`).
-/

namespace SubstanceConnector.Routine

open ReadThreads (stepThread threads_goto threads_setThread)

/-- Where the routine is while a thread is at a point of the whole machine; a thread that has crashed is nowhere. -/
def pcOf : ReadThreads.Pc → Option Pc
  | .loopTest => some .loopTest
  | .lock | .waitTest => some .waitTest
  | .wait | .waiting | .woken => some .wait
  | .wokenTest => some .wokenTest
  | .wokenAcquire => some .wokenAcquire
  | .unlock | .exitTest => some .exitTest
  | .acquire => some .acquire
  | .pollEntry => some .pollEntry
  | .cleanup i after | .release _ i after => some (.cleanup i after)
  | .pollTest => some .pollTest
  | .poll => some .poll
  | .handle i => some (.handle i)
  | .acceptPop _ _ i | .acceptAppend _ i | .acceptSignal _ i => some (.handle (i + 1))
  | .exitClose i => some (.exitClose i)
  | .done => some .done
  | .crashed _ => none

/-- The routine takes a step in some world, or none. -/
def Moves (capacity : Nat) (thread thread' : ReadThreads.Thread) : Prop :=
  ∀ pc', pcOf thread'.pc = some pc' → pcOf thread.pc = some pc' ∧ thread'.data = thread.data ∨
    ∃ pc, pcOf thread.pc = some pc ∧
      ∀ due, ∃ w due' events, step capacity ⟨pc, thread.data, due⟩ w = some (⟨pc', thread'.data, due'⟩, events)

section steps
variable {cfg : BuildConfig} {s s' : ReadThreads.State cfg} {i : Fin cfg.inboundCount} {a : ReadThreads.Answer}
  {capacity : Nat} {pc pc' : ReadThreads.Pc} {data data' : ReadThread}

theorem Moves.stays (h : pcOf pc' = pcOf pc) : Moves capacity ⟨pc, data⟩ ⟨pc', data⟩ := by
  intro q hq
  exact .inl ⟨h ▸ hq, rfl⟩

theorem Moves.crashes {fault : Fault} : Moves capacity ⟨pc, data⟩ ⟨.crashed fault, data'⟩ := by
  intro q hq
  cases hq

theorem Moves.step {p p' : Pc} (w : World) (hp : pcOf pc = some p) (hp' : pcOf pc' = some p')
    (h : ∀ due, ∃ due' events, step capacity ⟨p, data, due⟩ w = some (⟨p', data', due'⟩, events)) :
    Moves capacity ⟨pc, data⟩ ⟨pc', data'⟩ := by
  intro q hq
  obtain rfl : p' = q := Option.some.inj (hp'.symm.trans hq)
  exact .inr ⟨p, hp, fun due => ⟨w, h due⟩⟩

/-- An acquisition of the thread is one of the routine, if it does not fault. -/
theorem moves_tryAcquire {o : HandshakeOutcome} {table : ContextTable} {r : Retcode × ReadThread × ContextTable}
    (h : connectorReadThreadTryAcquire cfg o data table = .ok r) : ∃ w : World, (tryAcquire w data).1 = r.2.1 := by
  obtain ⟨u, -, rfl⟩ | ⟨context, u, -, -, rfl⟩ := readThreadTryAcquire_cases h
  · exact ⟨quiet, rfl⟩
  · exact ⟨{ quiet with popped := some context, fd := fun c => (u.slot c).fd }, rfl⟩

theorem moves_stepThread (h : stepThread s i a = some s') : Moves cfg.readContexts (s.threads i) (s'.threads i) := by
  generalize hthread : s.threads i = thread
  obtain ⟨p, data⟩ := thread
  have hpc : (s.threads i).pc = p := congrArg ReadThreads.Thread.pc hthread
  have hdata : (s.threads i).data = data := congrArg ReadThreads.Thread.data hthread
  have hgoto : ∀ {t : ReadThreads.State cfg} {q : ReadThreads.Pc}, t.goto i q = s' → t.threads i = ⟨p, data⟩ →
      s'.threads i = ⟨q, data⟩ := by
    intro t q h ht
    rw [← h, threads_goto, ht]
  have hset : ∀ {t : ReadThreads.State cfg} {thread : ReadThreads.Thread}, t.setThread i thread = s' →
      s'.threads i = thread := by
    intro t thread h
    rw [← h, threads_setThread]
  cases p with
  | loopTest | wokenTest | exitTest | pollTest =>
    simp only [stepThread, hpc] at h
    rw [hgoto (Option.some.inj h) hthread]
    cases s.flag
    · exact .step quiet rfl rfl fun due => ⟨_, _, rfl⟩
    · exact .step { quiet with flag := true } rfl rfl fun due => ⟨_, _, rfl⟩
  | lock =>
    simp only [stepThread, hpc] at h
    obtain ⟨-, h⟩ := Option.ite_none_right_eq_some.mp h
    rw [hgoto (Option.some.inj h) hthread]
    exact .stays rfl
  | woken =>
    simp only [stepThread, hpc] at h
    obtain ⟨-, h⟩ := Option.ite_none_right_eq_some.mp h
    rw [hgoto (Option.some.inj h) hthread]
    exact .step quiet rfl rfl fun due => ⟨_, _, rfl⟩
  | waitTest =>
    simp only [stepThread, hpc, hdata] at h
    rw [hgoto (Option.some.inj h) hthread]
    have hplace : pcOf (if data.assignedContexts = 0 ∧ s.flag = false then .wait else .unlock) =
        some (if data.assignedContexts = 0 ∧ s.flag = false then .wait else .exitTest) := by
      split <;> rfl
    exact .step { quiet with flag := s.flag } rfl hplace fun due => ⟨_, _, rfl⟩
  | wait | unlock =>
    simp only [stepThread, hpc] at h
    rw [hgoto (Option.some.inj h) hthread]
    exact .stays rfl
  | waiting | done => simp [stepThread, hpc] at h
  | crashed fault => simp [stepThread, hpc] at h
  | wokenAcquire =>
    simp only [stepThread, hpc, ReadThreads.State.tryAcquire, hdata] at h
    cases hacquire : connectorReadThreadTryAcquire cfg a.handshake data s.table with
    | error fault =>
      rw [hacquire] at h
      rw [hgoto (Option.some.inj h) hthread]
      exact .crashes
    | ok r =>
      rw [hacquire] at h
      rw [hset (Option.some.inj h)]
      obtain ⟨w, hw⟩ := moves_tryAcquire hacquire
      exact .step w rfl rfl fun due => ⟨due, _, by rw [← hw]; rfl⟩
  | acquire =>
    simp only [stepThread, hpc, hdata, connectorReadThreadCheckLoad, decide_eq_true_eq] at h
    split at h
    · rename_i hroom
      simp only [ReadThreads.State.tryAcquire, hdata] at h
      cases hacquire : connectorReadThreadTryAcquire cfg a.handshake data s.table with
      | error fault =>
        rw [hacquire] at h
        rw [hgoto (Option.some.inj h) hthread]
        exact .crashes
      | ok r =>
        rw [hacquire] at h
        rw [hset (Option.some.inj h)]
        obtain ⟨w, hw⟩ := moves_tryAcquire hacquire
        refine .step w rfl rfl fun due => ⟨due, (tryAcquire w data).2, ?_⟩
        simp only [step, if_pos hroom, hw]
    · rename_i hfull
      rw [hgoto (Option.some.inj h) hthread]
      refine .step quiet rfl rfl fun due => ⟨due, [], ?_⟩
      simp only [step, if_neg hfull]
  | pollEntry =>
    simp only [stepThread, hpc, hdata] at h
    rw [hgoto (Option.some.inj h) hthread]
    have hplace : pcOf (if 0 < data.assignedContexts then .cleanup data.assignedContexts .poll else .handle 0) =
        some (if 0 < data.assignedContexts then .cleanup data.assignedContexts .poll else .handle 0) := by
      split <;> rfl
    exact .step quiet rfl hplace fun due => ⟨_, _, rfl⟩
  | cleanup k after =>
    cases k with
    | zero =>
      cases after <;>
      · simp only [stepThread, hpc] at h
        rw [hgoto (Option.some.inj h) hthread]
        exact .step quiet rfl rfl fun due => ⟨_, _, rfl⟩
    | succ k =>
      simp only [stepThread, hpc, ReadThreads.State.cleanupEntry, hdata] at h
      split at h
      · -- the entry is removed, and the context released in a step of its own if there is one
        have hstep : ∀ due, ∃ due' events, step cfg.readContexts ⟨.cleanup (k + 1) after, data, due⟩
            { quiet with shutDown := fun _ => true } =
              some (⟨.cleanup k after, (connectorReadThreadRemoveContext data k).2, due'⟩, events) :=
          fun due => ⟨_, _, rfl⟩
        split at h
        · rw [hset (Option.some.inj h)]
          exact .step _ rfl rfl hstep
        · rw [hset (Option.some.inj h)]
          exact .step _ rfl rfl hstep
      · rw [hgoto (Option.some.inj h) hthread]
        exact .step quiet rfl rfl fun due => ⟨_, _, rfl⟩
  | release context k after =>
    simp only [stepThread, hpc, ReadThreads.State.releaseEntry] at h
    split at h
    · rw [hgoto (Option.some.inj h) hthread]
      exact .stays rfl
    · rw [hgoto (Option.some.inj h) hthread]
      exact .crashes
  | poll =>
    simp only [stepThread, hpc, ReadThreads.State.polled, hdata] at h
    split at h
    · rename_i hempty
      rw [hgoto (Option.some.inj h) hthread]
      refine .step quiet rfl rfl fun due => ⟨due, [], ?_⟩
      simp only [step, poll, if_pos hempty]
    · rename_i hsome
      split at h
      · rename_i htimeout
        rw [hset (Option.some.inj h)]
        refine .step { quiet with polled := .timeout } rfl rfl fun due =>
          ⟨[], (List.range data.assignedContexts).map Event.access, ?_⟩
        simp only [step, poll, if_neg hsome]
        rfl
      · rw [hgoto (Option.some.inj h) hthread]
        refine .step { quiet with polled := .failed } rfl rfl fun due =>
          ⟨due, (List.range data.assignedContexts).map Event.access, ?_⟩
        simp only [step, poll, if_neg hsome]
      · rename_i revents hready
        rw [hset (Option.some.inj h)]
        refine .step { quiet with polled := .ready revents } rfl rfl fun due =>
          ⟨reported (setRevents data fun k => revents.getD k 0), (List.range data.assignedContexts).map Event.access, ?_⟩
        simp only [step, poll, if_neg hsome]
        rfl
  | handle k =>
    simp only [stepThread, hpc, hdata] at h
    split at h
    · rename_i hk
      have hstep : ∀ due, ∃ due' events, step cfg.readContexts ⟨.handle k, data, due⟩ quiet =
          some (⟨.handle (k + 1), data, due'⟩, events) := by
        intro due
        cases haction : action (data.contexts.getD k ⟨0, 0, 0⟩).revents with
        | none => exact ⟨_, _, by simp only [step, if_pos hk, haction]; rfl⟩
        | some what => exact ⟨_, _, by simp only [step, if_pos hk, haction]; rfl⟩
      simp only [ReadThreads.State.handleEntry, hdata] at h
      split at h
      · rw [hgoto (Option.some.inj h) hthread]
        exact .step quiet rfl rfl hstep
      · split at h
        · split at h
          · rw [hgoto (Option.some.inj h) hthread]
            exact .step quiet rfl rfl hstep
          · rw [hgoto (Option.some.inj h) hthread]
            exact .step quiet rfl rfl hstep
        · rw [hgoto (Option.some.inj h) hthread]
          exact .step quiet rfl rfl hstep
    · rename_i hk
      rw [hgoto (Option.some.inj h) hthread]
      refine .step quiet rfl rfl fun due => ⟨due, [], ?_⟩
      simp only [step, if_neg hk]
  | acceptPop listener fd k =>
    simp only [stepThread, hpc, ReadThreads.State.acceptPop] at h
    split at h
    · split at h
      · rw [hgoto (Option.some.inj h) hthread]
        exact .stays rfl
      · rw [hgoto (Option.some.inj h) hthread]
        exact .crashes
    · rw [hgoto (Option.some.inj h) hthread]
      exact .crashes
  | acceptAppend context k =>
    simp only [stepThread, hpc, ReadThreads.State.acceptAppend] at h
    split at h
    · rw [hgoto (Option.some.inj h) hthread]
      exact .stays rfl
    · rw [hgoto (Option.some.inj h) hthread]
      exact .crashes
  | acceptSignal n k =>
    cases n with
    | zero =>
      simp only [stepThread, hpc] at h
      rw [hgoto (Option.some.inj h) hthread]
      exact .stays rfl
    | succ n =>
      simp only [stepThread, hpc] at h
      obtain ⟨-, h⟩ := Option.ite_none_right_eq_some.mp h
      have hkept : s.broadcast.threads i = ⟨.acceptSignal (n + 1) k, data⟩ := by
        show (if (s.threads i).pc = .waiting then _ else _) = _
        rw [hpc, if_neg (by simp)]
        exact hthread
      rw [hgoto (Option.some.inj h) hkept]
      exact .stays rfl
  | exitClose k =>
    simp only [stepThread, hpc, hdata] at h
    split at h
    · rename_i hk
      rw [hgoto (Option.some.inj h) hthread]
      refine .step quiet rfl rfl fun due => ⟨due, [.access k], ?_⟩
      simp only [step, if_pos hk]
    · rename_i hk
      rw [hgoto (Option.some.inj h) hthread]
      refine .step quiet rfl rfl fun due => ⟨due, [], ?_⟩
      simp only [step, if_neg hk]

/-- A broadcast wakes a thread that waits, which the routine does not see. -/
theorem moves_wake (thread : ReadThreads.Thread) : Moves capacity thread thread.wake := by
  obtain ⟨p, data⟩ := thread
  unfold ReadThreads.Thread.wake
  split
  · rename_i hwaiting
    obtain rfl : p = .waiting := hwaiting
    exact .stays rfl
  · exact .stays rfl

/-- The caller of the shutdown leaves the threads alone or wakes those that wait. -/
theorem threads_stepCaller (h : ReadThreads.stepCaller s = some s') :
    s'.threads = s.threads ∨ s'.threads = s.broadcast.threads := by
  cases ReadThreads.callerStep h with
  | broadcast => exact .inr rfl
  | _ => exact .inl rfl

/-- Whoever moves, a thread does what the routine allows. -/
theorem moves_next {l : ReadThreads.Label cfg} (h : ReadThreads.next s l = some s') :
    Moves cfg.readContexts (s.threads i) (s'.threads i) := by
  have hsame : s'.threads i = s.threads i → Moves cfg.readContexts (s.threads i) (s'.threads i) := by
    intro heq
    rw [heq]
    exact .stays rfl
  have hwoken : s'.threads i = (s.threads i).wake → Moves cfg.readContexts (s.threads i) (s'.threads i) := by
    intro heq
    rw [heq]
    exact moves_wake _
  cases l with
  | openContext o desc identifier =>
    obtain ⟨-, h⟩ := Option.ite_none_right_eq_some.mp h
    obtain ⟨r, -, rfl⟩ := Option.map_eq_some_iff.mp h
    exact hsame rfl
  | connect o desc identifier =>
    obtain ⟨-, h⟩ := Option.ite_none_right_eq_some.mp h
    obtain ⟨r, -, rfl⟩ := Option.map_eq_some_iff.mp h
    exact hsame rfl
  | close context =>
    obtain rfl := Option.some.inj h
    exact hsame rfl
  | signal =>
    obtain ⟨-, h⟩ := Option.ite_none_right_eq_some.mp h
    obtain rfl := Option.some.inj h
    exact hwoken rfl
  | spurious j =>
    obtain ⟨hwaiting, h⟩ := Option.ite_none_right_eq_some.mp h
    obtain rfl := Option.some.inj h
    by_cases hj : i = j
    · subst hj
      refine hwoken ?_
      rw [threads_goto, ReadThreads.Thread.wake, if_pos hwaiting]
    · exact hsame (Function.update_of_ne hj _ _)
  | thread j a =>
    by_cases hj : i = j
    · subst hj
      exact moves_stepThread h
    · rcases (ReadThreads.turn_stepThread h).others i hj with heq | heq
      · exact hsame heq
      · exact hwoken heq
  | shutdown =>
    rcases threads_stepCaller h with heq | heq
    · exact hsame (congrFun heq i)
    · exact hwoken (congrFun heq i)

end steps

/-- Every thread of the library is at a place the routine reaches. -/
theorem routine_of_reachable {cfg : BuildConfig} {s : ReadThreads.State cfg}
    (h : (ReadThreads.system cfg).Reachable s) (i : Fin cfg.inboundCount) {pc : Pc}
    (hpc : pcOf (s.threads i).pc = some pc) :
    ∃ due, (system (readContexts cfg.contextCount cfg.inboundCount)).Reachable ⟨pc, (s.threads i).data, due⟩ := by
  have hall := h.invariant (P := fun s => ∀ pc, pcOf (s.threads i).pc = some pc →
    ∃ due, (system (readContexts cfg.contextCount cfg.inboundCount)).Reachable ⟨pc, (s.threads i).data, due⟩) ?_ ?_
  · exact hall pc hpc
  · rintro s rfl pc hpc
    obtain rfl := Option.some.inj hpc
    exact ⟨[], .init ⟨rfl, List.length_replicate, List.length_replicate, rfl, rfl⟩⟩
  · intro s l s' _ hs hstep pc' hpc'
    obtain ⟨hpc, hdata⟩ | ⟨pc, hpc, hsteps⟩ := moves_next (i := i) hstep pc' hpc'
    · rw [hdata]
      exact hs pc' hpc
    · obtain ⟨due, hreach⟩ := hs pc hpc
      obtain ⟨w, due', events, hone⟩ := hsteps due
      have hnext : next (readContexts cfg.contextCount cfg.inboundCount) ⟨pc, (s.threads i).data, due⟩ w =
          some ⟨pc', (s'.threads i).data, due'⟩ := by
        show Option.map Prod.fst (step cfg.readContexts _ w) = _
        rw [hone]
        rfl
      exact ⟨due', .step hreach hnext⟩

/-- No thread that has not crashed has more contexts than its arrays have room for. -/
theorem assigned_le {cfg : BuildConfig} {s : ReadThreads.State cfg} (h : (ReadThreads.system cfg).Reachable s)
    (i : Fin cfg.inboundCount) (hrunning : (pcOf (s.threads i).pc).isSome) :
    (s.threads i).data.assignedContexts ≤ cfg.readContexts := by
  obtain ⟨pc, hpc⟩ := Option.isSome_iff_exists.mp hrunning
  obtain ⟨due, hreach⟩ := routine_of_reachable h i hpc
  exact (inv_of_reachable (Nat.succ_pos _) hreach).arrays.assigned

end SubstanceConnector.Routine
