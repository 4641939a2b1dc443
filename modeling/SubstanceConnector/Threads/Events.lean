import SubstanceConnector.Threads.Routine

/-!
# Whose event it is

The event loop of a read thread looks at the `revents` of the entries it has after every poll that did not time out,
also after one that failed. A failed poll leaves the array as it was, and so do acquiring and removing contexts, so the
loop then acts on what an earlier poll reported for whatever context had the position (`stale_event_acted_on`). In the
runs whose polls fail only with no event left in the entries, it acts on each reported event at most once and only on
the context it was reported for (`events_due`).
-/

namespace SubstanceConnector.Routine

open ReadThreads (PollAnswer pollErr pollHup)
open ContextSystem (Arrays entries)

/-- An action answers an event of the last successful poll, reported for the same context and not acted on yet. -/
def Event.Due (s : State) : Event → Prop
  | .acted _ context revents => (context, revents) ∈ s.due
  | _ => True

def failed : PollAnswer → Bool
  | .failed => true
  | _ => false

/-- A poll that fails finds no event in the entries in use. -/
def FailsClean (s : State) (w : World) : Prop := s.pc = .poll ∧ failed w.polled = true → reported s.data = []

/-- The events from position `k` on. -/
def remaining (data : ReadThread) (k : Nat) : List (UInt32 × UInt16) :=
  (((entries data).drop k).map fun e => (e.1, e.2.revents)).filter fun e => (action e.2).isSome

/-- What is due at each place of the routine: in the event loop what it has not reached, elsewhere nothing. -/
def pending (data : ReadThread) : Pc → List (UInt32 × UInt16)
  | .handle k => remaining data k
  | _ => []

/-- Whatever the world answers, the next step acts only on events that are due. -/
def OnlyDue (capacity : Nat) (s : State) : Prop :=
  ∀ w s' events, step capacity s w = some (s', events) → ∀ e ∈ events, e.Due s

section steps
variable {capacity : Nat} {data : ReadThread} {w : World}

theorem remaining_of_le (h : Arrays capacity data) {k : Nat} (hk : data.assignedContexts ≤ k) : remaining data k = [] := by
  rw [remaining, List.drop_eq_nil_of_le (by rw [h.length_entries]; exact hk)]
  rfl

theorem remaining_of_lt (h : Arrays capacity data) {k : Nat} (hk : k < data.assignedContexts) :
    remaining data k =
      if (action (data.contexts.getD k ⟨0, 0, 0⟩).revents).isSome then
        (data.contextIds.getD k 0, (data.contexts.getD k ⟨0, 0, 0⟩).revents) :: remaining data (k + 1)
      else remaining data (k + 1) := by
  have hlt : k < (entries data).length := by
    rw [h.length_entries]
    exact hk
  rw [remaining, List.drop_eq_getElem_cons hlt, h.getElem_entries hlt, List.map_cons, List.filter_cons]
  rfl

theorem due_tryAcquire (s : State) : ∀ e ∈ (tryAcquire w data).2, e.Due s := by
  unfold tryAcquire
  cases w.popped with
  | none => exact fun e he => absurd he List.not_mem_nil
  | some context =>
    intro e he
    obtain rfl := List.mem_singleton.mp he
    trivial

theorem due_removeEvents (s : State) (k : Nat) : ∀ e ∈ removeEvents data k, e.Due s := by
  intro e he
  unfold removeEvents at he
  split at he
  · rcases List.mem_cons.mp he with rfl | he
    · trivial
    · split at he
      · rcases List.mem_pair.mp he with rfl | rfl <;> trivial
      · exact absurd he List.not_mem_nil
  · exact absurd he List.not_mem_nil

theorem due_poll {s : State} (harrays : Arrays capacity s.data) (hpc : s.pc = .poll) (hdue : s.due = []) :
    (FailsClean s w → (poll s w.polled).1.due = pending (poll s w.polled).1.data (poll s w.polled).1.pc) ∧
      ∀ e ∈ (poll s w.polled).2, e.Due s := by
  have haccesses : ∀ e ∈ (List.range s.data.assignedContexts).map Event.access, e.Due s := by
    intro e he
    obtain ⟨k, -, rfl⟩ := List.mem_map.mp he
    trivial
  unfold poll
  dsimp only
  split
  · rename_i hempty
    refine ⟨fun _ => ?_, fun e he => absurd he List.not_mem_nil⟩
    show s.due = remaining s.data 0
    rw [hdue, remaining_of_le harrays (Nat.le_of_eq hempty)]
  · cases hpolled : w.polled with
    | timeout => exact ⟨fun _ => rfl, haccesses⟩
    | failed =>
      refine ⟨fun hclean => ?_, haccesses⟩
      show s.due = reported s.data
      rw [hdue, hclean ⟨hpc, by rw [hpolled]; rfl⟩]
    | ready revents => exact ⟨fun _ => rfl, haccesses⟩

/-- One step acts only on what is due, and keeps it right unless it is a poll that fails with events left. -/
theorem due_step {s s' : State} {events : List Event} (hinv : Inv capacity s) (hdue : s.due = pending s.data s.pc)
    (h : step capacity s w = some (s', events)) :
    (FailsClean s w → s'.due = pending s'.data s'.pc) ∧ ∀ e ∈ events, e.Due s := by
  obtain ⟨pc, data, due⟩ := s
  have harrays : Arrays capacity data := hinv.arrays
  obtain rfl : due = pending data pc := hdue
  have hnone : ∀ e ∈ ([] : List Event), e.Due ⟨pc, data, pending data pc⟩ := fun e he => absurd he List.not_mem_nil
  cases pc with
  | loopTest =>
    obtain ⟨rfl, rfl⟩ := Prod.mk.inj (Option.some.inj h)
    refine ⟨fun _ => ?_, hnone⟩
    cases w.flag <;> rfl
  | waitTest =>
    obtain ⟨rfl, rfl⟩ := Prod.mk.inj (Option.some.inj h)
    refine ⟨fun _ => ?_, hnone⟩
    dsimp only
    split <;> rfl
  | wait =>
    obtain ⟨rfl, rfl⟩ := Prod.mk.inj (Option.some.inj h)
    exact ⟨fun _ => rfl, hnone⟩
  | wokenTest =>
    obtain ⟨rfl, rfl⟩ := Prod.mk.inj (Option.some.inj h)
    refine ⟨fun _ => ?_, hnone⟩
    cases w.flag <;> rfl
  | wokenAcquire =>
    obtain ⟨rfl, rfl⟩ := Prod.mk.inj (Option.some.inj h)
    exact ⟨fun _ => rfl, due_tryAcquire _⟩
  | exitTest =>
    obtain ⟨rfl, rfl⟩ := Prod.mk.inj (Option.some.inj h)
    refine ⟨fun _ => ?_, hnone⟩
    cases w.flag <;> rfl
  | acquire =>
    simp only [step] at h
    split at h
    · obtain ⟨rfl, rfl⟩ := Prod.mk.inj (Option.some.inj h)
      exact ⟨fun _ => rfl, due_tryAcquire _⟩
    · obtain ⟨rfl, rfl⟩ := Prod.mk.inj (Option.some.inj h)
      exact ⟨fun _ => rfl, hnone⟩
  | pollEntry =>
    obtain ⟨rfl, rfl⟩ := Prod.mk.inj (Option.some.inj h)
    refine ⟨fun _ => ?_, hnone⟩
    dsimp only
    split
    · rfl
    · -- there is nothing to handle
      exact (remaining_of_le harrays (by omega)).symm
  | cleanup i after =>
    cases i with
    | zero =>
      cases after <;>
      · obtain ⟨rfl, rfl⟩ := Prod.mk.inj (Option.some.inj h)
        exact ⟨fun _ => rfl, hnone⟩
    | succ k =>
      simp only [step] at h
      split at h
      · obtain ⟨rfl, rfl⟩ := Prod.mk.inj (Option.some.inj h)
        refine ⟨fun _ => rfl, fun e he => ?_⟩
        rcases List.mem_cons.mp he with rfl | he
        · trivial
        · exact due_removeEvents _ k e he
      · obtain ⟨rfl, rfl⟩ := Prod.mk.inj (Option.some.inj h)
        refine ⟨fun _ => rfl, fun e he => ?_⟩
        obtain rfl := List.mem_singleton.mp he
        trivial
  | pollTest =>
    obtain ⟨rfl, rfl⟩ := Prod.mk.inj (Option.some.inj h)
    refine ⟨fun _ => ?_, hnone⟩
    cases w.flag <;> rfl
  | poll =>
    obtain ⟨rfl, rfl⟩ := Prod.mk.inj (Option.some.inj h)
    exact due_poll (s := ⟨.poll, data, []⟩) harrays rfl rfl
  | handle k =>
    simp only [step] at h
    split at h
    · rename_i hk
      have hremaining := remaining_of_lt harrays hk
      split at h
      · rename_i what haction
        obtain ⟨rfl, rfl⟩ := Prod.mk.inj (Option.some.inj h)
        rw [haction, if_pos (Option.isSome_some)] at hremaining
        refine ⟨fun _ => ?_, fun e he => ?_⟩
        · show (remaining data k).erase _ = remaining data (k + 1)
          rw [hremaining, List.erase_cons_head]
        · rcases List.mem_pair.mp he with rfl | rfl
          · trivial
          · show _ ∈ remaining data k
            rw [hremaining]
            exact List.mem_cons_self
      · rename_i haction
        obtain ⟨rfl, rfl⟩ := Prod.mk.inj (Option.some.inj h)
        rw [haction, if_neg (by simp)] at hremaining
        refine ⟨fun _ => hremaining, fun e he => ?_⟩
        obtain rfl := List.mem_singleton.mp he
        trivial
    · obtain ⟨rfl, rfl⟩ := Prod.mk.inj (Option.some.inj h)
      exact ⟨fun _ => remaining_of_le harrays (by omega), hnone⟩
  | exitClose k =>
    simp only [step] at h
    split at h
    · obtain ⟨rfl, rfl⟩ := Prod.mk.inj (Option.some.inj h)
      refine ⟨fun _ => rfl, fun e he => ?_⟩
      obtain rfl := List.mem_singleton.mp he
      trivial
    · obtain ⟨rfl, rfl⟩ := Prod.mk.inj (Option.some.inj h)
      exact ⟨fun _ => rfl, hnone⟩
  | done => cases h

/-- In the event loop with nothing due, the next event left in the array is acted on all the same. -/
theorem acts_on_stale {s : State} {k : Nat} (hpc : s.pc = .handle k) (harrays : Arrays capacity s.data)
    (hdue : s.due = []) (hstale : remaining s.data k ≠ []) : ∃ s', (system capacity).Later s s' ∧ ¬ OnlyDue capacity s' := by
  obtain ⟨pc, data, due⟩ := s
  obtain rfl : pc = .handle k := hpc
  obtain rfl : due = [] := hdue
  replace harrays : Arrays capacity data := harrays
  replace hstale : remaining data k ≠ [] := hstale
  induction hleft : data.assignedContexts - k generalizing k with
  | zero => exact absurd (remaining_of_le harrays (by omega)) hstale
  | succ left ih =>
    have hk : k < data.assignedContexts := by omega
    rw [remaining_of_lt harrays hk] at hstale
    cases haction : action (data.contexts.getD k ⟨0, 0, 0⟩).revents with
    | none =>
      rw [haction, if_neg (by simp)] at hstale
      obtain ⟨s', hlater, hacts⟩ := ih hstale (by omega)
      have hstep : next capacity ⟨.handle k, data, []⟩ quiet = some ⟨.handle (k + 1), data, []⟩ := by
        simp only [next, step, if_pos hk, haction]
        rfl
      exact ⟨s', .head ⟨quiet, hstep⟩ hlater, hacts⟩
    | some what =>
      refine ⟨_, .refl, fun honly => ?_⟩
      have hstep : step capacity ⟨.handle k, data, []⟩ quiet = some (⟨.handle (k + 1), data, []⟩,
          [.access k, .acted what (data.contextIds.getD k 0) (data.contexts.getD k ⟨0, 0, 0⟩).revents]) := by
        simp only [step, if_pos hk, haction]
        rfl
      have hmem := honly quiet _ _ hstep _ (List.mem_cons_of_mem _ List.mem_cons_self)
      exact absurd hmem List.not_mem_nil

/-- A poll that fails with events in the entries leads to an action that answers none. -/
theorem stale_of_not_failsClean {s s' : State} (hinv : Inv capacity s) (hdue : s.due = pending s.data s.pc)
    (hfails : ¬ FailsClean s w) (h : next capacity s w = some s') :
    ∃ s'', (system capacity).Later s' s'' ∧ ¬ OnlyDue capacity s'' := by
  obtain ⟨⟨hpc, hpoll⟩, hleft⟩ := Classical.not_imp.mp hfails
  obtain ⟨pc, data, due⟩ := s
  obtain rfl : pc = .poll := hpc
  obtain rfl : due = [] := hdue
  have hfailed : w.polled = .failed := by
    cases hpolled : w.polled with
    | failed => rfl
    | timeout => rw [hpolled] at hpoll; cases hpoll
    | ready revents => rw [hpolled] at hpoll; cases hpoll
  have hassigned : data.assignedContexts ≠ 0 := fun hzero =>
    hleft (remaining_of_le hinv.arrays (Nat.le_of_eq hzero))
  have hstep : next capacity ⟨.poll, data, []⟩ w = some ⟨.handle 0, data, []⟩ := by
    simp only [next, step, poll, if_neg hassigned, hfailed]
    rfl
  obtain rfl := Option.some.inj (h.symm.trans hstep)
  exact acts_on_stale rfl hinv.arrays rfl hleft

end steps

/-- **Every action has its event.** In every run whose polls fail only with no event left in the entries, the event loop
closes, accepts on or reads from a context only because of an event that the last successful poll reported for it and
that it has not acted on; any other failing poll leads to an action without one. -/
theorem events_due (contextCount inboundCount : Nat) {s : State}
    (h : ((system (readContexts contextCount inboundCount)).guarded FailsClean).Reachable s) :
    OnlyDue (readContexts contextCount inboundCount) s ∧
      ∀ w s', next (readContexts contextCount inboundCount) s w = some s' → ¬ FailsClean s w →
        ∃ s'', (system (readContexts contextCount inboundCount)).Later s' s'' ∧
          ¬ OnlyDue (readContexts contextCount inboundCount) s'' := by
  have hinv := inv_of_reachable (Nat.succ_pos _) h.of_guarded
  have hdue : s.due = pending s.data s.pc := by
    have hboth : Inv (readContexts contextCount inboundCount) s ∧ s.due = pending s.data s.pc := by
      refine h.guarded_invariant
        (P := fun s => Inv (readContexts contextCount inboundCount) s ∧ s.due = pending s.data s.pc) ?_ ?_
      · rintro s hs
        refine ⟨inv_of_reachable (Nat.succ_pos _) (.init hs), ?_⟩
        rw [hs.1, hs.2.2.2.2]
        rfl
      · rintro s w s' ⟨hinv, hdue⟩ hclean hnext
        obtain ⟨⟨s'', events⟩, hstep, rfl⟩ := Option.map_eq_some_iff.mp hnext
        exact ⟨(inv_step (Nat.succ_pos _) hinv hstep).1, (due_step hinv hdue hstep).1 hclean⟩
    exact hboth.2
  exact ⟨fun w s' events hstep => (due_step hinv hdue hstep).2,
    fun w s' hnext hfails => stale_of_not_failsClean hinv hdue hfails hnext⟩

instance (s : State) (w : World) : Decidable (FailsClean s w) := inferInstanceAs (Decidable (_ ∧ _ → _))

def polledWith (answer : PollAnswer) : World := { quiet with polled := answer }

/-- The thread acquires context 0 and polls it; the other side hangs up. -/
def hangup : List World :=
  List.replicate 4 quiet ++ [contextReady 0] ++ List.replicate 7 quiet ++ [polledWith (.ready [pollHup])]

theorem events_due_hangup :
    ∃ s : State, s.pc = .handle 0 ∧ s.due = [(0, pollHup)] ∧ OnlyDue (readContexts 32 2) s := by
  have hrun : (StepSystem.runList (StepSystem.gate FailsClean (next 17)) start hangup).map (fun s => (s.pc, s.due)) =
      some (.handle 0, [(0, pollHup)]) := by
    decide +kernel
  obtain ⟨s, hs, hend⟩ := Option.map_eq_some_iff.mp hrun
  obtain ⟨hpc, hdue⟩ := Prod.mk.inj hend
  have hreach : ((system (readContexts 32 2)).guarded FailsClean).Reachable s :=
    StepSystem.guarded_reachable_runList (.init ⟨rfl, rfl, rfl, rfl, rfl⟩) hs
  exact ⟨s, hpc, hdue, (events_due 32 2 hreach).1⟩

/-- Context 0 is closed and removed, context 1 takes its place in the arrays, and the next poll fails. -/
def replacedAndFailed : List World :=
  hangup ++ List.replicate 2 quiet ++ [{ quiet with shutDown := fun _ => true }] ++ List.replicate 5 quiet ++
    [contextReady 1] ++ List.replicate 7 quiet ++ [polledWith .failed]

/-- Context 1 is closed because context 0 has hung up. -/
theorem stale_event_acted_on :
    ¬ ∀ (contextCount inboundCount : Nat) (s : State), 1 ≤ contextCount → 1 ≤ inboundCount →
      (system (readContexts contextCount inboundCount)).Reachable s →
        OnlyDue (readContexts contextCount inboundCount) s := by
  intro hall
  have hrun : (StepSystem.runList (next 17) start replacedAndFailed).map
      (fun s => ((step 17 s quiet).map Prod.snd, s.due)) =
        some (some [.access 0, .acted .close 1 pollHup], []) := by
    decide +kernel
  obtain ⟨s, hs, hend⟩ := Option.map_eq_some_iff.mp hrun
  obtain ⟨hevents, hdue⟩ := Prod.mk.inj hend
  obtain ⟨⟨s', events⟩, hstep, hacted⟩ := Option.map_eq_some_iff.mp hevents
  obtain rfl : events = _ := hacted
  have hreach : (system (readContexts 32 2)).Reachable s :=
    StepSystem.reachable_runList (.init ⟨rfl, rfl, rfl, rfl, rfl⟩) hs
  have hmem := hall 32 2 s (by decide) (by decide) hreach quiet s' _ hstep (.acted .close 1 pollHup)
    (List.mem_cons_of_mem _ List.mem_cons_self)
  rw [Event.Due, hdue] at hmem
  exact absurd hmem List.not_mem_nil

end SubstanceConnector.Routine
