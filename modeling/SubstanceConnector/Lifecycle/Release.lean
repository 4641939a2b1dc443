import SubstanceConnector.Lifecycle.Books

/-!
# Every descriptor is closed once

A step of the run that crashes no thread keeps the invariant (`inv_next`): a thread moves, another party moves, or
the caller of the shutdown does. When the caller is through, the threads are done and have nothing, so the ledger is
settled (`closed_exactly_once`) unless contexts were left in the available queue (`left_open`).
-/

namespace SubstanceConnector.Descriptors

open ReadThreads RingIndex
open ContextSystem (ring ids freeEmpty pushesSince Proper)

section steps
variable {cfg : BuildConfig} {x x' : State cfg} {s s' : ReadThreads.State cfg} {i : Fin cfg.inboundCount}

/-! ## Steps that do not crash -/

theorem releaseEntry_alive {context : UInt32} {k : Nat} {after : After}
    (h : ∀ fault, ((s.releaseEntry i context k after).threads i).pc ≠ .crashed fault) :
    ∃ r, s.table.pushFree context = .ok r ∧ (s.releaseEntry i context k after).table = r.2 ∧
      (s.releaseEntry i context k after).threads i = ⟨.cleanup k after, (s.threads i).data⟩ := by
  unfold State.releaseEntry at h ⊢
  dsimp only at h ⊢
  split
  · exact ⟨_, ‹_›, rfl, threads_goto _ _ _⟩
  · rename_i fault hfault
    rw [hfault] at h
    exact absurd (congrArg Thread.pc (threads_goto _ i (.crashed fault))) (h fault)

theorem acceptPop_alive {listener : UInt32} {fd k : Nat}
    (h : ∀ fault, ((s.acceptPop i listener fd k).threads i).pc ≠ .crashed fault) :
    ∃ r, s.table.popFree 0 = .ok r ∧
      (s.acceptPop i listener fd k).table = r.2.2.setSlot r.2.1 { r.2.2.slot r.2.1 with
        configuration := (r.2.2.slot listener).type ||| connConnected
        fd := fd } ∧
      (s.acceptPop i listener fd k).threads i = ⟨.acceptAppend r.2.1 k, (s.threads i).data⟩ := by
  unfold State.acceptPop at h ⊢
  dsimp only at h ⊢
  split
  · rename_i r hr
    rw [hr] at h
    dsimp only at h
    split
    · exact ⟨r, hr, rfl, threads_goto _ _ _⟩
    · rename_i hrange
      rw [if_neg hrange] at h
      exact absurd (congrArg Thread.pc (threads_goto _ i (.crashed .bufferOverflow))) (h .bufferOverflow)
  · rename_i fault hfault
    rw [hfault] at h
    exact absurd (congrArg Thread.pc (threads_goto _ i (.crashed fault))) (h fault)

theorem acceptAppend_alive {context : UInt32} {k : Nat}
    (h : ∀ fault, ((s.acceptAppend i context k).threads i).pc ≠ .crashed fault) :
    ∃ r n, connectorAvailableQueuePush s.table context = .ok r ∧ (s.acceptAppend i context k).table = r.2 ∧
      (s.acceptAppend i context k).threads i = ⟨.acceptSignal n k, (s.threads i).data⟩ := by
  unfold State.acceptAppend at h ⊢
  split
  · exact ⟨_, _, ‹_›, rfl, threads_goto _ _ _⟩
  · rename_i fault hfault
    rw [hfault] at h
    exact absurd (congrArg Thread.pc (threads_goto _ i (.crashed fault))) (h fault)

theorem tryAcquire_alive {o : HandshakeOutcome} {pc : Pc}
    (h : ∀ fault, ((s.tryAcquire i o pc).threads i).pc ≠ .crashed fault) :
    ∃ r, connectorReadThreadTryAcquire cfg o (s.threads i).data s.table = .ok r ∧ (s.tryAcquire i o pc).table = r.2.2 ∧
      (s.tryAcquire i o pc).threads i = ⟨pc, r.2.1⟩ := by
  unfold State.tryAcquire at h ⊢
  split
  · exact ⟨_, ‹_›, rfl, threads_setThread _ _ _⟩
  · rename_i fault hfault
    rw [hfault] at h
    exact absurd (congrArg Thread.pc (threads_goto _ i (.crashed fault))) (h fault)

theorem broadcast_data (s : ReadThreads.State cfg) (i : Fin cfg.inboundCount) :
    (s.broadcast.threads i).data = (s.threads i).data := by
  show (if (s.threads i).pc = .waiting then ({ s.threads i with pc := .woken } : Thread) else s.threads i).data = _
  split <;> rfl

/-- The entry of a cleanup: a context that is shut down is removed and cleared, any other stays. -/
theorem cleanupEntry_cases (hp : Proper cfg (s.threads i).data)
    (hrange : ∀ c ∈ (s.threads i).data.held, c.toNat < cfg.contextCount) (k : Nat) (after : After) :
    (∃ data, k < (s.threads i).data.assignedContexts ∧
        ((s.threads i).data.contextIds.getD k 0 :: data.held).Perm (s.threads i).data.held ∧ Proper cfg data ∧
        data.assignedContexts = (s.threads i).data.assignedContexts - 1 ∧
        (s.cleanupEntry i k after).threads i = ⟨.release ((s.threads i).data.contextIds.getD k 0) k after, data⟩ ∧
        (s.cleanupEntry i k after).table = s.table.setSlot ((s.threads i).data.contextIds.getD k 0) .zero) ∨
      ((k < (s.threads i).data.assignedContexts → ¬ Closing (s.table.slot ((s.threads i).data.contextIds.getD k 0))) ∧
        (s.cleanupEntry i k after).threads i = ⟨.cleanup k after, (s.threads i).data⟩ ∧
        (s.cleanupEntry i k after).table = s.table) := by
  unfold State.cleanupEntry
  dsimp only
  rw [state_and (by decide)]
  by_cases hk : k < (s.threads i).data.assignedContexts
  · obtain ⟨hremoved, hheld, hproper, hassigned⟩ := ContextSystem.removeContext_held hp hk
    by_cases hshut : (s.table.slot ((s.threads i).data.contextIds.getD k 0)).configuration &&& connShutdown ≠ 0
    · rw [if_pos hshut, if_pos ⟨hremoved, hrange _ (hheld.subset List.mem_cons_self)⟩]
      exact .inl ⟨_, hk, hheld, hproper, hassigned, threads_setThread _ _ _, rfl⟩
    · rw [if_neg hshut]
      exact .inr ⟨fun _ => hshut, threads_goto _ _ _, rfl⟩
  · have hremove : connectorReadThreadRemoveContext (s.threads i).data k = (.error, (s.threads i).data) := if_neg hk
    rw [hremove]
    refine .inr ⟨fun hlt => absurd hlt hk, ?_⟩
    split
    · rw [if_neg fun hboth => Retcode.noConfusion hboth.1]
      exact ⟨threads_setThread _ _ _, rfl⟩
    · exact ⟨threads_goto _ _ _, rfl⟩

theorem polled_cases (answer : PollAnswer) :
    ∃ data, ((s.polled i answer).threads i = ⟨.handle 0, data⟩ ∨
        ∃ k, (s.polled i answer).threads i = ⟨.cleanup k .poll, data⟩) ∧
      data.contextIds = (s.threads i).data.contextIds ∧ data.assignedContexts = (s.threads i).data.assignedContexts ∧
      (s.polled i answer).table = s.table := by
  unfold State.polled
  dsimp only
  split
  · exact ⟨_, .inl (threads_goto _ _ _), rfl, rfl, rfl⟩
  · cases answer with
    | timeout => exact ⟨_, .inr ⟨_, threads_setThread _ _ _⟩, rfl, rfl, rfl⟩
    | failed => exact ⟨_, .inl (threads_goto _ _ _), rfl, rfl, rfl⟩
    | ready revents => exact ⟨_, .inl (threads_setThread _ _ _), rfl, rfl, rfl⟩

theorem handleEntry_cases (k : Nat) (accepted : Option Nat) :
    (∃ fd, (s.handleEntry i k accepted).threads i =
          ⟨.acceptPop ((s.threads i).data.contextIds.getD k 0) fd k, (s.threads i).data⟩ ∧
        (s.handleEntry i k accepted).table = s.table) ∨
      ((s.handleEntry i k accepted).threads i = ⟨.handle (k + 1), (s.threads i).data⟩ ∧
        ((s.handleEntry i k accepted).table = s.table ∨
          ∃ context, (s.handleEntry i k accepted).table = (connectorContextClose cfg s.table context).2)) := by
  unfold State.handleEntry
  dsimp only
  split
  · exact .inr ⟨threads_goto _ _ _, .inr ⟨_, rfl⟩⟩
  · split
    · split
      · exact .inl ⟨_, threads_goto _ _ _, rfl⟩
      · exact .inr ⟨threads_goto _ _ _, .inl rfl⟩
    · exact .inr ⟨threads_goto _ _ _, .inl rfl⟩

/-- A step at a point where a context or a descriptor is under way. -/
theorem advance_queue {a : Answer} (hs : Inv x) (hlive : x.run.caller ≠ .finished)
    (hattended : Attended x.run (.thread i a)) (hunwrapped : Unwrapped x (.thread i a))
    (h : stepThread x.run i a = some s') (halive : ∀ fault, (s'.threads i).pc ≠ .crashed fault)
    (huse : (x.run.threads i).pc.usesQueue = true) : Advance x (x.after s' (.thread i a)) := by
  have hturn := turn_stepThread h
  have hpoint : ∀ pc, (x.run.threads i).pc = pc → x.run.threads i = ⟨pc, (x.run.threads i).data⟩ := by
    rintro pc rfl
    rfl
  cases hpc : (x.run.threads i).pc with
  | release context k after =>
    simp only [stepThread, hpc] at h
    obtain rfl := Option.some.inj h
    obtain ⟨r, hpush, htable, hthread⟩ := releaseEntry_alive halive
    refine advance_release hs hlive hturn ?_ (hpoint _ hpc) hthread hpush htable
    have hcost := hunwrapped.1
    rw [freeCost, hpc] at hcost
    exact hcost
  | acceptPop listener fd k =>
    simp only [stepThread, hpc] at h
    obtain rfl := Option.some.inj h
    obtain ⟨⟨retcode, context, popped⟩, hpop, htable, hthread⟩ := acceptPop_alive halive
    have hsupplied : freeEmpty x.run.table = false := by
      refine hattended ?_
      rw [hpc]
      exact List.cons_ne_nil _ _
    obtain rfl : retcode = .success := popFree_supplied hpop hsupplied
    exact advance_pop hs hlive hturn (hpoint _ hpc) hthread hpop htable
  | acceptAppend context k =>
    simp only [stepThread, hpc] at h
    obtain rfl := Option.some.inj h
    obtain ⟨r, n, hpush, htable, hthread⟩ := acceptAppend_alive halive
    refine advance_append hs hlive hturn ?_ (hpoint _ hpc) hthread hpush htable
    have hcost := hunwrapped.2
    rw [availableCost, hpc] at hcost
    exact hcost
  | _ =>
    rw [hpc] at huse
    cases huse

/-- A step at any other point. -/
theorem advance_free {a : Answer} (hs : Inv x) (hlive : x.run.caller ≠ .finished) (h : stepThread x.run i a = some s')
    (halive : ∀ fault, (s'.threads i).pc ≠ .crashed fault) (hpoint : (x.run.threads i).pc.usesQueue = false) :
    Advance x (x.after s' (.thread i a)) := by
  have hturn := turn_stepThread h
  -- the thread goes on with the same contexts
  have hstay : ∀ {pc : Pc} {data : ReadThread}, pc.usesQueue = false → s'.threads i = ⟨pc, data⟩ →
      data.held = (x.run.threads i).data.held →
      (s'.table = x.run.table ∨ ∃ context, s'.table = (connectorContextClose cfg x.run.table context).2) →
        Advance x (x.after s' (.thread i a)) := by
    intro pc data hpc hthread hheld htable
    refine advance_stay hs hlive hturn hpoint (by rw [hthread]; exact hpc) (by rw [hthread]; exact hheld) ?_ fun c => ?_
    · rcases htable with hsame | ⟨context, hclosed⟩
      · exact ⟨_, rfl, hsame⟩
      · rw [hclosed]
        exact table_close context
    · rcases htable with hsame | ⟨context, hclosed⟩
      · rw [hsame]
        exact .refl _
      · rw [hclosed]
        exact keeps_close context c
  cases effect_stepThread h with
  | goto holder hpc => exact hstay hpc (threads_goto _ _ _) rfl (.inl rfl)
  | tryAcquire o hpc =>
    obtain ⟨r, hacquire, htable, hthread⟩ := tryAcquire_alive halive
    exact advance_acquire hs hturn hpoint hpc hthread htable
      (acquired (hs.available hlive) (hs.proper i) hacquire)
  | cleanupEntry k after =>
    have hrange : ∀ c ∈ (x.run.threads i).data.held, c.toNat < cfg.contextCount := fun c hc =>
      hs.range (mem_places_of_engaged (mem_engaged_of_held hc))
    obtain ⟨data, -, hheld, -, -, hthread, htable⟩ | ⟨-, hthread, htable⟩ := cleanupEntry_cases (hs.proper i) hrange k after
    · exact advance_cleanup hs hlive hturn hpoint hthread htable hheld
    · exact hstay rfl hthread rfl (.inl htable)
  | releaseEntry context k after hpc =>
    rw [hpc] at hpoint
    cases hpoint
  | polled answer =>
    obtain ⟨data, hthread, hids, hassigned, htable⟩ := @polled_cases _ x.run i answer
    have hheld : data.held = (x.run.threads i).data.held := by
      rw [ReadThread.held, ReadThread.held, hids, hassigned]
    rcases hthread with hthread | ⟨k, hthread⟩
    · exact hstay rfl hthread hheld (.inl htable)
    · exact hstay rfl hthread hheld (.inl htable)
  | handleEntry k accepted hk =>
    obtain ⟨fd, hthread, htable⟩ | ⟨hthread, htable⟩ := @handleEntry_cases _ x.run i k accepted
    · exact advance_handle hs hlive hturn hpoint hthread htable
    · exact hstay rfl hthread rfl htable
  | acceptPop listener fd k hpc =>
    rw [hpc] at hpoint
    cases hpoint
  | acceptAppend context k hpc =>
    rw [hpc] at hpoint
    cases hpoint
  | broadcast n k =>
    exact hstay rfl (threads_goto _ _ _) (congrArg ReadThread.held (broadcast_data x.run i)) (.inl rfl)
  | exitClose k context hk => exact hstay rfl (threads_goto _ _ _) rfl (.inr ⟨context, rfl⟩)

/-! ## The way out of a thread -/

theorem mem_held {thread : ReadThread} (hp : Proper cfg thread) {k : Nat} (hk : k < thread.assignedContexts) :
    thread.contextIds.getD k 0 ∈ thread.held := by
  have hin : k < thread.contextIds.length := by
    rw [hp.length]
    exact hk.trans_le hp.assigned
  rw [List.getD_eq_getElem?_getD, List.getElem?_eq_getElem hin]
  exact List.mem_take_iff_getElem.mpr ⟨k, by omega, rfl⟩

theorem exists_of_mem_held {thread : ReadThread} {c : UInt32} (h : c ∈ thread.held) :
    ∃ k, k < thread.assignedContexts ∧ thread.contextIds.getD k 0 = c := by
  obtain ⟨k, hk, hget⟩ := List.mem_take_iff_getElem.mp h
  have hin : k < thread.contextIds.length := by omega
  refine ⟨k, by omega, ?_⟩
  rw [List.getD_eq_getElem?_getD, List.getElem?_eq_getElem hin]
  exact hget

/-- The entries below `k + 1` are flagged once the one at `k` is. -/
theorem stage_exitClose (hs : Inv x) {k : Nat} (hpoint : (x.run.threads i).pc = .exitClose k)
    (hk : k < (x.run.threads i).data.assignedContexts) :
    ∀ j, j < k + 1 → j < (x.run.threads i).data.assignedContexts →
      Closing ((connectorContextClose cfg x.run.table ((x.run.threads i).data.contextIds.getD k 0)).2.slot
        ((x.run.threads i).data.contextIds.getD j 0)) := by
  intro j hj hin
  have hstage := hs.stage i
  rw [Stage, hpoint] at hstage
  rcases Nat.lt_succ_iff_lt_or_eq.mp hj with hlt | rfl
  · exact (keeps_close _ _).shutdown (hstage j hlt hin)
  · have hengaged := mem_engaged_of_held (mem_held (hs.proper i) hk)
    exact shutdown_close (hs.engaged _ hengaged) (hs.range (mem_places_of_engaged hengaged)) hs.length

/-- Clearing the slot of a context that has been removed leaves the other ones flagged. -/
theorem closing_removed (hs : Inv x) {context : UInt32} {data : ReadThread}
    (hheld : (context :: data.held).Perm (x.run.threads i).data.held)
    (hclosing : ∀ c ∈ (x.run.threads i).data.held, Closing (x.run.table.slot c)) :
    ∀ c ∈ data.held, Closing ((x.run.table.setSlot context .zero).slot c) := by
  intro c hc
  have hnodup : (x.run.threads i).data.held.Nodup := by
    have hle : ((x.run.threads i).data.held : Multiset UInt32) ≤ places x.run := by
      refine le_trans ?_ (Multiset.le_add_left _ _)
      refine le_trans ?_ (Multiset.le_add_left _ _)
      refine le_trans ?_ (le_pool Thread.engaged x.run i)
      exact Multiset.coe_le.mpr (List.sublist_append_left _ _).subperm
    exact Multiset.coe_nodup.mp (Multiset.nodup_of_le hle hs.nodup)
  have hne : c ≠ context := by
    rintro rfl
    exact (List.nodup_cons.mp (hheld.nodup_iff.mpr hnodup)).1 hc
  rw [slot_setSlot_of_ne _ _ hne]
  exact hclosing c (hheld.subset (List.mem_cons_of_mem _ hc))

theorem stage_cleanup (hs : Inv x) {k : Nat} {after : After} (hpoint : (x.run.threads i).pc = .cleanup (k + 1) after) :
    Proper cfg ((x.run.cleanupEntry i k after).threads i).data ∧
      Stage (x.run.cleanupEntry i k after).table ((x.run.cleanupEntry i k after).threads i) := by
  have hrange : ∀ c ∈ (x.run.threads i).data.held, c.toNat < cfg.contextCount := fun c hc =>
    hs.range (mem_places_of_engaged (mem_engaged_of_held hc))
  have hstage := hs.stage i
  rw [Stage, hpoint] at hstage
  obtain ⟨data, -, hheld, hproper, hassigned, hthread, htable⟩ | ⟨hopen, hthread, htable⟩ :=
    cleanupEntry_cases (hs.proper i) hrange k after
  · rw [hthread, htable]
    refine ⟨hproper, ?_⟩
    cases after with
    | exit => exact ⟨by rw [hassigned, hstage.1, Nat.add_sub_cancel], closing_removed hs hheld hstage.2⟩
    | poll => trivial
    | loop => trivial
  · rw [hthread, htable]
    refine ⟨hs.proper i, ?_⟩
    cases after with
    | exit =>
      have hk : k < (x.run.threads i).data.assignedContexts := by
        have hassigned : (x.run.threads i).data.assignedContexts = k + 1 := hstage.1
        omega
      exact absurd (hstage.2 _ (mem_held (hs.proper i) hk)) (hopen hk)
    | poll => trivial
    | loop => trivial

theorem stage_thread {a : Answer} (hs : Inv x) (hlive : x.run.caller ≠ .finished) (h : stepThread x.run i a = some s')
    (halive : ∀ fault, (s'.threads i).pc ≠ .crashed fault) :
    Proper cfg (s'.threads i).data ∧ Stage s'.table (s'.threads i) := by
  have hstage := hs.stage i
  have hgoto : ∀ {holder : Option (Fin cfg.inboundCount)} {pc : Pc},
      some ({ x.run with holder := holder }.goto i pc) = some s' → Stage x.run.table ⟨pc, (x.run.threads i).data⟩ →
        Proper cfg (s'.threads i).data ∧ Stage s'.table (s'.threads i) := by
    intro holder pc h hpc
    obtain rfl := Option.some.inj h
    rw [threads_goto]
    exact ⟨hs.proper i, hpc⟩
  have hacquire : ∀ {o : HandshakeOutcome} {pc : Pc}, x.run.tryAcquire i o pc = s' → (∀ t data, Stage t ⟨pc, data⟩) →
      Proper cfg (s'.threads i).data ∧ Stage s'.table (s'.threads i) := by
    rintro o pc rfl hpc
    obtain ⟨r, hacquire, -, hthread⟩ := tryAcquire_alive halive
    rw [hthread]
    exact ⟨(acquired (hs.available hlive) (hs.proper i) hacquire).proper, hpc _ _⟩
  cases hpoint : (x.run.threads i).pc with
  | loopTest | exitTest | pollTest =>
    simp only [stepThread, hpoint] at h
    refine hgoto h ?_
    split
    · exact fun j hj => absurd hj (Nat.not_lt_zero j)
    · trivial
  | waitTest | pollEntry | wokenTest =>
    simp only [stepThread, hpoint] at h
    refine hgoto h ?_
    split <;> trivial
  | lock | woken =>
    simp only [stepThread, hpoint] at h
    obtain ⟨-, h⟩ := Option.ite_none_right_eq_some.mp h
    exact hgoto h trivial
  | wait | unlock =>
    simp only [stepThread, hpoint] at h
    exact hgoto h trivial
  | waiting | done => simp [stepThread, hpoint] at h
  | crashed fault => simp [stepThread, hpoint] at h
  | wokenAcquire =>
    simp only [stepThread, hpoint] at h
    exact hacquire (Option.some.inj h) fun _ _ => trivial
  | acquire =>
    simp only [stepThread, hpoint] at h
    split at h
    · exact hacquire (Option.some.inj h) fun _ _ => trivial
    · exact hgoto h trivial
  | cleanup k after =>
    cases k with
    | zero =>
      cases after with
      | exit =>
        rw [Stage, hpoint] at hstage
        simp only [stepThread, hpoint] at h
        exact hgoto h hstage.1
      | poll | loop =>
        simp only [stepThread, hpoint] at h
        exact hgoto h trivial
    | succ k =>
      simp only [stepThread, hpoint] at h
      obtain rfl := Option.some.inj h
      exact stage_cleanup hs hpoint
  | release context k after =>
    simp only [stepThread, hpoint] at h
    obtain rfl := Option.some.inj h
    obtain ⟨r, hpush, htable, hthread⟩ := releaseEntry_alive halive
    rw [hthread, htable]
    refine ⟨hs.proper i, ?_⟩
    cases after with
    | exit =>
      rw [Stage, hpoint] at hstage
      refine ⟨hstage.1, fun c hc => ?_⟩
      rw [slot_of_contextList (contextList_pushFree hpush)]
      exact hstage.2 c hc
    | poll => trivial
    | loop => trivial
  | poll =>
    simp only [stepThread, hpoint] at h
    obtain rfl := Option.some.inj h
    obtain ⟨data, hthread, hids, hassigned, htable⟩ := @polled_cases _ x.run i a.polled
    have hproper : Proper cfg data := by
      refine ⟨?_, ?_⟩
      · rw [hids]
        exact (hs.proper i).length
      · rw [hassigned]
        exact (hs.proper i).assigned
    rcases hthread with hthread | ⟨k, hthread⟩
    · rw [hthread]
      exact ⟨hproper, trivial⟩
    · rw [hthread]
      exact ⟨hproper, trivial⟩
  | handle k =>
    simp only [stepThread, hpoint] at h
    split at h
    · rename_i hk
      obtain rfl := Option.some.inj h
      obtain ⟨fd, hthread, htable⟩ | ⟨hthread, -⟩ := @handleEntry_cases _ x.run i k a.accepted
      · rw [hthread]
        exact ⟨hs.proper i, mem_held (hs.proper i) hk⟩
      · rw [hthread]
        exact ⟨hs.proper i, trivial⟩
    · exact hgoto h trivial
  | acceptPop listener fd k =>
    simp only [stepThread, hpoint] at h
    obtain rfl := Option.some.inj h
    obtain ⟨r, -, -, hthread⟩ := acceptPop_alive halive
    rw [hthread]
    exact ⟨hs.proper i, trivial⟩
  | acceptAppend context k =>
    simp only [stepThread, hpoint] at h
    obtain rfl := Option.some.inj h
    obtain ⟨r, n, -, -, hthread⟩ := acceptAppend_alive halive
    rw [hthread]
    exact ⟨hs.proper i, trivial⟩
  | acceptSignal n k =>
    cases n with
    | zero =>
      simp only [stepThread, hpoint] at h
      exact hgoto h trivial
    | succ n =>
      simp only [stepThread, hpoint] at h
      obtain ⟨-, h⟩ := Option.ite_none_right_eq_some.mp h
      obtain rfl := Option.some.inj h
      rw [threads_goto]
      refine ⟨?_, trivial⟩
      show Proper cfg (x.run.broadcast.threads i).data
      rw [broadcast_data]
      exact hs.proper i
  | exitClose k =>
    simp only [stepThread, hpoint] at h
    split at h
    · rename_i hk
      obtain rfl := Option.some.inj h
      rw [threads_goto]
      exact ⟨hs.proper i, stage_exitClose hs hpoint hk⟩
    · rename_i hk
      refine hgoto h ⟨rfl, fun c hc => ?_⟩
      obtain ⟨j, hj, rfl⟩ := exists_of_mem_held hc
      rw [Stage, hpoint] at hstage
      exact hstage j (Nat.lt_of_lt_of_le hj (Nat.le_of_not_lt hk)) hj

/-! ## The other parties -/

theorem pool_of_threads {β : Type} (f : Thread → List β) (hthreads : s'.threads = s.threads) : pool f s' = pool f s := by
  rw [pool, pool, hthreads]

/-- An open or a connect: nothing happens, an identifier goes round the free queue, or a context begins. -/
theorem advance_taken {a : Label cfg} {bit : UInt64} {o : Option ConnectorContext} (hs : Inv x)
    (hlive : x.run.caller ≠ .finished) (hf : Faithful (2 ^ 32) (ring cfg).toNat (x.freePushes + 1))
    (ha : Faithful (2 ^ 32) (ring cfg).toNat (x.availablePushes + 1)) (hthreads : s'.threads = x.run.threads)
    (htaken : Taken cfg bit x.run.table o s'.table) (hobtained : obtainedBy x.run s' a = (o.map (·.fd)).toList)
    (hcleared : cleared x.run s' a = none)
    (hcommitted : ∀ port ∈ committed x.run a, ∃ c, o = some c ∧ c.connection = commTcp ∧ port = c.port ∧ bit = connOpen) :
    Advance x (x.after s' a) := by
  have hpools := fun {β : Type} (f : Thread → List β) => pool_of_threads f hthreads
  have hclosed : (x.after s' a).closed = x.closed := by simp [State.after, closedBy, hcleared]
  have hnone : o = none → committed x.run a = [] := by
    rintro rfl
    refine List.eq_nil_iff_forall_not_mem.mpr fun port hport => ?_
    obtain ⟨c, hc, -⟩ := hcommitted port hport
    cases hc
  cases htaken' : s'.table with
  | mk list free queue =>
  rw [htaken'] at htaken
  generalize hu : (⟨list, free, queue⟩ : ContextTable) = u at htaken
  rw [hu] at htaken'
  cases htaken with
  | refused _ hlist hqueue hfree =>
    refine advance_plain hs ?_ (hpools _) (hpools _) ?_ (fun c => ?_) (.inl ?_) (fun _ => ⟨hlive, ?_⟩) hobtained hcleared
      (hnone rfl)
    · rw [engaged, engaged, hpools, htaken', hqueue]
    · rw [htaken', hlist]
    · rw [htaken', slot_of_contextList hlist]
      exact .refl _
    · rw [htaken', hfree]
    · rw [htaken', hqueue]
  | @returned context v popped pushed hpop hpush =>
    obtain ⟨p, hp, rfl⟩ := ContextTable.popFree_eq_ok hpop
    obtain ⟨q, hq, hr'⟩ := bind_eq_ok.mp hpush
    obtain rfl := Except.ok.inj hr'
    have hroom : x.run.table.freeContexts.contents.length ≤ cfg.contextCount := by
      have hcard := hs.card_le
      rw [places, Multiset.card_add, Multiset.card_add, Multiset.coe_card] at hcard
      omega
    obtain ⟨hkept, hperm⟩ := kept_returned hs.free hf hroom hp hq
    have hmem : context ∈ x.run.table.freeContexts.contents := by
      obtain ⟨-, ⟨hfailed, -⟩ | ⟨-, hcontents⟩⟩ := kept_pop hs.free hp
      · cases hfailed
      · rw [hcontents]
        exact List.mem_cons_self
    have hfresh := hs.not_engaged_of_free hmem
    have hengaged : engaged s' = engaged x.run := by
      rw [engaged, engaged, hpools, htaken']
      rfl
    have hplaces : places s' = places x.run := by
      rw [places, places, hengaged, hpools, htaken']
      exact congrArg (· + _ + _) (Multiset.coe_eq_coe.mpr hperm)
    refine ⟨?_, ?_, fun _ => ?_, hplaces.le, .stay hengaged (hpools _) ?_ hclosed ?_ fun c hc => ?_⟩
    · show s'.table.contextList.length = _
      rw [htaken']
      exact List.length_set
    · show Kept cfg s'.table.freeContexts (x.freePushes + pushesSince x.run.table.freeContexts s'.table.freeContexts)
      rw [htaken']
      exact hkept
    · exact hs.stands_same hlive htaken' rfl
    · simp [State.after, hobtained]
    · simp [State.after, hnone rfl, hcleared, remove]
    · show Keeps _ (s'.table.slot c)
      rw [htaken']
      show Keeps _ ((x.run.table.setSlot context v).slot c)
      rw [slot_setSlot_of_ne _ _ fun heq : c = context => hfresh (heq ▸ hc)]
      exact .refl _
  | @published context c popped _ hpop hrange hnew hbit happend =>
    obtain ⟨p, hp, rfl⟩ := ContextTable.popFree_eq_ok hpop
    obtain ⟨hkept, ⟨hfailed, -⟩ | ⟨-, hcontents⟩⟩ := kept_pop hs.free hp
    · cases hfailed
    have hfresh : context ∉ engaged x.run := hs.not_engaged_of_free (by rw [hcontents]; exact List.mem_cons_self)
    have hroom : x.run.table.connectionQueue.contents.length < cfg.contextCount := by
      have hcard := hs.card_le
      rw [places, engaged, hcontents, Multiset.card_add, Multiset.card_add, Multiset.card_add, Multiset.coe_card,
        Multiset.coe_card, List.length_cons] at hcard
      omega
    obtain ⟨pushed, hpush, hdone⟩ := bind_eq_ok.mp happend
    obtain rfl := Except.ok.inj hdone
    have hstands := hs.available hlive
    rw [connectorAvailableQueuePush, if_neg (show (ContextTable.setSlot { x.run.table with freeContexts := p } context
      c).connectionQueue ≠ .null from hstands.ne_null)] at hpush
    obtain ⟨q, hq, hr'⟩ := bind_eq_ok.mp hpush
    obtain rfl := Except.ok.inj hr'
    obtain ⟨hpushed, -, hqueue⟩ := hstands.push ha hroom hq
    have hslot : s'.table.slot context = c := by
      rw [htaken']
      refine slot_setSlot_self (t := x.run.table) c ?_
      rw [hs.length]
      exact hrange
    rw [← htaken', hslot] at hobtained hcommitted
    have hengaged : engaged s' = context ::ₘ engaged x.run := by
      rw [engaged, engaged, hpools, htaken']
      show (q.2.contents : Multiset UInt32) + _ = _
      rw [hqueue, coe_concat, Multiset.cons_add]
    have hplaces : places s' = places x.run := by
      rw [places, places, hengaged, hpools, hcontents, htaken', ← Multiset.cons_coe, Multiset.cons_add,
        Multiset.cons_add, Multiset.add_cons]
      rfl
    refine ⟨?_, ?_, fun _ => ?_, hplaces.le, .request context hengaged ?_ (hpools _) ?_ hclosed (fun port hport => ?_)
      fun d hd => ?_⟩
    · show s'.table.contextList.length = _
      rw [htaken']
      exact List.length_set
    · show Kept cfg s'.table.freeContexts (x.freePushes + pushesSince x.run.table.freeContexts s'.table.freeContexts)
      rw [htaken']
      exact hkept
    · show Stands cfg s'.table.connectionQueue
        (x.availablePushes + pushesSince x.run.table.connectionQueue s'.table.connectionQueue)
      rw [htaken']
      exact hpushed
    · show Engaged (s'.table.slot context)
      rw [hslot]
      exact hnew
    · show x.obtained ++ _ = x.obtained ++ [(s'.table.slot context).fd]
      rw [hobtained, hslot]
      rfl
    · have hport' : port ∈ x.portFiles ++ committed x.run a := by
        simpa [State.after, hcleared, remove] using hport
      rcases List.mem_append.mp hport' with hold | hwritten
      · exact .inl hold
      · right
        obtain ⟨c', hc', htcp, rfl, rfl⟩ := hcommitted port hwritten
        obtain rfl := Option.some.inj hc'
        show (s'.table.slot context).portFile = _
        rw [hslot, ConnectorContext.portFile, if_pos ⟨htcp, hbit⟩]
    · show Keeps _ (s'.table.slot d)
      rw [htaken']
      show Keeps _ ((x.run.table.setSlot context c).slot d)
      rw [slot_setSlot_of_ne _ _ fun heq : d = context => hfresh (heq ▸ hd)]
      exact .refl _

/-! ## A step of the run -/

/-- Whoever does not move stays where it is, or wakes. -/
theorem others_next {a : Label cfg} (h : ReadThreads.next s a = some s') (j : Fin cfg.inboundCount)
    (hj : ∀ answer, a ≠ .thread j answer) :
    s'.threads j = s.threads j ∨ s'.threads j = (s.threads j).wake := by
  cases a with
  | openContext o desc identifier =>
    obtain ⟨-, h⟩ := Option.ite_none_right_eq_some.mp h
    obtain ⟨r, -, rfl⟩ := ContextSystem.toOption_map_eq_some.mp h
    exact .inl rfl
  | connect o desc identifier =>
    obtain ⟨-, h⟩ := Option.ite_none_right_eq_some.mp h
    obtain ⟨r, -, rfl⟩ := ContextSystem.toOption_map_eq_some.mp h
    exact .inl rfl
  | close context =>
    obtain rfl := Option.some.inj h
    exact .inl rfl
  | signal =>
    obtain ⟨-, h⟩ := Option.ite_none_right_eq_some.mp h
    obtain rfl := Option.some.inj h
    exact .inr rfl
  | spurious i =>
    obtain ⟨hwaiting, h⟩ := Option.ite_none_right_eq_some.mp h
    obtain rfl := Option.some.inj h
    by_cases hji : j = i
    · right
      rw [hji, threads_goto, Thread.wake, if_pos hwaiting]
    · exact .inl (Function.update_of_ne hji _ _)
  | thread i answer =>
    refine (turn_stepThread h).others j ?_
    rintro rfl
    exact hj answer rfl
  | shutdown =>
    replace h : stepCaller s = some s' := h
    cases hcaller : s.caller with
    | running | storeNull | stopWriters | clearFlag =>
      simp only [stepCaller, hcaller] at h
      obtain rfl := Option.some.inj h
      exact .inl rfl
    | destroy | stopAvailable =>
      simp only [stepCaller, hcaller] at h
      obtain ⟨r, -, rfl⟩ := ContextSystem.toOption_map_eq_some.mp h
      exact .inl rfl
    | setFlag =>
      simp only [stepCaller, hcaller] at h
      obtain rfl := Option.some.inj h
      split <;> exact .inl rfl
    | broadcast =>
      simp only [stepCaller, hcaller] at h
      obtain ⟨-, h⟩ := Option.ite_none_right_eq_some.mp h
      obtain rfl := Option.some.inj h
      exact .inr rfl
    | join =>
      simp only [stepCaller, hcaller] at h
      obtain ⟨-, h⟩ := Option.ite_none_right_eq_some.mp h
      obtain rfl := Option.some.inj h
      exact .inl rfl
    | finished => simp [stepCaller, hcaller] at h

theorem wake_crashed {thread : Thread} {fault : Fault} (h : thread.pc = .crashed fault) :
    thread.wake.pc = .crashed fault := by
  rw [Thread.wake, if_neg (by rw [h]; exact Pc.noConfusion)]
  exact h

/-- A thread that has crashed stays so. -/
theorem Alive.before {a : Label cfg} (h : ReadThreads.next s a = some s') (halive : Alive s') : Alive s := by
  intro j fault hcrashed
  by_cases hj : ∃ answer, a = .thread j answer
  · obtain ⟨answer, rfl⟩ := hj
    replace h : stepThread s j answer = some s' := h
    simp [stepThread, hcrashed] at h
  · refine halive j fault ?_
    obtain hsame | hwoken := others_next h j fun answer heq => hj ⟨answer, heq⟩
    · rw [hsame, hcrashed]
    · rw [hwoken, wake_crashed hcrashed]

theorem nextAnytime_of_next {a : Label cfg} (h : ReadThreads.next s a = some s') : nextAnytime s a = some s' := by
  cases a with
  | openContext o desc identifier => exact (Option.ite_none_right_eq_some.mp h).2
  | connect o desc identifier => exact (Option.ite_none_right_eq_some.mp h).2
  | _ => exact h

/-- When the shutdown is over, the threads are too. -/
theorem Inv.not_finished (hs : Inv x) {a : Answer} (h : stepThread x.run i a = some s') : x.run.caller ≠ .finished := by
  intro hfinished
  have hdone := hs.quiet.reached
  rw [hfinished] at hdone
  simp [stepThread, hdone i] at h

theorem pool_woken {β : Type} {f : Thread → List β} (hf : ∀ thread : Thread, f thread.wake = f thread)
    (h : ∀ j, s'.threads j = s.threads j ∨ s'.threads j = (s.threads j).wake) : pool f s' = pool f s := by
  refine Finset.sum_congr rfl fun j _ => ?_
  obtain hsame | hwoken := h j
  · rw [hsame]
  · rw [hwoken, hf]

/-- A step of somebody else that moves no context. -/
theorem advance_woken {a : Label cfg} (hs : Inv x)
    (hthreads : ∀ j, s'.threads j = x.run.threads j ∨ s'.threads j = (x.run.threads j).wake)
    (hlength : s'.table.contextList.length = x.run.table.contextList.length)
    (hkeeps : ∀ c, Keeps (x.run.table.slot c) (s'.table.slot c))
    (hfree : s'.table.freeContexts = x.run.table.freeContexts ∨ ¬ IsLive s'.table.freeContexts)
    (hcontents : s'.table.connectionQueue.contents = x.run.table.connectionQueue.contents)
    (havailable : s'.caller ≠ .finished →
      x.run.caller ≠ .finished ∧ s'.table.connectionQueue = x.run.table.connectionQueue)
    (hobtained : obtainedBy x.run s' a = []) (hcleared : cleared x.run s' a = none) (hcommitted : committed x.run a = []) :
    Advance x (x.after s' a) := by
  refine advance_plain hs ?_ (pool_woken releasing_wake hthreads) (pool_woken accepted_wake hthreads) hlength hkeeps hfree
    havailable hobtained hcleared hcommitted
  rw [engaged, engaged, hcontents, pool_woken engaged_wake hthreads]

theorem contents_of_not_live {p : QueuePtr} (h : ¬ IsLive p) : p.contents = [] := by
  cases p with
  | live q => exact absurd ⟨q, rfl⟩ h
  | _ => rfl

theorem not_live_destroy {p : QueuePtr} {r : Retcode × QueuePtr} (h : connectorUintQueueDestroy p = .ok r) :
    ¬ IsLive r.2 := by
  rintro ⟨q, hq⟩
  cases p with
  | null | live =>
    obtain rfl := Except.ok.inj h
    cases hq
  | released => cases h

theorem not_live_null : ¬ IsLive .null := by
  rintro ⟨q, hq⟩
  cases hq

/-- The caller of the shutdown. -/
theorem advance_caller (hs : Inv x) (hattended : Attended x.run .shutdown) (h : stepCaller x.run = some s') :
    Advance x (x.after s' .shutdown) ∧ (s'.caller = .finished → s'.table.connectionQueue.contents = []) := by
  have hthreads := fun j => @others_next cfg x.run s' .shutdown h j fun _ => by simp
  have hplain : s'.table = x.run.table → s'.caller ≠ .finished → x.run.caller ≠ .finished →
      Advance x (x.after s' .shutdown) ∧ (s'.caller = .finished → s'.table.connectionQueue.contents = []) := by
    intro htable hrunning hbefore
    refine ⟨?_, fun hfinished => absurd hfinished hrunning⟩
    refine advance_woken hs hthreads (by rw [htable]) (fun c => ?_) (.inl (by rw [htable])) (by rw [htable])
      (fun _ => ⟨hbefore, by rw [htable]⟩) rfl rfl rfl
    rw [htable]
    exact .refl _
  cases callerStep h with
  | running hcaller | stopWriters hcaller | setFlag hcaller | flagSet hcaller | broadcast hcaller | join hcaller
  | clearFlag hcaller => exact hplain rfl Caller.noConfusion (by rw [hcaller]; exact Caller.noConfusion)
  | @destroy r hcaller hdestroy =>
    refine ⟨?_, fun hfinished => ?_⟩
    · exact advance_woken hs hthreads rfl (fun c => .refl _) (.inr (not_live_destroy hdestroy)) rfl
        (fun _ => ⟨by rw [hcaller]; exact Caller.noConfusion, rfl⟩) rfl rfl rfl
    · dsimp only at hfinished
      split at hfinished <;> cases hfinished
  | storeNull hcaller =>
    refine ⟨?_, fun hfinished => by cases hfinished⟩
    exact advance_woken hs hthreads rfl (fun c => .refl _) (.inr not_live_null) rfl
      (fun _ => ⟨by rw [hcaller]; exact Caller.noConfusion, rfl⟩) rfl rfl rfl
  | @stopAvailable r hcaller hshutdown =>
    obtain ⟨destroyed, hdestroy, hr⟩ := bind_eq_ok.mp hshutdown
    obtain rfl := Except.ok.inj hr
    have hgone : ¬ IsLive (if destroyed.1 = .success then QueuePtr.null else destroyed.2) := by
      split
      · exact not_live_null
      · exact not_live_destroy hdestroy
    have hnil := contents_of_not_live hgone
    refine ⟨?_, fun _ => hnil⟩
    exact advance_woken hs hthreads rfl (fun c => .refl _) (.inl rfl) (hnil.trans (hattended hcaller).symm)
      (fun hrunning => absurd rfl hrunning) rfl rfl rfl

theorem advance_next {a : Label cfg} (hs : Inv x) (hattended : Attended x.run a) (hunwrapped : Unwrapped x a)
    (h : ReadThreads.next x.run a = some s') (halive : Alive s') :
    Advance x (x.after s' a) ∧ (s'.caller = .finished → s'.table.connectionQueue.contents = []) := by
  have hrequest : ∀ {r : Retcode × Option UInt32 × ContextTable}, x.run.caller = .running → s' = x.run.requested r →
      Advance x (x.after s' a) →
        Advance x (x.after s' a) ∧ (s'.caller = .finished → s'.table.connectionQueue.contents = []) := by
    rintro r hrunning rfl hadvance
    refine ⟨hadvance, fun hfinished => ?_⟩
    cases hrunning.symm.trans hfinished
  cases a with
  | openContext o desc identifier =>
    obtain ⟨hrunning, h⟩ := Option.ite_none_right_eq_some.mp h
    obtain ⟨r, hopen, rfl⟩ := ContextSystem.toOption_map_eq_some.mp h
    have hrequested : requested x.run (.openContext o desc identifier) = filled r := by
      rw [requested, hopen]
      rfl
    refine hrequest hrunning rfl ?_
    refine advance_taken hs (by rw [hrunning]; exact Caller.noConfusion) hunwrapped.1 hunwrapped.2 rfl
      (taken_open hopen) ?_ rfl fun port hport => ?_
    · rw [obtainedBy, hrequested]
      simp
    · rw [committed, hrequested, Option.mem_toList] at hport
      obtain ⟨c, hc, hport⟩ := Option.bind_eq_some_iff.mp hport
      obtain ⟨htcp, hport⟩ := Option.ite_none_right_eq_some.mp hport
      exact ⟨c, hc, htcp, (Option.some.inj hport).symm, rfl⟩
  | connect o desc identifier =>
    obtain ⟨hrunning, h⟩ := Option.ite_none_right_eq_some.mp h
    obtain ⟨r, hconnect, rfl⟩ := ContextSystem.toOption_map_eq_some.mp h
    have hrequested : requested x.run (.connect o desc identifier) = filled r := by
      rw [requested, hconnect]
      rfl
    have hsupplied : desc.isSome → identifier.isSome → freeEmpty x.run.table = false := by
      cases desc with
      | none => exact fun hdesc => absurd hdesc Bool.false_ne_true
      | some desc =>
        cases identifier with
        | none => exact fun _ hidentifier => absurd hidentifier Bool.false_ne_true
        | some identifier => exact fun _ _ => hattended
    refine hrequest hrunning rfl ?_
    refine advance_taken hs (by rw [hrunning]; exact Caller.noConfusion) hunwrapped.1 hunwrapped.2 rfl
      (taken_connect hconnect hsupplied) ?_ rfl fun port hport => absurd hport List.not_mem_nil
    rw [obtainedBy, hrequested]
    simp
  | close context =>
    obtain rfl := Option.some.inj h
    obtain ⟨list, hlength, htable⟩ := @table_close cfg x.run.table context
    refine ⟨?_, fun hfinished => ?_⟩
    · refine advance_woken hs (fun _ => .inl rfl) ?_ (keeps_close context) ?_ ?_ (fun hrunning => ⟨hrunning, ?_⟩) rfl rfl rfl
      · dsimp only
        rw [htable]
        exact hlength
      · dsimp only
        rw [htable]
        exact .inl rfl
      · dsimp only
        rw [htable]
      · dsimp only
        rw [htable]
    · dsimp only
      rw [htable]
      exact hs.left hfinished
  | signal =>
    have hthreads := fun j => others_next h j fun _ => by simp
    obtain ⟨-, h⟩ := Option.ite_none_right_eq_some.mp h
    obtain rfl := Option.some.inj h
    exact ⟨advance_woken hs hthreads rfl (fun c => .refl _) (.inl rfl) rfl (fun hrunning => ⟨hrunning, rfl⟩) rfl rfl rfl,
      hs.left⟩
  | spurious i =>
    have hthreads := fun j => others_next h j fun _ => by simp
    obtain ⟨-, h⟩ := Option.ite_none_right_eq_some.mp h
    obtain rfl := Option.some.inj h
    exact ⟨advance_woken hs hthreads rfl (fun c => .refl _) (.inl rfl) rfl (fun hrunning => ⟨hrunning, rfl⟩) rfl rfl rfl,
      hs.left⟩
  | thread i answer =>
    have hlive := hs.not_finished h
    refine ⟨?_, fun hfinished => absurd ((turn_stepThread h).caller.symm.trans hfinished) hlive⟩
    by_cases huse : (x.run.threads i).pc.usesQueue = true
    · exact advance_queue hs hlive hattended hunwrapped h (halive i) huse
    · exact advance_free hs hlive h (halive i) (Bool.eq_false_iff.mpr huse)
  | shutdown => exact advance_caller hs hattended h

/-- A thread that does not move stays at its stage. -/
theorem Stage.keeps {t u : ContextTable} {thread : Thread} (h : Stage t thread) (hp : Proper cfg thread.data)
    (hkeeps : ∀ c ∈ thread.data.held, Keeps (t.slot c) (u.slot c)) : Stage u thread := by
  obtain ⟨pc, data⟩ := thread
  have hclosing : ∀ c ∈ data.held, Closing (t.slot c) → Closing (u.slot c) := fun c hc => (hkeeps c hc).shutdown
  cases pc with
  | exitClose k => exact fun j hj hin => hclosing _ (mem_held hp hin) (h j hj hin)
  | cleanup k after =>
    cases after with
    | exit => exact ⟨h.1, fun c hc => hclosing c hc (h.2 c hc)⟩
    | poll | loop => trivial
  | release context k after =>
    cases after with
    | exit => exact ⟨h.1, fun c hc => hclosing c hc (h.2 c hc)⟩
    | poll | loop => trivial
  | acceptPop listener fd k => exact h
  | done => exact h
  | _ => trivial

theorem Stage.wake {t : ContextTable} {thread : Thread} (h : Stage t thread) : Stage t thread.wake := by
  unfold Thread.wake
  split
  · trivial
  · exact h

theorem inv_next {a : Label cfg} (hs : Inv x) (hattended : Attended x.run a) (hunwrapped : Unwrapped x a)
    (h : ReadThreads.next x.run a = some s') (halive : Alive s') : Inv (x.after s' a) := by
  obtain ⟨hadvance, hleft⟩ := advance_next hs hattended hunwrapped h halive
  have hmoved : ∀ j, Proper cfg (s'.threads j).data ∧ Stage s'.table (s'.threads j) := by
    intro j
    by_cases hj : ∃ answer, a = .thread j answer
    · obtain ⟨answer, rfl⟩ := hj
      exact stage_thread hs (hs.not_finished h) h (halive j)
    · have hdata : (s'.threads j).data = (x.run.threads j).data ∧
          (Stage x.run.table (x.run.threads j) → Stage x.run.table (s'.threads j)) := by
        obtain hsame | hwoken := others_next h j fun answer heq => hj ⟨answer, heq⟩
        · rw [hsame]
          exact ⟨rfl, id⟩
        · rw [hwoken]
          refine ⟨?_, Stage.wake⟩
          unfold Thread.wake
          split <;> rfl
      have hproper : Proper cfg (s'.threads j).data := by
        rw [hdata.1]
        exact hs.proper j
      refine ⟨hproper, (hdata.2 (hs.stage j)).keeps hproper fun c hc => ?_⟩
      have hafter : c ∈ engaged s' := mem_engaged_of_held hc
      rw [hdata.1] at hc
      exact hadvance.move.keeps (mem_engaged_of_held hc) hafter
  exact {
    quiet := quiet_next hs.quiet (nextAnytime_of_next h)
    length := hadvance.length.trans hs.length
    free := hadvance.free
    available := hadvance.available
    left := hleft
    places := hadvance.places.trans hs.places
    proper := fun j => (hmoved j).1
    engaged := hadvance.move.engaged hs.engaged
    stage := fun j => (hmoved j).2
    sound := hs.sound.steps hadvance.move.steps }

end steps

/-! ## The whole run -/

section whole
variable {cfg : BuildConfig} {x : State cfg}

theorem pool_start {β : Type} {f : Thread → List β} (hf : f ⟨.loopTest, .zero cfg⟩ = []) : pool f (.start cfg) = 0 := by
  refine Finset.sum_eq_zero fun i _ => ?_
  exact congrArg Multiset.ofList hf

theorem inv_start (cfg : BuildConfig) : Inv (.start cfg) := by
  obtain ⟨t, ht, hlist, hfree, havailable⟩ := ContextSystem.startTable_rep cfg
  have htable : (ReadThreads.State.start cfg).table = t := by
    rw [ReadThreads.State.start, ht]
    rfl
  have hengaged : engaged (.start cfg) = 0 := by
    rw [engaged, pool_start rfl, htable, havailable.contents_eq]
    rfl
  refine {
    quiet := ⟨fun _ hlocked => absurd hlocked Bool.false_ne_true, rfl⟩
    length := by
      show (ReadThreads.State.start cfg).table.contextList.length = _
      rw [htable, hlist, List.length_replicate]
    free := fun _ => ?_
    available := fun _ => ?_
    left := fun hfinished => by cases hfinished
    places := ?_
    proper := fun _ => ContextSystem.proper_zero cfg
    engaged := fun c hc => ?_
    stage := fun _ => trivial
    sound := ⟨?_, fun port hport => absurd hport List.not_mem_nil⟩ }
  · show Stands cfg (ReadThreads.State.start cfg).table.freeContexts _
    rw [htable]
    exact .of_rep hfree
  · show Stands cfg (ReadThreads.State.start cfg).table.connectionQueue _
    rw [htable]
    exact .of_rep havailable
  · show places (.start cfg) ≤ _
    rw [places, hengaged, pool_start rfl, htable, hfree.contents_eq, add_zero, add_zero]
  · replace hc : c ∈ engaged (.start cfg) := hc
    rw [hengaged] at hc
    exact absurd hc (Multiset.notMem_zero c)
  · show (0 : Multiset Nat) = 0 + pool (·.pc.accepted) (.start cfg) + (engaged (.start cfg)).map _
    rw [hengaged, pool_start rfl]
    rfl

theorem inv_of_reachable
    (h : ((system cfg).guarded fun x a => Descriptors.Attended x.run a ∧ Unwrapped x a).Reachable x) :
    Quiet x.run ∧ (Alive x.run → Inv x) := by
  refine h.guarded_invariant (P := fun x => Quiet x.run ∧ (Alive x.run → Inv x)) (fun x hx => ?_)
    fun x a x' hs hguard hstep => ?_
  · obtain rfl : x = .start cfg := hx
    exact ⟨(inv_start cfg).quiet, fun _ => inv_start cfg⟩
  · obtain ⟨s', hnext, rfl⟩ := Option.map_eq_some_iff.mp hstep
    refine ⟨quiet_next hs.1 (nextAnytime_of_next hnext), fun halive => ?_⟩
    exact inv_next (hs.2 (halive.before hnext)) hguard.1 hguard.2 hnext halive

/-- No descriptor is closed more often than it was obtained. -/
theorem closed_le (h : ((system cfg).guarded fun x a => Descriptors.Attended x.run a ∧ Unwrapped x a).Reachable x)
    (halive : Alive x.run) (fd : Nat) : x.closed.count fd ≤ x.obtained.count fd := by
  have hle := ((inv_of_reachable h).2 halive).sound.released_le
  have hcount := Multiset.count_le_of_le fd hle
  rwa [books, Multiset.coe_count, Multiset.coe_count] at hcount

/-- Threads that are done have nothing. -/
theorem pool_done {β : Type} {f : Thread → List β} {s : ReadThreads.State cfg} (hdone : ∀ i, (s.threads i).pc = .done)
    (hf : ∀ thread : Thread, thread.pc = .done → thread.data.held = [] → f thread = [])
    (hheld : ∀ i, (s.threads i).data.held = []) : pool f s = 0 := by
  refine Finset.sum_eq_zero fun i _ => ?_
  rw [hf _ (hdone i) (hheld i)]
  rfl

theorem Inv.released (hs : Inv x) : Released x := by
  intro hfinished
  have hdone : ∀ i, (x.run.threads i).pc = .done := by
    have hreached := hs.quiet.reached
    rwa [hfinished] at hreached
  have hheld : ∀ i, (x.run.threads i).data.held = [] := by
    intro i
    have hstage := hs.stage i
    rw [Stage, hdone i] at hstage
    rw [ReadThread.held, hstage]
    rfl
  have hengaged : Descriptors.engaged x.run = 0 := by
    rw [Descriptors.engaged, hs.left hfinished, pool_done hdone (fun thread hpc hnil => ?_) hheld]
    · rfl
    · rw [Thread.engaged, hnil, hpc]
      rfl
  have hpending : pool (·.pc.accepted) x.run = 0 := by
    refine pool_done hdone (fun thread hpc _ => ?_) hheld
    rw [hpc]
    rfl
  obtain ⟨hclosed, hlisted⟩ := hs.sound.settled hengaged hpending
  refine ⟨fun fd => ?_, List.eq_nil_iff_forall_not_mem.mpr fun port hport => ?_⟩
  · have hcount := congrArg (Multiset.count fd) hclosed
    rwa [books, Multiset.coe_count, Multiset.coe_count] at hcount
  · exact absurd (show port ∈ (books x).listed from hport) (by rw [hlisted]; exact Set.notMem_empty port)

/-- **Every descriptor has been closed once and no port file is left** when the shutdown is over, if the available
queue is empty when it is destroyed and nobody takes a context when there is none. -/
theorem closed_exactly_once (cfg : BuildConfig) (x : State cfg)
    (h : ((system cfg).guarded fun x a => Descriptors.Attended x.run a ∧ Unwrapped x a).Reachable x) : Released x := by
  intro hfinished
  obtain ⟨hquiet, hinv⟩ := inv_of_reachable h
  refine (hinv fun i fault hcrashed => ?_).released hfinished
  have hreached := hquiet.reached
  rw [hfinished] at hreached
  cases (hreached i).symm.trans hcrashed

end whole

section runs
variable {cfg : BuildConfig}

instance (s : ReadThreads.State cfg) : ∀ a, Decidable (Descriptors.Attended s a)
  | .connect _ (some _) (some _) => inferInstanceAs (Decidable (freeEmpty s.table = false))
  | .thread i _ => inferInstanceAs (Decidable ((s.threads i).pc.accepted ≠ [] → freeEmpty s.table = false))
  | .shutdown => inferInstanceAs (Decidable (s.caller = .stopAvailable → s.table.connectionQueue.contents = []))
  | .connect _ none _ | .connect _ (some _) none => .isTrue trivial
  | .openContext _ _ _ | .close _ | .signal | .spurious _ => .isTrue trivial

instance (x : State cfg) (a : Label cfg) : Decidable (Unwrapped x a) :=
  inferInstanceAs (Decidable ((_ < _ ∨ _ ∣ _) ∧ (_ < _ ∨ _ ∣ _)))

/-- A port is opened, a thread acquires it, and the library is shut down. -/
def closedRun : List (Label .default) :=
  turns BuildConfig.firstThread 4 ++ turns BuildConfig.secondThread 4 ++ [openPort 8080, .signal] ++
    turns BuildConfig.firstThread 4 ++ .replicate 5 .shutdown ++ turns BuildConfig.firstThread 1 ++ [.shutdown] ++
      turns BuildConfig.firstThread 6 ++ turns BuildConfig.secondThread 6 ++ .replicate 3 .shutdown

theorem closed_exactly_once_run :
    ∃ x : State .default, x.run.caller = .finished ∧ x.obtained = [4] ∧ x.closed.count 4 = x.obtained.count 4 := by
  have hrun : (StepSystem.runList (StepSystem.gate (fun x a => Descriptors.Attended x.run a ∧ Unwrapped x a)
      Descriptors.next) (State.start .default) closedRun).map (fun x => (x.run.caller, x.obtained)) =
        some (.finished, [4]) := by
    decide +kernel
  obtain ⟨x, hx, hend⟩ := Option.map_eq_some_iff.mp hrun
  obtain ⟨hfinished, hobtained⟩ := Prod.mk.inj hend
  have hreleased := closed_exactly_once .default x (StepSystem.guarded_reachable_runList (.init rfl) hx)
  exact ⟨x, hfinished, hobtained, (hreleased hfinished).1 4⟩

/-- A port is opened and the library is shut down before a thread acquires it. -/
def leftRun : List (Label .default) :=
  [openPort 8080, .signal] ++ .replicate 6 .shutdown ++ turns BuildConfig.firstThread 3 ++
    turns BuildConfig.secondThread 3 ++ .replicate 3 .shutdown

theorem left_open : ¬ ∀ x, (system .default).Reachable x → Released x := by
  have hrun : (StepSystem.runList Descriptors.next (State.start .default) leftRun).map
      (fun x => (x.run.caller, x.portFiles)) = some (.finished, [8080]) := by
    decide +kernel
  obtain ⟨x, hx, hend⟩ := Option.map_eq_some_iff.mp hrun
  obtain ⟨hfinished, hports⟩ := Prod.mk.inj hend
  intro hall
  have hnone := (hall x (StepSystem.reachable_runList (.init rfl) hx) hfinished).2
  rw [hports] at hnone
  cases hnone

end runs

end SubstanceConnector.Descriptors
