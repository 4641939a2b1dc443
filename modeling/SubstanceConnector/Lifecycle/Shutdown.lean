import SubstanceConnector.Threads.ReadRoutine

/-!
# Shutting down under running read threads

`substance_connector_shutdown` destroys the free queue first and stops the read threads afterwards. A
thread that still has a context returns it to the queue on its way out, and a thread that accepts a
connection takes one from it; both find the queue gone (`acceptPop_after_destroy`). A shutdown is safe
if no thread has a context at that moment and none waits to be acquired
(`free_contexts_live`): then no thread can come by one any more.
-/

namespace SubstanceConnector.ReadThreads

variable {cfg : BuildConfig} {s s' : State cfg} {i : Fin cfg.inboundCount}

def IsLive (p : QueuePtr) : Prop := ∃ q, p = .live q

theorem isLive_pop (p : QueuePtr) (v : UInt32) (r : Retcode × UInt32 × QueuePtr) (h : IsLive p)
    (hpop : connectorUintQueuePop p v = .ok r) : IsLive r.2.2 := by
  obtain ⟨q, rfl⟩ := h
  cases uintQueuePop_cases hpop with
  | empty => exact ⟨q, rfl⟩
  | taken => exact ⟨_, rfl⟩

theorem isLive_push (p : QueuePtr) (v : UInt32) (r : Retcode × QueuePtr) (h : IsLive p)
    (hpush : connectorUintQueuePush p v = .ok r) : IsLive r.2 := by
  obtain ⟨q, rfl⟩ := h
  cases uintQueuePush_cases hpush with
  | full => exact ⟨q, rfl⟩
  | stored => exact ⟨_, rfl⟩

/-! ## The steps of a thread -/

/-- A thread at these points is about to put a context into one of the two queues, or to take one. -/
def Pc.usesQueue : Pc → Bool
  | .release _ _ _ => true
  | .acceptPop _ _ _ => true
  | .acceptAppend _ _ => true
  | _ => false

/-- What one step of thread `i` can come to. -/
inductive Effect (s : State cfg) (i : Fin cfg.inboundCount) : State cfg → Prop
  | goto (holder : Option (Fin cfg.inboundCount)) {pc : Pc} (hpc : pc.usesQueue = false) :
      Effect s i ({ s with holder := holder }.goto i pc)
  | tryAcquire (o : HandshakeOutcome) {pc : Pc} (hpc : pc.usesQueue = false) : Effect s i (s.tryAcquire i o pc)
  | cleanupEntry (k : Nat) (after : After) : Effect s i (s.cleanupEntry i k after)
  | releaseEntry (context : UInt32) (k : Nat) (after : After) (hpc : (s.threads i).pc = .release context k after) :
      Effect s i (s.releaseEntry i context k after)
  | polled (answer : PollAnswer) : Effect s i (s.polled i answer)
  | handleEntry (k : Nat) (accepted : Option Nat) (hk : k < (s.threads i).data.assignedContexts) :
      Effect s i (s.handleEntry i k accepted)
  | acceptPop (listener : UInt32) (fd k : Nat) (hpc : (s.threads i).pc = .acceptPop listener fd k) :
      Effect s i (s.acceptPop i listener fd k)
  | acceptAppend (context : UInt32) (k : Nat) (hpc : (s.threads i).pc = .acceptAppend context k) :
      Effect s i (s.acceptAppend i context k)
  | broadcast (n k : Nat) : Effect s i (s.broadcast.goto i (.acceptSignal n k))
  | exitClose (k : Nat) (context : UInt32) (hk : k < (s.threads i).data.assignedContexts) :
      Effect s i ({ s with table := (connectorContextClose cfg s.table context).2 }.goto i (.exitClose (k + 1)))

theorem effect_stepThread {a : Answer} (h : stepThread s i a = some s') : Effect s i s' := by
  have hgoto : ∀ {pc : Pc}, pc.usesQueue = false → some (s.goto i pc) = some s' → Effect s i s' := by
    intro pc hpc h
    obtain rfl := Option.some.inj h
    exact .goto s.holder hpc
  have hlock : ∀ {pc : Pc}, pc.usesQueue = false →
      (if s.holder = none then some ({ s with holder := some i }.goto i pc) else none) = some s' → Effect s i s' := by
    intro pc hpc h
    split at h
    · obtain rfl := Option.some.inj h
      exact .goto _ hpc
    · exact absurd h (by simp)
  cases hpc : (s.threads i).pc with
  | loopTest | wokenTest | exitTest | pollTest =>
    simp only [stepThread, hpc] at h
    exact hgoto (by split <;> rfl) h
  | waitTest | pollEntry =>
    simp only [stepThread, hpc] at h
    exact hgoto (by split <;> rfl) h
  | lock | woken =>
    simp only [stepThread, hpc] at h
    exact hlock rfl h
  | wait | unlock =>
    simp only [stepThread, hpc] at h
    obtain rfl := Option.some.inj h
    exact .goto none rfl
  | waiting | done => simp [stepThread, hpc] at h
  | crashed fault => simp [stepThread, hpc] at h
  | wokenAcquire =>
    simp only [stepThread, hpc] at h
    obtain rfl := Option.some.inj h
    exact .tryAcquire _ rfl
  | acquire =>
    simp only [stepThread, hpc] at h
    split at h
    · obtain rfl := Option.some.inj h
      exact .tryAcquire _ rfl
    · exact hgoto rfl h
  | cleanup k after =>
    cases k with
    | zero => cases after <;> (simp only [stepThread, hpc] at h; exact hgoto rfl h)
    | succ k =>
      simp only [stepThread, hpc] at h
      obtain rfl := Option.some.inj h
      exact .cleanupEntry _ _
  | release context k after =>
    simp only [stepThread, hpc] at h
    obtain rfl := Option.some.inj h
    exact .releaseEntry _ _ _ hpc
  | poll =>
    simp only [stepThread, hpc] at h
    obtain rfl := Option.some.inj h
    exact .polled _
  | handle k =>
    simp only [stepThread, hpc] at h
    split at h
    · obtain rfl := Option.some.inj h
      exact .handleEntry _ _ ‹_›
    · exact hgoto rfl h
  | acceptPop listener fd k =>
    simp only [stepThread, hpc] at h
    obtain rfl := Option.some.inj h
    exact .acceptPop _ _ _ hpc
  | acceptAppend context k =>
    simp only [stepThread, hpc] at h
    obtain rfl := Option.some.inj h
    exact .acceptAppend _ _ hpc
  | acceptSignal n k =>
    cases n with
    | zero =>
      simp only [stepThread, hpc] at h
      exact hgoto rfl h
    | succ n =>
      simp only [stepThread, hpc] at h
      split at h
      · obtain rfl := Option.some.inj h
        exact .broadcast _ _
      · exact absurd h (by simp)
  | exitClose k =>
    simp only [stepThread, hpc] at h
    split at h
    · obtain rfl := Option.some.inj h
      exact .exitClose _ _ ‹_›
    · exact hgoto rfl h

/-! ## What a thread does to the table -/

/-- Whatever a thread does, the table changes by single operations, the caller stays where it is, and
at most one use of the free queue is recorded. -/
structure Moves (s s' : State cfg) : Prop where
  evolves : Evolves s.table s'.table
  caller : s'.caller = s.caller
  uses : s'.uses = s.uses ∨ s'.uses = s.uses ++ [s.table.freeContexts]

theorem moves_goto (pc : Pc) : Moves s (s.goto i pc) := ⟨.refl _, rfl, .inl rfl⟩

theorem moves_setThread (thread : Thread) : Moves s (s.setThread i thread) := ⟨.refl _, rfl, .inl rfl⟩

theorem moves_tryAcquire (o : HandshakeOutcome) (pc : Pc) : Moves s (s.tryAcquire i o pc) := by
  unfold State.tryAcquire
  split
  · exact ⟨.of_tryAcquire ‹_›, rfl, .inl rfl⟩
  · exact moves_goto _

theorem moves_cleanupEntry (k : Nat) (after : After) : Moves s (s.cleanupEntry i k after) := by
  unfold State.cleanupEntry
  dsimp only
  split
  · split
    · exact ⟨.setSlot _ _ (.refl _), rfl, .inl rfl⟩
    · exact moves_setThread _
  · exact moves_goto _

theorem moves_releaseEntry (context : UInt32) (k : Nat) (after : After) :
    Moves s (s.releaseEntry i context k after) := by
  unfold State.releaseEntry
  dsimp only
  split
  · exact ⟨.of_pushFree ‹_›, rfl, .inr rfl⟩
  · exact ⟨.refl _, rfl, .inr rfl⟩

theorem moves_handleEntry (k : Nat) (accepted : Option Nat) : Moves s (s.handleEntry i k accepted) := by
  unfold State.handleEntry
  dsimp only
  split
  · exact ⟨.of_close _, rfl, .inl rfl⟩
  · split
    · split
      · exact moves_goto _
      · exact moves_goto _
    · exact moves_goto _

theorem moves_acceptPop (listener : UInt32) (fd k : Nat) : Moves s (s.acceptPop i listener fd k) := by
  unfold State.acceptPop
  dsimp only
  split
  · split
    · exact ⟨(Evolves.of_popFree ‹_›).trans (.setSlot _ _ (.refl _)), rfl, .inr rfl⟩
    · exact ⟨.refl _, rfl, .inr rfl⟩
  · exact ⟨.refl _, rfl, .inr rfl⟩

theorem moves_acceptAppend (context : UInt32) (k : Nat) : Moves s (s.acceptAppend i context k) := by
  unfold State.acceptAppend
  split
  · refine ⟨Evolves.of_appendAvailable (v := context) ?_, rfl, .inl rfl⟩
    rw [appendAvailable, ‹connectorAvailableQueuePush s.table context = _›]
    rfl
  · exact moves_goto _

theorem moves_polled (answer : PollAnswer) : Moves s (s.polled i answer) := by
  unfold State.polled
  dsimp only
  split
  · exact moves_goto _
  · cases answer with
    | timeout => exact moves_setThread _
    | failed => exact moves_goto _
    | ready revents => exact moves_setThread _

theorem moves_effect (h : Effect s i s') : Moves s s' := by
  cases h with
  | goto holder hpc => exact ⟨.refl _, rfl, .inl rfl⟩
  | tryAcquire o hpc => exact moves_tryAcquire _ _
  | cleanupEntry k after => exact moves_cleanupEntry _ _
  | releaseEntry context k after hpc => exact moves_releaseEntry _ _ _
  | polled answer => exact moves_polled _
  | handleEntry k accepted hk => exact moves_handleEntry _ _
  | acceptPop listener fd k hpc => exact moves_acceptPop _ _ _
  | acceptAppend context k hpc => exact moves_acceptAppend _ _
  | broadcast n k => exact ⟨.refl _, rfl, .inl rfl⟩
  | exitClose k context hk => exact ⟨.of_close _, rfl, .inl rfl⟩

/-! ## Threads without a context -/

/-- A pop from the available queue finds nothing. -/
def availableEmpty (t : ContextTable) : Bool :=
  match t.connectionQueue with
  | .live q => q.looksEmpty q.readIndex q.maxIndex
  | _ => true

def Thread.quiet (t : Thread) : Bool := t.data.assignedContexts == 0 && !t.pc.usesQueue

/-- No thread has a context, and none waits to be acquired. -/
structure Idle (s : State cfg) : Prop where
  quiet : ∀ i, (s.threads i).quiet = true
  available : availableEmpty s.table = true

theorem Thread.quiet_iff {t : Thread} : t.quiet = true ↔ t.data.assignedContexts = 0 ∧ t.pc.usesQueue = false := by
  simp [Thread.quiet]

theorem availablePopLoop_idle {t : ContextTable} {n : Nat} {r : Option UInt32 × ContextTable}
    (h : availableEmpty t = true) (hpop : availablePopLoop t n = .ok r) : r = (none, t) := by
  induction n with
  | zero => exact (Except.ok.inj hpop).symm
  | succ n ih =>
    obtain ⟨p, hp, hpop⟩ := bind_eq_ok.mp hpop
    obtain ⟨contextList, freeContexts, connectionQueue⟩ := t
    have hfail : p = (.error, 0, connectionQueue) := by
      cases uintQueuePop_cases hp with
      | empty => rfl
      | taken _ _ hsome => exact absurd h hsome
    subst hfail
    exact ih hpop

theorem tryAcquire_idle {t : ContextTable} {o : HandshakeOutcome} {thread : ReadThread}
    {r : Retcode × ReadThread × ContextTable} (h : availableEmpty t = true)
    (hacquire : connectorReadThreadTryAcquire cfg o thread t = .ok r) : r = (.error, thread, t) := by
  have hidle : ∀ {popped : Option UInt32 × ContextTable}, connectorAvailableQueuePop t = .ok popped → popped = (none, t) := by
    intro popped hpop
    unfold connectorAvailableQueuePop at hpop
    split at hpop
    · exact (Except.ok.inj hpop).symm
    · exact availablePopLoop_idle h hpop
  obtain ⟨u, hpop, rfl⟩ | ⟨context, u, hpop, -⟩ := readThreadTryAcquire_cases hacquire
  · rw [(Prod.mk.inj (hidle hpop)).2]
  · cases (Prod.mk.inj (hidle hpop)).1

/-- A quiet thread stays quiet if it goes to a point where no queue is used. -/
theorem Idle.setThread (h : Idle s) {thread : Thread} (hquiet : thread.quiet = true) : Idle (s.setThread i thread) := by
  refine ⟨?_, h.available⟩
  exact Function.forall_update_iff s.threads (fun _ t => t.quiet = true) |>.mpr ⟨hquiet, fun j _ => h.quiet j⟩

theorem Idle.goto (h : Idle s) {pc : Pc} (hpc : pc.usesQueue = false) : Idle (s.goto i pc) :=
  h.setThread (Thread.quiet_iff.mpr ⟨(Thread.quiet_iff.mp (h.quiet i)).1, hpc⟩)

theorem Idle.broadcast (h : Idle s) : Idle s.broadcast := by
  refine ⟨?_, h.available⟩
  intro i
  show Thread.quiet (if (s.threads i).pc = .waiting then { s.threads i with pc := .woken } else s.threads i) = true
  split
  · exact Thread.quiet_iff.mpr ⟨(Thread.quiet_iff.mp (h.quiet i)).1, rfl⟩
  · exact h.quiet i

theorem idle_effect (hs : Idle s) (h : Effect s i s') : Idle s' ∧ s'.uses = s.uses := by
  obtain ⟨hassigned, hpoint⟩ := Thread.quiet_iff.mp (hs.quiet i)
  cases h with
  | goto holder hpc => exact ⟨Idle.goto (s := { s with holder := holder }) ⟨hs.quiet, hs.available⟩ hpc, rfl⟩
  | tryAcquire o hpc =>
    unfold State.tryAcquire
    split
    · obtain rfl := tryAcquire_idle hs.available ‹_›
      exact ⟨hs.setThread (Thread.quiet_iff.mpr ⟨hassigned, hpc⟩), rfl⟩
    · exact ⟨hs.goto rfl, rfl⟩
  | cleanupEntry k after =>
    -- nothing can be removed from a thread without contexts
    have hremove : connectorReadThreadRemoveContext (s.threads i).data k = (.error, (s.threads i).data) := by
      rw [connectorReadThreadRemoveContext, if_neg (by omega)]
    unfold State.cleanupEntry
    dsimp only
    rw [hremove]
    split
    · rw [if_neg (by simp)]
      exact ⟨hs.setThread (Thread.quiet_iff.mpr ⟨hassigned, rfl⟩), rfl⟩
    · exact ⟨hs.goto rfl, rfl⟩
  | releaseEntry context k after hpc =>
    rw [hpc] at hpoint
    exact absurd hpoint (by simp [Pc.usesQueue])
  | polled answer =>
    unfold State.polled
    dsimp only
    rw [if_pos hassigned]
    exact ⟨hs.goto rfl, rfl⟩
  | handleEntry k accepted hk => omega
  | acceptPop listener fd k hpc =>
    rw [hpc] at hpoint
    exact absurd hpoint (by simp [Pc.usesQueue])
  | acceptAppend context k hpc =>
    rw [hpc] at hpoint
    exact absurd hpoint (by simp [Pc.usesQueue])
  | broadcast n k => exact ⟨hs.broadcast.goto rfl, rfl⟩
  | exitClose k context hk => omega

/-! ## The steps of the caller -/

theorem idle_stepCaller (hs : Idle s) (h : stepCaller s = some s') : Idle s' ∧ s'.uses = s.uses := by
  cases callerStep h with
  | broadcast => exact ⟨⟨hs.broadcast.quiet, hs.available⟩, rfl⟩
  | running | destroy | storeNull | stopWriters | setFlag | flagSet | join | clearFlag =>
    exact ⟨⟨hs.quiet, hs.available⟩, rfl⟩
  | stopAvailable hcaller hr =>
    refine ⟨⟨hs.quiet, ?_⟩, rfl⟩
    obtain ⟨d, hd, hr⟩ := bind_eq_ok.mp hr
    obtain rfl := Except.ok.inj hr
    -- a destroyed queue is null, a failed destroy was called on the null pointer
    unfold connectorUintQueueDestroy at hd
    split at hd
    · obtain rfl := Except.ok.inj hd
      rfl
    · exact absurd hd (by simp)
    · obtain rfl := Except.ok.inj hd
      rfl

/-! ## Safe shutdowns -/

/-- The free queue has not been destroyed yet. -/
def Caller.early : Caller → Bool
  | .running => true
  | .destroy => true
  | _ => false

structure Inv (s : State cfg) : Prop where
  uses : ∀ p ∈ s.uses, IsLive p
  early : s.caller.early = true → IsLive s.table.freeContexts
  late : s.caller.early = false → Idle s

/-- When the caller destroys the free queue, no thread has a context and none waits to be acquired. -/
def SafeDestroy (s : State cfg) : Label cfg → Prop
  | .shutdown => s.caller = .destroy → Idle s
  | _ => True

theorem Inv.moves (hs : Inv s) (hearly : s.caller.early = true) (h : Moves s s') : Inv s' := by
  have hlive := hs.early hearly
  refine ⟨?_, ?_, ?_⟩
  · rcases h.uses with huses | huses
    · rw [huses]
      exact hs.uses
    · intro p hp
      rw [huses, List.mem_append, List.mem_singleton] at hp
      rcases hp with hp | rfl
      · exact hs.uses p hp
      · exact hlive
  · intro _
    exact h.evolves.freeContexts isLive_pop isLive_push hlive
  · intro hlate
    rw [h.caller, hearly] at hlate
    exact absurd hlate (by decide)

theorem Inv.idle (hs : Inv s) (hlate : s'.caller.early = false) (h : Idle s' ∧ s'.uses = s.uses) : Inv s' := by
  refine ⟨?_, ?_, ?_⟩
  · rw [h.2]
    exact hs.uses
  · intro hearly
    rw [hlate] at hearly
    exact absurd hearly (by decide)
  · exact fun _ => h.1

/-- A step after which an idle state is still idle keeps the invariant on both sides of the destruction. -/
theorem Inv.step (hs : Inv s) (hmoves : Moves s s') (hidle : Idle s → Idle s' ∧ s'.uses = s.uses) : Inv s' := by
  by_cases hearly : s.caller.early = true
  · exact hs.moves hearly hmoves
  · have hlate : s.caller.early = false := by simpa using hearly
    exact hs.idle (by rw [hmoves.caller, hlate]) (hidle (hs.late hlate))

theorem late_stepCaller (hlate : s.caller.early = false) (h : stepCaller s = some s') : s'.caller.early = false := by
  cases callerStep h with
  | running hcaller | destroy hcaller =>
    rw [hcaller] at hlate
    exact absurd hlate (by decide)
  | _ => rfl

theorem Idle.close (h : Idle s) (context : UInt32) :
    Idle { s with table := (connectorContextClose cfg s.table context).2 } := by
  refine ⟨h.quiet, ?_⟩
  have hempty := h.available
  unfold availableEmpty at hempty ⊢
  rw [connectionQueue_close]
  exact hempty

theorem inv_stepCaller (hs : Inv s) (hsafe : s.caller = .destroy → Idle s) (h : stepCaller s = some s') : Inv s' := by
  by_cases hearly : s.caller.early = true
  · cases callerStep h with
    | running => exact ⟨hs.uses, fun _ => hs.early hearly, fun hlate => absurd hlate (by simp [Caller.early])⟩
    | destroy hcaller =>
      refine hs.idle ?_ (idle_stepCaller (hsafe hcaller) h)
      dsimp only
      split <;> rfl
    | storeNull hcaller | stopWriters hcaller | setFlag hcaller | flagSet hcaller | broadcast hcaller | join hcaller
    | clearFlag hcaller | stopAvailable hcaller =>
      rw [hcaller] at hearly
      exact absurd hearly (by decide)
  · have hlate : s.caller.early = false := by simpa using hearly
    exact hs.idle (late_stepCaller hlate h) (idle_stepCaller (hs.late hlate) h)

theorem inv_next {a : Label cfg} (hs : Inv s) (hsafe : SafeDestroy s a) (h : next s a = some s') : Inv s' := by
  cases a with
  | openContext o desc identifier =>
    simp only [next] at h
    split at h
    · obtain ⟨r, hr, rfl⟩ := ContextSystem.toOption_map_eq_some.mp h
      exact hs.moves (by simp [*, Caller.early]) ⟨.of_open hr, rfl, .inl rfl⟩
    · exact absurd h (by simp)
  | connect o desc identifier =>
    simp only [next] at h
    split at h
    · obtain ⟨r, hr, rfl⟩ := ContextSystem.toOption_map_eq_some.mp h
      exact hs.moves (by simp [*, Caller.early]) ⟨.of_connect hr, rfl, .inl rfl⟩
    · exact absurd h (by simp)
  | close context =>
    obtain rfl := Option.some.inj h
    exact hs.step ⟨.of_close context, rfl, .inl rfl⟩ fun hidle => ⟨hidle.close context, rfl⟩
  | signal =>
    simp only [next] at h
    split at h
    · obtain rfl := Option.some.inj h
      exact hs.step ⟨.refl _, rfl, .inl rfl⟩ fun hidle => ⟨⟨hidle.broadcast.quiet, hidle.available⟩, rfl⟩
    · exact absurd h (by simp)
  | spurious i =>
    simp only [next] at h
    split at h
    · obtain rfl := Option.some.inj h
      exact hs.step (moves_goto _) fun hidle => ⟨hidle.goto rfl, rfl⟩
    · exact absurd h (by simp)
  | thread i answer =>
    have heffect := effect_stepThread h
    exact hs.step (moves_effect heffect) fun hidle => idle_effect hidle heffect
  | shutdown => exact inv_stepCaller hs hsafe h

theorem inv_start (cfg : BuildConfig) : Inv (State.start cfg) := by
  obtain ⟨t, ht, -, ⟨q, hq, -⟩, -⟩ := ContextSystem.startTable_rep cfg
  refine ⟨?_, ?_, ?_⟩
  · intro p hp
    cases hp
  · intro _
    refine ⟨q, ?_⟩
    simp only [State.start, ht]
    exact hq
  · intro hlate
    cases hlate

/-- **Safe shutdown.** In every run whose destruction of the free queue finds no thread with a context
and no context waiting, the read threads pop from and push to a live queue only. -/
theorem free_contexts_live {s : State cfg} (h : ((system cfg).guarded SafeDestroy).Reachable s) :
    ∀ p ∈ s.uses, IsLive p := by
  have hinv : Inv s := by
    refine h.guarded_invariant ?_ ?_
    · rintro s rfl
      exact inv_start cfg
    · intro s a s' hs hsafe hstep
      exact inv_next hs hsafe hstep
  exact hinv.uses

/-! ## Two shutdowns -/

instance (s : State cfg) : Decidable (Idle s) :=
  decidable_of_iff ((∀ i, (s.threads i).quiet = true) ∧ availableEmpty s.table = true)
    ⟨fun h => ⟨h.1, h.2⟩, fun h => ⟨h.quiet, h.available⟩⟩

instance (s : State cfg) : ∀ a, Decidable (SafeDestroy s a)
  | .openContext _ _ _ => .isTrue trivial
  | .connect _ _ _ => .isTrue trivial
  | .close _ => .isTrue trivial
  | .signal => .isTrue trivial
  | .spurious _ => .isTrue trivial
  | .thread _ _ => .isTrue trivial
  | .shutdown => inferInstanceAs (Decidable (s.caller = .destroy → Idle s))

/-- Thread 0 with an environment in which everything works: a connection is there to be accepted. -/
def threadZero : Label .default := .thread BuildConfig.firstThread ⟨⟨true, .success⟩, .ready [pollIn], some 5⟩

/-- A listener is opened, thread 0 takes it and finds a connection to accept. -/
def acceptRun : List (Label .default) :=
  [.openContext ⟨none, true, none, some 4, true, 8080, true⟩ (some ⟨commTcp, none, 8080⟩) (some 0)] ++
    List.replicate 4 threadZero ++ [.signal] ++ List.replicate 13 threadZero

/-- The shutdown destroys the queue just before the thread takes a context for the connection. -/
def lateAcceptRun : List (Label .default) := acceptRun ++ List.replicate 3 .shutdown ++ [threadZero]

/-- **A shutdown during an accept.** The thread takes a context through the null pointer. -/
theorem acceptPop_after_destroy : ¬ ∀ s, (system .default).Reachable s → ∀ p ∈ s.uses, IsLive p := by
  have hrun : (StepSystem.runList next (State.start .default) lateAcceptRun).map (·.uses) = some [.null] := by
    decide +kernel
  obtain ⟨s, hs, huses⟩ := Option.map_eq_some_iff.mp hrun
  intro hlive
  obtain ⟨q, hq⟩ := hlive s (StepSystem.reachable_runList (.init rfl) hs) .null (by rw [huses]; exact List.mem_singleton_self _)
  cases hq

/-- Both contexts are closed and given back before the shutdown, which then runs to its end. -/
def quietRun : List (Label .default) :=
  acceptRun ++ List.replicate 15 threadZero ++ [.close 0, .close 1] ++ List.replicate 9 threadZero ++
    List.replicate 6 .shutdown ++ List.replicate 3 threadZero ++
    List.replicate 3 (.thread BuildConfig.secondThread ⟨⟨true, .success⟩, .timeout, none⟩) ++ List.replicate 3 .shutdown

theorem uses_live_quietRun :
    ∃ s, ((system .default).guarded SafeDestroy).Reachable s ∧ s.caller = .finished ∧ s.uses.length = 3 ∧
      ∀ p ∈ s.uses, IsLive p := by
  have hrun : (StepSystem.runList (StepSystem.gate SafeDestroy next) (State.start .default) quietRun).map
      (fun s => (s.caller, s.uses.length)) = some (.finished, 3) := by
    decide +kernel
  obtain ⟨s, hs, hend⟩ := Option.map_eq_some_iff.mp hrun
  have hreach : ((system .default).guarded SafeDestroy).Reachable s :=
    StepSystem.guarded_reachable_runList (.init rfl) hs
  exact ⟨s, hreach, congrArg Prod.fst hend, congrArg Prod.snd hend, free_contexts_live hreach⟩

end SubstanceConnector.ReadThreads
