import SubstanceConnector.Threads.ReadRoutine
import SubstanceConnector.Threads.Termination

/-!
# Waking the read threads

A read thread tests the flag with the inbound lock just before it waits, so after the broadcast of
`connector_shutdown_read_threads` none sleeps; the same holds of the dispatch threads. It does not test
the queue of available contexts there: a context pushed while every thread is on its way to the wait is
polled by nobody until the next broadcast.
-/

namespace SubstanceConnector.ReadThreads

variable {cfg : BuildConfig} {s s' : State cfg} {i : Fin cfg.inboundCount}

/-! ## The lock and the condition -/

/-- The thread has the inbound lock. -/
def Pc.locked : Pc → Bool
  | .waitTest | .wait | .wokenTest | .wokenAcquire | .unlock => true
  | _ => false

/-- The thread neither has the lock nor waits. -/
def Pc.free (pc : Pc) : Bool := !pc.locked && pc != .waiting

def Thread.wake (t : Thread) : Thread := if t.pc = .waiting then { t with pc := .woken } else t

/-- What a step of thread `i` means for the others, the lock and the wait. -/
structure Turn (s : State cfg) (i : Fin cfg.inboundCount) (s' : State cfg) : Prop where
  flag : s'.flag = s.flag
  caller : s'.caller = s.caller
  owed : s'.owed = s.owed
  others : ∀ j, j ≠ i → s'.threads j = s.threads j ∨ s'.threads j = (s.threads j).wake
  holder : s'.holder = s.holder ∨ s.holder = none ∨ (s.threads i).pc.locked = true
  locked : (s'.threads i).pc.locked = true →
    s'.holder = some i ∨ s'.holder = s.holder ∧ (s.threads i).pc.locked = true
  wait : (s'.threads i).pc = .wait → s.flag = false
  waiting : (s'.threads i).pc = .waiting → (s.threads i).pc = .wait ∧ s'.table = s.table

/-- The step ends with another table and thread `i` at a point with `Q`. -/
def Leaves (s : State cfg) (i : Fin cfg.inboundCount) (Q : Pc → Prop) (s' : State cfg) : Prop :=
  ∃ table uses thread, s' = { s with table := table, uses := uses }.setThread i thread ∧ Q thread.pc

theorem leaves_goto {Q : Pc → Prop} {pc : Pc} (h : Q pc) : Leaves s i Q (s.goto i pc) := ⟨_, _, _, rfl, h⟩

theorem leaves_tryAcquire {Q : Pc → Prop} {o : HandshakeOutcome} {pc : Pc} (h : Q pc)
    (hcrashed : ∀ fault, Q (.crashed fault)) : Leaves s i Q (s.tryAcquire i o pc) := by
  unfold State.tryAcquire
  split
  · exact ⟨_, _, _, rfl, h⟩
  · exact leaves_goto (hcrashed _)

theorem leaves_cleanupEntry (k : Nat) (after : After) : Leaves s i (Pc.free · = true) (s.cleanupEntry i k after) := by
  unfold State.cleanupEntry
  dsimp only
  split
  · split
    · exact ⟨_, _, _, rfl, rfl⟩
    · exact ⟨_, _, _, rfl, rfl⟩
  · exact leaves_goto rfl

theorem leaves_releaseEntry (context : UInt32) (k : Nat) (after : After) :
    Leaves s i (Pc.free · = true) (s.releaseEntry i context k after) := by
  unfold State.releaseEntry
  dsimp only
  split
  · exact ⟨_, _, _, rfl, rfl⟩
  · exact ⟨_, _, _, rfl, rfl⟩

theorem leaves_polled (answer : PollAnswer) : Leaves s i (Pc.free · = true) (s.polled i answer) := by
  unfold State.polled
  dsimp only
  split
  · exact leaves_goto rfl
  · cases answer with
    | timeout => exact ⟨_, _, _, rfl, rfl⟩
    | failed => exact leaves_goto rfl
    | ready revents => exact ⟨_, _, _, rfl, rfl⟩

theorem leaves_handleEntry (k : Nat) (accepted : Option Nat) :
    Leaves s i (Pc.free · = true) (s.handleEntry i k accepted) := by
  unfold State.handleEntry
  dsimp only
  split
  · exact ⟨_, _, _, rfl, rfl⟩
  · split
    · split
      · exact leaves_goto rfl
      · exact leaves_goto rfl
    · exact leaves_goto rfl

theorem leaves_acceptPop (listener : UInt32) (fd k : Nat) :
    Leaves s i (Pc.free · = true) (s.acceptPop i listener fd k) := by
  unfold State.acceptPop
  dsimp only
  split
  · split
    · exact ⟨_, _, _, rfl, rfl⟩
    · exact ⟨_, _, _, rfl, rfl⟩
  · exact ⟨_, _, _, rfl, rfl⟩

theorem leaves_acceptAppend (context : UInt32) (k : Nat) :
    Leaves s i (Pc.free · = true) (s.acceptAppend i context k) := by
  unfold State.acceptAppend
  split
  · exact ⟨_, _, _, rfl, rfl⟩
  · exact leaves_goto rfl

theorem Turn.of_leaves {Q : Pc → Prop} (holder : Option (Fin cfg.inboundCount))
    (h : Leaves { s with holder := holder } i Q s')
    (hholder : holder = s.holder ∨ s.holder = none ∨ (s.threads i).pc.locked = true)
    (hlocked : ∀ pc, Q pc → pc.locked = true → holder = some i ∨ holder = s.holder ∧ (s.threads i).pc.locked = true)
    (hwait : ∀ pc, Q pc → pc = .wait → s.flag = false) (hwaiting : ∀ pc, Q pc → pc ≠ .waiting) : Turn s i s' := by
  obtain ⟨table, uses, thread, rfl, hpc⟩ := h
  have hself : (({ s with holder := holder, table := table, uses := uses }.setThread i thread).threads i).pc =
      thread.pc := congrArg Thread.pc (threads_setThread _ _ _)
  refine ⟨rfl, rfl, rfl, fun j hj => .inl (Function.update_of_ne hj _ _), hholder, fun h => ?_, fun h => ?_, fun h => ?_⟩
  · exact hlocked _ hpc ((congrArg Pc.locked hself).symm.trans h)
  · exact hwait _ hpc (hself.symm.trans h)
  · exact absurd (hself.symm.trans h) (hwaiting _ hpc)

theorem Turn.of_free (h : Leaves s i (Pc.free · = true) s') : Turn s i s' := by
  refine .of_leaves s.holder h (.inl rfl) (fun pc hfree hlocked => ?_) (fun pc hfree hpc => ?_)
    fun pc hfree hpc => ?_
  · simp [Pc.free, hlocked] at hfree
  · rw [hpc] at hfree
    cases hfree
  · rw [hpc] at hfree
    cases hfree

theorem turn_broadcast (n k : Nat) : Turn s i (s.broadcast.goto i (.acceptSignal n k)) := by
  have hself := threads_goto s.broadcast i (.acceptSignal n k)
  refine ⟨rfl, rfl, rfl, fun j hj => .inr (Function.update_of_ne hj _ _), .inl rfl, ?_, ?_, ?_⟩
  · intro h
    rw [hself] at h
    cases h
  · intro h
    rw [hself] at h
    cases h
  · intro h
    rw [hself] at h
    cases h

theorem turn_wait (hpc : (s.threads i).pc = .wait) : Turn s i ({ s with holder := none }.goto i .waiting) := by
  have hself := threads_goto { s with holder := none } i .waiting
  refine ⟨rfl, rfl, rfl, fun j hj => .inl (Function.update_of_ne hj _ _), .inr (.inr ?_), ?_, ?_, fun _ => ⟨hpc, rfl⟩⟩
  · rw [hpc]
    rfl
  · intro h
    rw [hself] at h
    cases h
  · intro h
    rw [hself] at h
    cases h

/-- A step inside the lock that keeps it. -/
theorem Turn.of_locked (h : Leaves s i (fun pc => pc ≠ .wait ∧ pc ≠ .waiting) s')
    (hlocked : (s.threads i).pc.locked = true) : Turn s i s' :=
  .of_leaves s.holder h (.inl rfl) (fun _ _ _ => .inr ⟨rfl, hlocked⟩) (fun _ hQ hpc => absurd hpc hQ.1)
    fun _ hQ => hQ.2

theorem turn_lock {pc : Pc} (hfree : s.holder = none) (hpc : pc ≠ .wait ∧ pc ≠ .waiting) :
    Turn s i ({ s with holder := some i }.goto i pc) :=
  .of_leaves (some i) (leaves_goto (Q := (· = pc)) rfl) (.inr (.inl hfree)) (fun _ _ _ => .inl rfl)
    (fun _ hQ h => absurd (hQ.symm.trans h) hpc.1) fun _ hQ h => hpc.2 (hQ.symm.trans h)

theorem turn_stepThread {a : Answer} (h : stepThread s i a = some s') : Turn s i s' := by
  have hgoto : ∀ {pc : Pc}, pc.free = true → some (s.goto i pc) = some s' → Turn s i s' := by
    intro pc hpc h
    obtain rfl := Option.some.inj h
    exact .of_free (leaves_goto hpc)
  have hlock : ∀ {pc : Pc}, pc ≠ .wait ∧ pc ≠ .waiting →
      (if s.holder = none then some ({ s with holder := some i }.goto i pc) else none) = some s' → Turn s i s' := by
    intro pc hpc h
    obtain ⟨hfree, h⟩ := Option.ite_none_right_eq_some.mp h
    obtain rfl := Option.some.inj h
    exact turn_lock hfree hpc
  cases hpc : (s.threads i).pc with
  | loopTest | exitTest | pollTest | pollEntry =>
    simp only [stepThread, hpc] at h
    exact hgoto (by split <;> rfl) h
  | lock | woken =>
    simp only [stepThread, hpc] at h
    exact hlock (by decide) h
  | waitTest =>
    simp only [stepThread, hpc] at h
    obtain rfl := Option.some.inj h
    refine .of_leaves s.holder (leaves_goto rfl) (.inl rfl) (fun _ _ _ => .inr ⟨rfl, ?_⟩) ?_ ?_
    · rw [hpc]
      rfl
    · rintro pc rfl hwait
      split at hwait
      · exact And.right ‹_›
      · cases hwait
    · rintro pc rfl hwaiting
      split at hwaiting <;> cases hwaiting
  | wait =>
    simp only [stepThread, hpc] at h
    obtain rfl := Option.some.inj h
    exact turn_wait hpc
  | wokenTest =>
    simp only [stepThread, hpc] at h
    obtain rfl := Option.some.inj h
    exact .of_locked (leaves_goto (by split <;> decide)) (by rw [hpc]; rfl)
  | wokenAcquire =>
    simp only [stepThread, hpc] at h
    obtain rfl := Option.some.inj h
    exact .of_locked (leaves_tryAcquire (by decide) fun _ => by simp) (by rw [hpc]; rfl)
  | unlock =>
    simp only [stepThread, hpc] at h
    obtain rfl := Option.some.inj h
    refine .of_leaves none (leaves_goto (Q := (· = .exitTest)) rfl) (.inr (.inr (by rw [hpc]; rfl))) ?_ ?_ ?_
    · rintro pc rfl hlocked
      cases hlocked
    · rintro pc rfl hwait
      cases hwait
    · rintro pc rfl hwaiting
      cases hwaiting
  | waiting | done => simp [stepThread, hpc] at h
  | crashed fault => simp [stepThread, hpc] at h
  | acquire =>
    simp only [stepThread, hpc] at h
    split at h
    · obtain rfl := Option.some.inj h
      exact .of_free (leaves_tryAcquire rfl fun _ => rfl)
    · exact hgoto rfl h
  | cleanup k after =>
    cases k with
    | zero => cases after <;> (simp only [stepThread, hpc] at h; exact hgoto rfl h)
    | succ k =>
      simp only [stepThread, hpc] at h
      obtain rfl := Option.some.inj h
      exact .of_free (leaves_cleanupEntry _ _)
  | release context k after =>
    simp only [stepThread, hpc] at h
    obtain rfl := Option.some.inj h
    exact .of_free (leaves_releaseEntry _ _ _)
  | poll =>
    simp only [stepThread, hpc] at h
    obtain rfl := Option.some.inj h
    exact .of_free (leaves_polled _)
  | handle k =>
    simp only [stepThread, hpc] at h
    split at h
    · obtain rfl := Option.some.inj h
      exact .of_free (leaves_handleEntry _ _)
    · exact hgoto rfl h
  | acceptPop listener fd k =>
    simp only [stepThread, hpc] at h
    obtain rfl := Option.some.inj h
    exact .of_free (leaves_acceptPop _ _ _)
  | acceptAppend context k =>
    simp only [stepThread, hpc] at h
    obtain rfl := Option.some.inj h
    exact .of_free (leaves_acceptAppend _ _)
  | acceptSignal n k =>
    cases n with
    | zero =>
      simp only [stepThread, hpc] at h
      exact hgoto rfl h
    | succ n =>
      simp only [stepThread, hpc] at h
      obtain ⟨-, h⟩ := Option.ite_none_right_eq_some.mp h
      obtain rfl := Option.some.inj h
      exact turn_broadcast _ _
  | exitClose k =>
    simp only [stepThread, hpc] at h
    split at h
    · obtain rfl := Option.some.inj h
      exact .of_free ⟨_, _, _, rfl, rfl⟩
    · exact hgoto rfl h

/-! ## Contexts left behind -/

/-- A context in the available queue, every thread blocked, every broadcast made. -/
def Lost (s : State cfg) : Prop :=
  s.table.connectionQueue.contents ≠ [] ∧ (∀ i, (s.threads i).pc = .waiting) ∧ s.owed = 0

/-- The thread tries to acquire a context before it waits: it has been woken, or it has contexts and room
for another. -/
def Thread.seeks (cfg : BuildConfig) (t : Thread) : Bool :=
  match t.pc with
  | .woken | .wokenTest | .wokenAcquire => true
  | .loopTest | .lock | .waitTest | .unlock | .exitTest | .acquire =>
    0 < t.data.assignedContexts && t.data.assignedContexts < cfg.readContexts
  | _ => false

/-- The thread accepts a connection and has a broadcast to make. -/
def Thread.signals (t : Thread) : Bool :=
  match t.pc with
  | .acceptPop _ _ _ | .acceptAppend _ _ => true
  | .acceptSignal n _ => n != 0
  | _ => false

def BeforeShutdown : Label cfg → Prop
  | .shutdown => False
  | _ => True

def NoSpurious : Label cfg → Prop
  | .spurious _ => False
  | _ => True

/-- A thread begins to wait only if the available queue is empty or somebody else sees to it. -/
def Looked (s : State cfg) : Label cfg → Prop
  | .thread i _ => (s.threads i).pc = .wait → s.table.connectionQueue.contents ≠ [] →
      0 < s.owed ∨ ∃ j, j ≠ i ∧ ((s.threads j).seeks cfg = true ∨ (s.threads j).signals = true)
  | _ => True

/-- A waiting context has somebody awake, or a broadcast to come. -/
def Attended (s : State cfg) : Prop :=
  s.table.connectionQueue.contents ≠ [] → 0 < s.owed ∨ ∃ j, (s.threads j).pc ≠ .waiting

theorem Attended.not_lost (h : Attended s) : ¬ Lost s := by
  rintro ⟨hqueue, hwaiting, howed⟩
  obtain hpos | ⟨j, hj⟩ := h hqueue
  · omega
  · exact hj (hwaiting j)

theorem Thread.not_waiting {t : Thread} (h : t.seeks cfg = true ∨ t.signals = true) : t.pc ≠ .waiting := by
  intro hpc
  unfold Thread.seeks Thread.signals at h
  rw [hpc] at h
  exact h.elim Bool.false_ne_true Bool.false_ne_true

theorem Thread.wake_ne_waiting (t : Thread) : t.wake.pc ≠ .waiting := by
  unfold Thread.wake
  split
  · simp
  · assumption

theorem attended_turn {a : Answer} (hlooked : Looked s (.thread i a)) (h : stepThread s i a = some s') :
    Attended s' := by
  have hturn := turn_stepThread h
  intro hqueue
  by_cases hwaiting : (s'.threads i).pc = .waiting
  · obtain ⟨hpc, htable⟩ := hturn.waiting hwaiting
    rw [htable] at hqueue
    obtain hpos | ⟨j, hj, hactive⟩ := hlooked hpc hqueue
    · exact .inl (hturn.owed ▸ hpos)
    · refine .inr ⟨j, ?_⟩
      obtain hsame | hwoken := hturn.others j hj
      · rw [hsame]
        exact Thread.not_waiting hactive
      · rw [hwoken]
        exact Thread.wake_ne_waiting _
  · exact .inr ⟨i, hwaiting⟩

/-- A call of another thread: if it has pushed a context, it has a broadcast to make. -/
theorem attended_requested (hs : Attended s) (r : Retcode × Option UInt32 × ContextTable) :
    Attended (s.requested r) := by
  intro hqueue
  by_cases hsame : r.2.2.connectionQueue = s.table.connectionQueue
  · have howed : (s.requested r).owed = s.owed := by
      show s.owed + appended s.table r.2.2 = s.owed
      rw [appended, if_pos hsame]
      rfl
    rw [howed]
    exact hs (hsame ▸ hqueue)
  · left
    show 0 < s.owed + appended s.table r.2.2
    rw [appended, if_neg hsame]
    omega

theorem attended_next {a : Label cfg} (hs : Attended s) (hplain : BeforeShutdown a ∧ NoSpurious a) (hlooked : Looked s a)
    (h : next s a = some s') : Attended s' := by
  cases a with
  | openContext o desc identifier =>
    obtain ⟨-, h⟩ := Option.ite_none_right_eq_some.mp h
    obtain ⟨r, -, rfl⟩ := ContextSystem.toOption_map_eq_some.mp h
    exact attended_requested hs r
  | connect o desc identifier =>
    obtain ⟨-, h⟩ := Option.ite_none_right_eq_some.mp h
    obtain ⟨r, -, rfl⟩ := ContextSystem.toOption_map_eq_some.mp h
    exact attended_requested hs r
  | close context =>
    obtain rfl := Option.some.inj h
    intro hqueue
    rw [connectionQueue_close] at hqueue
    exact hs hqueue
  | signal =>
    obtain ⟨-, h⟩ := Option.ite_none_right_eq_some.mp h
    obtain rfl := Option.some.inj h
    intro _
    exact .inr ⟨⟨0, cfg.inboundCount_pos⟩, Thread.wake_ne_waiting _⟩
  | spurious i => exact hplain.2.elim
  | thread i answer => exact attended_turn hlooked h
  | shutdown => exact hplain.1.elim

theorem contents_start (cfg : BuildConfig) : (State.start cfg).table.connectionQueue.contents = [] := by
  obtain ⟨t, ht, -, -, havailable⟩ := ContextSystem.startTable_rep cfg
  simp only [State.start, ht]
  exact havailable.contents_eq

/-- **No context is left behind** while no thread begins to wait over a context that nobody sees to. -/
theorem no_context_left_behind (cfg : BuildConfig) (s : State cfg)
    (h : ((system cfg).guarded fun s a => (BeforeShutdown a ∧ NoSpurious a) ∧ Looked s a).Reachable s) : ¬ Lost s := by
  have hattended : Attended s := by
    refine h.guarded_invariant (P := Attended) (fun s hs => ?_) fun s a s' hs hguard hstep =>
      attended_next hs hguard.1 hguard.2 hstep
    obtain rfl : s = .start cfg := hs
    exact fun hqueue => absurd (contents_start cfg) hqueue
  exact hattended.not_lost

instance (s : State cfg) : Decidable (Lost s) := inferInstanceAs (Decidable (_ ∧ _ ∧ _))

instance : ∀ a : Label cfg, Decidable (BeforeShutdown a ∧ NoSpurious a)
  | .shutdown => .isFalse fun h => h.1
  | .spurious _ => .isFalse fun h => h.2
  | .openContext _ _ _ | .connect _ _ _ | .close _ | .signal | .thread _ _ => .isTrue ⟨trivial, trivial⟩

instance (s : State cfg) : ∀ a, Decidable (Looked s a)
  | .thread _ _ => inferInstanceAs (Decidable (_ → _ → _))
  | .openContext _ _ _ | .connect _ _ _ | .close _ | .signal | .spurious _ | .shutdown => .isTrue trivial

/-- `k` steps of a thread whose polls time out. -/
def turns (i : Fin 2) (k : Nat) : List (Label .default) := .replicate k (.thread i ⟨⟨true, .success⟩, .timeout, none⟩)

def openPort (port : UInt16) : Label .default :=
  .openContext ⟨none, true, none, some 4, true, port, true⟩ (some ⟨commTcp, none, 0⟩) (some 0)

/-- Both threads wait; a context is opened and both are woken. -/
def wokenRun : List (Label .default) :=
  turns BuildConfig.firstThread 4 ++ turns BuildConfig.secondThread 4 ++ [openPort 8080, .signal]

/-- Each thread acquires a context, the contexts are closed, and both threads are on their way to the wait
when another is opened. -/
def lostRun : List (Label .default) :=
  wokenRun ++ [openPort 8081] ++ turns BuildConfig.firstThread 5 ++ turns BuildConfig.secondThread 5 ++
    [.signal, .close 0, .close 1] ++ turns BuildConfig.firstThread 11 ++ turns BuildConfig.secondThread 11 ++
      [openPort 8082, .signal] ++ turns BuildConfig.firstThread 3 ++ turns BuildConfig.secondThread 3

theorem context_left_behind :
    ¬ ∀ s, ((system .default).guarded fun _ a => BeforeShutdown a ∧ NoSpurious a).Reachable s → ¬ Lost s := by
  have hrun : (StepSystem.runList (StepSystem.gate (fun _ a => BeforeShutdown a ∧ NoSpurious a) next)
      (State.start .default) lostRun).map (fun s => decide (Lost s)) = some true := by
    decide +kernel
  obtain ⟨s, hs, hlost⟩ := Option.map_eq_some_iff.mp hrun
  intro hall
  exact hall s (StepSystem.guarded_reachable_runList (.init rfl) hs) (of_decide_eq_true hlost)

theorem no_context_left_behind_run :
    ∃ s : State .default, s.table.connectionQueue.contents = [0] ∧ ¬ Lost s := by
  have hrun : (StepSystem.runList (StepSystem.gate (fun s a => (BeforeShutdown a ∧ NoSpurious a) ∧ Looked s a) next)
      (State.start .default) wokenRun).map (fun s => s.table.connectionQueue.contents) = some [0] := by
    decide +kernel
  obtain ⟨s, hs, hcontents⟩ := Option.map_eq_some_iff.mp hrun
  exact ⟨s, hcontents, no_context_left_behind .default s (StepSystem.guarded_reachable_runList (.init rfl) hs)⟩

/-! ## Nobody sleeps through the shutdown -/

/-- The caller has set the flag and executed its broadcast. -/
def Caller.broadcasted : Caller → Bool
  | .join | .clearFlag | .stopAvailable | .finished => true
  | _ => false

/-- As `next`, but other threads may open and connect contexts at any time. -/
def nextAnytime (s : State cfg) : Label cfg → Option (State cfg)
  | .openContext o desc identifier =>
    (connectorContextOpen cfg o s.table desc identifier).toOption.map s.requested
  | .connect o desc identifier =>
    (connectorContextConnect cfg o s.table desc identifier).toOption.map s.requested
  | a => next s a

/-- The read threads with `substance_connector_shutdown`, or with `connector_shutdown_read_threads` called
by itself. -/
def terminationSystem (cfg : BuildConfig) : StepSystem (State cfg) (Label cfg) :=
  .ofNext (fun s => s = .start cfg ∨ s = { State.start cfg with caller := .setFlag }) nextAnytime

/-- What holds at each point of the caller. -/
def Reached (s : State cfg) : Caller → Prop
  | .running | .destroy | .storeNull | .stopWriters | .setFlag => s.flag = false
  | .broadcast => s.flag = true
  | .join => s.flag = true ∧ ∀ i, (s.threads i).pc ≠ .wait ∧ (s.threads i).pc ≠ .waiting
  | .clearFlag | .stopAvailable | .finished => ∀ i, (s.threads i).pc = .done

structure Quiet (s : State cfg) : Prop where
  locked : ∀ i, (s.threads i).pc.locked = true → s.holder = some i
  reached : Reached s s.caller

theorem Quiet.not_waiting (hs : Quiet s) (h : s.caller.broadcasted = true) (i : Fin cfg.inboundCount) :
    (s.threads i).pc ≠ .waiting := by
  have hreached := hs.reached
  cases hcaller : s.caller with
  | running | destroy | storeNull | stopWriters | setFlag | broadcast =>
    rw [hcaller] at h
    cases h
  | join =>
    rw [hcaller] at hreached
    exact (hreached.2 i).2
  | clearFlag | stopAvailable | finished =>
    rw [hcaller] at hreached
    rw [hreached i]
    decide

theorem Thread.wake_pc (t : Thread) : t.wake.pc = t.pc ∨ t.wake.pc = .woken := by
  unfold Thread.wake
  split
  · exact .inr rfl
  · exact .inl rfl

theorem Thread.locked_wake {t : Thread} (h : t.wake.pc.locked = true) : t.pc.locked = true := by
  obtain hsame | hwoken := t.wake_pc
  · rwa [hsame] at h
  · rw [hwoken] at h
    cases h

theorem locked_turn (hs : Quiet s) (hturn : Turn s i s') :
    ∀ j, (s'.threads j).pc.locked = true → s'.holder = some j := by
  intro j hlocked
  by_cases hj : j = i
  · subst hj
    obtain hheld | ⟨hsame, hbefore⟩ := hturn.locked hlocked
    · exact hheld
    · rw [hsame]
      exact hs.locked j hbefore
  · have hbefore : (s.threads j).pc.locked = true := by
      obtain hsame | hwoken := hturn.others j hj
      · rwa [hsame] at hlocked
      · rw [hwoken] at hlocked
        exact Thread.locked_wake hlocked
    have hholder := hs.locked j hbefore
    obtain hsame | hfree | hmine := hturn.holder
    · rw [hsame, hholder]
    · rw [hfree] at hholder
      cases hholder
    · exact absurd (Option.some.inj ((hs.locked i hmine).symm.trans hholder)) (Ne.symm hj)

theorem quiet_turn {a : Answer} (hs : Quiet s) (h : stepThread s i a = some s') : Quiet s' := by
  have hturn := turn_stepThread h
  refine ⟨locked_turn hs hturn, ?_⟩
  have hreached := hs.reached
  rw [hturn.caller]
  cases hcaller : s.caller with
  | running | destroy | storeNull | stopWriters | setFlag | broadcast =>
    rw [hcaller] at hreached
    exact hturn.flag.trans hreached
  | join =>
    rw [hcaller] at hreached
    refine ⟨hturn.flag.trans hreached.1, fun j => ?_⟩
    by_cases hj : j = i
    · subst hj
      -- the flag is up, so it does not come to the wait
      refine ⟨fun hwait => ?_, fun hwaiting => (hreached.2 j).1 (hturn.waiting hwaiting).1⟩
      exact absurd (hreached.1.symm.trans (hturn.wait hwait)) (by simp)
    · obtain hsame | hwoken := hturn.others j hj
      · rw [hsame]
        exact hreached.2 j
      · rw [hwoken]
        obtain hkept | hup := (s.threads j).wake_pc
        · rw [hkept]
          exact hreached.2 j
        · rw [hup]
          decide
  | clearFlag | stopAvailable | finished =>
    rw [hcaller] at hreached
    simp [stepThread, hreached i] at h

theorem quiet_broadcast (hs : Quiet s) : ∀ i, (s.broadcast.threads i).pc.locked = true → s.holder = some i :=
  fun i hlocked => hs.locked i (Thread.locked_wake hlocked)

theorem quiet_stepCaller (hs : Quiet s) (h : stepCaller s = some s') : Quiet s' := by
  have hreached := hs.reached
  cases callerStep h with
  | running hcaller | storeNull hcaller | stopWriters hcaller | clearFlag hcaller | stopAvailable hcaller =>
    rw [hcaller] at hreached
    exact ⟨hs.locked, hreached⟩
  | destroy hcaller =>
    rw [hcaller] at hreached
    refine ⟨hs.locked, ?_⟩
    dsimp only
    split <;> exact hreached
  | setFlag => exact ⟨hs.locked, rfl⟩
  | flagSet hcaller hflag =>
    rw [hcaller] at hreached
    have hclear : s.flag = false := hreached
    exact absurd (hflag.symm.trans hclear) (by simp)
  | broadcast hcaller hfree =>
    rw [hcaller] at hreached
    refine ⟨quiet_broadcast hs, hreached, fun i => ⟨fun hwait => ?_, Thread.wake_ne_waiting _⟩⟩
    -- whoever is about to wait has the lock
    have hlocked : (s.broadcast.threads i).pc.locked = true := by
      rw [show (s.broadcast.threads i).pc = .wait from hwait]
      rfl
    exact absurd (hfree.symm.trans (quiet_broadcast hs i hlocked)) (by simp)
  | join hcaller hdone => exact ⟨hs.locked, hdone⟩

/-- Waking threads keeps everything. -/
theorem Quiet.of_woken {t : State cfg} (hs : Quiet s) (hflag : t.flag = s.flag) (hcaller : t.caller = s.caller)
    (hholder : t.holder = s.holder) (hthreads : ∀ j, (t.threads j).pc = (s.threads j).pc ∨
      (s.threads j).pc = .waiting ∧ (t.threads j).pc = .woken) : Quiet t := by
  refine ⟨fun j hlocked => ?_, ?_⟩
  · rw [hholder]
    obtain hsame | ⟨-, hwoken⟩ := hthreads j
    · exact hs.locked j (hsame ▸ hlocked)
    · rw [hwoken] at hlocked
      cases hlocked
  · have hreached := hs.reached
    rw [hcaller]
    cases hpoint : s.caller with
    | running | destroy | storeNull | stopWriters | setFlag | broadcast =>
      rw [hpoint] at hreached
      exact hflag.trans hreached
    | join =>
      rw [hpoint] at hreached
      refine ⟨hflag.trans hreached.1, fun j => ?_⟩
      obtain hsame | ⟨hwaiting, -⟩ := hthreads j
      · rw [hsame]
        exact hreached.2 j
      · exact absurd hwaiting (hreached.2 j).2
    | clearFlag | stopAvailable | finished =>
      rw [hpoint] at hreached
      intro j
      obtain hsame | ⟨hwaiting, -⟩ := hthreads j
      · rw [hsame]
        exact hreached j
      · exact absurd ((hreached j).symm.trans hwaiting) (by decide)

theorem broadcast_threads (s : State cfg) (j : Fin cfg.inboundCount) :
    (s.broadcast.threads j).pc = (s.threads j).pc ∨ (s.threads j).pc = .waiting ∧ (s.broadcast.threads j).pc = .woken := by
  show (s.threads j).wake.pc = _ ∨ _ ∧ (s.threads j).wake.pc = _
  unfold Thread.wake
  split
  · exact .inr ⟨‹_›, rfl⟩
  · exact .inl rfl

theorem quiet_next {a : Label cfg} (hs : Quiet s) (h : nextAnytime s a = some s') : Quiet s' := by
  cases a with
  | openContext o desc identifier =>
    obtain ⟨r, -, rfl⟩ := ContextSystem.toOption_map_eq_some.mp h
    exact ⟨hs.locked, hs.reached⟩
  | connect o desc identifier =>
    obtain ⟨r, -, rfl⟩ := ContextSystem.toOption_map_eq_some.mp h
    exact ⟨hs.locked, hs.reached⟩
  | close context =>
    obtain rfl := Option.some.inj h
    exact ⟨hs.locked, hs.reached⟩
  | signal =>
    obtain ⟨-, h⟩ := Option.ite_none_right_eq_some.mp h
    obtain rfl := Option.some.inj h
    exact hs.of_woken rfl rfl rfl (broadcast_threads s)
  | spurious i =>
    obtain ⟨hwaiting, h⟩ := Option.ite_none_right_eq_some.mp h
    obtain rfl := Option.some.inj h
    refine hs.of_woken rfl rfl rfl fun j => ?_
    by_cases hj : j = i
    · subst hj
      exact .inr ⟨hwaiting, congrArg Thread.pc (threads_goto s j .woken)⟩
    · exact .inl (congrArg Thread.pc (Function.update_of_ne hj _ _))
  | thread i answer => exact quiet_turn hs h
  | shutdown => exact quiet_stepCaller hs h

theorem quiet_of_reachable (h : (terminationSystem cfg).Reachable s) : Quiet s := by
  refine h.invariant (P := Quiet) (fun s hs => ?_) fun s a s' _ hs hstep => quiet_next hs hstep
  obtain rfl | rfl := hs
  · exact ⟨fun _ hlocked => absurd hlocked Bool.false_ne_true, rfl⟩
  · exact ⟨fun _ hlocked => absurd hlocked Bool.false_ne_true, rfl⟩

/-- **No thread of either pool sleeps** once the caller that stops the pool has set the flag and executed its
broadcast, for any number of threads; of the read threads even if waits may end spuriously. -/
theorem no_thread_sleeps :
    (∀ (n : Nat) (P : Type) [DecidableEq P] [Fintype P] (s : Pool.State n P DispatchPool.Pc),
        DispatchPool.routines.system.Reachable s → Pool.Broadcasted s →
          ∀ i, (s.threads (.worker i)).isBlocked = false) ∧
      ∀ (cfg : BuildConfig) (s : State cfg), (terminationSystem cfg).Reachable s → s.caller.broadcasted = true →
        ∀ i, (s.threads i).pc ≠ .waiting :=
  ⟨fun _ _ _ _ _ h hbroadcast => (DispatchPool.quiet_of_reachable h).not_blocked hbroadcast,
    fun _ _ h hbroadcast => (quiet_of_reachable h).not_waiting hbroadcast⟩

/-- Both threads of each pool wait when the caller comes. -/
theorem no_thread_sleeps_run :
    (∃ s : Pool.State 2 Unit DispatchPool.Pc, Pool.Broadcasted s ∧ ∀ i, (s.threads (.worker i)).isBlocked = false) ∧
      ∃ s : State .default, s.caller.broadcasted = true ∧ ∀ i, (s.threads i).pc ≠ .waiting := by
  constructor
  · have hrun : (StepSystem.runList (Monitor.next DispatchPool.routines.routine)
        (DispatchPool.routines.start : Pool.State 2 Unit DispatchPool.Pc)
          (Pool.steps Pool.left 5 ++ Pool.steps Pool.right 5 ++ Pool.steps .caller 3)).map
            (fun s => decide (Pool.Broadcasted s)) = some true := by
      decide +kernel
    obtain ⟨s, hs, hbroadcast⟩ := Option.map_eq_some_iff.mp hrun
    have hbroadcast := of_decide_eq_true hbroadcast
    exact ⟨s, hbroadcast, no_thread_sleeps.1 2 Unit s (StepSystem.reachable_runList (.init rfl) hs) hbroadcast⟩
  · have hrun : (StepSystem.runList nextAnytime (State.start .default) (wokenRun ++
        turns BuildConfig.firstThread 5 ++ turns BuildConfig.secondThread 5 ++ .replicate 6 .shutdown)).map
          (fun s => s.caller.broadcasted) = some true := by
      decide +kernel
    obtain ⟨s, hs, hbroadcast⟩ := Option.map_eq_some_iff.mp hrun
    exact ⟨s, hbroadcast, no_thread_sleeps.2 .default s (StepSystem.reachable_runList (.init (.inl rfl)) hs) hbroadcast⟩

end SubstanceConnector.ReadThreads
