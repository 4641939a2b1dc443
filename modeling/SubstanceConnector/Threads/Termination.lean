import SubstanceConnector.Threads.Wakeup

/-!
# Stopping a pool

The caller sets the flag of the pool, broadcasts under the lock of the condition, joins every worker and
clears the flag. After the broadcast no worker sleeps for ever if every worker tests the flag between
taking the lock and waiting: then a worker that is not woken by the broadcast sees the flag. The dispatch
threads do. A write thread tests the flag before it takes the lock and waits without a second test, so it
must not be at the lock when the caller broadcasts.

What has been reached is read off the position of the caller (`Phase`): the flag is up, then nobody blocks
any more, then all workers up to the one being joined have stopped.
-/

namespace SubstanceConnector.Pool

open Monitor

variable {n : Nat} {P W : Type}

/-- How far the caller is: before the flag, between the flag and the broadcast, at the join of the `k`-th
worker, or past the joins. -/
inductive Phase where
  | early
  | flagged
  | joining (k : Nat)
  | joined
  deriving DecidableEq

def CallerPc.phase : CallerPc → Phase
  | .start | .setFlag => .early
  | .lock | .broadcast => .flagged
  | .unlock => .joining 0
  | .join k => .joining k
  | .relock | .clearFlag | .reunlock | .clearQueue | .finished => .joined

def CallerPc.broadcasted (pc : CallerPc) : Bool :=
  match pc.phase with
  | .early | .flagged => false
  | _ => true

/-- The caller has set the flag and executed its broadcast. -/
def Broadcasted (s : State n P W) : Prop := (s.threads .caller).locals.broadcasted = true

instance (s : State n P W) : Decidable (Broadcasted s) := inferInstanceAs (Decidable (_ = _))

/-- How an instruction of the caller moves between the phases. -/
def Terminating (pc : CallerPc) : Instr n P CallerPc → Prop
  | .act f => ∀ m g,
      match pc.phase with
      | .early => (f m g).2.phase = .flagged ∧ (f m g).1.shutdown = true
      | .flagged => (f m g).2.phase = .flagged ∧ (f m g).1.shutdown = g.shutdown
      | .joining k => n ≤ k ∧ (f m g).2.phase = .joined
      | .joined => (f m g).2.phase = .joined
  | .lock k | .unlock k => k.phase = pc.phase
  | .broadcast k => pc = .broadcast ∧ k.phase = .joining 0
  | .join j k => ∃ i : Fin n, j = .worker i ∧ pc.phase = .joining i ∧ k.phase = .joining (i + 1)
  | .wait _ | .signal _ => False
  | .stop => True

theorem terminating_joinLoop (k : Nat) {after : CallerPc} (hafter : after.phase = .joined) :
    Terminating (n := n) (P := P) (.join k) (joinLoop k after) := by
  unfold joinLoop
  split
  · rename_i hk
    exact ⟨⟨k, hk⟩, rfl, rfl, rfl⟩
  · rename_i hk
    exact fun _ _ => ⟨Nat.le_of_not_lt hk, hafter⟩

theorem locks_joinLoop {k : Nat} {after : CallerPc} {callerHolds : CallerPc → Bool}
    (hjoin : callerHolds (.join (k + 1)) = callerHolds (.join k)) (hafter : callerHolds after = callerHolds (.join k)) :
    (joinLoop (n := n) (P := P) k after).Locks callerHolds (.join k) := by
  unfold joinLoop
  split
  · exact hjoin
  · exact fun _ _ => hafter

def producerHolds : ProducerPc → Bool
  | .signal | .unlock => true
  | _ => false

def holdsAt (holds : Worker W → Bool) (callerHolds : CallerPc → Bool) : (i : Agent n P) → Local W i → Bool
  | .worker _, l => holds l
  | .producer _, pc => producerHolds pc
  | .caller, pc => callerHolds pc

/-- Only a worker can be on its way to a wait. -/
def readyAt (ready : Worker W → Bool) : (i : Agent n P) → Local W i → Bool
  | .worker _, l => ready l
  | _, _ => false

def parksAt (ready : Worker W → Bool) : (i : Agent n P) → Local W i → Prop
  | .worker _, l => ready l = false
  | _, _ => False

/-- What the routines of a pool keep: `holds` says where a worker has the lock, `ready` where it will wait
without testing the flag again. -/
structure Terminates (r : Routines n P W) (holds : Worker W → Bool) (callerHolds : CallerPc → Bool)
    (ready : Worker W → Bool) : Prop where
  locks : ∀ l, (r.work l).Locks holds l
  callLocks : ∀ pc, (r.call pc).Locks callerHolds pc
  minds : ∀ l, (r.work l).Minds (fun g => g.shutdown = true) ready l
  calls : ∀ pc, Terminating pc (r.call pc)
  broadcast : callerHolds .broadcast = true
  first : holds ⟨r.first, none⟩ = false
  start : callerHolds .start = false

/-- When the caller broadcasts, every worker on its way to a wait has the lock, so there is none. -/
def CaughtUp (holds ready : Worker W → Bool) (s : State n P W) (a : Label n P) : Prop :=
  a.thread = .caller → s.threads .caller = .running .broadcast →
    ∀ i l, s.threads (.worker i) = .running l → ready l = true → holds l = true

section steps
variable {r : Routines n P W} {holds ready : Worker W → Bool} {callerHolds : CallerPc → Bool} {s s' : State n P W}
  {a : Label n P} {phase : Phase}

/-- What holds in a phase. -/
def Reached (r : Routines n P W) (ready : Worker W → Bool) (s : State n P W) : Phase → Prop
  | .early => True
  | .flagged => s.shared.shutdown = true
  | .joining k => Awake (fun g => g.shutdown = true) (readyAt ready) s ∧
      ∀ i : Fin n, i.val < k → stopped r.routine s.threads (.worker i) = true
  | .joined => ∀ i, stopped r.routine s.threads (.worker i) = true

structure Quiet (r : Routines n P W) (holds : Worker W → Bool) (callerHolds : CallerPc → Bool)
    (ready : Worker W → Bool) (s : State n P W) : Prop where
  exclusive : Exclusive (holdsAt holds callerHolds) s
  parked : ∀ j, (s.threads j).Parked (parksAt ready j)
  reached : ∀ pc, s.threads .caller = .running pc → Reached r ready s pc.phase

theorem locks_routine (hr : Terminates r holds callerHolds ready) (i : Agent n P) (l : Local W i) :
    (r.routine i l).Locks (holdsAt holds callerHolds i) l := by
  cases i with
  | worker i => exact hr.locks l
  | producer p =>
    cases l with
    | enqueue => exact fun _ _ => rfl
    | lock | unlock => exact ⟨rfl, rfl⟩
    | signal => rfl
  | caller => exact hr.callLocks l

theorem parks_at (hr : Terminates r holds callerHolds ready) (i : Agent n P) (l : Local W i) :
    (r.routine i l).Parks (parksAt ready i) := by
  cases i with
  | worker i =>
    have hl := hr.minds l
    show (r.work l).Parks fun l => ready l = false
    cases hinstr : r.work l with
    | wait k =>
      rw [hinstr] at hl
      exact hl.2
    | _ => exact trivial
  | producer p =>
    show (produce l).Parks fun _ => False
    cases l <;> exact trivial
  | caller =>
    have hpc := hr.calls l
    show (r.call l).Parks fun _ => False
    cases hinstr : r.call l with
    | wait k =>
      rw [hinstr] at hpc
      exact hpc
    | _ => exact trivial

theorem minds_routine (hr : Terminates r holds callerHolds ready) {i : Agent n P} (hi : i ≠ .caller)
    (l : Local W i) : (r.routine i l).Minds (fun g => g.shutdown = true) (readyAt ready i) l := by
  cases i with
  | worker i => exact hr.minds l
  | producer p =>
    cases l with
    | enqueue => exact fun _ _ hoff => ⟨hoff, fun _ => rfl⟩
    | lock | signal | unlock => exact fun _ => rfl
  | caller => exact absurd rfl hi

variable [DecidableEq P]

/-- A step of another thread keeps what the caller has reached. -/
theorem Reached.of_effect {i : Agent n P} (hr : Terminates r holds callerHolds ready) (hi : i ≠ .caller)
    (heffect : Effect r.routine s i s') {phase : Phase} (h : Reached r ready s phase) : Reached r ready s' phase := by
  cases phase with
  | early => exact trivial
  | flagged => exact heffect.keeps_off (minds_routine hr hi) h
  | joining k =>
    exact ⟨heffect.awake (minds_routine hr hi) h.1, fun j hj => (heffect.stopped (h.2 j hj)).2⟩
  | joined => exact fun j => (heffect.stopped (h j)).2

theorem stopped_update_caller (threads : (i : Agent n P) → Status (Local W i)) (x : Status CallerPc) (i : Fin n) :
    stopped r.routine (Function.update threads .caller x) (.worker i) = stopped r.routine threads (.worker i) := by
  unfold stopped
  rw [Function.update_of_ne (by simp)]

/-- The caller goes on without touching the shared state. -/
theorem Reached.goto (h : Reached r ready s phase) (holder : Option (Agent n P)) (k : CallerPc) :
    Reached r ready ({ s with holder := holder }.goto .caller k) phase := by
  cases phase with
  | early => exact trivial
  | flagged => exact h
  | joining j =>
    refine ⟨⟨h.1.off, fun i => ?_⟩, fun i hi => (stopped_update_caller _ _ i).trans (h.2 i hi)⟩
    by_cases hi : i = .caller
    · subst hi
      rw [State.goto_self]
      exact ⟨rfl, rfl⟩
    · have hsame : ({ s with holder := holder }.goto .caller k).threads i = s.threads i :=
        Function.update_of_ne hi _ _
      rw [hsame]
      exact h.1.awake i
  | joined => exact fun i => (stopped_update_caller _ _ i).trans (h i)

/-- The broadcast wakes every worker that waits, and the others will test the flag before they wait. -/
theorem awake_broadcast {k : CallerPc} (hr : Terminates r holds callerHolds ready)
    (hs : Quiet r holds callerHolds ready s) (hat : s.threads .caller = .running .broadcast)
    (hoff : s.shared.shutdown = true)
    (hcaught : ∀ i l, s.threads (.worker i) = .running l → ready l = true → holds l = true) :
    Awake (fun g => g.shutdown = true) (readyAt ready)
      ({ s with threads := fun j => (s.threads j).wake }.goto .caller k) := by
  refine ⟨hoff, fun j => ?_⟩
  by_cases hj : j = .caller
  · subst hj
    rw [State.goto_self]
    exact ⟨rfl, rfl⟩
  · have hsame : ({ s with threads := fun j => (s.threads j).wake }.goto .caller k).threads j = (s.threads j).wake :=
      Function.update_of_ne hj _ _
    rw [hsame, Status.locals_wake]
    refine ⟨Status.isBlocked_wake _, ?_⟩
    cases j with
    | worker i =>
      have hparked := hs.parked (.worker i)
      cases hthread : s.threads (.worker i) with
      | running l =>
        refine Bool.eq_false_iff.mpr fun hready => ?_
        -- it would have the lock, and so does the caller
        have hsame := hs.exclusive.eq hthread hat (hcaught i l hthread hready) hr.broadcast
        exact absurd hsame (by simp)
      | blocked l | woken l =>
        rw [hthread] at hparked
        exact hparked
    | producer p => rfl
    | caller => exact absurd rfl hj

theorem caller_step (hr : Terminates r holds callerHolds ready) (hs : Quiet r holds callerHolds ready s)
    (hcaught : s.threads .caller = .running .broadcast →
      ∀ i l, s.threads (.worker i) = .running l → ready l = true → holds l = true)
    (heffect : Effect r.routine s .caller s') {pc' : CallerPc} (hat' : s'.threads .caller = .running pc') :
    Reached r ready s' pc'.phase := by
  cases heffect with
  | reacquire l hat hfree =>
    have hparked := hs.parked .caller
    rw [hat] at hparked
    exact hparked.elim
  | act pc f answer hat hinstr =>
    rw [State.goto_self] at hat'
    obtain rfl := Status.running.inj hat'
    have hreached := hs.reached pc hat
    have hcall := hr.calls pc
    rw [show r.call pc = .act f from hinstr] at hcall
    have hmove := hcall answer s.shared
    cases hphase : pc.phase with
    | early =>
      rw [hphase] at hmove
      rw [hmove.1]
      exact hmove.2
    | flagged =>
      rw [hphase] at hmove hreached
      rw [hmove.1]
      exact hmove.2.trans hreached
    | joining k =>
      rw [hphase] at hmove hreached
      rw [hmove.2]
      exact fun i => (stopped_update_caller _ _ i).trans (hreached.2 i (Nat.lt_of_lt_of_le i.isLt hmove.1))
    | joined =>
      rw [hphase] at hmove hreached
      rw [hmove]
      exact fun i => (stopped_update_caller _ _ i).trans (hreached i)
  | lock pc k hat hinstr hfree | unlock pc k hat hinstr hheld =>
    rw [State.goto_self] at hat'
    obtain rfl := Status.running.inj hat'
    have hreached := hs.reached pc hat
    have hcall := hr.calls pc
    rw [show r.call pc = _ from hinstr] at hcall
    rw [show k.phase = pc.phase from hcall]
    exact hreached.goto _ k
  | wait pc k hat hinstr hheld | signal pc k j hat hinstr hblocked | signalNobody pc k hat hinstr hnobody =>
    have hcall := hr.calls pc
    rw [show r.call pc = _ from hinstr] at hcall
    exact hcall.elim
  | broadcast pc k hat hinstr =>
    rw [State.goto_self] at hat'
    obtain rfl := Status.running.inj hat'
    have hreached := hs.reached pc hat
    have hcall := hr.calls pc
    rw [show r.call pc = _ from hinstr] at hcall
    obtain ⟨rfl, hphase⟩ := hcall
    rw [hphase]
    exact ⟨awake_broadcast hr hs hat hreached (hcaught hat), fun i hi => absurd hi (Nat.not_lt_zero _)⟩
  | join pc k j hat hinstr hstopped =>
    rw [State.goto_self] at hat'
    obtain rfl := Status.running.inj hat'
    have hreached := hs.reached pc hat
    have hcall := hr.calls pc
    rw [show r.call pc = _ from hinstr] at hcall
    obtain ⟨i, rfl, hphase, hphase'⟩ := hcall
    rw [hphase] at hreached
    rw [hphase']
    have hgoes := hreached.goto s.holder k
    refine ⟨hgoes.1, fun j hj => ?_⟩
    obtain hlt | heq := Nat.lt_or_eq_of_le (Nat.le_of_lt_succ hj)
    · exact hgoes.2 j hlt
    · obtain rfl : j = i := Fin.ext heq
      exact (stopped_update_caller _ _ j).trans hstopped

variable [Fintype P]

theorem quiet_next (hr : Terminates r holds callerHolds ready) (hs : Quiet r holds callerHolds ready s)
    (hcaught : CaughtUp holds ready s a) (h : next r.routine s a = some s') :
    Quiet r holds callerHolds ready s' := by
  have heffect := effect_next h
  refine ⟨exclusive_next (locks_routine hr) hs.exclusive h, parked_next (parks_at hr) hs.parked h, ?_⟩
  intro pc hat
  by_cases hcaller : a.thread = .caller
  · rw [hcaller] at heffect
    exact caller_step hr hs (hcaught hcaller) heffect hat
  · have hpc : s.threads .caller = .running pc := by
      obtain hsame | hwoken := heffect.threads_of_ne (Ne.symm hcaller)
      · exact hsame.symm.trans hat
      · exact Status.eq_running_of_wake (hwoken.symm.trans hat)
    exact (hs.reached pc hpc).of_effect hr hcaller heffect

omit [DecidableEq P] [Fintype P] in
theorem quiet_start (hr : Terminates r holds callerHolds ready) : Quiet r holds callerHolds ready r.start := by
  refine ⟨fun i => ?_, fun i => ?_, fun pc hat => ?_⟩
  · have hnobody : ¬ (none : Option (Agent n P)) = some i := Option.some_ne_none i ∘ Eq.symm
    cases i with
    | worker i => exact iff_of_false (Bool.eq_false_iff.mp hr.first) hnobody
    | producer p => exact iff_of_false Bool.false_ne_true hnobody
    | caller => exact iff_of_false (Bool.eq_false_iff.mp hr.start) hnobody
  · cases i <;> exact trivial
  · obtain rfl : CallerPc.start = pc := Status.running.inj hat
    exact trivial

omit [DecidableEq P] [Fintype P] in
/-- **No worker sleeps** once the caller has broadcast. -/
theorem Quiet.not_blocked (hs : Quiet r holds callerHolds ready s) (h : Broadcasted s) (i : Fin n) :
    (s.threads (.worker i)).isBlocked = false := by
  have hparked := hs.parked .caller
  unfold Broadcasted at h
  cases hat : s.threads .caller with
  | blocked pc | woken pc =>
    rw [hat] at hparked
    exact hparked.elim
  | running pc =>
    rw [hat] at h
    have hbroadcasted : pc.broadcasted = true := h
    unfold CallerPc.broadcasted at hbroadcasted
    have hreached := hs.reached pc hat
    cases hphase : pc.phase with
    | early | flagged =>
      rw [hphase] at hbroadcasted
      cases hbroadcasted
    | joining k =>
      rw [hphase] at hreached
      exact (hreached.1.awake (.worker i)).1
    | joined =>
      rw [hphase] at hreached
      obtain ⟨l, hl, -⟩ := stopped_iff.mp (hreached i)
      rw [hl]
      rfl

end steps

end SubstanceConnector.Pool

namespace SubstanceConnector.DispatchPool

open Monitor SubstanceConnector.Pool

variable {n : Nat} {P : Type}

def holds (l : Worker Pc) : Bool :=
  match l.pc with
  | .waitTest | .wait | .wokenUnlock | .unlock => true
  | _ => false

def callerHolds : CallerPc → Bool
  | .setFlag | .broadcast | .unlock | .clearFlag | .reunlock => true
  | _ => false

/-- A dispatch thread tests the flag with the lock, just before it waits. -/
def ready (l : Worker Pc) : Bool :=
  match l.pc with
  | .wait => true
  | _ => false

theorem holds_of_ready {l : Worker Pc} (h : ready l = true) : holds l = true := by
  obtain ⟨pc, message⟩ := l
  cases pc with
  | wait => rfl
  | _ => cases h

theorem locks_dispatchRoutine (l : Worker Pc) : (dispatchRoutine (n := n) (P := P) l).Locks holds l := by
  obtain ⟨pc, message⟩ := l
  unfold dispatchRoutine
  cases pc with
  | loopTest =>
    intro _ g
    cases hflag : g.shutdown <;> simp [holds, hflag]
  | waitTest =>
    intro _ g
    cases hflag : g.shutdown <;> cases message <;> simp [holds, hflag]
  | wokenTest =>
    intro _ g
    cases hflag : g.shutdown <;> simp [holds, hflag]
  | handleTest =>
    intro _ g
    cases hflag : g.shutdown <;> cases message <;> simp [holds, hflag]
  | acquireFirst | acquireSecond | acquireNext | handle | clear | exit => exact fun _ _ => rfl
  | lock | wait | wokenUnlock | unlock => exact ⟨rfl, rfl⟩
  | done => exact trivial

theorem minds_dispatchRoutine (l : Worker Pc) :
    (dispatchRoutine (n := n) (P := P) l).Minds (fun g => g.shutdown = true) ready l := by
  obtain ⟨pc, message⟩ := l
  unfold dispatchRoutine
  cases pc with
  | loopTest | waitTest | wokenTest | handleTest =>
    intro _ g hoff
    refine ⟨hoff, fun _ => ?_⟩
    cases message <;> simp [ready, hoff]
  | acquireFirst | acquireSecond | acquireNext =>
    exact fun _ g hoff => ⟨(Shared.shutdown_dequeue g).trans hoff, fun _ => rfl⟩
  | handle | clear | exit => exact fun _ g hoff => ⟨(Shared.shutdown_record g _ _).trans hoff, fun _ => rfl⟩
  | lock | wokenUnlock | unlock => exact fun _ => rfl
  | wait => exact ⟨rfl, rfl⟩
  | done => exact trivial

theorem terminating_terminateDispatch (pc : CallerPc) :
    Terminating pc (terminateDispatch (n := n) (P := P) pc) := by
  cases pc with
  | start | unlock | relock | reunlock => rfl
  | setFlag => exact fun _ _ => ⟨rfl, rfl⟩
  | broadcast => exact ⟨rfl, rfl⟩
  | join k => exact terminating_joinLoop k rfl
  | clearFlag | clearQueue => exact fun _ _ => rfl
  | lock | finished => exact trivial

theorem locks_terminateDispatch (pc : CallerPc) : (terminateDispatch (n := n) (P := P) pc).Locks callerHolds pc := by
  cases pc with
  | start | relock | unlock | reunlock => exact ⟨rfl, rfl⟩
  | setFlag | clearFlag | clearQueue => exact fun _ _ => rfl
  | broadcast => rfl
  | join k => exact locks_joinLoop rfl rfl
  | lock | finished => exact trivial

theorem terminates : Terminates (routines : Routines n P Pc) holds callerHolds ready where
  locks := locks_dispatchRoutine
  callLocks := locks_terminateDispatch
  minds := minds_dispatchRoutine
  calls := terminating_terminateDispatch
  broadcast := rfl
  first := rfl
  start := rfl

theorem quiet_of_reachable [DecidableEq P] [Fintype P] {s : State n P Pc} (h : (routines.system).Reachable s) :
    Quiet routines holds callerHolds ready s := by
  refine h.invariant (P := Quiet routines holds callerHolds ready) (fun s hs => ?_) fun s a s' _ hs hstep =>
    quiet_next terminates hs (fun _ _ _ _ _ hready => holds_of_ready hready) hstep
  obtain rfl : s = routines.start := hs
  exact quiet_start terminates

end SubstanceConnector.DispatchPool

namespace SubstanceConnector.WritePool

open Monitor SubstanceConnector.Pool

variable {n : Nat} {P : Type}

def holds (l : Worker Pc) : Bool :=
  match l.pc with
  | .emptyTest | .wait | .wokenTest | .exitUnlock | .acquire | .unlock => true
  | _ => false

def callerHolds : CallerPc → Bool
  | .broadcast | .unlock => true
  | _ => false

/-- A write thread does not test the flag again between its loop test, or the test after a wait, and the
next wait. -/
def ready (l : Worker Pc) : Bool :=
  match l.pc with
  | .lock | .emptyTest => l.message.isNone
  | .acquire | .wait => true
  | _ => false

theorem locks_writeThreadRoutine (l : Worker Pc) : (writeThreadRoutine (n := n) (P := P) l).Locks holds l := by
  obtain ⟨pc, message⟩ := l
  unfold writeThreadRoutine
  cases pc with
  | loopTest | wokenTest =>
    intro _ g
    cases hflag : g.shutdown <;> simp [holds, hflag]
  | emptyTest | writeTest =>
    intro _ g
    cases message <;> rfl
  | acquire | acquireNext | write | clear | exit => exact fun _ _ => rfl
  | lock | wait | exitUnlock | unlock => exact ⟨rfl, rfl⟩
  | done => exact trivial

theorem minds_writeThreadRoutine (l : Worker Pc) :
    (writeThreadRoutine (n := n) (P := P) l).Minds (fun g => g.shutdown = true) ready l := by
  obtain ⟨pc, message⟩ := l
  unfold writeThreadRoutine
  cases pc with
  | loopTest | wokenTest =>
    intro _ g hoff
    refine ⟨hoff, fun _ => ?_⟩
    simp [ready, hoff]
  | emptyTest =>
    intro _ g hoff
    refine ⟨hoff, fun hready => ?_⟩
    cases message with
    | none => cases hready
    | some m => rfl
  | writeTest =>
    intro _ g hoff
    refine ⟨hoff, fun _ => ?_⟩
    cases message <;> rfl
  | acquire => exact fun _ g hoff => ⟨(Shared.shutdown_dequeue g).trans hoff, fun hready => by cases hready⟩
  | acquireNext => exact fun _ g hoff => ⟨(Shared.shutdown_dequeue g).trans hoff, fun _ => rfl⟩
  | write | clear | exit => exact fun _ g hoff => ⟨(Shared.shutdown_record g _ _).trans hoff, fun _ => rfl⟩
  | lock => exact id
  | exitUnlock | unlock => exact fun _ => rfl
  | wait => exact ⟨rfl, rfl⟩
  | done => exact trivial

theorem terminating_connectorShutdownWriteThreads (pc : CallerPc) :
    Terminating pc (connectorShutdownWriteThreads (n := n) (P := P) pc) := by
  cases pc with
  | start => exact fun _ _ => ⟨rfl, rfl⟩
  | lock | unlock => rfl
  | broadcast => exact ⟨rfl, rfl⟩
  | join k => exact terminating_joinLoop k rfl
  | clearFlag | clearQueue => exact fun _ _ => rfl
  | setFlag | relock | reunlock | finished => exact trivial

theorem locks_connectorShutdownWriteThreads (pc : CallerPc) :
    (connectorShutdownWriteThreads (n := n) (P := P) pc).Locks callerHolds pc := by
  cases pc with
  | lock | unlock => exact ⟨rfl, rfl⟩
  | start | clearFlag | clearQueue => exact fun _ _ => rfl
  | broadcast => rfl
  | join k => exact locks_joinLoop rfl rfl
  | setFlag | relock | reunlock | finished => exact trivial

theorem terminates : Terminates (routines : Routines n P Pc) holds callerHolds ready where
  locks := locks_writeThreadRoutine
  callLocks := locks_connectorShutdownWriteThreads
  minds := minds_writeThreadRoutine
  calls := terminating_connectorShutdownWriteThreads
  broadcast := rfl
  first := rfl
  start := rfl

/-- When the caller broadcasts, no write thread is between its loop test and the lock. -/
def PastLock (s : State n P Pc) (a : Label n P) : Prop :=
  a.thread = .caller → s.threads .caller = .running .broadcast → ∀ i, s.threads (.worker i) ≠ .running ⟨.lock, none⟩

theorem PastLock.caughtUp {s : State n P Pc} {a : Label n P} (h : PastLock s a) : CaughtUp holds ready s a := by
  intro hcaller hat i l hthread hready
  obtain ⟨pc, message⟩ := l
  cases pc with
  | lock =>
    obtain rfl := Option.isNone_iff_eq_none.mp hready
    exact absurd hthread (h hcaller hat i)
  | emptyTest | acquire | wait => rfl
  | _ => cases hready

instance (s : State n P Pc) (a : Label n P) [DecidableEq P] : Decidable (PastLock s a) :=
  inferInstanceAs (Decidable (_ → _ → _))

/-- **No write thread sleeps** after the broadcast if none is at the lock when it is made. -/
theorem no_write_thread_sleeps (n : Nat) (P : Type) [DecidableEq P] [Fintype P] (s : State n P Pc)
    (h : (routines.system.guarded PastLock).Reachable s) (hbroadcast : Broadcasted s) :
    ∀ i, (s.threads (.worker i)).isBlocked = false := by
  have hquiet : Quiet routines holds callerHolds ready s := by
    refine h.guarded_invariant (P := Quiet routines holds callerHolds ready) (fun s hs => ?_) fun s a s' hs hguard hstep =>
      quiet_next terminates hs hguard.caughtUp hstep
    obtain rfl : s = routines.start := hs
    exact quiet_start terminates
  exact hquiet.not_blocked hbroadcast

/-- Both threads wait; the caller stops the pool up to the first join. -/
def quietRun : List (Label 2 Unit) :=
  steps left 4 ++ steps right 4 ++ steps .caller 4

theorem no_write_thread_sleeps_run :
    ∃ s : State 2 Unit Pc, Broadcasted s ∧ ∀ i, (s.threads (.worker i)).isBlocked = false := by
  have hrun : (StepSystem.runList (StepSystem.gate PastLock (next routines.routine)) routines.start quietRun).map
      (fun s => decide (Broadcasted s)) = some true := by
    decide +kernel
  obtain ⟨s, hs, hbroadcast⟩ := Option.map_eq_some_iff.mp hrun
  have hbroadcast := of_decide_eq_true hbroadcast
  exact ⟨s, hbroadcast, no_write_thread_sleeps 2 Unit s (StepSystem.guarded_reachable_runList (.init rfl) hs) hbroadcast⟩

/-- One thread has tested the flag and not taken the lock yet when the caller sets the flag and broadcasts. -/
def sleeperRun : List (Label 2 Unit) :=
  steps left 1 ++ steps .caller 4 ++ steps left 3

theorem write_thread_sleeps :
    ¬ ∀ s : State 2 Unit Pc, routines.system.Reachable s → Broadcasted s →
      ∀ i, (s.threads (.worker i)).isBlocked = false := by
  intro hall
  have hrun : (StepSystem.runList (next routines.routine) (routines.start : State 2 Unit Pc) sleeperRun).map
      (fun s => (decide (Broadcasted s), (s.threads left).isBlocked)) = some (true, true) := by
    decide +kernel
  obtain ⟨s, hs, hsleeps⟩ := Option.map_eq_some_iff.mp hrun
  have hbroadcast := of_decide_eq_true (congrArg Prod.fst hsleeps)
  have hawake := hall s (StepSystem.reachable_runList (.init rfl) hs) hbroadcast BuildConfig.firstThread
  exact absurd (hawake.symm.trans (congrArg Prod.snd hsleeps)) Bool.false_ne_true

end SubstanceConnector.WritePool
