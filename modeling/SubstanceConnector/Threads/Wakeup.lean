import SubstanceConnector.Threads.DispatchPool
import SubstanceConnector.Threads.WritePool

/-!
# Lost wake-ups

A message is left behind if it is in the queue while every worker is blocked and every producer has
made its signal. Neither pool excludes that. A worker looks at the queue before it takes the lock of the
condition (the write threads do not even look before they wait for the first time, or wait again), so a
signal made in between finds nobody to wake. What holds is that a message is never left behind as long as
every signal made over a nonempty queue still finds somebody: another producer that has yet to signal, a
blocked worker, or a worker that will look at the queue before it waits. The invariant (`Watched`) is that
one of these exists whenever the queue is not empty.
-/

namespace SubstanceConnector.Pool

open Monitor

variable {n : Nat} {P W : Type}

/-- The producer has enqueued a message and not signalled yet. -/
def owes : Status ProducerPc → Bool
  | .running .lock => true
  | .running .signal => true
  | _ => false

/-- The worker looks at the queue before it waits. -/
def attentive (attends : Worker W → Bool) : Status (Worker W) → Bool
  | .running l => attends l
  | .woken _ => true
  | .blocked _ => false

/-- A message in the queue, every worker blocked, every signal made. -/
def Lost (s : State n P W) : Prop :=
  s.shared.queue ≠ [] ∧ (∀ i, (s.threads (.worker i)).isBlocked = true) ∧
    ∀ p, owes (s.threads (.producer p)) = false

def BeforeShutdown (_ : State n P W) (a : Label n P) : Prop := a.thread ≠ .caller

/-- A signal made over a nonempty queue finds somebody. -/
def Heard (attends : Worker W → Bool) (s : State n P W) (a : Label n P) : Prop :=
  ∀ p, a.thread = .producer p → s.threads (.producer p) = .running .signal → s.shared.queue ≠ [] →
    (∃ q, q ≠ p ∧ owes (s.threads (.producer q)) = true) ∨
      ∃ i, (s.threads (.worker i)).isBlocked = true ∨ attentive attends (s.threads (.worker i)) = true

/-- What an instruction of a worker has to keep: a worker that attends to the queue does so until it
finds it empty, and a worker that comes back from a wait attends. -/
def Attending (attends : Worker W → Bool) (l : Worker W) : Instr n P (Worker W) → Prop
  | .act f => ∀ m g, g.shutdown = false → (f m g).1.shutdown = false ∧
      ((f m g).1.queue ≠ [] → g.queue ≠ [] ∧ (attends l = true → attends (f m g).2 = true))
  | .lock k | .unlock k => attends l = true → attends k = true
  | .wait k => attends l = false ∧ attends k = true
  | .stop => True
  | .signal _ | .broadcast _ | .join _ _ => False

/-- Where the agents of a pool wait: a worker only where it attends afterwards, the others nowhere. -/
def waitsAt (attends : Worker W → Bool) : (j : Agent n P) → Local W j → Prop
  | .worker _, l => attends l = true
  | .producer _, _ => False
  | .caller, _ => False

theorem owes_wake (x : Status ProducerPc) (h : owes x = true) : owes x.wake = true := by
  cases x with
  | running pc => exact h
  | blocked pc => exact absurd h Bool.false_ne_true
  | woken pc => exact absurd h Bool.false_ne_true

theorem attentive_wake {attends : Worker W → Bool} {x : Status (Worker W)}
    (h : x.isBlocked = true ∨ attentive attends x = true) : attentive attends x.wake = true := by
  cases x with
  | running l => exact h.resolve_left Bool.false_ne_true
  | blocked l => rfl
  | woken l => rfl

/-- Everything that keeps a message from being left behind. -/
structure Watched (attends : Worker W → Bool) (s : State n P W) : Prop where
  runs : s.shared.shutdown = false
  parked : ∀ j, (s.threads j).Parked (waitsAt attends j)
  noticed : s.shared.queue ≠ [] → (∃ p, owes (s.threads (.producer p)) = true) ∨
    ∃ i, attentive attends (s.threads (.worker i)) = true

theorem Watched.not_lost {attends : Worker W → Bool} {s : State n P W} (h : Watched attends s) : ¬ Lost s := by
  rintro ⟨hqueue, hblocked, hsignalled⟩
  obtain ⟨p, howes⟩ | ⟨i, hattentive⟩ := h.noticed hqueue
  · exact absurd (howes.symm.trans (hsignalled p)) (by simp)
  · have hi := hblocked i
    cases hthread : s.threads (.worker i) with
    | blocked l =>
      rw [hthread] at hattentive
      exact absurd hattentive Bool.false_ne_true
    | running l | woken l =>
      rw [hthread] at hi
      exact absurd hi Bool.false_ne_true

theorem parks_joinLoop (k : Nat) (after : CallerPc) : (joinLoop (n := n) (P := P) k after).Parks fun _ => False := by
  unfold joinLoop
  split <;> exact trivial

/-! ## Each instruction of a worker -/

section instructions
variable {attends : Worker W → Bool} {l : Worker W}

theorem attending_test {pc : Bool → Bool → W}
    (h : attends l = true → attends { l with pc := pc l.message.isSome false } = true) :
    Attending (n := n) (P := P) attends l (test l pc) := by
  intro m g hruns
  refine ⟨hruns, fun hqueue => ⟨hqueue, fun hattends => ?_⟩⟩
  show attends { l with pc := pc l.message.isSome g.shutdown } = true
  rw [hruns]
  exact h hattends

theorem attending_acquire {pc : W} (h : ∀ m, attends ⟨pc, some m⟩ = true) :
    Attending (n := n) (P := P) attends l (acquire pc) := by
  intro m g hruns
  refine ⟨(Shared.shutdown_dequeue g).trans hruns, fun hqueue => ?_⟩
  change g.dequeue.2.queue ≠ [] at hqueue
  show g.queue ≠ [] ∧ (attends l = true → attends ⟨pc, g.dequeue.1⟩ = true)
  cases hcontents : g.queue with
  | nil =>
    rw [Shared.dequeue_of_queue_eq_nil hcontents] at hqueue
    exact absurd hcontents hqueue
  | cons first rest =>
    rw [Shared.dequeue_of_queue_eq_cons hcontents]
    exact ⟨List.cons_ne_nil _ _, fun _ => h first⟩

theorem attending_record {e : Queued → MessageEvent} {k : Worker W} (h : attends l = true → attends k = true) :
    Attending (n := n) (P := P) attends l (.act fun _ g => (g.record e l.message, k)) := by
  intro m g hruns
  refine ⟨(Shared.shutdown_record g e l.message).trans hruns, fun hqueue => ⟨?_, h⟩⟩
  rwa [Shared.queue_record] at hqueue

end instructions

section steps
variable {r : Routines n P W} {attends : Worker W → Bool} {s s' : State n P W} {a : Label n P}

theorem parks_routine (hwork : ∀ l, Attending attends l (r.work l))
    (hcall : ∀ pc, (r.call pc).Parks fun _ => False) (i : Agent n P) (l : Local W i) :
    (r.routine i l).Parks (waitsAt attends i) := by
  cases i with
  | worker i =>
    have hl := hwork l
    show (r.work l).Parks fun l => attends l = true
    cases hinstr : r.work l with
    | wait k =>
      rw [hinstr] at hl
      exact hl.2
    | _ => exact trivial
  | producer p =>
    show (produce l).Parks fun _ => False
    cases l <;> exact trivial
  | caller => exact hcall l

variable [DecidableEq P]

/-- Another thread's step takes nobody away. -/
theorem owes_of_ne {i : Agent n P} (heffect : Effect r.routine s i s') {p : P} (hne : .producer p ≠ i)
    (howes : owes (s.threads (.producer p)) = true) : owes (s'.threads (.producer p)) = true := by
  obtain hsame | hwoken := heffect.threads_of_ne hne
  · rw [hsame]
    exact howes
  · rw [hwoken]
    exact owes_wake _ howes

theorem attentive_of_ne {i : Agent n P} (heffect : Effect r.routine s i s') {j : Fin n} (hne : .worker j ≠ i)
    (hattentive : attentive attends (s.threads (.worker j)) = true) :
    attentive attends (s'.threads (.worker j)) = true := by
  obtain hsame | hwoken := heffect.threads_of_ne hne
  · rw [hsame]
    exact hattentive
  · rw [hwoken]
    exact attentive_wake (.inr hattentive)

/-- A worker's step: it puts nothing on the queue, and goes on attending unless it finds it empty. -/
theorem worker_step {i : Fin n} (hwork : ∀ l, Attending attends l (r.work l)) (hs : Watched attends s)
    (heffect : Effect r.routine s (.worker i) s') : s'.shared.shutdown = false ∧
      (s'.shared.queue ≠ [] → s.shared.queue ≠ [] ∧
        (attentive attends (s.threads (.worker i)) = true → attentive attends (s'.threads (.worker i)) = true)) := by
  cases heffect with
  | reacquire l hat hfree =>
    have hparked := hs.parked (.worker i)
    rw [hat] at hparked
    refine ⟨hs.runs, fun hqueue => ⟨hqueue, fun _ => ?_⟩⟩
    rw [State.goto_self]
    exact hparked
  | act l f answer hat hinstr =>
    have hl := hwork l
    have hinstr' : r.work l = .act f := hinstr
    rw [hinstr'] at hl
    obtain ⟨hruns, hkeeps⟩ := hl answer s.shared hs.runs
    refine ⟨hruns, fun hqueue => ⟨(hkeeps hqueue).1, ?_⟩⟩
    rw [State.goto_self, hat]
    exact (hkeeps hqueue).2
  | lock l k hat hinstr hfree | unlock l k hat hinstr hheld =>
    have hl := hwork l
    have hinstr' : r.work l = _ := hinstr
    rw [hinstr'] at hl
    refine ⟨hs.runs, fun hqueue => ⟨hqueue, ?_⟩⟩
    rw [State.goto_self, hat]
    exact hl
  | wait l k hat hinstr hheld =>
    have hl := hwork l
    have hinstr' : r.work l = .wait k := hinstr
    rw [hinstr'] at hl
    refine ⟨hs.runs, fun hqueue => ⟨hqueue, fun hattentive => ?_⟩⟩
    rw [hat] at hattentive
    exact absurd (hl.1.symm.trans hattentive) Bool.false_ne_true
  | signal l k j hat hinstr hblocked | signalNobody l k hat hinstr hnobody | broadcast l k hat hinstr
  | join l k j hat hinstr hstopped =>
    have hl := hwork l
    have hinstr' : r.work l = _ := hinstr
    rw [hinstr'] at hl
    exact hl.elim

/-- A producer's step leaves somebody who owes a signal or attends, if its signal is heard. -/
theorem producer_step {p : P} (hs : Watched attends s) (heffect : Effect r.routine s (.producer p) s')
    (hheard : s.threads (.producer p) = .running .signal → s.shared.queue ≠ [] →
      (∃ q, q ≠ p ∧ owes (s.threads (.producer q)) = true) ∨
        ∃ i, (s.threads (.worker i)).isBlocked = true ∨ attentive attends (s.threads (.worker i)) = true) :
    s'.shared.shutdown = false ∧ (s'.shared.queue ≠ [] → (∃ p, owes (s'.threads (.producer p)) = true) ∨
      ∃ i, attentive attends (s'.threads (.worker i)) = true) := by
  have hworker : ∀ {i : Fin n}, attentive attends (s.threads (.worker i)) = true →
      attentive attends (s'.threads (.worker i)) = true := fun h => attentive_of_ne heffect (by simp) h
  have hproducer : ∀ {q : P}, q ≠ p → owes (s.threads (.producer q)) = true →
      owes (s'.threads (.producer q)) = true := fun hne h => owes_of_ne heffect (by simpa using hne) h
  cases heffect with
  | reacquire l hat hfree =>
    have hparked := hs.parked (.producer p)
    rw [hat] at hparked
    exact hparked.elim
  | act l f answer hat hinstr =>
    cases l <;> cases hinstr
    refine ⟨hs.runs, fun _ => .inl ⟨p, ?_⟩⟩
    rw [State.goto_self]
    rfl
  | lock l k hat hinstr hfree =>
    cases l <;> cases hinstr
    refine ⟨hs.runs, fun _ => .inl ⟨p, ?_⟩⟩
    rw [State.goto_self]
    rfl
  | unlock l k hat hinstr hheld =>
    cases l <;> cases hinstr
    refine ⟨hs.runs, fun hqueue => ?_⟩
    obtain ⟨q, howes⟩ | ⟨i, hattentive⟩ := hs.noticed hqueue
    · refine .inl ⟨q, hproducer (fun heq => ?_) howes⟩
      rw [heq, hat] at howes
      exact Bool.false_ne_true howes
    · exact .inr ⟨i, hworker hattentive⟩
  | signal l k j hat hinstr hblocked =>
    refine ⟨hs.runs, fun _ => .inr ?_⟩
    have hparked := hs.parked j
    cases hthread : s.threads j with
    | blocked lj =>
      rw [hthread] at hparked
      -- only a worker waits
      cases j with
      | worker i =>
        have hwoken : ∀ x : Status (Worker W),
            Function.update (Function.update s.threads (.worker i) x) (.producer p) (.running k) (.worker i) = x :=
          fun x => (Function.update_of_ne (by simp) _ _).trans (Function.update_self _ _ _)
        exact ⟨i, (congrArg (attentive attends) (hwoken _)).trans (attentive_wake (.inl rfl))⟩
      | producer q => exact hparked.elim
      | caller => exact hparked.elim
    | running lj | woken lj =>
      rw [hthread] at hblocked
      exact absurd hblocked Bool.false_ne_true
  | signalNobody l k hat hinstr hnobody =>
    cases l <;> cases hinstr
    refine ⟨hs.runs, fun hqueue => ?_⟩
    obtain ⟨q, hne, howes⟩ | ⟨i, hblocked | hattentive⟩ := hheard hat hqueue
    · exact .inl ⟨q, hproducer hne howes⟩
    · exact absurd (hblocked.symm.trans (hnobody _)) (by simp)
    · exact .inr ⟨i, hworker hattentive⟩
  | wait l k hat hinstr hheld | broadcast l k hat hinstr | join l k j hat hinstr hstopped =>
    cases l <;> cases hinstr

variable [Fintype P]

theorem watched_next (hwork : ∀ l, Attending attends l (r.work l)) (hcall : ∀ pc, (r.call pc).Parks fun _ => False)
    (hs : Watched attends s) (hbefore : BeforeShutdown s a) (hheard : Heard attends s a)
    (h : next r.routine s a = some s') : Watched attends s' := by
  have heffect := effect_next h
  have hparked := parked_next (parks_routine hwork hcall) hs.parked h
  cases hthread : a.thread with
  | worker i =>
    rw [hthread] at heffect
    obtain ⟨hruns, hkeeps⟩ := worker_step hwork hs heffect
    refine ⟨hruns, hparked, fun hqueue => ?_⟩
    obtain ⟨hqueue, hgoes⟩ := hkeeps hqueue
    obtain ⟨p, howes⟩ | ⟨j, hattentive⟩ := hs.noticed hqueue
    · exact .inl ⟨p, owes_of_ne heffect (by simp) howes⟩
    · refine .inr ⟨j, ?_⟩
      by_cases hj : j = i
      · subst hj
        exact hgoes hattentive
      · exact attentive_of_ne heffect (by simpa using hj) hattentive
  | producer p =>
    rw [hthread] at heffect
    obtain ⟨hruns, hnoticed⟩ := producer_step hs heffect (hheard p hthread)
    exact ⟨hruns, hparked, hnoticed⟩
  | caller => exact absurd hthread hbefore

/-- **No message is left behind** in a run before the shutdown in which every signal is heard. -/
theorem watched_of_reachable (hwork : ∀ l, Attending attends l (r.work l))
    (hcall : ∀ pc, (r.call pc).Parks fun _ => False)
    (h : (r.system.guarded fun s a => BeforeShutdown s a ∧ Heard attends s a).Reachable s) : Watched attends s := by
  refine h.guarded_invariant (P := Watched attends) (fun s hs => ?_) fun s a s' hs hguard hstep =>
    watched_next hwork hcall hs hguard.1 hguard.2 hstep
  obtain rfl : s = r.start := hs
  refine ⟨rfl, fun j => ?_, fun hqueue => absurd rfl hqueue⟩
  cases j <;> exact trivial

end steps

end SubstanceConnector.Pool

namespace SubstanceConnector.DispatchPool

open Monitor SubstanceConnector.Pool

variable {n : Nat} {P : Type}

/-- A dispatch thread has looked at the queue for the last time before it waits at `lock`, without a
message. -/
def attends (l : Worker Pc) : Bool :=
  match l.pc with
  | .lock | .waitTest => l.message.isSome
  | .wait | .exit | .done => false
  | _ => true

theorem attending_dispatchRoutine (l : Worker Pc) :
    Attending (n := n) (P := P) attends l (dispatchRoutine l) := by
  obtain ⟨pc, message⟩ := l
  unfold dispatchRoutine
  cases pc with
  | loopTest | wokenTest => exact attending_test fun _ => rfl
  | waitTest =>
    refine attending_test fun hattends => ?_
    have hmessage : message.isSome = true := hattends
    simp [attends, hmessage]
  | handleTest =>
    refine attending_test fun _ => ?_
    cases message <;> rfl
  | acquireFirst | acquireSecond | acquireNext => exact attending_acquire fun _ => rfl
  | lock => exact id
  | wait => exact ⟨rfl, rfl⟩
  | wokenUnlock | unlock => exact fun _ => rfl
  | handle | clear => exact attending_record fun _ => rfl
  | exit => exact attending_record id
  | done => exact trivial

theorem parks_terminateDispatch (pc : CallerPc) : (terminateDispatch (n := n) (P := P) pc).Parks fun _ => False := by
  cases pc with
  | join k => exact parks_joinLoop k _
  | _ => exact trivial

end SubstanceConnector.DispatchPool

namespace SubstanceConnector.WritePool

open Monitor SubstanceConnector.Pool

variable {n : Nat} {P : Type}

/-- A write thread without a message looks at the queue only after a wait. -/
def attends (l : Worker Pc) : Bool :=
  match l.pc with
  | .loopTest | .lock | .emptyTest | .unlock | .writeTest => l.message.isSome
  | .wait | .exitUnlock | .exit | .done => false
  | _ => true

theorem attending_writeThreadRoutine (l : Worker Pc) :
    Attending (n := n) (P := P) attends l (writeThreadRoutine l) := by
  obtain ⟨pc, message⟩ := l
  unfold writeThreadRoutine
  cases pc with
  | loopTest => exact attending_test id
  | emptyTest | writeTest =>
    refine attending_test fun hattends => ?_
    have hmessage : message.isSome = true := hattends
    simp [attends, hmessage]
  | wokenTest => exact attending_test fun _ => rfl
  | acquire | acquireNext => exact attending_acquire fun _ => rfl
  | lock | exitUnlock | unlock => exact id
  | wait => exact ⟨rfl, rfl⟩
  | write | clear => exact attending_record fun _ => rfl
  | exit => exact attending_record id
  | done => exact trivial

theorem parks_connectorShutdownWriteThreads (pc : CallerPc) :
    (connectorShutdownWriteThreads (n := n) (P := P) pc).Parks fun _ => False := by
  cases pc with
  | join k => exact parks_joinLoop k _
  | _ => exact trivial

end SubstanceConnector.WritePool

/-! ## Both pools -/

namespace SubstanceConnector.Pool

open Monitor

section both
variable {n : Nat} {P W : Type} [DecidableEq P] [Fintype P]

instance (s : State n P W) : Decidable (Lost s) :=
  inferInstanceAs (Decidable (_ ∧ _ ∧ _))

instance (s : State n P W) (a : Label n P) : Decidable (BeforeShutdown s a) :=
  inferInstanceAs (Decidable (_ ≠ _))

instance (attends : Worker W → Bool) (s : State n P W) (a : Label n P) : Decidable (Heard attends s a) :=
  inferInstanceAs (Decidable (∀ _, _))

end both

/-! ### Runs -/

def hello : ConnectorMessage := ⟨⟨connectorMessageIdentifier, 0, .ofWords 1 2 3 4⟩, some [0], 0⟩

/-- `k` steps of an agent. -/
def steps (a : Agent 2 Unit) (k : Nat) : List (Label 2 Unit) := .replicate k ⟨a, hello, none⟩

/-- Enqueue and signal; the signal wakes `chosen`. -/
def send (chosen : Option (Agent 2 Unit)) : List (Label 2 Unit) :=
  steps (.producer ()) 2 ++ [⟨.producer (), hello, chosen⟩] ++ steps (.producer ()) 1

def left : Agent 2 Unit := .worker BuildConfig.firstThread
def right : Agent 2 Unit := .worker BuildConfig.secondThread

/-- Both dispatch threads wait; each is woken for a message and finds no other after it; a third message
comes before they wait again. -/
def dispatchLostRun : List (Label 2 Unit) :=
  steps left 5 ++ steps right 5 ++ send (some left) ++ steps left 8 ++ send (some right) ++ steps right 14 ++
    steps left 6 ++ send none ++ steps left 3 ++ steps right 3

/-- A message is sent before the write threads have waited for the first time. -/
def writeLostRun : List (Label 2 Unit) :=
  send none ++ steps left 4 ++ steps right 4

theorem message_left_behind :
    (∃ s : State 2 Unit DispatchPool.Pc, (DispatchPool.routines.system.guarded BeforeShutdown).Reachable s ∧ Lost s) ∧
      ∃ s : State 2 Unit WritePool.Pc, (WritePool.routines.system.guarded BeforeShutdown).Reachable s ∧ Lost s := by
  constructor
  · have hrun : (StepSystem.runList (StepSystem.gate BeforeShutdown (next DispatchPool.routines.routine))
        DispatchPool.routines.start dispatchLostRun).map (fun s => decide (Lost s)) = some true := by
      decide +kernel
    obtain ⟨s, hs, hlost⟩ := Option.map_eq_some_iff.mp hrun
    exact ⟨s, StepSystem.guarded_reachable_runList (.init rfl) hs, of_decide_eq_true hlost⟩
  · have hrun : (StepSystem.runList (StepSystem.gate BeforeShutdown (next WritePool.routines.routine))
        WritePool.routines.start writeLostRun).map (fun s => decide (Lost s)) = some true := by
      decide +kernel
    obtain ⟨s, hs, hlost⟩ := Option.map_eq_some_iff.mp hrun
    exact ⟨s, StepSystem.guarded_reachable_runList (.init rfl) hs, of_decide_eq_true hlost⟩

/-- **No message is left behind** while every signal is heard, by any number of workers and producers of
either pool. -/
theorem no_message_left_behind (n : Nat) (P : Type) [DecidableEq P] [Fintype P] :
    (∀ s : State n P DispatchPool.Pc,
        (DispatchPool.routines.system.guarded fun s a => BeforeShutdown s a ∧ Heard DispatchPool.attends s a).Reachable s →
          ¬ Lost s) ∧
      ∀ s : State n P WritePool.Pc,
        (WritePool.routines.system.guarded fun s a => BeforeShutdown s a ∧ Heard WritePool.attends s a).Reachable s →
          ¬ Lost s :=
  ⟨fun _ h => (watched_of_reachable DispatchPool.attending_dispatchRoutine DispatchPool.parks_terminateDispatch h).not_lost,
    fun _ h => (watched_of_reachable WritePool.attending_writeThreadRoutine
      WritePool.parks_connectorShutdownWriteThreads h).not_lost⟩

theorem no_message_left_behind_run :
    (∃ s : State 2 Unit DispatchPool.Pc, s.shared.queue.length = 1 ∧ ¬ Lost s) ∧
      ∃ s : State 2 Unit WritePool.Pc, s.shared.queue.length = 1 ∧ ¬ Lost s := by
  constructor
  · have hrun : (StepSystem.runList (StepSystem.gate (fun s a => BeforeShutdown s a ∧ Heard DispatchPool.attends s a)
        (next DispatchPool.routines.routine)) DispatchPool.routines.start
          (steps left 5 ++ steps right 2 ++ send (some left))).map (fun s => s.shared.queue.length) = some 1 := by
      decide +kernel
    obtain ⟨s, hs, hqueue⟩ := Option.map_eq_some_iff.mp hrun
    exact ⟨s, hqueue, (no_message_left_behind 2 Unit).1 s (StepSystem.guarded_reachable_runList (.init rfl) hs)⟩
  · have hrun : (StepSystem.runList (StepSystem.gate (fun s a => BeforeShutdown s a ∧ Heard WritePool.attends s a)
        (next WritePool.routines.routine)) WritePool.routines.start
          (steps left 4 ++ send (some left))).map (fun s => s.shared.queue.length) = some 1 := by
      decide +kernel
    obtain ⟨s, hs, hqueue⟩ := Option.map_eq_some_iff.mp hrun
    exact ⟨s, hqueue, (no_message_left_behind 2 Unit).2 s (StepSystem.guarded_reachable_runList (.init rfl) hs)⟩

end SubstanceConnector.Pool
