import Mathlib.Data.Fintype.Basic
import Mathlib.Logic.Function.Basic

/-!
# Threads around a mutex and a condition variable

Any number of threads, each running a routine over its own local state and a shared one, with one
mutex and one condition variable between them. A routine says for every local state what the thread
does next (`Instr`); everything that happens without the mutex or the condition is an `act`.

A wait releases the mutex and blocks in one step. A signal wakes one blocked thread, whichever, and
has no effect if there is none; a broadcast wakes all of them. A woken thread takes the mutex again
before it goes on, and nothing else wakes a thread.

Three rules cover what the pools built on this need: a routine whose local states say whether the thread
has the mutex (`Locks`) keeps that annotation true (`exclusive_next`), a thread waits only where its
routine does (`parked_next`), and once a flag is up that every thread still tests before it waits
(`Minds`), no thread blocks any more (`Effect.awake`).
-/

namespace Monitor

/-- The next step of a thread with local states `L`, answered by the environment in `A`, over the
shared state `G`. -/
inductive Instr (ι A L G : Type) where
  | act (f : A → G → G × L)
  | lock (k : L)
  | unlock (k : L)
  | wait (k : L)
  | signal (k : L)
  | broadcast (k : L)
  | join (j : ι) (k : L)
  | stop

/-- Where a thread is: at a local state, blocked in a wait, or woken and without the mutex yet. -/
inductive Status (L : Type) where
  | running (l : L)
  | blocked (l : L)
  | woken (l : L)
  deriving DecidableEq

namespace Status

variable {L : Type}

def isBlocked : Status L → Bool
  | blocked _ => true
  | _ => false

def wake : Status L → Status L
  | blocked l => woken l
  | x => x

/-- The local state a thread is at, or will be at after its wait. -/
def locals : Status L → L
  | running l => l
  | blocked l => l
  | woken l => l

@[simp] theorem isBlocked_wake (x : Status L) : x.wake.isBlocked = false := by
  cases x <;> rfl

@[simp] theorem locals_wake (x : Status L) : x.wake.locals = x.locals := by
  cases x <;> rfl

theorem eq_running_of_wake {x : Status L} {l : L} (h : x.wake = running l) : x = running l := by
  cases x with
  | running k => exact h
  | blocked k | woken k => cases h

end Status

structure State (ι : Type) (L : ι → Type) (G : Type) where
  threads : (i : ι) → Status (L i)
  holder : Option ι
  shared : G

/-- Which thread moves, what the environment answers, and which thread a signal wakes. -/
structure Label (ι A : Type) where
  thread : ι
  answer : A
  chosen : Option ι

variable {ι A G : Type} {L : ι → Type} [DecidableEq ι] [Fintype ι]

/-- The threads after a signal for `chosen`; it is for nobody only if nobody is blocked. -/
def wakeOne (threads : (i : ι) → Status (L i)) : Option ι → Option ((i : ι) → Status (L i))
  | some j => if (threads j).isBlocked then some (Function.update threads j (threads j).wake) else none
  | none => if ∀ j, (threads j).isBlocked = false then some threads else none

/-- A thread that has reached the end of its routine. -/
def stopped (routine : (i : ι) → L i → Instr ι A (L i) G) (threads : (i : ι) → Status (L i)) (j : ι) : Bool :=
  match threads j with
  | .running l =>
    match routine j l with
    | .stop => true
    | _ => false
  | _ => false

def State.goto (s : State ι L G) (i : ι) (l : L i) : State ι L G :=
  { s with threads := Function.update s.threads i (.running l) }

/-- Thread `i` gives up the mutex and blocks. -/
def State.block (s : State ι L G) (i : ι) (l : L i) : State ι L G :=
  { s with holder := none, threads := Function.update s.threads i (.blocked l) }

omit [Fintype ι] in
theorem State.goto_self (s : State ι L G) (i : ι) (l : L i) : (s.goto i l).threads i = .running l := by
  unfold State.goto
  exact Function.update_self i _ s.threads

omit [Fintype ι] in
theorem State.block_self (s : State ι L G) (i : ι) (l : L i) : (s.block i l).threads i = .blocked l := by
  unfold State.block
  exact Function.update_self i _ s.threads

def next (routine : (i : ι) → L i → Instr ι A (L i) G) (s : State ι L G) (a : Label ι A) : Option (State ι L G) :=
  let i := a.thread
  match s.threads i with
  | .blocked _ => none
  | .woken l => if s.holder = none then some ({ s with holder := some i }.goto i l) else none
  | .running l =>
    match routine i l with
    | .act f => some ({ s with shared := (f a.answer s.shared).1 }.goto i (f a.answer s.shared).2)
    | .lock k => if s.holder = none then some ({ s with holder := some i }.goto i k) else none
    | .unlock k => if s.holder = some i then some ({ s with holder := none }.goto i k) else none
    | .wait k => if s.holder = some i then some (s.block i k) else none
    | .signal k => (wakeOne s.threads a.chosen).map fun threads => { s with threads := threads }.goto i k
    | .broadcast k => some ({ s with threads := fun j => (s.threads j).wake }.goto i k)
    | .join j k => if stopped routine s.threads j then some (s.goto i k) else none
    | .stop => none

/-! ## What a step can do -/

section steps
variable {routine : (i : ι) → L i → Instr ι A (L i) G} {s s' : State ι L G} {a : Label ι A}

/-- Everything one step of thread `i` can come to. -/
inductive Effect (routine : (i : ι) → L i → Instr ι A (L i) G) (s : State ι L G) (i : ι) : State ι L G → Prop
  | reacquire (l : L i) (hat : s.threads i = .woken l) (hfree : s.holder = none) :
      Effect routine s i ({ s with holder := some i }.goto i l)
  | act (l : L i) (f : A → G → G × L i) (answer : A) (hat : s.threads i = .running l)
      (hinstr : routine i l = .act f) :
      Effect routine s i ({ s with shared := (f answer s.shared).1 }.goto i (f answer s.shared).2)
  | lock (l k : L i) (hat : s.threads i = .running l) (hinstr : routine i l = .lock k) (hfree : s.holder = none) :
      Effect routine s i ({ s with holder := some i }.goto i k)
  | unlock (l k : L i) (hat : s.threads i = .running l) (hinstr : routine i l = .unlock k) (hheld : s.holder = some i) :
      Effect routine s i ({ s with holder := none }.goto i k)
  | wait (l k : L i) (hat : s.threads i = .running l) (hinstr : routine i l = .wait k) (hheld : s.holder = some i) :
      Effect routine s i (s.block i k)
  | signal (l k : L i) (j : ι) (hat : s.threads i = .running l) (hinstr : routine i l = .signal k)
      (hblocked : (s.threads j).isBlocked = true) :
      Effect routine s i ({ s with threads := Function.update s.threads j (s.threads j).wake }.goto i k)
  | signalNobody (l k : L i) (hat : s.threads i = .running l) (hinstr : routine i l = .signal k)
      (hnobody : ∀ j, (s.threads j).isBlocked = false) : Effect routine s i (s.goto i k)
  | broadcast (l k : L i) (hat : s.threads i = .running l) (hinstr : routine i l = .broadcast k) :
      Effect routine s i ({ s with threads := fun j => (s.threads j).wake }.goto i k)
  | join (l k : L i) (j : ι) (hat : s.threads i = .running l) (hinstr : routine i l = .join j k)
      (hstopped : stopped routine s.threads j = true) : Effect routine s i (s.goto i k)

theorem effect_next (h : next routine s a = some s') : Effect routine s a.thread s' := by
  unfold next at h
  dsimp only at h
  split at h
  · cases h
  · rename_i l hat
    obtain ⟨hfree, h⟩ := Option.ite_none_right_eq_some.mp h
    obtain rfl := Option.some.inj h
    exact .reacquire l hat hfree
  · rename_i l hat
    split at h
    · obtain rfl := Option.some.inj h
      exact .act l _ a.answer hat ‹_›
    · obtain ⟨hfree, h⟩ := Option.ite_none_right_eq_some.mp h
      obtain rfl := Option.some.inj h
      exact .lock l _ hat ‹_› hfree
    · obtain ⟨hheld, h⟩ := Option.ite_none_right_eq_some.mp h
      obtain rfl := Option.some.inj h
      exact .unlock l _ hat ‹_› hheld
    · obtain ⟨hheld, h⟩ := Option.ite_none_right_eq_some.mp h
      obtain rfl := Option.some.inj h
      exact .wait l _ hat ‹_› hheld
    · obtain ⟨threads, hwake, rfl⟩ := Option.map_eq_some_iff.mp h
      cases hchosen : a.chosen with
      | some j =>
        rw [hchosen] at hwake
        obtain ⟨hblocked, hwake⟩ := Option.ite_none_right_eq_some.mp hwake
        obtain rfl := Option.some.inj hwake
        exact .signal l _ j hat ‹_› hblocked
      | none =>
        rw [hchosen] at hwake
        obtain ⟨hnobody, hwake⟩ := Option.ite_none_right_eq_some.mp hwake
        obtain rfl := Option.some.inj hwake
        exact .signalNobody l _ hat ‹_› hnobody
    · obtain rfl := Option.some.inj h
      exact .broadcast l _ hat ‹_›
    · obtain ⟨hstopped, h⟩ := Option.ite_none_right_eq_some.mp h
      obtain rfl := Option.some.inj h
      exact .join l _ _ hat ‹_› hstopped
    · cases h

omit [Fintype ι] in
/-- What a step does to the other threads: at most it wakes them. -/
theorem Effect.threads_of_ne {i j : ι} (h : Effect routine s i s') (hj : j ≠ i) :
    s'.threads j = s.threads j ∨ s'.threads j = (s.threads j).wake := by
  cases h with
  | signal l k woken hat hinstr hblocked =>
    have hmoved : Function.update (Function.update s.threads woken (s.threads woken).wake) i (.running k) j =
        Function.update s.threads woken (s.threads woken).wake j := Function.update_of_ne hj _ _
    by_cases hw : j = woken
    · subst hw
      exact .inr (hmoved.trans (Function.update_self _ _ _))
    · exact .inl (hmoved.trans (Function.update_of_ne hw _ _))
  | broadcast l k hat hinstr => exact .inr (Function.update_of_ne hj _ _)
  | _ => exact .inl (Function.update_of_ne hj _ _)

omit [DecidableEq ι] [Fintype ι] in
theorem stopped_iff {threads : (i : ι) → Status (L i)} {i : ι} :
    stopped routine threads i = true ↔ ∃ l, threads i = .running l ∧ routine i l = .stop := by
  unfold stopped
  cases hat : threads i with
  | running l =>
    dsimp only
    cases hinstr : routine i l with
    | stop => exact ⟨fun _ => ⟨l, rfl, hinstr⟩, fun _ => rfl⟩
    | _ =>
      refine ⟨fun h => absurd h Bool.false_ne_true, fun ⟨k, hk, hstop⟩ => ?_⟩
      obtain rfl := Status.running.inj hk
      exact absurd (hinstr.symm.trans hstop) (by simp)
  | blocked l | woken l => exact ⟨fun h => absurd h Bool.false_ne_true, fun ⟨k, hk, _⟩ => absurd hk (by simp)⟩

omit [Fintype ι] in
/-- A thread that has stopped makes no step, and no other changes that. -/
theorem Effect.stopped {i j : ι} (h : Effect routine s i s') (hj : Monitor.stopped routine s.threads j = true) :
    j ≠ i ∧ Monitor.stopped routine s'.threads j = true := by
  obtain ⟨l, hat, hstop⟩ := stopped_iff.mp hj
  have hne : j ≠ i := by
    rintro rfl
    cases h with
    | reacquire k hk hfree => exact absurd (hat.symm.trans hk) (by simp)
    | act k f answer hk hinstr | lock k _ hk hinstr hfree | unlock k _ hk hinstr hheld | wait k _ hk hinstr hheld
    | signal k _ woken hk hinstr hblocked | signalNobody k _ hk hinstr hnobody | broadcast k _ hk hinstr
    | join k _ woken hk hinstr hstopped =>
      obtain rfl := Status.running.inj (hat.symm.trans hk)
      exact absurd (hinstr.symm.trans hstop) (by simp)
  refine ⟨hne, stopped_iff.mpr ⟨l, ?_, hstop⟩⟩
  obtain hsame | hwoken := h.threads_of_ne hne
  · rw [hsame, hat]
  · rw [hwoken, hat]
    rfl

omit [Fintype ι] in
/-- A step keeps a property of every thread if it gives it to the thread that moves and a wake-up does
not take it from another. -/
theorem Effect.forall_threads {i : ι} {P : (j : ι) → Status (L j) → Prop} (h : Effect routine s i s')
    (hwake : ∀ j, P j (s.threads j) → P j (s.threads j).wake) (hall : ∀ j, j ≠ i → P j (s.threads j))
    (hself : P i (s'.threads i)) : ∀ j, P j (s'.threads j) := by
  intro j
  by_cases hj : j = i
  · subst hj
    exact hself
  · obtain hsame | hwoken := h.threads_of_ne hj
    · rw [hsame]
      exact hall j hj
    · rw [hwoken]
      exact hwake j (hall j hj)

end steps

/-! ## Who has the mutex -/

/-- The annotation of one instruction: it changes at `lock` and `unlock` and nowhere else, and a thread
waits only with the mutex. -/
def Instr.Locks {L : Type} (holds : L → Bool) (l : L) : Instr ι A L G → Prop
  | act f => ∀ a g, holds (f a g).2 = holds l
  | lock k => holds l = false ∧ holds k = true
  | unlock k => holds l = true ∧ holds k = false
  | wait k => holds l = true ∧ holds k = true
  | signal k => holds k = holds l
  | broadcast k => holds k = holds l
  | join _ k => holds k = holds l
  | stop => True

/-- What the annotation says about a thread that has the mutex, or has not. -/
def Status.Agrees {L : Type} (holds : L → Bool) (has : Prop) : Status L → Prop
  | running l => holds l = true ↔ has
  | blocked l => holds l = true ∧ ¬ has
  | woken l => holds l = true ∧ ¬ has

def Exclusive (holds : (i : ι) → L i → Bool) (s : State ι L G) : Prop :=
  ∀ i, (s.threads i).Agrees (holds i) (s.holder = some i)

section exclusion
variable {routine : (i : ι) → L i → Instr ι A (L i) G} {holds : (i : ι) → L i → Bool} {s s' : State ι L G}
  {a : Label ι A}

theorem Status.Agrees.wake {L : Type} {holds : L → Bool} {has : Prop} {x : Status L} (h : x.Agrees holds has) :
    x.wake.Agrees holds has := by
  cases x with
  | running l => exact h
  | blocked l => exact h
  | woken l => exact h

omit [Fintype ι] in
/-- The mutex passes between nobody and the thread that moves. -/
theorem Effect.holder_iff {i j : ι} (h : Effect routine s i s') (hj : j ≠ i) :
    s'.holder = some j ↔ s.holder = some j := by
  have hne : some i ≠ some j := fun heq => hj (Option.some.inj heq).symm
  cases h with
  | reacquire l hat hfree | lock l k hat hinstr hfree =>
    rw [hfree]
    exact ⟨fun heq => absurd heq hne, fun heq => absurd heq (by simp)⟩
  | unlock l k hat hinstr hheld | wait l k hat hinstr hheld =>
    rw [hheld]
    exact ⟨fun heq => absurd heq (Option.some_ne_none j).symm, fun heq => absurd heq hne⟩
  | _ => exact Iff.rfl

omit [Fintype ι] in
theorem agrees_self {i : ι} (hlocks : ∀ i l, (routine i l).Locks (holds i) l) (hs : Exclusive holds s)
    (h : Effect routine s i s') : (s'.threads i).Agrees (holds i) (s'.holder = some i) := by
  have hi := hs i
  cases h with
  | reacquire l hat hfree =>
    rw [hat] at hi
    rw [State.goto_self]
    exact ⟨fun _ => rfl, fun _ => hi.1⟩
  | wait l k hat hinstr hheld =>
    have hinstr' := hlocks i l
    rw [hinstr] at hinstr'
    rw [State.block_self]
    exact ⟨hinstr'.2, fun heq => absurd heq (Option.some_ne_none i).symm⟩
  | lock l k hat hinstr hfree =>
    have hinstr' := hlocks i l
    rw [hinstr] at hinstr'
    rw [State.goto_self]
    exact ⟨fun _ => rfl, fun _ => hinstr'.2⟩
  | unlock l k hat hinstr hheld =>
    have hinstr' := hlocks i l
    rw [hinstr] at hinstr'
    rw [State.goto_self]
    exact ⟨fun hk => absurd (hk.symm.trans hinstr'.2) (by simp), fun heq => absurd heq (Option.some_ne_none i).symm⟩
  | act l f answer hat hinstr =>
    have hinstr' := hlocks i l
    rw [hinstr] at hinstr'
    rw [hat] at hi
    rw [State.goto_self]
    exact (iff_of_eq (congrArg (· = true) (hinstr' answer s.shared))).trans hi
  | signal l k j hat hinstr hblocked | signalNobody l k hat hinstr hnobody | broadcast l k hat hinstr
  | join l k j hat hinstr hstopped =>
    have hinstr' := hlocks i l
    rw [hinstr] at hinstr'
    rw [hat] at hi
    rw [State.goto_self]
    exact (iff_of_eq (congrArg (· = true) hinstr')).trans hi

/-- **Mutual exclusion.** A routine that follows its annotation keeps it true of the mutex. -/
theorem exclusive_next (hlocks : ∀ i l, (routine i l).Locks (holds i) l) (hs : Exclusive holds s)
    (h : next routine s a = some s') : Exclusive holds s' := by
  have heffect := effect_next h
  refine heffect.forall_threads (P := fun j x => x.Agrees (holds j) (s'.holder = some j)) (fun _ hj => hj.wake) ?_
    (agrees_self hlocks hs heffect)
  intro j hj
  rw [heffect.holder_iff hj]
  exact hs j

omit [DecidableEq ι] [Fintype ι] in
/-- Two threads whose annotations say they have the mutex are one. -/
theorem Exclusive.eq {i j : ι} {l : L i} {k : L j} (hs : Exclusive holds s) (hi : s.threads i = .running l)
    (hj : s.threads j = .running k) (hl : holds i l = true) (hk : holds j k = true) : i = j := by
  have hthis := hs i
  have hthat := hs j
  rw [hi] at hthis
  rw [hj] at hthat
  exact Option.some.inj ((hthis.mp hl).symm.trans (hthat.mp hk))

end exclusion

/-! ## Where threads wait -/

/-- A thread waits only at a local state with `P`. -/
def Instr.Parks {L : Type} (P : L → Prop) : Instr ι A L G → Prop
  | wait k => P k
  | _ => True

/-- `P` holds of a thread that waits or has only been woken. -/
def Status.Parked {L : Type} (P : L → Prop) : Status L → Prop
  | running _ => True
  | blocked l => P l
  | woken l => P l

theorem Status.Parked.wake {L : Type} {P : L → Prop} {x : Status L} (h : x.Parked P) : x.wake.Parked P := by
  cases x with
  | running l => exact h
  | blocked l => exact h
  | woken l => exact h

theorem parked_next {routine : (i : ι) → L i → Instr ι A (L i) G} {P : (i : ι) → L i → Prop} {s s' : State ι L G}
    {a : Label ι A} (hparks : ∀ i l, (routine i l).Parks (P i)) (hs : ∀ i, (s.threads i).Parked (P i))
    (h : next routine s a = some s') : ∀ i, (s'.threads i).Parked (P i) := by
  have heffect := effect_next h
  refine heffect.forall_threads (P := fun i x => x.Parked (P i)) (fun _ hj => hj.wake) (fun j _ => hs j) ?_
  cases heffect with
  | wait l k hat hinstr hheld =>
    have hinstr' := hparks a.thread l
    rw [hinstr] at hinstr'
    rw [State.block_self]
    exact hinstr'
  | _ =>
    rw [State.goto_self]
    exact trivial

/-! ## Threads that mind a flag -/

/-- What a routine owes once `Off` holds: it keeps `Off`, and from a local state where the thread is not
`ready` to wait it does not come to wait. -/
def Instr.Minds {L : Type} (Off : G → Prop) (ready : L → Bool) (l : L) : Instr ι A L G → Prop
  | act f => ∀ a g, Off g → Off (f a g).1 ∧ (ready l = false → ready (f a g).2 = false)
  | lock k => ready l = false → ready k = false
  | unlock k => ready l = false → ready k = false
  | wait k => ready l = true ∧ ready k = false
  | signal k => ready l = false → ready k = false
  | broadcast k => ready l = false → ready k = false
  | join _ k => ready l = false → ready k = false
  | stop => True

/-- The flag is up, no thread is blocked, and none is on its way to a wait without testing it. -/
structure Awake (Off : G → Prop) (ready : (i : ι) → L i → Bool) (s : State ι L G) : Prop where
  off : Off s.shared
  awake : ∀ i, (s.threads i).isBlocked = false ∧ ready i (s.threads i).locals = false

omit [Fintype ι] in
theorem Effect.keeps_off {routine : (i : ι) → L i → Instr ι A (L i) G} {Off : G → Prop} {ready : (i : ι) → L i → Bool}
    {s s' : State ι L G} {i : ι} (heffect : Effect routine s i s') (hminds : ∀ l, (routine i l).Minds Off (ready i) l)
    (hs : Off s.shared) : Off s'.shared := by
  cases heffect with
  | act l f answer hat hinstr =>
    have hinstr' := hminds l
    rw [hinstr] at hinstr'
    exact (hinstr' answer s.shared hs).1
  | _ => exact hs

omit [Fintype ι] in
/-- **Nobody blocks any more**, as long as the threads that move mind the flag. -/
theorem Effect.awake {routine : (i : ι) → L i → Instr ι A (L i) G} {Off : G → Prop} {ready : (i : ι) → L i → Bool}
    {s s' : State ι L G} {i : ι} (heffect : Effect routine s i s') (hminds : ∀ l, (routine i l).Minds Off (ready i) l)
    (hs : Awake Off ready s) : Awake Off ready s' := by
  have hready := (hs.awake i).2
  refine ⟨heffect.keeps_off hminds hs.off, heffect.forall_threads
    (P := fun j x => x.isBlocked = false ∧ ready j x.locals = false) ?_ (fun j _ => hs.awake j) ?_⟩
  · intro j hj
    exact ⟨Status.isBlocked_wake _, (congrArg (ready j) (Status.locals_wake _)).trans hj.2⟩
  · cases heffect with
    | reacquire l hat hfree =>
      rw [hat] at hready
      rw [State.goto_self]
      exact ⟨rfl, hready⟩
    | act l f answer hat hinstr =>
      have hinstr' := hminds l
      rw [hinstr] at hinstr'
      rw [hat] at hready
      rw [State.goto_self]
      exact ⟨rfl, (hinstr' answer s.shared hs.off).2 hready⟩
    | wait l k hat hinstr hheld =>
      have hinstr' := hminds l
      rw [hinstr] at hinstr'
      rw [hat] at hready
      exact absurd (hready.symm.trans hinstr'.1) (by simp)
    | lock l k hat hinstr hfree | unlock l k hat hinstr hheld | signal l k j hat hinstr hblocked
    | signalNobody l k hat hinstr hnobody | broadcast l k hat hinstr | join l k j hat hinstr hstopped =>
      have hinstr' := hminds l
      rw [hinstr] at hinstr'
      rw [hat] at hready
      rw [State.goto_self]
      exact ⟨rfl, hinstr' hready⟩

end Monitor
