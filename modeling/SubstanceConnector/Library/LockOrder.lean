import Mathlib.Data.Fintype.Basic
import Mathlib.Logic.Function.Basic
import Mathlib.Logic.Relation
import Mathlib.Order.WellFounded

/-!
# Threads around several mutexes

Any number of threads, each at a local state of a routine that they share, with any number of mutexes and condition variables
between them. A wait on a condition gives up one mutex and blocks in one step; a woken thread takes the mutex again before it
goes on. A thread may also be woken for no reason (`Label.spurious`), as POSIX allows.

If the local states say which mutexes a thread has (`Instr.Follows`), they keep saying it (`owned_next`). If moreover every
thread takes its mutexes in the order of a rank, has no other mutex when it blocks for anything else, and gives each up after
a number of steps that its local state bounds (`Instr.Shrinks`), then threads do not wait for each other's mutexes in a circle:
from wherever the system is, a thread can have the mutex it wants after some steps of the others (`obtained`).
-/

namespace LockOrder

/-- The next step of a thread with local states `L`, answered by the environment in `A`, over the shared state `G`. -/
inductive Instr (A μ κ L G : Type) where
  | act (f : A → G → G × L)
  | lock (m : μ) (k : L)
  | unlock (m : μ) (k : L)
  | wait (c : κ) (m : μ) (k : L)
  | signal (c : κ) (k : L)
  | broadcast (c : κ) (k : L)
  | await (ready : G → Bool) (k : L)
  | stop

/-- The mutex an instruction is about. -/
def Instr.mutex {A μ κ L G : Type} : Instr A μ κ L G → Option μ
  | .lock m _ => some m
  | .unlock m _ => some m
  | .wait _ m _ => some m
  | _ => none

/-- Where a thread is: at a local state, blocked on a condition, or woken and without its mutex yet. -/
inductive Status (μ κ L : Type) where
  | running (l : L)
  | blocked (c : κ) (m : μ) (l : L)
  | woken (m : μ) (l : L)
  deriving DecidableEq

section status
variable {μ κ L : Type}

def Status.waitsOn [DecidableEq κ] (c : κ) : Status μ κ L → Bool
  | .blocked d _ _ => decide (d = c)
  | _ => false

def Status.wake [DecidableEq κ] (c : κ) : Status μ κ L → Status μ κ L
  | .blocked d m l => if d = c then .woken m l else .blocked d m l
  | x => x

/-- The local state a thread is at, or will be at once it has its mutex again. -/
def Status.locals : Status μ κ L → L
  | .running l => l
  | .blocked _ _ l => l
  | .woken _ l => l

@[simp] theorem Status.locals_wake [DecidableEq κ] (c : κ) (x : Status μ κ L) : (x.wake c).locals = x.locals := by
  cases x with
  | running l => rfl
  | woken m l => rfl
  | blocked d m l =>
    by_cases hd : d = c
    · rw [Status.wake, if_pos hd]
      rfl
    · rw [Status.wake, if_neg hd]

end status

structure State (ι μ κ L G : Type) where
  threads : ι → Status μ κ L
  holder : μ → Option ι
  shared : G

/-- A thread makes a step, with what the environment answers and which thread its signal wakes; or one is woken for no
reason. -/
inductive Label (ι A : Type) where
  | step (i : ι) (answer : A) (chosen : Option ι)
  | spurious (i : ι)

section monitors
variable {ι A μ κ L G : Type} [DecidableEq ι] [DecidableEq μ] [DecidableEq κ]

def State.put (s : State ι μ κ L G) (i : ι) (x : Status μ κ L) : State ι μ κ L G :=
  { s with threads := Function.update s.threads i x }

def State.goto (s : State ι μ κ L G) (i : ι) (l : L) : State ι μ κ L G := s.put i (.running l)

def State.hand (s : State ι μ κ L G) (m : μ) (holder : Option ι) : State ι μ κ L G :=
  { s with holder := Function.update s.holder m holder }

variable [Fintype ι]

/-- The threads after a signal for `chosen`; it is for nobody only if nobody waits on the condition. -/
def wakeOne (c : κ) (threads : ι → Status μ κ L) : Option ι → Option (ι → Status μ κ L)
  | some j => if (threads j).waitsOn c then some (Function.update threads j ((threads j).wake c)) else none
  | none => if ∀ j, (threads j).waitsOn c = false then some threads else none

def next (routine : ι → L → Instr A μ κ L G) (s : State ι μ κ L G) : Label ι A → Option (State ι μ κ L G)
  | .spurious i =>
    match s.threads i with
    | .blocked _ m l => some (s.put i (.woken m l))
    | _ => none
  | .step i answer chosen =>
    match s.threads i with
    | .blocked _ _ _ => none
    | .woken m l => if s.holder m = none then some ((s.hand m (some i)).goto i l) else none
    | .running l =>
      match routine i l with
      | .act f => some ({ s with shared := (f answer s.shared).1 }.goto i (f answer s.shared).2)
      | .lock m k => if s.holder m = none then some ((s.hand m (some i)).goto i k) else none
      | .unlock m k => if s.holder m = some i then some ((s.hand m none).goto i k) else none
      | .wait c m k => if s.holder m = some i then some ((s.hand m none).put i (.blocked c m k)) else none
      | .signal c k => (wakeOne c s.threads chosen).map fun threads => { s with threads := threads }.goto i k
      | .broadcast c k => some ({ s with threads := fun j => (s.threads j).wake c }.goto i k)
      | .await ready k => if ready s.shared then some (s.goto i k) else none
      | .stop => none

/-! ## What a step can do -/

/-- Everything one step can come to. -/
inductive Effect (routine : ι → L → Instr A μ κ L G) (s : State ι μ κ L G) : Label ι A → State ι μ κ L G → Prop
  | spurious (i : ι) (c : κ) (m : μ) (l : L) (hat : s.threads i = .blocked c m l) :
      Effect routine s (.spurious i) (s.put i (.woken m l))
  | reacquire (i : ι) (a : A) (chosen : Option ι) (m : μ) (l : L) (hat : s.threads i = .woken m l)
      (hfree : s.holder m = none) : Effect routine s (.step i a chosen) ((s.hand m (some i)).goto i l)
  | act (i : ι) (a : A) (chosen : Option ι) (l : L) (f : A → G → G × L) (hat : s.threads i = .running l)
      (hinstr : routine i l = .act f) :
      Effect routine s (.step i a chosen) ({ s with shared := (f a s.shared).1 }.goto i (f a s.shared).2)
  | lock (i : ι) (a : A) (chosen : Option ι) (m : μ) (l k : L) (hat : s.threads i = .running l)
      (hinstr : routine i l = .lock m k) (hfree : s.holder m = none) :
      Effect routine s (.step i a chosen) ((s.hand m (some i)).goto i k)
  | unlock (i : ι) (a : A) (chosen : Option ι) (m : μ) (l k : L) (hat : s.threads i = .running l)
      (hinstr : routine i l = .unlock m k) (hheld : s.holder m = some i) :
      Effect routine s (.step i a chosen) ((s.hand m none).goto i k)
  | wait (i : ι) (a : A) (chosen : Option ι) (c : κ) (m : μ) (l k : L) (hat : s.threads i = .running l)
      (hinstr : routine i l = .wait c m k) (hheld : s.holder m = some i) :
      Effect routine s (.step i a chosen) ((s.hand m none).put i (.blocked c m k))
  | signal (i : ι) (a : A) (chosen : Option ι) (c : κ) (l k : L) (threads : ι → Status μ κ L)
      (hat : s.threads i = .running l) (hinstr : routine i l = .signal c k)
      (hwoken : ∀ j, threads j = s.threads j ∨ threads j = (s.threads j).wake c) :
      Effect routine s (.step i a chosen) ({ s with threads := threads }.goto i k)
  | broadcast (i : ι) (a : A) (chosen : Option ι) (c : κ) (l k : L) (hat : s.threads i = .running l)
      (hinstr : routine i l = .broadcast c k) :
      Effect routine s (.step i a chosen) ({ s with threads := fun j => (s.threads j).wake c }.goto i k)
  | await (i : ι) (a : A) (chosen : Option ι) (ready : G → Bool) (l k : L) (hat : s.threads i = .running l)
      (hinstr : routine i l = .await ready k) (hready : ready s.shared = true) :
      Effect routine s (.step i a chosen) (s.goto i k)

section steps
variable {routine : ι → L → Instr A μ κ L G} {s s' : State ι μ κ L G}

omit [DecidableEq μ] in
theorem wakeOne_threads {c : κ} {threads threads' : ι → Status μ κ L} {chosen : Option ι}
    (h : wakeOne c threads chosen = some threads') (j : ι) :
    threads' j = threads j ∨ threads' j = (threads j).wake c := by
  cases chosen with
  | none =>
    obtain ⟨-, h⟩ := Option.ite_none_right_eq_some.mp h
    exact .inl (congrFun (Option.some.inj h).symm j)
  | some j' =>
    obtain ⟨-, h⟩ := Option.ite_none_right_eq_some.mp h
    rw [← Option.some.inj h]
    by_cases hj : j = j'
    · subst hj
      exact .inr (Function.update_self j _ threads)
    · exact .inl (Function.update_of_ne hj _ threads)

theorem next_effect {a : Label ι A} (h : next routine s a = some s') : Effect routine s a s' := by
  cases a with
  | spurious i =>
    unfold next at h
    dsimp only at h
    split at h
    case h_2 => cases h
    case h_1 c m l hat =>
      obtain rfl := Option.some.inj h
      exact .spurious i c m l hat
  | step i answer chosen =>
    unfold next at h
    dsimp only at h
    split at h
    case h_1 => cases h
    case h_2 m l hat =>
      obtain ⟨hfree, h⟩ := Option.ite_none_right_eq_some.mp h
      obtain rfl := Option.some.inj h
      exact .reacquire i answer chosen m l hat hfree
    case h_3 l hat =>
      split at h
      case h_1 f hinstr =>
        obtain rfl := Option.some.inj h
        exact .act i answer chosen l f hat hinstr
      case h_2 m k hinstr =>
        obtain ⟨hfree, h⟩ := Option.ite_none_right_eq_some.mp h
        obtain rfl := Option.some.inj h
        exact .lock i answer chosen m l k hat hinstr hfree
      case h_3 m k hinstr =>
        obtain ⟨hheld, h⟩ := Option.ite_none_right_eq_some.mp h
        obtain rfl := Option.some.inj h
        exact .unlock i answer chosen m l k hat hinstr hheld
      case h_4 c m k hinstr =>
        obtain ⟨hheld, h⟩ := Option.ite_none_right_eq_some.mp h
        obtain rfl := Option.some.inj h
        exact .wait i answer chosen c m l k hat hinstr hheld
      case h_5 c k hinstr =>
        obtain ⟨threads, hwake, rfl⟩ := Option.map_eq_some_iff.mp h
        exact .signal i answer chosen c l k threads hat hinstr (wakeOne_threads hwake)
      case h_6 c k hinstr =>
        obtain rfl := Option.some.inj h
        exact .broadcast i answer chosen c l k hat hinstr
      case h_7 ready k hinstr =>
        obtain ⟨hready, h⟩ := Option.ite_none_right_eq_some.mp h
        obtain rfl := Option.some.inj h
        exact .await i answer chosen ready l k hat hinstr hready
      case h_8 => cases h

end steps

/-! At a known instruction a step has one outcome. -/

section known
variable {routine : ι → L → Instr A μ κ L G} {s s' : State ι μ κ L G} {i : ι} {answer : A} {chosen : Option ι} {l : L}

theorem next_blocked {c : κ} {m : μ} (hat : s.threads i = .blocked c m l) :
    next routine s (.step i answer chosen) = none := by
  simp only [next, hat]

theorem next_woken {m : μ} (hat : s.threads i = .woken m l) (h : next routine s (.step i answer chosen) = some s') :
    s.holder m = none ∧ s' = (s.hand m (some i)).goto i l := by
  simp only [next, hat] at h
  obtain ⟨hfree, h⟩ := Option.ite_none_right_eq_some.mp h
  exact ⟨hfree, (Option.some.inj h).symm⟩

/-- A thread that makes a step has been running, or it takes its mutex again. -/
theorem next_own (h : next routine s (.step i answer chosen) = some s') :
    (∃ m l, s.threads i = .woken m l ∧ s'.threads i = .running l ∧ s'.shared = s.shared) ∨ ∃ l, s.threads i = .running l := by
  cases hat : s.threads i with
  | blocked c m l =>
    rw [next_blocked hat] at h
    cases h
  | woken m l =>
    obtain ⟨-, rfl⟩ := next_woken hat h
    exact .inl ⟨m, l, rfl, Function.update_self i _ s.threads, rfl⟩
  | running l => exact .inr ⟨l, rfl⟩

theorem next_act {f : A → G → G × L} (hat : s.threads i = .running l) (hinstr : routine i l = .act f)
    (h : next routine s (.step i answer chosen) = some s') :
    s' = { s with shared := (f answer s.shared).1 }.goto i (f answer s.shared).2 := by
  simp only [next, hat, hinstr] at h
  exact (Option.some.inj h).symm

theorem next_lock {m : μ} {k : L} (hat : s.threads i = .running l) (hinstr : routine i l = .lock m k)
    (h : next routine s (.step i answer chosen) = some s') :
    s.holder m = none ∧ s' = (s.hand m (some i)).goto i k := by
  simp only [next, hat, hinstr] at h
  obtain ⟨hfree, h⟩ := Option.ite_none_right_eq_some.mp h
  exact ⟨hfree, (Option.some.inj h).symm⟩

theorem next_unlock {m : μ} {k : L} (hat : s.threads i = .running l) (hinstr : routine i l = .unlock m k)
    (h : next routine s (.step i answer chosen) = some s') : s' = (s.hand m none).goto i k := by
  simp only [next, hat, hinstr] at h
  obtain ⟨-, h⟩ := Option.ite_none_right_eq_some.mp h
  exact (Option.some.inj h).symm

theorem next_wait {c : κ} {m : μ} {k : L} (hat : s.threads i = .running l) (hinstr : routine i l = .wait c m k)
    (h : next routine s (.step i answer chosen) = some s') : s' = (s.hand m none).put i (.blocked c m k) := by
  simp only [next, hat, hinstr] at h
  obtain ⟨-, h⟩ := Option.ite_none_right_eq_some.mp h
  exact (Option.some.inj h).symm

theorem next_broadcast {c : κ} {k : L} (hat : s.threads i = .running l) (hinstr : routine i l = .broadcast c k)
    (h : next routine s (.step i answer chosen) = some s') :
    s' = { s with threads := fun j => (s.threads j).wake c }.goto i k := by
  simp only [next, hat, hinstr] at h
  exact (Option.some.inj h).symm

theorem next_await {ready : G → Bool} {k : L} (hat : s.threads i = .running l) (hinstr : routine i l = .await ready k)
    (h : next routine s (.step i answer chosen) = some s') : ready s.shared = true ∧ s' = s.goto i k := by
  simp only [next, hat, hinstr] at h
  obtain ⟨hready, h⟩ := Option.ite_none_right_eq_some.mp h
  exact ⟨hready, (Option.some.inj h).symm⟩

end known

/-- All the local states a thread goes on to satisfy `P`. -/
def Instr.Keeps (P : L → Prop) : Instr A μ κ L G → Prop
  | .act f => ∀ a g, P (f a g).2
  | .lock _ k => P k
  | .unlock _ k => P k
  | .wait _ _ k => P k
  | .signal _ k => P k
  | .broadcast _ k => P k
  | .await _ k => P k
  | .stop => True

/-- What each thread's routine keeps true of its local state stays true. -/
theorem locals_next {routine : ι → L → Instr A μ κ L G} {s s' : State ι μ κ L G} {P : ι → L → Prop} {a : Label ι A}
    (hkeeps : ∀ i l, P i l → (routine i l).Keeps (P i)) (hs : ∀ i, P i (s.threads i).locals)
    (h : next routine s a = some s') (j : ι) : P j (s'.threads j).locals := by
  -- the threads other than the one that moves keep their local states, also those it wakes
  have hput : ∀ {i : ι} {threads : ι → Status μ κ L} {x : Status μ κ L}, (∀ j, (threads j).locals = (s.threads j).locals) →
      P i x.locals → P j (Function.update threads i x j).locals := by
    intro i threads x hsame hx
    by_cases hj : j = i
    · subst hj
      rwa [Function.update_self]
    · rw [Function.update_of_ne hj, hsame]
      exact hs j
  have hat' : ∀ {i : ι} {l : L}, s.threads i = .running l → (routine i l).Keeps (P i) := by
    intro i l hat
    have hi := hs i
    rw [hat] at hi
    exact hkeeps i l hi
  cases next_effect h with
  | spurious i c m l hat | reacquire i _ _ m l hat hfree =>
    have hi := hs i
    rw [hat] at hi
    exact hput (fun _ => rfl) hi
  | act i answer chosen l f hat hinstr =>
    have hi := hat' hat
    rw [hinstr] at hi
    exact hput (fun _ => rfl) (hi answer s.shared)
  | lock i _ _ m l k hat hinstr
  | unlock i _ _ m l k hat hinstr
  | wait i _ _ c m l k hat hinstr
  | await i _ _ ready l k hat hinstr =>
    have hi := hat' hat
    rw [hinstr] at hi
    exact hput (fun _ => rfl) hi
  | signal i answer chosen c l k threads hat hinstr hwoken =>
    have hi := hat' hat
    rw [hinstr] at hi
    have hlocals : ∀ j, (threads j).locals = (s.threads j).locals := by
      intro j
      obtain hj | hj := hwoken j
      · rw [hj]
      · rw [hj, Status.locals_wake]
    exact hput hlocals hi
  | broadcast i answer chosen c l k hat hinstr =>
    have hi := hat' hat
    rw [hinstr] at hi
    exact hput (fun j => Status.locals_wake c _) hi

/-- What holds of the local state of a thread together with the shared state goes on to hold when this thread makes a step. -/
def Instr.KeepsWith (Q : L → G → Prop) (l : L) : Instr A μ κ L G → Prop
  | .act f => ∀ a g, Q l g → Q (f a g).2 (f a g).1
  | .lock _ k => ∀ g, Q l g → Q k g
  | .unlock _ k => ∀ g, Q l g → Q k g
  | .wait _ _ k => ∀ g, Q l g → Q k g
  | .signal _ k => ∀ g, Q l g → Q k g
  | .broadcast _ k => ∀ g, Q l g → Q k g
  | .await ready k => ∀ g, ready g = true → Q l g → Q k g
  | .stop => True

omit [DecidableEq μ] [DecidableEq κ] in
/-- Where `Q` does not hold, there is nothing to keep. -/
theorem Instr.KeepsWith.of_not {Q : L → G → Prop} {l : L} (hnot : ∀ g, ¬ Q l g) (instr : Instr A μ κ L G) :
    instr.KeepsWith Q l := by
  cases instr with
  | act f => exact fun _ g h => absurd h (hnot g)
  | await ready k => exact fun g _ h => absurd h (hnot g)
  | stop => trivial
  | _ => exact fun g h => absurd h (hnot g)

/-- A step keeps what the routine of its thread keeps. -/
theorem step_keepsWith {routine : ι → L → Instr A μ κ L G} {s s' : State ι μ κ L G} {Q : L → G → Prop} {i : ι} {answer : A}
    {chosen : Option ι} {l : L} (hat : s.threads i = .running l) (h : next routine s (.step i answer chosen) = some s')
    (hkeeps : (routine i l).KeepsWith Q l) (hs : Q l s.shared) : Q (s'.threads i).locals s'.shared := by
  have hself {threads : ι → Status μ κ L} {x : Status μ κ L} {g : G} (hx : Q x.locals g) :
      Q (Function.update threads i x i).locals g := by
    rwa [Function.update_self]
  cases next_effect h with
  | reacquire _ _ _ m l' hat' => cases hat.symm.trans hat'
  | act _ _ _ l' f hat' hinstr =>
    cases hat.symm.trans hat'
    rw [hinstr] at hkeeps
    exact hself (hkeeps answer s.shared hs)
  | lock _ _ _ m l' k hat' hinstr
  | unlock _ _ _ m l' k hat' hinstr
  | wait _ _ _ c m l' k hat' hinstr
  | signal _ _ _ c l' k threads hat' hinstr
  | broadcast _ _ _ c l' k hat' hinstr =>
    cases hat.symm.trans hat'
    rw [hinstr] at hkeeps
    exact hself (hkeeps s.shared hs)
  | await _ _ _ ready l' k hat' hinstr hready =>
    cases hat.symm.trans hat'
    rw [hinstr] at hkeeps
    exact hself (hkeeps s.shared hready hs)

theorem Instr.Keeps.step {routine : ι → L → Instr A μ κ L G} {s s' : State ι μ κ L G} {P : L → Prop} {i : ι} {answer : A}
    {chosen : Option ι} {l : L} (hkeeps : (routine i l).Keeps P) (hat : s.threads i = .running l)
    (h : next routine s (.step i answer chosen) = some s') : P (s'.threads i).locals := by
  have hself {threads : ι → Status μ κ L} {x : Status μ κ L} (hx : P x.locals) : P (Function.update threads i x i).locals := by
    rwa [Function.update_self]
  cases next_effect h with
  | reacquire _ _ _ m l' hat' => cases hat.symm.trans hat'
  | act _ _ _ l' f hat' hinstr =>
    cases hat.symm.trans hat'
    rw [hinstr] at hkeeps
    exact hself (hkeeps answer s.shared)
  | lock _ _ _ m l' k hat' hinstr
  | unlock _ _ _ m l' k hat' hinstr
  | wait _ _ _ c m l' k hat' hinstr
  | signal _ _ _ c l' k threads hat' hinstr
  | broadcast _ _ _ c l' k hat' hinstr
  | await _ _ _ ready l' k hat' hinstr =>
    cases hat.symm.trans hat'
    rw [hinstr] at hkeeps
    exact hself hkeeps

/-- A step leaves the local states of the other threads. -/
theorem next_locals {routine : ι → L → Instr A μ κ L G} {s s' : State ι μ κ L G} {i j : ι} {answer : A} {chosen : Option ι}
    (h : next routine s (.step j answer chosen) = some s') (hne : i ≠ j) :
    (s'.threads i).locals = (s.threads i).locals := by
  cases next_effect h with
  | signal _ _ _ c l k threads hat hinstr hwoken =>
    refine (congrArg Status.locals (Function.update_of_ne hne _ _)).trans ?_
    obtain hi | hi := hwoken i
    · exact congrArg Status.locals hi
    · exact (congrArg Status.locals hi).trans (Status.locals_wake c _)
  | broadcast _ _ _ c l k hat hinstr =>
    exact (congrArg Status.locals (Function.update_of_ne hne _ _)).trans (Status.locals_wake c _)
  | reacquire | act | lock | unlock | wait | await => exact congrArg Status.locals (Function.update_of_ne hne _ _)

theorem spurious_locals {routine : ι → L → Instr A μ κ L G} {s s' : State ι μ κ L G} {j : ι}
    (h : next routine s (.spurious j) = some s') (i : ι) : (s'.threads i).locals = (s.threads i).locals := by
  cases next_effect h with
  | spurious _ c m l hat =>
    by_cases hi : i = j
    · subst hi
      have hself : (s.put i (.woken m l)).threads i = .woken m l := Function.update_self ..
      rw [hself, hat]
      rfl
    · exact congrArg Status.locals (Function.update_of_ne hi _ _)

/-- What a step that may change the shared state does to it, and where the thread goes. -/
def Instr.Acts (R : G → G × L → Prop) : Instr A μ κ L G → Prop
  | .act f => ∀ a g, R g (f a g)
  | _ => True

omit [DecidableEq μ] [DecidableEq κ] in
theorem Instr.Acts.mono {R R' : G → G × L → Prop} {x : Instr A μ κ L G} (h : x.Acts R) (hless : ∀ g r, R g r → R' g r) :
    x.Acts R' := by
  cases x with
  | act f => exact fun a g => hless g _ (h a g)
  | _ => trivial

omit [DecidableEq μ] [DecidableEq κ] in
/-- What is known of the local state after a step and of the shared state tells what the step keeps of both. -/
theorem Instr.Acts.keepsWith {Q : L → G → Prop} {P : L → Prop} {R : G → G → Prop} {l : L} {x : Instr A μ κ L G}
    (hacts : x.Acts fun g r => R g r.1) (hkeeps : x.Keeps P) (hrefl : ∀ g, R g g)
    (hQ : ∀ g g' k, P k → R g g' → Q l g → Q k g') : x.KeepsWith Q l := by
  cases x with
  | act f => exact fun a g => hQ g _ _ (hkeeps a g) (hacts a g)
  | await ready k => exact fun g _ => hQ g g k hkeeps (hrefl g)
  | stop => trivial
  | _ => exact fun g => hQ g g _ hkeeps (hrefl g)

/-- A step changes the shared state only as the routine of its thread does. -/
theorem Instr.Acts.step {routine : ι → L → Instr A μ κ L G} {s s' : State ι μ κ L G} {R : G → G → Prop} {i : ι} {answer : A}
    {chosen : Option ι} (hacts : ∀ l, s.threads i = .running l → (routine i l).Acts fun g r => R g r.1) (hrefl : ∀ g, R g g)
    (h : next routine s (.step i answer chosen) = some s') : R s.shared s'.shared := by
  cases next_effect h with
  | act _ _ _ l f hat hinstr =>
    have hl := hacts l hat
    rw [hinstr] at hl
    exact hl answer s.shared
  | reacquire | lock | unlock | wait | signal | broadcast | await => exact hrefl _

/-- What one thread keeps true of its local state and the shared one, and the others leave true, stays true. -/
theorem thread_next {routine : ι → L → Instr A μ κ L G} {s s' : State ι μ κ L G} {P : ι → L → Prop} {Q : L → G → Prop} {i : ι}
    {a : Label ι A} (hself : ∀ l, P i l → (routine i l).KeepsWith Q l)
    (hothers : ∀ j l l₀, j ≠ i → P j l → (routine j l).Acts fun g r => Q l₀ g → Q l₀ r.1) (hP : ∀ j, P j (s.threads j).locals)
    (h : next routine s a = some s') (hs : Q (s.threads i).locals s.shared) : Q (s'.threads i).locals s'.shared := by
  -- a step of `j` with shared state `g` after it
  have hput : ∀ {j : ι} {threads : ι → Status μ κ L} {x : Status μ κ L} {g : G},
      (∀ j, (threads j).locals = (s.threads j).locals) → (j ≠ i → Q (s.threads i).locals g) → (j = i → Q x.locals g) →
      Q (Function.update threads j x i).locals g := by
    intro j threads x g hsame hother hmine
    by_cases hj : i = j
    · subst hj
      rw [Function.update_self]
      exact hmine rfl
    · rw [Function.update_of_ne hj, hsame]
      exact hother (Ne.symm hj)
  have hinstr' : ∀ {j : ι} {l : L}, s.threads j = .running l → j = i → P i l ∧ Q l s.shared := by
    intro j l hat hj
    subst hj
    have hp := hP j
    rw [hat] at hp hs
    exact ⟨hp, hs⟩
  cases next_effect h with
  | spurious j c m l hat | reacquire j _ _ m l hat hfree =>
    refine hput (fun _ => rfl) (fun _ => hs) fun hj => ?_
    subst hj
    rwa [hat] at hs
  | act j answer chosen l f hat hinstr =>
    refine hput (fun _ => rfl) (fun hj => ?_) fun hj => ?_
    · have hp := hP j
      rw [hat] at hp
      have hacts := hothers j l (s.threads i).locals hj hp
      rw [hinstr] at hacts
      exact hacts answer s.shared hs
    · obtain ⟨hp, hq⟩ := hinstr' hat hj
      have hkeeps := hself l hp
      rw [← hj, hinstr] at hkeeps
      exact hkeeps answer s.shared hq
  | lock j _ _ m l k hat hinstr
  | unlock j _ _ m l k hat hinstr
  | wait j _ _ c m l k hat hinstr =>
    refine hput (fun _ => rfl) (fun _ => hs) fun hj => ?_
    obtain ⟨hp, hq⟩ := hinstr' hat hj
    have hkeeps := hself l hp
    rw [← hj, hinstr] at hkeeps
    exact hkeeps s.shared hq
  | await j _ _ ready l k hat hinstr hready =>
    refine hput (fun _ => rfl) (fun _ => hs) fun hj => ?_
    obtain ⟨hp, hq⟩ := hinstr' hat hj
    have hkeeps := hself l hp
    rw [← hj, hinstr] at hkeeps
    exact hkeeps s.shared hready hq
  | signal j answer chosen c l k threads hat hinstr hwoken =>
    have hlocals : ∀ j, (threads j).locals = (s.threads j).locals := by
      intro j
      obtain hj | hj := hwoken j
      · rw [hj]
      · rw [hj, Status.locals_wake]
    refine hput hlocals (fun _ => hs) fun hj => ?_
    obtain ⟨hp, hq⟩ := hinstr' hat hj
    have hkeeps := hself l hp
    rw [← hj, hinstr] at hkeeps
    exact hkeeps s.shared hq
  | broadcast j answer chosen c l k hat hinstr =>
    refine hput (fun j => Status.locals_wake c _) (fun _ => hs) fun hj => ?_
    obtain ⟨hp, hq⟩ := hinstr' hat hj
    have hkeeps := hself l hp
    rw [← hj, hinstr] at hkeeps
    exact hkeeps s.shared hq

/-! ## Which mutexes a thread has -/

/-- A routine whose local states list the mutexes that the thread has, the one taken last in front: it takes them in the order
of their ranks, and has only the mutex of a condition when it waits, and none when it waits for anything else or stops. -/
def Instr.Follows (held : L → List μ) (rank : μ → Nat) (l : L) : Instr A μ κ L G → Prop
  | .act f => ∀ a g, held (f a g).2 = held l
  | .lock m k => held k = m :: held l ∧ ∀ m' ∈ held l, rank m' < rank m
  | .unlock m k => held l = m :: held k ∧ m ∉ held k
  | .wait _ m k => held l = [m] ∧ held k = [m]
  | .signal _ k => held k = held l
  | .broadcast _ k => held k = held l
  | .await _ k => held l = [] ∧ held k = []
  | .stop => held l = []

/-- What the lists say about the mutexes that a thread has. -/
def Status.Owns (held : L → List μ) (has : μ → Prop) : Status μ κ L → Prop
  | .running l => ∀ m, m ∈ held l ↔ has m
  | .blocked _ m l => held l = [m] ∧ ∀ m', ¬ has m'
  | .woken m l => held l = [m] ∧ ∀ m', ¬ has m'

def Owned (held : L → List μ) (s : State ι μ κ L G) : Prop :=
  ∀ i, (s.threads i).Owns held fun m => s.holder m = some i

section steps
variable {routine : ι → L → Instr A μ κ L G} {held : L → List μ} {rank : μ → Nat} {s s' : State ι μ κ L G}

omit [DecidableEq ι] [DecidableEq μ] [Fintype ι] in
theorem Status.Owns.wake {has : μ → Prop} {x : Status μ κ L} (h : x.Owns held has) (c : κ) : (x.wake c).Owns held has := by
  cases x with
  | running l => exact h
  | woken m l => exact h
  | blocked d m l =>
    by_cases hd : d = c
    · rw [Status.wake, if_pos hd]
      exact h
    · rw [Status.wake, if_neg hd]
      exact h

omit [DecidableEq ι] [DecidableEq μ] [Fintype ι] [DecidableEq κ] in
theorem Status.Owns.congr {has has' : μ → Prop} {x : Status μ κ L} (h : x.Owns held has) (hsame : ∀ m, has' m ↔ has m) :
    x.Owns held has' := by
  rwa [show has' = has from funext fun m => propext (hsame m)]

omit [DecidableEq μ] [Fintype ι] [DecidableEq κ] in
/-- One thread changes, and the mutexes change hands between nobody and this thread. -/
theorem Owned.put {threads : ι → Status μ κ L} {holder : μ → Option ι} {shared : G} {i : ι}
    {x : Status μ κ L} (hthreads : ∀ j, (threads j).Owns held fun m => s.holder m = some j)
    (hothers : ∀ m j, j ≠ i → (holder m = some j ↔ s.holder m = some j)) (hx : x.Owns held fun m => holder m = some i) :
    Owned held (⟨Function.update threads i x, holder, shared⟩ : State ι μ κ L G) := by
  intro j
  by_cases hj : j = i
  · subst hj
    dsimp only
    rw [Function.update_self]
    exact hx
  · dsimp only
    rw [Function.update_of_ne hj]
    exact (hthreads j).congr fun m => hothers m j hj

omit [DecidableEq ι] [Fintype ι] [DecidableEq κ] in
theorem hand_others {holder : μ → Option ι} {m : μ} {i : ι} {new : Option ι} (hold : ∀ j, holder m = some j → j = i)
    (hnew : ∀ j, new = some j → j = i) (m' : μ) (j : ι) (hj : j ≠ i) :
    Function.update holder m new m' = some j ↔ holder m' = some j := by
  by_cases hm : m' = m
  · subst hm
    rw [Function.update_self]
    exact iff_of_false (fun h => hj (hnew j h)) (fun h => hj (hold j h))
  · rw [Function.update_of_ne hm]

omit [DecidableEq ι] [Fintype ι] [DecidableEq κ] in
/-- A thread that takes a mutex has it beside those it had. -/
theorem hand_some {holder : μ → Option ι} {m : μ} {i : ι} (hfree : holder m = none) (m' : μ) :
    Function.update holder m (some i) m' = some i ↔ m' = m ∨ holder m' = some i := by
  by_cases hm : m' = m
  · subst hm
    simp
  · simp [hm]

theorem owned_next {a : Label ι A} (hfollows : ∀ i l, (routine i l).Follows held rank l) (hs : Owned held s)
    (h : next routine s a = some s') : Owned held s' := by
  cases next_effect h with
  | spurious i c m l hat =>
    have hi := hs i
    rw [hat] at hi
    exact Owned.put hs (fun _ _ _ => Iff.rfl) hi
  | reacquire i answer chosen m l hat hfree =>
    have hi := hs i
    rw [hat] at hi
    refine Owned.put hs (hand_others (fun j hj => by rw [hfree] at hj; cases hj) (fun j hj => (Option.some.inj hj).symm)) ?_
    intro m'
    show m' ∈ held l ↔ Function.update s.holder m (some i) m' = some i
    rw [hand_some hfree, hi.1, List.mem_singleton]
    exact ⟨.inl, fun h => h.resolve_right (hi.2 m')⟩
  | act i answer chosen l f hat hinstr =>
    have hi := hs i
    have hl := hfollows i l
    rw [hat] at hi
    rw [hinstr] at hl
    refine Owned.put hs (fun _ _ _ => Iff.rfl) fun m => ?_
    rw [hl answer s.shared]
    exact hi m
  | lock i answer chosen m l k hat hinstr hfree =>
    have hi := hs i
    have hl := hfollows i l
    rw [hat] at hi
    rw [hinstr] at hl
    refine Owned.put hs (hand_others (fun j hj => by rw [hfree] at hj; cases hj) (fun j hj => (Option.some.inj hj).symm)) ?_
    intro m'
    show m' ∈ held k ↔ Function.update s.holder m (some i) m' = some i
    rw [hand_some hfree, hl.1, List.mem_cons, hi m']
  | unlock i answer chosen m l k hat hinstr hheld =>
    have hi := hs i
    have hl := hfollows i l
    rw [hat] at hi
    rw [hinstr] at hl
    refine Owned.put hs (hand_others (fun j hj => (Option.some.inj (hheld.symm.trans hj)).symm) nofun) ?_
    intro m'
    have hm := hi m'
    rw [hl.1, List.mem_cons] at hm
    by_cases hsame : m' = m
    · subst hsame
      simp [hl.2, State.hand]
    · rw [or_iff_right hsame] at hm
      simp [State.hand, hsame, hm]
  | wait i answer chosen c m l k hat hinstr hheld =>
    have hi := hs i
    have hl := hfollows i l
    rw [hat] at hi
    rw [hinstr] at hl
    refine Owned.put hs (hand_others (fun j hj => (Option.some.inj (hheld.symm.trans hj)).symm) nofun) ⟨hl.2, ?_⟩
    intro m'
    have hm := hi m'
    rw [hl.1, List.mem_singleton] at hm
    by_cases hsame : m' = m
    · subst hsame
      simp [State.hand]
    · simp [State.hand, hsame, ← hm]
  | signal i answer chosen c l k threads hat hinstr hwoken =>
    have hi := hs i
    have hl := hfollows i l
    rw [hat] at hi
    rw [hinstr] at hl
    have hthreads : ∀ j, (threads j).Owns held fun m => s.holder m = some j := by
      intro j
      obtain hj | hj := hwoken j
      · rw [hj]
        exact hs j
      · rw [hj]
        exact (hs j).wake c
    refine Owned.put hthreads (fun _ _ _ => Iff.rfl) fun m => ?_
    rw [hl]
    exact hi m
  | broadcast i answer chosen c l k hat hinstr =>
    have hi := hs i
    have hl := hfollows i l
    rw [hat] at hi
    rw [hinstr] at hl
    refine Owned.put (fun j => (hs j).wake c) (fun _ _ _ => Iff.rfl) fun m => ?_
    rw [hl]
    exact hi m
  | await i answer chosen ready l k hat hinstr hready =>
    have hi := hs i
    have hl := hfollows i l
    rw [hat] at hi
    rw [hinstr] at hl
    refine Owned.put hs (fun _ _ _ => Iff.rfl) fun m => ?_
    rw [hl.2, ← hl.1]
    exact hi m

omit [Fintype ι] [DecidableEq ι] [DecidableEq μ] [DecidableEq κ] in
/-- Nobody has a mutex yet. -/
theorem owned_start (hstart : ∀ i, ∃ l, s.threads i = .running l ∧ held l = []) (hfree : ∀ m, s.holder m = none) :
    Owned held s := by
  intro i
  obtain ⟨l, hat, hnone⟩ := hstart i
  rw [hat]
  intro m
  show m ∈ held l ↔ s.holder m = some i
  rw [hnone, hfree m]
  exact iff_of_false List.not_mem_nil nofun

/-! ## Threads that want a mutex -/

/-- The thread is at the lock of the mutex, or has been woken and needs it to go on. -/
def Wants (routine : ι → L → Instr A μ κ L G) (s : State ι μ κ L G) (i : ι) (m : μ) : Prop :=
  (∃ k, s.threads i = .woken m k) ∨ ∃ l k, s.threads i = .running l ∧ routine i l = .lock m k

/-- `work` gets less with every step, whatever the environment answers. -/
def Instr.Shrinks {W : Type} [Preorder W] (work : L → W) (l : L) : Instr A μ κ L G → Prop
  | .act f => ∀ a g, work (f a g).2 < work l
  | .lock _ k => work k < work l
  | .unlock _ k => work k < work l
  | .signal _ k => work k < work l
  | .broadcast _ k => work k < work l
  | _ => True

/-- Steps of threads outside `idle` that have a mutex. -/
def Without (routine : ι → L → Instr A μ κ L G) (idle : ι → Prop) : State ι μ κ L G → State ι μ κ L G → Prop :=
  Relation.ReflTransGen fun s s' => ∃ j answer chosen, ¬ idle j ∧ (∃ m, s.holder m = some j) ∧
    next routine s (.step j answer chosen) = some s'

omit [Fintype ι] [DecidableEq ι] [DecidableEq μ] [DecidableEq κ] in
/-- A thread that has a mutex is running, and has it among those of its local state. -/
theorem Owned.running (hs : Owned held s) {i : ι} {m : μ} (hheld : s.holder m = some i) :
    ∃ l, s.threads i = .running l ∧ m ∈ held l := by
  have hi := hs i
  cases hat : s.threads i with
  | running l =>
    rw [hat] at hi
    exact ⟨l, rfl, (hi m).mpr hheld⟩
  | blocked c m' l =>
    rw [hat] at hi
    exact absurd hheld (hi.2 m)
  | woken m' l =>
    rw [hat] at hi
    exact absurd hheld (hi.2 m)

omit [DecidableEq μ] in
/-- A signal always finds a thread that waits, or that nobody does. -/
theorem wakeOne_exists (c : κ) (threads : ι → Status μ κ L) : ∃ chosen threads', wakeOne c threads chosen = some threads' := by
  by_cases hnone : ∀ j, (threads j).waitsOn c = false
  · exact ⟨none, threads, if_pos hnone⟩
  · push Not at hnone
    obtain ⟨j, hj⟩ := hnone
    exact ⟨some j, _, if_pos (by simpa using hj)⟩

/-- The thread is not blocked. -/
abbrev Awake (s : State ι μ κ L G) (i : ι) : Prop := ∀ c m l, s.threads i ≠ .blocked c m l

/-- A step of another thread leaves a thread where it is, unless it wakes it. -/
theorem next_threads {i j : ι} {answer : A} {chosen : Option ι} (h : next routine s (.step j answer chosen) = some s')
    (hne : i ≠ j) (hawake : Awake s i) : s'.threads i = s.threads i := by
  have hwake (c : κ) : (s.threads i).wake c = s.threads i := by
    cases hat : s.threads i with
    | running l => rfl
    | woken m l => rfl
    | blocked c' m l => exact absurd hat (hawake c' m l)
  cases next_effect h with
  | signal _ _ _ c l k threads hat hinstr hwoken =>
    refine (Function.update_of_ne hne _ _).trans ?_
    obtain hi | hi := hwoken i
    · exact hi
    · exact hi.trans (hwake c)
  | broadcast _ _ _ c l k hat hinstr => exact (Function.update_of_ne hne _ _).trans (hwake c)
  | reacquire | act | lock | unlock | wait | await => exact Function.update_of_ne hne _ _

/-- A thread does not sleep after a step that is no wait. -/
theorem next_awake {i : ι} {answer : A} {chosen : Option ι}
    (hwait : ∀ l, s.threads i = .running l → ∀ c m k, routine i l ≠ .wait c m k)
    (h : next routine s (.step i answer chosen) = some s') : Awake s' i := by
  intro c m l hblocked
  have hself {threads : ι → Status μ κ L} {x : Status μ κ L} : Function.update threads i x i = x :=
    Function.update_self i _ threads
  cases next_effect h with
  | wait _ _ _ c' m' l' k hat hinstr => exact hwait l' hat c' m' k hinstr
  | reacquire | act | lock | unlock | signal | broadcast | await => cases hself.symm.trans hblocked

/-- The instruction wakes nobody on the condition. -/
def Instr.Silent (c : κ) : Instr A μ κ L G → Prop
  | .signal d _ => d ≠ c
  | .broadcast d _ => d ≠ c
  | _ => True

/-- A thread sleeps on while its condition is not signalled. -/
theorem next_asleep {i : ι} {c : κ} {m : μ} {l : L} (hat : s.threads i = .blocked c m l) {a : Label ι A}
    (ha : a ≠ .spurious i) (hsilent : ∀ j l, s.threads j = .running l → (routine j l).Silent c)
    (h : next routine s a = some s') : s'.threads i = s.threads i := by
  have hwake {d : κ} (hd : d ≠ c) : (s.threads i).wake d = s.threads i := by
    rw [hat, Status.wake, if_neg (Ne.symm hd)]
  have hne {j : ι} {l' : L} (hj : s.threads j = .running l') : i ≠ j := by
    rintro rfl
    cases hat.symm.trans hj
  cases next_effect h with
  | spurious j =>
    have hj : i ≠ j := fun heq => ha (heq ▸ rfl)
    exact Function.update_of_ne hj _ _
  | reacquire j _ _ m' l' hj =>
    have hj : i ≠ j := by
      rintro rfl
      cases hat.symm.trans hj
    exact Function.update_of_ne hj _ _
  | signal j _ _ d l' k threads hj hinstr hwoken =>
    have hd := hsilent j l' hj
    rw [hinstr] at hd
    refine (Function.update_of_ne (hne hj) _ _).trans ?_
    obtain hi | hi := hwoken i
    · exact hi
    · exact hi.trans (hwake hd)
  | broadcast j _ _ d l' k hj hinstr =>
    have hd := hsilent j l' hj
    rw [hinstr] at hd
    exact (Function.update_of_ne (hne hj) _ _).trans (hwake hd)
  | act j _ _ l' f hj | lock j _ _ m' l' k hj | unlock j _ _ m' l' k hj | wait j _ _ c' m' l' k hj
  | await j _ _ ready l' k hj => exact Function.update_of_ne (hne hj) _ _

omit [DecidableEq ι] [Fintype ι] [DecidableEq μ] [DecidableEq κ] in
theorem Wants.awake {i : ι} {m : μ} (h : Wants routine s i m) : Awake s i := by
  intro c m' l
  obtain ⟨k, hat⟩ | ⟨l', k, hat, -⟩ := h
  · rw [hat]
    exact nofun
  · rw [hat]
    exact nofun

omit [DecidableEq ι] [Fintype ι] [DecidableEq μ] [DecidableEq κ] in
theorem Wants.congr {i : ι} {m : μ} (h : Wants routine s i m) (hsame : s'.threads i = s.threads i) : Wants routine s' i m := by
  unfold Wants
  rw [hsame]
  exact h

omit [DecidableEq ι] [Fintype ι] [DecidableEq μ] [DecidableEq κ] in
/-- A thread wants one mutex at a time. -/
theorem Wants.unique {i : ι} {m m' : μ} (h : Wants routine s i m) (h' : Wants routine s i m') : m = m' := by
  obtain ⟨k, hat⟩ | ⟨l, k, hat, hinstr⟩ := h
  · obtain ⟨k', hat'⟩ | ⟨l', k', hat', -⟩ := h'
    · cases hat.symm.trans hat'
      rfl
    · cases hat.symm.trans hat'
  · obtain ⟨k', hat'⟩ | ⟨l', k', hat', hinstr'⟩ := h'
    · cases hat.symm.trans hat'
    · cases hat.symm.trans hat'
      cases hinstr.symm.trans hinstr'
      rfl

omit [Fintype ι] [DecidableEq ι] [DecidableEq μ] [DecidableEq κ] in
/-- The mutex a thread wants has a higher rank than all it has. -/
theorem Wants.rank_lt (hfollows : ∀ i l, (routine i l).Follows held rank l) (hs : Owned held s) {i : ι} {m m' : μ}
    (h : Wants routine s i m) (hheld : s.holder m' = some i) : rank m' < rank m := by
  obtain ⟨l, hat, hm'⟩ := hs.running hheld
  obtain ⟨k, hat'⟩ | ⟨l', k, hat', hinstr⟩ := h
  · rw [hat'] at hat
    cases hat
  · rw [hat'] at hat
    cases hat
    have hl := hfollows i l
    rw [hinstr] at hl
    exact hl.2 m' hm'

theorem Without.mono {idle idle' : ι → Prop} (h : Without routine idle s s') (hless : ∀ i, idle' i → idle i) :
    Without routine idle' s s' := by
  induction h with
  | refl => exact .refl
  | tail _ hstep ih =>
    obtain ⟨j, answer, chosen, hj, hheld, hstep⟩ := hstep
    exact ih.tail ⟨j, answer, chosen, fun h => hj (hless j h), hheld, hstep⟩

theorem Without.owned {idle : ι → Prop} (hfollows : ∀ i l, (routine i l).Follows held rank l)
    (h : Without routine idle s s') (hs : Owned held s) : Owned held s' := by
  induction h with
  | refl => exact hs
  | tail _ hstep ih =>
    obtain ⟨j, answer, chosen, -, -, hstep⟩ := hstep
    exact owned_next hfollows ih hstep

/-- A thread that is not blocked stays where it is while others make steps. -/
theorem Without.threads {idle : ι → Prop} {i : ι} (h : Without routine idle s s') (hi : idle i)
    (hawake : Awake s i) : s'.threads i = s.threads i := by
  induction h with
  | refl => rfl
  | tail _ hstep ih =>
    obtain ⟨j, answer, chosen, hj, -, hstep⟩ := hstep
    have hne : i ≠ j := fun heq => hj (heq ▸ hi)
    have hawake' : Awake _ i := fun c m l => ih ▸ hawake c m l
    rw [next_threads hstep hne hawake', ih]

/-- The mutexes that were taken before `m`. -/
def below (m : μ) : List μ → List μ
  | [] => []
  | m' :: ms => if m' = m then ms else below m ms

omit [DecidableEq ι] [Fintype ι] [DecidableEq κ] in
theorem mem_of_mem_below {m m' : μ} {ms : List μ} (h : m' ∈ below m ms) : m' ∈ ms := by
  induction ms with
  | nil => exact h
  | cons m'' ms ih =>
    rw [below] at h
    split at h
    · exact List.mem_cons_of_mem _ h
    · exact List.mem_cons_of_mem _ (ih h)

/-- A step changes what its own thread has, and nothing else. -/
theorem holder_others {i j : ι} {answer : A} {chosen : Option ι} (h : next routine s (.step i answer chosen) = some s')
    (hj : j ≠ i) (m : μ) : s'.holder m = some j ↔ s.holder m = some j := by
  have htake {m' : μ} (hfree : s.holder m' = none) :
      Function.update s.holder m' (some i) m = some j ↔ s.holder m = some j :=
    hand_others (fun j' hj' => by rw [hfree] at hj'; cases hj') (fun j' hj' => (Option.some.inj hj').symm) m j hj
  have hgive {m' : μ} (hheld : s.holder m' = some i) :
      Function.update s.holder m' none m = some j ↔ s.holder m = some j :=
    hand_others (fun j' hj' => (Option.some.inj (hheld.symm.trans hj')).symm) (fun _ h => by cases h) m j hj
  cases next_effect h with
  | reacquire _ _ _ m' l hat hfree => exact htake hfree
  | lock _ _ _ m' l k hat hinstr hfree => exact htake hfree
  | unlock _ _ _ m' l k hat hinstr hheld => exact hgive hheld
  | wait _ _ _ c m' l k hat hinstr hheld => exact hgive hheld
  | act | signal | broadcast | await => exact Iff.rfl

/-- What a thread does that has a mutex `m`: it wants another one that is taken, or it makes a step, which gives up `m` and
what it took after it, or leaves less to do before that. -/
theorem holder_step [Nonempty A] {W : Type} [Preorder W] [WellFoundedLT W] {work : L → W}
    (hfollows : ∀ i l, (routine i l).Follows held rank l)
    (hshrinks : ∀ i l, held l ≠ [] → (routine i l).Shrinks work l) (hs : Owned held s) {i : ι} {m : μ} {l : L}
    (hheld : s.holder m = some i) (hat : s.threads i = .running l) (hm : m ∈ held l) :
    (∃ m' j, Wants routine s i m' ∧ s.holder m' = some j) ∨
      ∃ answer chosen s', next routine s (.step i answer chosen) = some s' ∧
        (s'.holder m = none ∧ (∀ m', s'.holder m' = some i → m' ∈ below m (held l)) ∨
          ∃ l', s'.threads i = .running l' ∧ s'.holder m = some i ∧ below m (held l') = below m (held l) ∧
            work l' < work l) := by
  obtain ⟨answer⟩ := ‹Nonempty A›
  have hl := hfollows i l
  have hwork := hshrinks i l (List.ne_nil_of_mem hm)
  have hi := hs i
  rw [hat] at hi
  have hself (threads : ι → Status μ κ L) (k : L) : Function.update threads i (.running k) i = .running k :=
    Function.update_self i _ threads
  -- what the thread has after a step from which it goes on at `k`
  have hafter {chosen : Option ι} {s' : State ι μ κ L G} {k : L} (hstep : next routine s (.step i answer chosen) = some s')
      (hk : s'.threads i = .running k) (m' : μ) (hm' : s'.holder m' = some i) : m' ∈ held k := by
    have hi' := owned_next hfollows hs hstep i
    rw [hk] at hi'
    exact (hi' m').mpr hm'
  cases hinstr : routine i l with
  | act f =>
    rw [hinstr] at hl hwork
    refine .inr ⟨answer, none, _, by simp only [next, hat, hinstr]; rfl, ?_⟩
    exact .inr ⟨_, hself _ _, hheld, by rw [hl answer s.shared], hwork answer s.shared⟩
  | lock m' k =>
    rw [hinstr] at hl hwork
    cases hfree : s.holder m' with
    | some j => exact .inl ⟨m', j, .inr ⟨l, k, hat, hinstr⟩, hfree⟩
    | none =>
      have hne : m ≠ m' := fun heq => by rw [heq, hfree] at hheld; cases hheld
      refine .inr ⟨answer, none, _, by simp only [next, hat, hinstr, if_pos hfree]; rfl, ?_⟩
      refine .inr ⟨k, hself _ _, (Function.update_of_ne hne _ _).trans hheld, ?_, hwork⟩
      rw [hl.1, below, if_neg (Ne.symm hne)]
  | unlock m' k =>
    rw [hinstr] at hl hwork
    have hown : s.holder m' = some i := (hi m').mp (hl.1 ▸ List.mem_cons_self)
    have hstep : next routine s (.step i answer none) = some ((s.hand m' none).goto i k) := by
      simp only [next, hat, hinstr, if_pos hown]
    refine .inr ⟨answer, none, _, hstep, ?_⟩
    by_cases hsame : m' = m
    · subst hsame
      refine .inl ⟨Function.update_self _ _ _, fun m'' hm'' => ?_⟩
      rw [hl.1, below, if_pos rfl]
      exact hafter hstep (hself _ _) m'' hm''
    · refine .inr ⟨k, hself _ _, (Function.update_of_ne (Ne.symm hsame) _ _).trans hheld, ?_, hwork⟩
      rw [hl.1, below, if_neg hsame]
  | wait c m' k =>
    rw [hinstr] at hl
    have hown : s.holder m' = some i := (hi m').mp (hl.1 ▸ List.mem_singleton_self m')
    obtain rfl : m = m' := List.mem_singleton.mp (hl.1 ▸ hm)
    have hstep : next routine s (.step i answer none) = some ((s.hand m none).put i (.blocked c m k)) := by
      simp only [next, hat, hinstr, if_pos hown]
    have hi' := owned_next hfollows hs hstep i
    rw [show ((s.hand m none).put i (.blocked c m k)).threads i = .blocked c m k from Function.update_self ..] at hi'
    exact .inr ⟨answer, none, _, hstep, .inl ⟨Function.update_self _ _ _, fun m'' hm'' => absurd hm'' (hi'.2 m'')⟩⟩
  | signal c k =>
    rw [hinstr] at hl hwork
    obtain ⟨chosen, threads, hwake⟩ := wakeOne_exists c s.threads
    refine .inr ⟨answer, chosen, _, by simp only [next, hat, hinstr, hwake, Option.map_some]; rfl, ?_⟩
    exact .inr ⟨k, hself _ _, hheld, by rw [show held k = held l from hl], hwork⟩
  | broadcast c k =>
    rw [hinstr] at hl hwork
    refine .inr ⟨answer, none, _, by simp only [next, hat, hinstr]; rfl, ?_⟩
    exact .inr ⟨k, hself _ _, hheld, by rw [show held k = held l from hl], hwork⟩
  | await ready k =>
    rw [hinstr] at hl
    rw [hl.1] at hm
    cases hm
  | stop =>
    rw [hinstr] at hl
    rw [show held l = [] from hl] at hm
    cases hm

/-- From wherever the system is, `m` can be given up while threads that have only mutexes of lower ranks stay where they are;
and nobody has a mutex then that it did not have before. -/
def Releasable (routine : ι → L → Instr A μ κ L G) (held : L → List μ) (rank : μ → Nat) (m : μ) : Prop :=
  ∀ (s : State ι μ κ L G) (idle : ι → Prop), Owned held s →
    (∀ i, idle i → Awake s i ∧ ∀ m', s.holder m' = some i → rank m' < rank m) →
    ∃ s', Without routine idle s s' ∧ s'.holder m = none ∧ ∀ m' j, s'.holder m' = some j → s.holder m' = some j

/-- The thread that has the mutex goes on until it gives it up, if the mutexes above can be given up. -/
theorem holder_releases [Nonempty A] {W : Type} [Preorder W] [WellFoundedLT W] {work : L → W}
    (hfollows : ∀ i l, (routine i l).Follows held rank l) (hshrinks : ∀ i l, held l ≠ [] → (routine i l).Shrinks work l)
    {m : μ} (habove : ∀ m', rank m < rank m' → Releasable routine held rank m') (hs : Owned held s) {idle : ι → Prop}
    (hidle : ∀ i, idle i → Awake s i ∧ ∀ m', s.holder m' = some i → rank m' < rank m) {j : ι} {l : L}
    (hheld : s.holder m = some j) (hat : s.threads j = .running l) (hm : m ∈ held l) :
    ∃ s', Without routine idle s s' ∧ s'.holder m = none ∧
      (∀ m' j', j' ≠ j → s'.holder m' = some j' → s.holder m' = some j') ∧
      ∀ m', s'.holder m' = some j → m' ∈ below m (held l) := by
  -- the induction is on what the holder has left to do
  induction hk : work l using WellFoundedLT.induction generalizing s l with
  | _ k ih =>
    subst hk
    have hj : ¬ idle j := fun hj => absurd ((hidle j hj).2 m hheld) (lt_irrefl _)
    -- one step of the holder from a state where it can make one
    have hgo : ∀ s₁, Owned held s₁ → s₁.holder m = some j → s₁.threads j = .running l →
        (∀ i, idle i → Awake s₁ i ∧ ∀ m', s₁.holder m' = some i → rank m' < rank m) →
        (∀ m' j', Wants routine s₁ j m' → s₁.holder m' ≠ some j') →
        ∃ s', Without routine idle s₁ s' ∧ s'.holder m = none ∧
          (∀ m' j', j' ≠ j → s'.holder m' = some j' → s₁.holder m' = some j') ∧
          ∀ m', s'.holder m' = some j → m' ∈ below m (held l) := by
      intro s₁ hs₁ hheld₁ hat₁ hidle₁ hfree
      obtain ⟨m', j', hwants, htaken⟩ | ⟨answer, chosen, s₂, hstep, hafter⟩ :=
        holder_step hfollows hshrinks hs₁ hheld₁ hat₁ hm
      · exact absurd htaken (hfree m' j' hwants)
      have hfirst : Without routine idle s₁ s₂ := .single ⟨j, answer, chosen, hj, ⟨m, hheld₁⟩, hstep⟩
      have hothers (m' : μ) (j' : ι) (hj' : j' ≠ j) (h : s₂.holder m' = some j') : s₁.holder m' = some j' :=
        (holder_others hstep hj' m').mp h
      obtain ⟨hnone, hbelow⟩ | ⟨l', hat', hheld', hbelow, hless⟩ := hafter
      · exact ⟨s₂, hfirst, hnone, hothers, hbelow⟩
      have hs₂ := hfirst.owned hfollows hs₁
      have hidle₂ : ∀ i, idle i → Awake s₂ i ∧ ∀ m', s₂.holder m' = some i → rank m' < rank m := by
        intro i hi
        obtain ⟨hawake, hlow⟩ := hidle₁ i hi
        have hsame := hfirst.threads hi hawake
        refine ⟨fun c m' l => hsame ▸ hawake c m' l, fun m' hm' => hlow m' ?_⟩
        exact hothers m' i (fun heq => hj (heq ▸ hi)) hm'
      have hm' : m ∈ held l' := by
        have h := hs₂ j
        rw [hat'] at h
        exact (h m).mpr hheld'
      obtain ⟨s', hrest, hnone, hkept, hlow⟩ := ih _ hless hs₂ hidle₂ hheld' hat' hm' rfl
      refine ⟨s', hfirst.trans hrest, hnone, fun m' j' hj' h => hothers m' j' hj' (hkept m' j' hj' h), ?_⟩
      rwa [hbelow] at hlow
    by_cases hwant : ∃ m' j', Wants routine s j m' ∧ s.holder m' = some j'
    · -- first the mutex that the holder wants is given up, and the holder stays where it is meanwhile
      obtain ⟨m', j', hwants, -⟩ := hwant
      have hrank := hwants.rank_lt hfollows hs hheld
      have hidle' : ∀ i, (idle i ∨ i = j) → Awake s i ∧ ∀ m'', s.holder m'' = some i → rank m'' < rank m' := by
        intro i hi
        obtain hi | rfl := hi
        · exact ⟨(hidle i hi).1, fun m'' h => ((hidle i hi).2 m'' h).trans hrank⟩
        · exact ⟨hwants.awake, fun m'' h => hwants.rank_lt hfollows hs h⟩
      obtain ⟨s₁, hrun, hnone, hkept⟩ := habove m' hrank s (fun i => idle i ∨ i = j) hs hidle'
      have hs₁ := hrun.owned hfollows hs
      have hat₁ : s₁.threads j = .running l := (hrun.threads (.inr rfl) hwants.awake).trans hat
      have hheld₁ : s₁.holder m = some j := by
        have h := hs₁ j
        rw [hat₁] at h
        exact (h m).mp hm
      have hidle₁ : ∀ i, idle i → Awake s₁ i ∧ ∀ m', s₁.holder m' = some i → rank m' < rank m := by
        intro i hi
        have hsame := hrun.threads (.inl hi) (hidle i hi).1
        exact ⟨fun c m' l => hsame ▸ (hidle i hi).1 c m' l, fun m' h => (hidle i hi).2 m' (hkept m' i h)⟩
      have hfree : ∀ m'' j', Wants routine s₁ j m'' → s₁.holder m'' ≠ some j' := by
        intro m'' j' hwants'' htaken
        rw [hwants''.unique (hwants.congr (hat₁.trans hat.symm)), hnone] at htaken
        cases htaken
      obtain ⟨s', hrest, hdone, hothers, hlow⟩ := hgo s₁ hs₁ hheld₁ hat₁ hidle₁ hfree
      exact ⟨s', (hrun.mono fun _ => .inl).trans hrest, hdone,
        fun m' j' hj' h => hkept m' j' (hothers m' j' hj' h), hlow⟩
    · exact hgo s hs hheld hat hidle fun m' j' hwants htaken => hwant ⟨m', j', hwants, htaken⟩

/-- Every mutex can be given up. -/
theorem releasable [Nonempty A] {W : Type} [Preorder W] [WellFoundedLT W] {work : L → W} {top : Nat}
    (htop : ∀ m, rank m ≤ top) (hfollows : ∀ i l, (routine i l).Follows held rank l)
    (hshrinks : ∀ i l, held l ≠ [] → (routine i l).Shrinks work l) (m : μ) : Releasable routine held rank m := by
  -- the induction is on how far the rank of `m` is from the highest, as its holder may want mutexes above it
  induction hn : top - rank m using Nat.strong_induction_on generalizing m with
  | _ n ih =>
    subst hn
    intro s idle hs hidle
    cases hholder : s.holder m with
    | none => exact ⟨s, .refl, hholder, fun _ _ h => h⟩
    | some j =>
      obtain ⟨l, hat, hm⟩ := hs.running hholder
      have habove (m' : μ) (hrank : rank m < rank m') : Releasable routine held rank m' := by
        have hle := htop m'
        exact ih _ (by omega) m' rfl
      obtain ⟨s', hrun, hnone, hothers, hlow⟩ := holder_releases hfollows hshrinks habove hs hidle hholder hat hm
      refine ⟨s', hrun, hnone, fun m' j' h => ?_⟩
      by_cases hj : j' = j
      · subst hj
        have hi := hs j'
        rw [hat] at hi
        exact (hi m').mp (mem_of_mem_below (hlow m' h))
      · exact hothers m' j' hj h

/-- All the mutexes can be given up, while threads that have none stay where they are. -/
theorem all_released [Nonempty A] {W : Type} [Preorder W] [WellFoundedLT W] {work : L → W} {top : Nat}
    (htop : ∀ m, rank m ≤ top) (hfollows : ∀ i l, (routine i l).Follows held rank l)
    (hshrinks : ∀ i l, held l ≠ [] → (routine i l).Shrinks work l) (hs : Owned held s) (idle : ι → Prop)
    (hidle : ∀ i, idle i → Awake s i ∧ ∀ m, s.holder m ≠ some i) (ms : List μ) :
    ∃ s', Without routine idle s s' ∧ (∀ m ∈ ms, s'.holder m = none) ∧
      ∀ m j, s'.holder m = some j → s.holder m = some j := by
  induction ms with
  | nil => exact ⟨s, .refl, nofun, fun _ _ h => h⟩
  | cons m ms ih =>
    obtain ⟨s₁, hrun, hfree, hkept⟩ := ih
    have hidle₁ : ∀ i, idle i → Awake s₁ i ∧ ∀ m', s₁.holder m' = some i → rank m' < rank m := by
      intro i hi
      have hsame := hrun.threads hi (hidle i hi).1
      exact ⟨fun c m' l => hsame ▸ (hidle i hi).1 c m' l, fun m' h => absurd (hkept m' i h) ((hidle i hi).2 m')⟩
    obtain ⟨s₂, hrest, hnone, hkept₂⟩ :=
      releasable htop hfollows hshrinks m s₁ idle (hrun.owned hfollows hs) hidle₁
    refine ⟨s₂, hrun.trans hrest, fun m' hm' => ?_, fun m' j h => hkept m' j (hkept₂ m' j h)⟩
    obtain rfl | hm' := List.mem_cons.mp hm'
    · exact hnone
    · cases htaken : s₂.holder m' with
      | none => rfl
      | some j =>
        have h := hkept₂ m' j htaken
        rw [hfree m' hm'] at h
        cases h

/-- A thread that wants a mutex can take it after some steps of others, from wherever the system is. -/
theorem obtained [Nonempty A] {W : Type} [Preorder W] [WellFoundedLT W] {work : L → W} {top : Nat} (htop : ∀ m, rank m ≤ top)
    (hfollows : ∀ i l, (routine i l).Follows held rank l) (hshrinks : ∀ i l, held l ≠ [] → (routine i l).Shrinks work l)
    (hs : Owned held s) {i : ι} {m : μ} (hwants : Wants routine s i m) :
    ∃ s' answer s'', Without routine (· = i) s s' ∧ next routine s' (.step i answer none) = some s'' ∧
      s''.holder m = some i := by
  obtain ⟨s', hrun, hfree, -⟩ := releasable htop hfollows hshrinks m s (· = i) hs fun j hj => by
    subst hj
    exact ⟨hwants.awake, fun m' h => hwants.rank_lt hfollows hs h⟩
  obtain ⟨answer⟩ := ‹Nonempty A›
  obtain ⟨k, hat⟩ | ⟨l, k, hat, hinstr⟩ := hwants.congr (hrun.threads rfl hwants.awake)
  · refine ⟨s', answer, _, hrun, by simp only [next, hat, if_pos hfree]; rfl, ?_⟩
    exact Function.update_self _ _ _
  · refine ⟨s', answer, _, hrun, by simp only [next, hat, hinstr, if_pos hfree]; rfl, ?_⟩
    exact Function.update_self _ _ _

end steps

end monitors

end LockOrder
