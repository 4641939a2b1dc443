import SubstanceConnector.Threads.Returning

/-!
# The lock of the interpreter

The Python module calls the library with the Global Interpreter Lock and keeps it for the whole call, and
`connector_python_trampoline`, which the threads of the pools call for a message, waits for it. So while
`connector_python_shutdown` joins these threads, none that has come to wait for the lock will get it.
-/

namespace SubstanceConnector.PythonThreads

open CoreThreads (Name Answer Pc Kind routine Going)
open LockOrder (Moves)

/-- Where a thread of a pool is in `connector_notify_trampolines`; `left` are the entries after the one it calls. -/
inductive Stage where
  | before
  -- in `PyGILState_Ensure` of `connector_python_trampoline`
  | ensure (left : Nat)
  -- from there to `PyGILState_Release`, also while the interpreter lets others go on
  | python (left : Nat)
  | past
  deriving DecidableEq

namespace Stage

/-- The thread needs the lock to go on. -/
def wants : Stage → Bool
  | ensure _ | python _ => true
  | _ => false

/-- The loop over the list goes on to the next of its entries. -/
def visited : Nat → Stage
  | 0 => past
  | left + 1 => ensure left

def acquired : Stage → Stage
  | ensure left => python left
  | stage => stage

/-- The call of `connector_notify_trampolines` returns. -/
def returned : Stage → Stage
  | past => before
  | stage => stage

end Stage

/-- The answers of the application that are calls of the library. -/
def calls : Answer → Bool
  | .write | .connect | .await | .shutdown => true
  | _ => false

/-- In code of the application, or at the end of the shutdown. -/
def interruptible : Pc → Bool
  | .application _ | .done none => true
  | _ => false

section system
variable {cfg : BuildConfig} {users : Nat}

/-- The threads that run Python code outside of trampolines. -/
def interpreted : Name cfg users → Bool
  | .main | .user _ => true
  | _ => false

variable (cfg users) in
structure State where
  core : CoreThreads.State cfg users
  -- who has the Global Interpreter Lock
  gil : Option (Name cfg users)
  -- how many entries of the list of trampolines are `connector_python_trampoline`
  listed : Nat
  -- `connector_python_shutdown` has removed the trampoline and is about to call the library
  closing : Bool
  stage : Name cfg users → Stage

namespace State

/-- The thread may go on only with the lock. -/
def wants (s : State cfg users) (name : Name cfg users) : Bool := interpreted name || (s.stage name).wants

/-- A thread of a pool calls the library in a trampoline and returns at the end of the list. -/
def suits (s : State cfg users) (name : Name cfg users) (answer : Answer) : Bool :=
  match (s.core.threads name).locals with
  | .application .main => s.closing == decide (answer = .shutdown)
  | .application .user => true
  | .application _ =>
    match s.stage name with
    | .python _ => calls answer
    | .past => !calls answer
    | _ => false
  | _ => true

def permits (s : State cfg users) (name : Name cfg users) (answer : Answer) : Bool :=
  (!s.wants name || decide (s.gil = some name)) && s.suits name answer

/-- The thread is in code of the application. -/
def atApplication (s : State cfg users) (name : Name cfg users) : Bool :=
  match (s.core.threads name).locals with
  | .application _ => true
  | _ => false

end State

inductive Label (cfg : BuildConfig) (users : Nat) where
  | core (a : LockOrder.Label (Name cfg users) Answer)
  -- `PyGILState_Ensure` returns, or the interpreter lets the thread go on
  | acquire (name : Name cfg users)
  -- the interpreter lets others go on, between two instructions of Python code
  | yield (name : Name cfg users)
  -- `connector_notify_trampolines` begins with the front of the list
  | visit (name : Name cfg users)
  -- `PyGILState_Release`, and the loop over the list goes on
  | release (name : Name cfg users)
  | addTrampoline
  | removeTrampoline

variable (signalMain : Bool)

def next (s : State cfg users) : Label cfg users → Option (State cfg users)
  | .core (.spurious name) =>
    (LockOrder.next (routine cfg signalMain) s.core (.spurious name)).map fun core => { s with core := core }
  | .core (.step name answer chosen) =>
    if s.permits name answer = true then
      (LockOrder.next (routine cfg signalMain) s.core (.step name answer chosen)).map fun core =>
        { s with
          core := core
          closing := s.closing && decide (name ≠ .main)
          stage := Function.update s.stage name (s.stage name).returned }
    else none
  | .acquire name =>
    if s.gil = none ∧ s.wants name = true then
      some { s with gil := some name, stage := Function.update s.stage name (s.stage name).acquired }
    else none
  | .yield name =>
    if s.gil = some name ∧ interruptible (s.core.threads name).locals = true ∧
        ¬ (name = .main ∧ s.closing = true) then
      some { s with gil := none }
    else none
  | .visit name =>
    if interpreted name = false ∧ s.atApplication name = true ∧ s.stage name = .before then
      some { s with stage := Function.update s.stage name (Stage.visited s.listed) }
    else none
  | .release name =>
    match s.stage name with
    | .python left =>
      if s.gil = some name ∧ s.atApplication name = true then
        some { s with gil := none, stage := Function.update s.stage name (Stage.visited left) }
      else none
    | _ => none
  | .addTrampoline =>
    if s.gil = some .main ∧ s.atApplication .main = true ∧ s.closing = false then
      some { s with listed := s.listed + 1 }
    else none
  | .removeTrampoline =>
    if s.gil = some .main ∧ s.atApplication .main = true ∧ s.closing = false then
      some { s with listed := s.listed - 1, closing := true }
    else none

variable (cfg users) in
/-- Before `connector_python_init`. -/
def start : State cfg users where
  core := CoreThreads.start cfg users
  gil := some .main
  listed := 0
  closing := false
  stage _ := .before

variable (cfg users) in
def system : StepSystem (State cfg users) (Label cfg users) := .ofNext (· = start cfg users) (next signalMain)

/-- The step uses nothing that the shutdown has destroyed. -/
def intact (s : State cfg users) : Label cfg users → Bool
  | .core a => CoreThreads.intact signalMain s.core a
  | _ => true

abbrev Intact (s : State cfg users) (a : Label cfg users) : Prop := intact signalMain s a = true

end system

section runs
variable {cfg : BuildConfig} {users : Nat} {signalMain : Bool} {s s' : State cfg users}

theorem next_step {name : Name cfg users} {answer : Answer} {chosen : Option (Name cfg users)}
    (h : next signalMain s (.core (.step name answer chosen)) = some s') :
    s.permits name answer = true ∧
      LockOrder.next (routine cfg signalMain) s.core (.step name answer chosen) = some s'.core ∧
      s' = { s with
        core := s'.core
        closing := s.closing && decide (name ≠ .main)
        stage := Function.update s.stage name (s.stage name).returned } := by
  obtain ⟨hpermits, h⟩ := Option.ite_none_right_eq_some.mp h
  obtain ⟨core, hcore, rfl⟩ := Option.map_eq_some_iff.mp h
  exact ⟨hpermits, hcore, rfl⟩

/-- What the interpreter does changes nothing in the core. -/
theorem core_next {a : Label cfg users} (h : next signalMain s a = some s') :
    s'.core = s.core ∨ ∃ b, a = .core b ∧ LockOrder.next (routine cfg signalMain) s.core b = some s'.core := by
  cases a with
  | core b =>
    cases b with
    | spurious name =>
      obtain ⟨core, hcore, rfl⟩ := Option.map_eq_some_iff.mp h
      exact .inr ⟨_, rfl, hcore⟩
    | step name answer chosen => exact .inr ⟨_, rfl, (next_step h).2.1⟩
  | release name =>
    simp only [next] at h
    split at h
    · obtain ⟨-, h⟩ := Option.ite_none_right_eq_some.mp h
      exact .inl (by rw [← Option.some.inj h])
    · cases h
  | acquire name | yield name | visit name | addTrampoline | removeTrampoline =>
    obtain ⟨-, h⟩ := Option.ite_none_right_eq_some.mp h
    exact .inl (by rw [← Option.some.inj h])

theorem core_of_reachable (h : (system cfg users signalMain).Reachable s) :
    (CoreThreads.system cfg signalMain users).Reachable s.core := by
  induction h with
  | init h =>
    subst h
    exact .init rfl
  | step _ hstep ih =>
    obtain heq | ⟨b, -, hcore⟩ := core_next hstep
    · rw [heq]
      exact ih
    · exact .step ih hcore

theorem unheld_of_reachable (h : ((system cfg users signalMain).guarded (Intact signalMain)).Reachable s) :
    CoreThreads.Unheld s.core := by
  refine h.guarded_invariant (P := fun s => CoreThreads.Unheld s.core) (fun s hs => ?_) fun s a s' hs ha hstep => ?_
  · rw [show s = start cfg users from hs]
    exact fun _ _ => rfl
  · obtain heq | ⟨b, rfl, hcore⟩ := core_next hstep
    · rw [heq]
      exact hs
    · exact hs.step ha hcore

/-! ## Who has the lock -/

/-- A thread that needs the lock and is in a call of the library has it. -/
def Held (s : State cfg users) : Prop :=
  ∀ name, s.wants name = true → interruptible (s.core.threads name).locals = false → s.gil = some name

theorem gil_of_permits {name : Name cfg users} {answer : Answer} (h : s.permits name answer = true)
    (hwants : s.wants name = true) : s.gil = some name := by
  have hgil := (Bool.and_eq_true_iff.mp h).1
  rw [hwants] at hgil
  exact of_decide_eq_true hgil

theorem interruptible_of_atApplication {name : Name cfg users} (h : s.atApplication name = true) :
    interruptible (s.core.threads name).locals = true := by
  unfold State.atApplication at h
  split at h
  · rename_i hat
    rw [hat]
    rfl
  · cases h

theorem wants_update {name name' : Name cfg users} {stage : Stage} {stages : Name cfg users → Stage}
    (h : (interpreted name || (Function.update stages name' stage name).wants) = true) :
    (interpreted name || (stages name).wants) = true ∨ name = name' ∧ stage.wants = true := by
  by_cases hname : name = name'
  · subst hname
    rw [Function.update_self] at h
    obtain h | h := Bool.or_eq_true_iff.mp h
    · exact .inl (Bool.or_eq_true_iff.mpr (.inl h))
    · exact .inr ⟨rfl, h⟩
  · rw [Function.update_of_ne hname] at h
    exact .inl h

theorem Held.step (hs : Held s) {a : Label cfg users} (h : next signalMain s a = some s') : Held s' := by
  intro name hwants hcall
  cases a with
  | core b =>
    cases b with
    | spurious j =>
      obtain ⟨core, hcore, rfl⟩ := Option.map_eq_some_iff.mp h
      have hlocals := LockOrder.spurious_locals hcore name
      exact hs name hwants (hlocals ▸ hcall)
    | step j answer chosen =>
      obtain ⟨hpermits, hcore, heq⟩ := next_step h
      rw [heq] at hwants ⊢
      have hwants' : s.wants name = true := by
        obtain hwants | ⟨rfl, hreturned⟩ := wants_update hwants
        · exact hwants
        · refine Bool.or_eq_true_iff.mpr (.inr ?_)
          cases hstage : s.stage name with
          | before | past =>
            rw [hstage] at hreturned
            cases hreturned
          | ensure left | python left => rfl
      by_cases hname : name = j
      · subst hname
        exact (gil_of_permits hpermits hwants' : s.gil = some name)
      · rw [LockOrder.next_locals hcore hname] at hcall
        exact hs name hwants' hcall
  | acquire j =>
    obtain ⟨⟨hfree, hj⟩, h⟩ := Option.ite_none_right_eq_some.mp h
    rw [← Option.some.inj h] at hwants hcall ⊢
    obtain hwants | ⟨rfl, -⟩ := wants_update hwants
    · cases hfree.symm.trans (hs name hwants hcall)
    · rfl
  | yield j =>
    obtain ⟨⟨hgil, hat, -⟩, h⟩ := Option.ite_none_right_eq_some.mp h
    rw [← Option.some.inj h] at hwants hcall
    obtain rfl : j = name := Option.some.inj (hgil.symm.trans (hs name hwants hcall))
    cases hat.symm.trans hcall
  | visit j =>
    obtain ⟨⟨-, hat, -⟩, h⟩ := Option.ite_none_right_eq_some.mp h
    rw [← Option.some.inj h] at hwants hcall ⊢
    obtain hwants | ⟨rfl, -⟩ := wants_update hwants
    · exact hs name hwants hcall
    · cases (interruptible_of_atApplication hat).symm.trans hcall
  | release j =>
    simp only [next] at h
    split at h
    · obtain ⟨⟨hgil, hat⟩, h⟩ := Option.ite_none_right_eq_some.mp h
      rw [← Option.some.inj h] at hwants hcall
      obtain hwants | ⟨rfl, -⟩ := wants_update hwants
      · obtain rfl : j = name := Option.some.inj (hgil.symm.trans (hs name hwants hcall))
        cases (interruptible_of_atApplication hat).symm.trans hcall
      · cases (interruptible_of_atApplication hat).symm.trans hcall
    · cases h
  | addTrampoline | removeTrampoline =>
    obtain ⟨-, h⟩ := Option.ite_none_right_eq_some.mp h
    rw [← Option.some.inj h] at hwants hcall ⊢
    exact hs name hwants hcall

theorem held_of_reachable (h : (system cfg users signalMain).Reachable s) : Held s := by
  induction h with
  | init h =>
    subst h
    intro name hwants hcall
    cases name with
    | main => rfl
    | user i => cases hcall
    | _ => cases hwants
  | step _ hstep ih => exact ih.step hstep

/-! ## A thread that waits for the lock -/

theorem not_interruptible {pc : Pc} (hstop : pc.stopping = true) (hend : pc ≠ .done none) : interruptible pc = false := by
  cases pc with
  | application host => cases hstop
  | done k =>
    cases k with
    | none => exact absurd rfl hend
    | some k => rfl
  | _ => rfl

theorem not_atApplication {name : Name cfg users} (h : interruptible (s.core.threads name).locals = false) :
    s.atApplication name = false := by
  by_contra hat
  cases (interruptible_of_atApplication (Bool.eq_true_of_not_eq_false hat)).symm.trans h

theorem atApplication_congr {name : Name cfg users}
    (h : (s'.core.threads name).locals = (s.core.threads name).locals) : s'.atApplication name = s.atApplication name := by
  unfold State.atApplication
  rw [h]

/-- The shutdown is under way, and the thread is in a trampoline that it cannot leave without the lock. -/
structure Waits (s : State cfg users) (name : Name cfg users) : Prop where
  stopping : (s.core.threads .main).locals.stopping = true
  unfinished : (s.core.threads .main).locals ≠ .done none
  wants : (s.stage name).wants = true
  atApplication : s.atApplication name = true

theorem gil_of_stopping (h : (system cfg users signalMain).Reachable s)
    (hstop : (s.core.threads .main).locals.stopping = true) (hend : (s.core.threads .main).locals ≠ .done none) :
    s.gil = some .main :=
  held_of_reachable h .main rfl (not_interruptible hstop hend)

theorem Waits.step (h : (system cfg users signalMain).Reachable s) {name : Name cfg users} {k : Kind} {i : Nat}
    (hslot : name.slot = some (k, i)) (hs : Waits s name) {a : Label cfg users} (hstep : next signalMain s a = some s') :
    Waits s' name := by
  have hname : name ≠ .main := by
    rintro rfl
    cases hslot
  have hgil := gil_of_stopping h hs.stopping hs.unfinished
  have hmain := not_interruptible hs.stopping hs.unfinished
  have happlication := not_atApplication hmain
  cases a with
  | core b =>
    cases b with
    | spurious j =>
      obtain ⟨core, hcore, rfl⟩ := Option.map_eq_some_iff.mp hstep
      have hlocals := LockOrder.spurious_locals hcore
      exact ⟨by rw [hlocals]; exact hs.stopping, by rw [hlocals]; exact hs.unfinished, hs.wants,
        (atApplication_congr (hlocals name)).trans hs.atApplication⟩
    | step j answer chosen =>
      obtain ⟨hpermits, hcore, heq⟩ := next_step hstep
      have hne : name ≠ j := by
        rintro rfl
        have hwants : s.wants name = true := Bool.or_eq_true_iff.mpr (.inr hs.wants)
        exact hname (Option.some.inj ((gil_of_permits hpermits hwants).symm.trans hgil))
      have hat : s'.atApplication name = true :=
        (atApplication_congr (LockOrder.next_locals hcore hne)).trans hs.atApplication
      refine ⟨(CoreThreads.ahead_next (core_of_reachable h) hs.stopping hcore).1, fun hdone => ?_, ?_, hat⟩
      · -- the shutdown has joined the thread, which is at its end
        have hend := CoreThreads.all_done (.step (core_of_reachable h) hcore) hdone hslot
        unfold State.atApplication at hat
        rw [hend] at hat
        cases hat
      · rw [heq]
        show (Function.update s.stage j _ name).wants = true
        rw [Function.update_of_ne hne]
        exact hs.wants
  | acquire j =>
    obtain ⟨⟨hfree, -⟩, -⟩ := Option.ite_none_right_eq_some.mp hstep
    cases hfree.symm.trans hgil
  | yield j =>
    obtain ⟨⟨hj, hat, -⟩, -⟩ := Option.ite_none_right_eq_some.mp hstep
    obtain rfl : j = .main := Option.some.inj (hj.symm.trans hgil)
    cases hat.symm.trans hmain
  | visit j =>
    obtain ⟨⟨-, -, hbefore⟩, heq⟩ := Option.ite_none_right_eq_some.mp hstep
    have hne : name ≠ j := by
      rintro rfl
      have hwants := hs.wants
      rw [hbefore] at hwants
      cases hwants
    rw [← Option.some.inj heq]
    refine ⟨hs.stopping, hs.unfinished, ?_, hs.atApplication⟩
    show (Function.update s.stage j _ name).wants = true
    rw [Function.update_of_ne hne]
    exact hs.wants
  | release j =>
    simp only [next] at hstep
    split at hstep
    · obtain ⟨⟨hj, hat⟩, -⟩ := Option.ite_none_right_eq_some.mp hstep
      obtain rfl : j = .main := Option.some.inj (hj.symm.trans hgil)
      cases hat.symm.trans happlication
    · cases hstep
  | addTrampoline | removeTrampoline =>
    obtain ⟨⟨-, hat, -⟩, -⟩ := Option.ite_none_right_eq_some.mp hstep
    cases hat.symm.trans happlication

theorem Waits.later (h : (system cfg users signalMain).Reachable s) {name : Name cfg users} {k : Kind} {i : Nat}
    (hslot : name.slot = some (k, i)) (hs : Waits s name) (hlater : (system cfg users signalMain).Later s s') :
    Waits s' name := by
  induction hlater with
  | refl => exact hs
  | tail hrun hstep ih =>
    obtain ⟨a, hstep⟩ := hstep
    exact ih.step (StepSystem.Later.reachable hrun h) hslot hstep

/-- A thread that needs what is destroyed still needs it after every step. -/
theorem needs_next {name : Name cfg users} {o : CoreThreads.Object} (hneeds : (s.core.threads name).locals.needs = some o)
    (hgone : s.core.shared.gone o = true) {a : Label cfg users} (ha : Intact signalMain s a)
    (hstep : next signalMain s a = some s') :
    (s'.core.threads name).locals.needs = some o ∧ s'.core.shared.gone o = true := by
  obtain heq | ⟨b, rfl, hcore⟩ := core_next hstep
  · rw [heq]
    exact ⟨hneeds, hgone⟩
  · exact CoreThreads.unsafe_step hneeds hgone ha hcore

/-! ## The shutdown while nobody waits for the lock -/

/-- The shutdown has the lock, and no thread will come to wait for it. -/
structure Free (s : State cfg users) : Prop where
  gil : s.gil = some .main
  listed : s.listed = 0
  stage : ∀ name, interpreted name = false → (s.stage name).wants = false

theorem next_core {name : Name cfg users} {answer : Answer} {chosen : Option (Name cfg users)}
    {core : CoreThreads.State cfg users} (hpermits : s.permits name answer = true)
    (hcore : LockOrder.next (routine cfg signalMain) s.core (.step name answer chosen) = some core) :
    next signalMain s (.core (.step name answer chosen)) = some { s with
      core := core
      closing := s.closing && decide (name ≠ .main)
      stage := Function.update s.stage name (s.stage name).returned } := by
  simp only [next, if_pos hpermits, hcore, Option.map_some]

theorem suits_of_not_atApplication {name : Name cfg users} {answer : Answer} (h : s.atApplication name = false) :
    s.suits name answer = true := by
  unfold State.atApplication at h
  unfold State.suits
  split at h
  · cases h
  · rename_i hnot
    split
    case h_4 => rfl
    all_goals rename_i hat; exact absurd hat (hnot _)

theorem wants_returned {stage : Stage} (h : stage.wants = false) : stage.returned.wants = false := by
  cases stage <;> first | rfl | cases h

theorem Free.core (hs : Free s) {core : CoreThreads.State cfg users} {closing : Bool} (name : Name cfg users) :
    Free { s with
      core := core
      closing := closing
      stage := Function.update s.stage name (s.stage name).returned } where
  gil := hs.gil
  listed := hs.listed
  stage name' hname' := by
    show (Function.update s.stage name _ name').wants = false
    by_cases heq : name' = name
    · subst heq
      rw [Function.update_self]
      exact wants_returned (hs.stage name' hname')
    · rw [Function.update_of_ne heq]
      exact hs.stage name' hname'

theorem permits_of_not_wants {name : Name cfg users} {answer : Answer} (hwants : s.wants name = false)
    (hsuits : s.suits name answer = true) : s.permits name answer = true := by
  unfold State.permits
  rw [hwants, hsuits]
  rfl

/-- A thread in code of the application waits for nothing. -/
theorem running_of_application (h : (CoreThreads.system cfg signalMain users).Reachable s.core) {name : Name cfg users}
    {host : CoreThreads.Host} (hat : (s.core.threads name).locals = .application host) :
    s.core.threads name = .running (.application host) := by
  have howned := CoreThreads.owned_of_reachable h name
  cases hthread : s.core.threads name with
  | running pc =>
    rw [hthread] at hat
    exact congrArg LockOrder.Status.running hat
  | blocked c m pc | woken m pc =>
    rw [hthread] at howned hat
    rw [show pc = .application host from hat] at howned
    cases howned.1

/-- While the module is shut down, a call of a thread of a pool does nothing. -/
theorem core_of_calls {core core' : CoreThreads.State cfg users} {name : Name cfg users} {host : CoreThreads.Host}
    (hat : core.threads name = .running (.application host)) (hhost : host ≠ .main) (hready : core.shared.ready = false)
    {answer : Answer} (hcalls : calls answer = true) {chosen : Option (Name cfg users)}
    (h : LockOrder.next (routine cfg signalMain) core (.step name answer chosen) = some core') : core' = core := by
  rw [LockOrder.next_act hat rfl h]
  have hsame : core.goto name (.application host) = core := by
    show { core with threads := Function.update core.threads name (.running (.application host)) } = core
    rw [← hat, Function.update_eq_self]
  have hnot : ¬ core.shared.ready = true := by
    rw [hready]
    exact Bool.false_ne_true
  cases answer with
  | write | connect =>
    dsimp only
    rw [if_neg hnot]
    exact hsame
  | await =>
    dsimp only
    rw [if_neg fun hmain => hhost hmain.1]
    exact hsame
  | shutdown =>
    dsimp only
    rw [if_neg fun hmain => hhost hmain.1]
    exact hsame
  | _ => cases hcalls

/-- At the end of the list a thread of a pool returns to the core. -/
theorem suits_of_past {name : Name cfg users} {host : CoreThreads.Host} (hinterpreted : interpreted name = false)
    (hrole : host.role = name.role cfg) (hat : (s.core.threads name).locals = .application host)
    (hpast : s.stage name = .past) {answer : Answer} (hcalls : calls answer = false) : s.suits name answer = true := by
  unfold State.suits
  rw [hat]
  cases host with
  | main | user => cases name <;> cases hinterpreted <;> cases hrole
  | dispatcher | reader assigned | leaver assigned =>
    dsimp only
    rw [hpast]
    dsimp only
    rw [hcalls]
    rfl

variable (signalMain) in
/-- A thread of a pool that is in code of the application, and not in a trampoline, gets to the end of the empty list. -/
theorem Free.past (hs : Free s) {name : Name cfg users} (hname : interpreted name = false)
    (hat : s.atApplication name = true) :
    ∃ s', ((system cfg users signalMain).guarded (Intact signalMain)).Later s s' ∧ s'.core = s.core ∧ Free s' ∧
      s'.stage name = .past := by
  have hwants := hs.stage name hname
  cases hstage : s.stage name with
  | past => exact ⟨s, .refl, rfl, hs, hstage⟩
  | before =>
    refine ⟨{ s with stage := Function.update s.stage name (Stage.visited s.listed) },
      .single ⟨.visit name, rfl, if_pos ⟨hname, hat, hstage⟩⟩, rfl, ⟨hs.gil, hs.listed, fun name' hname' => ?_⟩, ?_⟩
    · show (Function.update s.stage name _ name').wants = false
      by_cases heq : name' = name
      · subst heq
        rw [Function.update_self, hs.listed]
        rfl
      · rw [Function.update_of_ne heq]
        exact hs.stage name' hname'
    · show Function.update s.stage name _ name = .past
      rw [Function.update_self, hs.listed]
      rfl
  | ensure left | python left =>
    rw [hstage] at hwants
    cases hwants

/-- Each step that the core needs for the shutdown can be made. -/
theorem Free.lift (h : (system cfg users signalMain).Reachable s) (hs : Free s)
    (hstop : (s.core.threads .main).locals.stopping = true) {b : LockOrder.Label (Name cfg users) Answer}
    (hb : Going signalMain (fun name => ∃ i, name = .user i) s.core b) {core : CoreThreads.State cfg users}
    (hcore : LockOrder.next (routine cfg signalMain) s.core b = some core) :
    ∃ s', ((system cfg users signalMain).guarded (Intact signalMain)).Later s s' ∧ s'.core = core ∧ Free s' := by
  obtain ⟨hb, hintact⟩ := hb
  cases b with
  | spurious name =>
    refine ⟨{ s with core := core }, .single ⟨.core (.spurious name), rfl, ?_⟩, rfl, hs.gil, hs.listed, hs.stage⟩
    show next signalMain s _ = _
    simp only [next, hcore, Option.map_some]
  | step name answer chosen =>
    cases hat : s.atApplication name with
    | false =>
      have hpermits : s.permits name answer = true := by
        by_cases hmain : name = .main
        · unfold State.permits
          rw [suits_of_not_atApplication hat, hs.gil, hmain]
          simp
        · refine permits_of_not_wants ?_ (suits_of_not_atApplication hat)
          have hname : interpreted name = false := by
            cases name with
            | main => exact absurd rfl hmain
            | user i => exact absurd ⟨i, rfl⟩ hb
            | _ => rfl
          unfold State.wants
          rw [hname, hs.stage name hname]
          rfl
      exact ⟨_, .single ⟨.core (.step name answer chosen), hintact, next_core hpermits hcore⟩, rfl, hs.core name⟩
    | true =>
      have hcore' := core_of_reachable h
      obtain ⟨host, hlocals⟩ : ∃ host, (s.core.threads name).locals = .application host := by
        unfold State.atApplication at hat
        split at hat
        · exact ⟨_, ‹_›⟩
        · cases hat
      have hrole : host.role = name.role cfg := by
        have hrole := (CoreThreads.runs_of_reachable hcore' name).1
        rw [hlocals] at hrole
        exact hrole
      have hname : interpreted name = false := by
        cases name with
        | main =>
          rw [hlocals] at hstop
          cases hstop
        | user i => exact absurd ⟨i, rfl⟩ hb
        | _ => rfl
      have hhost : host ≠ .main := by
        rintro rfl
        cases name <;> cases hname <;> cases hrole
      cases hcalls : calls answer with
      | true =>
        have hready := CoreThreads.shut_of_stopping hcore' hstop
        exact ⟨s, .refl, (core_of_calls (running_of_application hcore' hlocals) hhost hready hcalls hcore).symm, hs⟩
      | false =>
        obtain ⟨t, hlater, heq, ht, hpast⟩ := hs.past signalMain hname hat
        have hwants : t.wants name = false := by
          unfold State.wants
          rw [hname, hpast]
          rfl
        have hpermits : t.permits name answer = true :=
          permits_of_not_wants hwants (suits_of_past hname hrole (heq ▸ hlocals) hpast hcalls)
        have hintact' : CoreThreads.Intact signalMain t.core (.step name answer chosen) := heq ▸ hintact
        exact ⟨_, hlater.tail ⟨.core (.step name answer chosen), hintact', next_core hpermits (heq ▸ hcore)⟩, rfl, ht.core name⟩

theorem Free.run (h : (system cfg users signalMain).Reachable s) (hs : Free s)
    (hstop : (s.core.threads .main).locals.stopping = true) {core : CoreThreads.State cfg users}
    (hrun : Moves (routine cfg signalMain) (Going signalMain fun name => ∃ i, name = .user i) s.core core) :
    ∃ s', ((system cfg users signalMain).guarded (Intact signalMain)).Later s s' ∧ s'.core = core ∧ Free s' ∧
      (s'.core.threads .main).locals.stopping = true := by
  induction hrun with
  | refl => exact ⟨s, .refl, rfl, hs, hstop⟩
  | tail _ hstep ih =>
    obtain ⟨t, hlater, rfl, ht, hstop'⟩ := ih
    obtain ⟨b, hb, hcore⟩ := hstep
    have hreach := StepSystem.Later.reachable hlater.of_guarded h
    obtain ⟨t', hlater', rfl, ht'⟩ := ht.lift hreach hstop' hb hcore
    exact ⟨t', hlater.trans hlater', rfl, ht', (CoreThreads.ahead_next (core_of_reachable hreach) hstop' hcore).1⟩

/-- While the shutdown has the lock, no thread of the application is in a call. -/
theorem apart (h : (system cfg users signalMain).Reachable s) (hgil : s.gil = some .main) (i : Fin users) :
    s.core.threads (.user i) = .running (.application .user) := by
  have hcore := core_of_reachable h
  have hrole := (CoreThreads.runs_of_reachable hcore (.user i)).1
  cases hcall : interruptible (s.core.threads (.user i)).locals with
  | false => cases hgil.symm.trans (held_of_reachable h (.user i) rfl hcall)
  | true =>
    refine running_of_application hcore ?_
    cases hat : (s.core.threads (.user i)).locals with
    | application host =>
      rw [hat] at hrole
      cases host <;> first | rfl | cases hrole
    | done k =>
      rw [hat] at hrole
      cases k with
      | none => cases hrole
      | some k => cases k <;> cases hrole
    | _ =>
      rw [hat] at hcall
      cases hcall

/-- A thread of a pool that waits for the lock is in a trampoline. -/
theorem waits_atApplication (h : (system cfg users signalMain).Reachable s) {name : Name cfg users}
    (hname : interpreted name = false) (hgil : s.gil = some .main) (hwants : (s.stage name).wants = true) :
    s.atApplication name = true := by
  have hrole := (CoreThreads.runs_of_reachable (core_of_reachable h) name).1
  cases hcall : interruptible (s.core.threads name).locals with
  | false =>
    obtain rfl : Name.main = name :=
      Option.some.inj (hgil.symm.trans (held_of_reachable h name (Bool.or_eq_true_iff.mpr (.inr hwants)) hcall))
    cases hname
  | true =>
    unfold State.atApplication
    cases hat : (s.core.threads name).locals with
    | application host => rfl
    | done k =>
      rw [hat] at hrole hcall
      cases k with
      | none => cases name <;> cases hname <;> cases hrole
      | some k => cases hcall
    | _ =>
      rw [hat] at hcall
      cases hcall

/-- In the runs that use nothing destroyed, a shutdown from Python that has removed the trampoline can still return exactly
when no thread of a pool is in the trampoline already, nor needs what is destroyed already: a thread in the trampoline waits for
the lock that the shutdown keeps while it waits for the thread. -/
theorem shutdown_returns_iff (h : ((system cfg users signalMain).guarded (Intact signalMain)).Reachable s)
    (hlisted : s.listed = 0) (hstop : (s.core.threads .main).locals.stopping = true)
    (hend : (s.core.threads .main).locals ≠ .done none) :
    (∃ s', ((system cfg users signalMain).guarded (Intact signalMain)).Later s s' ∧
      s'.core.threads .main = .running (.done none)) ↔
      ∀ name, interpreted name = false →
        (s.stage name).wants = false ∧ (s.core.threads name).locals.safe s.core.shared.gone = true := by
  have hreach := StepSystem.Reachable.of_guarded h
  have hgil := gil_of_stopping hreach hstop hend
  have hslots {name : Name cfg users} (hname : interpreted name = false) : ∃ k i, name.slot = some (k, i) := by
    cases name <;> cases hname <;> exact ⟨_, _, rfl⟩
  constructor
  · rintro ⟨s', hlater, hdone⟩ name hname
    obtain ⟨k, i, hslot⟩ := hslots hname
    constructor
    · by_contra hnot
      have hwaits := Waits.later hreach hslot
        ⟨hstop, hend, Bool.eq_true_of_not_eq_false hnot,
          waits_atApplication hreach hname hgil (Bool.eq_true_of_not_eq_false hnot)⟩ hlater.of_guarded
      exact hwaits.unfinished (by rw [hdone]; rfl)
    · refine CoreThreads.safe_iff.mpr fun o ho => Bool.eq_false_of_not_eq_true fun hgone => ?_
      obtain ⟨hneeds, -⟩ := hlater.guarded_invariant
        (P := fun t => (t.core.threads name).locals.needs = some o ∧ t.core.shared.gone o = true)
        (fun t a t' ht ha hstep => needs_next ht.1 ht.2 ha hstep) ⟨ho, hgone⟩
      have hend' := CoreThreads.all_done (core_of_reachable (hlater.of_guarded.reachable hreach)) (by rw [hdone]; rfl) hslot
      rw [hend'] at hneeds
      cases hneeds
  · intro hfree
    have happart : CoreThreads.Apart (fun name => ∃ i, name = .user i) s.core := by
      rintro _ ⟨i, rfl⟩
      exact ⟨⟨i, rfl⟩, apart hreach hgil i⟩
    have hpool {name : Name cfg users} {k : Kind} {i : Nat} (hslot : name.slot = some (k, i)) : interpreted name = false := by
      cases name <;> first | rfl | cases hslot
    obtain ⟨core, hrun, -, hdone⟩ := CoreThreads.returns (core_of_reachable hreach) (unheld_of_reachable h) happart hstop
      fun name k i hslot => (hfree name (hpool hslot)).2
    obtain ⟨s', hlater, rfl, -⟩ := Free.run hreach ⟨hgil, hlisted, fun name hname => (hfree name hname).1⟩ hstop hrun
    exact ⟨s', hlater, hdone⟩

end runs

/-- A read thread closes a context and comes to the trampoline just before the shutdown removes it. -/
def deadlockRun : List (Label .default 0) :=
  let turn (name : Name .default 0) (answer : Answer) : Label .default 0 := .core (.step name answer none)
  let reader : Name .default 0 := .reader ⟨0, Nat.zero_lt_two⟩
  CoreThreads.startupRun.map .core ++ [turn .main .nothing, .addTrampoline, turn .main .connect, turn .main .connect] ++
    List.replicate 5 (turn .main .nothing) ++ [turn reader .nothing, turn reader .acquire] ++
    List.replicate 3 (turn reader .nothing) ++
    [turn reader .close, .visit reader, .removeTrampoline, turn .main .shutdown]

theorem default_deadlock :
    ∃ s : State .default 0, ((system .default 0 false).guarded (Intact false)).Reachable s ∧ s.listed = 0 ∧
      s.core.threads .main = .running (.main .shutdownContexts) ∧
      s.stage (.reader ⟨0, Nat.zero_lt_two⟩) = .ensure 0 ∧
      ∀ s', ((system .default 0 false).guarded (Intact false)).Later s s' → s'.core.threads .main ≠ .running (.done none) := by
  have hrun : (StepSystem.runList (StepSystem.gate (Intact false) (next false)) (start .default 0) deadlockRun).map
      (fun s => (s.listed, s.core.threads .main, s.stage (.reader ⟨0, Nat.zero_lt_two⟩))) =
      some (0, .running (.main .shutdownContexts), .ensure 0) := by
    decide +kernel
  obtain ⟨s, hs, hat⟩ := Option.map_eq_some_iff.mp hrun
  simp only [Prod.mk.injEq] at hat
  obtain ⟨hlisted, hmain, hstage⟩ := hat
  have hreach : ((system .default 0 false).guarded (Intact false)).Reachable s :=
    StepSystem.guarded_reachable_runList (.init rfl) hs
  refine ⟨s, hreach, hlisted, hmain, hstage, fun s' hlater hdone => ?_⟩
  obtain ⟨hfree, -⟩ := (shutdown_returns_iff hreach hlisted (by rw [hmain]; rfl)
    (by rw [hmain]; exact fun h => by cases h)).mp ⟨s', hlater, hdone⟩ (.reader ⟨0, Nat.zero_lt_two⟩) rfl
  rw [hstage] at hfree
  cases hfree

end SubstanceConnector.PythonThreads
