import SubstanceConnector.Base
import SubstanceConnector.Library.LockWord
import SubstanceConnector.Library.StepSystem

/-!
# The state word

`substance_connector_init`, `substance_connector_shutdown` and `substance_connector_set_allocators`
on any number of threads, each exchange on the state word and each call of a subsystem one step. The
exchange a call enters with decides whether it runs its guarded body, and its last exchange ends the
body.

A shutdown that lost its entry runs the last exchange nevertheless, and can end the body of the
shutdown that won (`init_during_shutdown`). It is the only step that breaks mutual exclusion: in the
runs in which no losing shutdown finds the state at `SHUTDOWN_STARTED` there, at most one body runs
(`bodies_exclusive`).
-/

namespace SubstanceConnector.Lifecycle

/-- `enum SubstanceConnectorState`. -/
inductive ModuleState where
  | shutdown
  | initStarted
  | initFinished
  | shutdownStarted
  | allocatorStarted
  | internalError
  deriving DecidableEq, Repr

/-- The subsystem calls of the three bodies. -/
inductive Subsystem where
  | setApplicationName
  | setupDefaultTcpDirectory
  | initContextSubsystem
  | initMessageQueueSubsystem
  | initTrampolineSubsystem
  | initDispatchSubsystem
  | initCommSubsystem
  | shutdownContextSubsystem
  | shutdownCommSubsystem
  | shutdownDispatchSubsystem
  | shutdownMessageQueueSubsystem
  | shutdownTrampolineSubsystem
  | cleanupDefaultTcpDirectory
  | clearAllocators
  | setAllocator
  | setDeallocator
  deriving DecidableEq, Repr

def initCalls : List Subsystem :=
  [.setApplicationName, .setupDefaultTcpDirectory, .initContextSubsystem, .initMessageQueueSubsystem,
    .initTrampolineSubsystem, .initDispatchSubsystem, .initCommSubsystem]

def shutdownCalls : List Subsystem :=
  [.shutdownContextSubsystem, .shutdownCommSubsystem, .shutdownDispatchSubsystem, .shutdownMessageQueueSubsystem,
    .shutdownTrampolineSubsystem, .cleanupDefaultTcpDirectory, .clearAllocators]

/-- Where a thread is. A body carries the calls still to be made and the return code so far; a last
exchange of a shutdown also whether its body was run. -/
inductive Pc where
  | idle
  | initEnter
  | initBody (calls : List Subsystem)
  | initExit (retcode : Retcode)
  | shutdownEnter
  | shutdownBody (calls : List Subsystem) (retcode : Retcode)
  | shutdownExit (won : Bool) (retcode : Retcode)
  | allocatorEnter (given : Bool)
  | allocatorBody (calls : List Subsystem)
  | allocatorExit (retcode : Retcode)
  | done (retcode : Retcode)
  deriving DecidableEq

/-- `CONNECTOR_ATOMIC_COMPARE_EXCHANGE` on the state word. -/
def exchange (state expected new : ModuleState) : ModuleState := if state = expected then new else state

/-- The next step of a thread; `result` is what the subsystem call returns, if the step is one. -/
def Pc.advance (state : ModuleState) (result : Retcode) : Pc → ModuleState × Pc
  | .idle => (state, .idle)
  | .initEnter =>
    (exchange state .shutdown .initStarted, if state = .shutdown then .initBody initCalls else .done .error)
  | .initBody [] => (state, .initExit .success)
  | .initBody (_ :: calls) =>
    -- once a call fails the others are skipped
    (state, if result = .success then if calls = [] then .initExit .success else .initBody calls else .initExit result)
  | .initExit retcode =>
    (if retcode = .success then exchange state .initStarted .initFinished
      else exchange state .initStarted .internalError, .done retcode)
  | .shutdownEnter =>
    (exchange state .initFinished .shutdownStarted,
      if state = .initFinished then .shutdownBody shutdownCalls .success else .shutdownExit false .error)
  | .shutdownBody [] retcode => (state, .shutdownExit true retcode)
  | .shutdownBody (_ :: calls) retcode =>
    -- the first failure is the one returned
    let retcode := if retcode = .success then result else retcode
    (state, if calls = [] then .shutdownExit true retcode else .shutdownBody calls retcode)
  | .shutdownExit _ retcode => (exchange state .shutdownStarted .shutdown, .done retcode)
  | .allocatorEnter given =>
    (exchange state .shutdown .allocatorStarted,
      if state = .shutdown then
        if given then .allocatorBody [.setAllocator, .setDeallocator] else .allocatorExit .invalid
      else .done .invalid)
  | .allocatorBody [] => (state, .allocatorExit .success)
  | .allocatorBody (_ :: calls) =>
    (state, if calls = [] then .allocatorExit .success else .allocatorBody calls)
  | .allocatorExit retcode => (exchange state .allocatorStarted .shutdown, .done retcode)
  | .done _ => (state, .idle)

structure State (ι : Type) where
  state : ModuleState
  pool : ι → Pc

inductive Label (ι : Type) where
  | init (i : ι)
  | shutdown (i : ι)
  | setAllocators (i : ι) (given : Bool)
  | advance (i : ι) (result : Retcode)

variable {ι : Type} [DecidableEq ι]

def State.call (s : State ι) (i : ι) (pc : Pc) : Option (State ι) :=
  if s.pool i = .idle then some { s with pool := Function.update s.pool i pc } else none

def next (s : State ι) : Label ι → Option (State ι)
  | .init i => s.call i .initEnter
  | .shutdown i => s.call i .shutdownEnter
  | .setAllocators i given => s.call i (.allocatorEnter given)
  | .advance i result =>
    if s.pool i = .idle then none
    else
      some
        { state := ((s.pool i).advance s.state result).1
          pool := Function.update s.pool i ((s.pool i).advance s.state result).2 }

def State.start (ι : Type) : State ι := ⟨.shutdown, fun _ => .idle⟩

def system (ι : Type) [DecidableEq ι] : StepSystem (State ι) (Label ι) := .ofNext (· = .start ι) next

/-! ## The property -/

/-- The state a body keeps the word in, from its entry to its last exchange. -/
def holding : Pc → Option ModuleState
  | .initBody _ => some .initStarted
  | .initExit _ => some .initStarted
  | .shutdownBody _ _ => some .shutdownStarted
  | .shutdownExit true _ => some .shutdownStarted
  | .allocatorBody _ => some .allocatorStarted
  | .allocatorExit _ => some .allocatorStarted
  | _ => none

/-- At most one call is in its guarded body. -/
def Exclusive (s : State ι) : Prop :=
  ∀ i j, (holding (s.pool i)).isSome → (holding (s.pool j)).isSome → i = j

/-- No step changes the error state. -/
def Absorbing (s : State ι) : Prop :=
  s.state = .internalError → ∀ a s', next s a = some s' → s'.state = .internalError

/-! ## An init beside a running shutdown -/

/-- Thread 0 is in the middle of a shutdown; thread 1 calls shutdown, loses, and runs the last
exchange; thread 2 then initialises. -/
def overlapRun : List (Label (Fin 3)) :=
  [.init 0] ++ List.replicate 10 (.advance 0 .success) ++ [.shutdown 0] ++ List.replicate 3 (.advance 0 .success) ++
    [.shutdown 1, .advance 1 .success, .advance 1 .success, .init 2, .advance 2 .success]

theorem init_during_shutdown :
    ¬ ∀ s : State (Fin 3), (system (Fin 3)).Reachable s → Exclusive s ∧ Absorbing s := by
  intro h
  have hrun : ((StepSystem.runList next (State.start (Fin 3)) overlapRun).map fun s =>
      ((holding (s.pool 0)).isSome, (holding (s.pool 2)).isSome)) = some (true, true) := by
    decide +kernel
  obtain ⟨s, hs, hbodies⟩ := Option.map_eq_some_iff.mp hrun
  obtain ⟨hzero, htwo⟩ := Prod.mk.inj hbodies
  have hreach : (system (Fin 3)).Reachable s := StepSystem.reachable_runList (.init rfl) hs
  exact absurd ((h s hreach).1 0 2 hzero htwo) (by decide)

/-! ## Runs without it -/

/-- A shutdown that lost its entry does not find the state of a running one at its last exchange. -/
def Harmless (s : State ι) : Label ι → Prop
  | .advance i _ => (∃ r, s.pool i = .shutdownExit false r) → s.state ≠ .shutdownStarted
  | _ => True

omit [DecidableEq ι] in
theorem harmless_of_ne {s : State ι} (h : s.state ≠ .shutdownStarted) (a : Label ι) : Harmless s a := by
  cases a with
  | advance i result => exact fun _ => h
  | _ => exact trivial

/-- One body at most, and the word is in the state it keeps. -/
structure Inv (state : ModuleState) (pool : ι → Pc) : Prop where
  held : ∀ i st, holding (pool i) = some st → state = st
  exclusive : ∀ i j, (holding (pool i)).isSome → (holding (pool j)).isSome → i = j

theorem exchange_of_ne {state expected new : ModuleState} (h : state ≠ expected) :
    exchange state expected new = state := by
  rw [exchange, if_neg h]

/-- What a step of a thread does to the word and to its own body: it stays in its body, or outside;
it enters a body from a state no body keeps; or it ends its own. -/
inductive Effect (state : ModuleState) (pc : Pc) (state' : ModuleState) (pc' : Pc) : Prop
  | stays (hstate : state' = state) (hholding : holding pc' = holding pc)
  | enters (hfrom : state = .shutdown ∨ state = .initFinished) (hholding : holding pc' = some state')
  | leaves (hbody : (holding pc).isSome) (hholding : holding pc' = none)

theorem advance_effect {state : ModuleState} {result : Retcode} {pc : Pc}
    (h : (∃ r, pc = .shutdownExit false r) → state ≠ .shutdownStarted) :
    Effect state pc (pc.advance state result).1 (pc.advance state result).2 := by
  cases pc with
  | idle => exact .stays rfl rfl
  | initEnter =>
    by_cases hstate : state = .shutdown
    · subst hstate
      exact .enters (.inl rfl) rfl
    · refine .stays (exchange_of_ne hstate) ?_
      simp only [Pc.advance, if_neg hstate, holding]
  | initBody calls =>
    cases calls with
    | nil => exact .stays rfl rfl
    | cons call calls =>
      refine .stays rfl ?_
      simp only [Pc.advance]
      split_ifs <;> rfl
  | initExit retcode => exact .leaves rfl rfl
  | shutdownEnter =>
    by_cases hstate : state = .initFinished
    · subst hstate
      exact .enters (.inr rfl) rfl
    · refine .stays (exchange_of_ne hstate) ?_
      simp only [Pc.advance, if_neg hstate, holding]
  | shutdownBody calls retcode =>
    cases calls with
    | nil => exact .stays rfl rfl
    | cons call calls =>
      refine .stays rfl ?_
      simp only [Pc.advance]
      split_ifs <;> rfl
  | shutdownExit won retcode =>
    cases won with
    | true => exact .leaves rfl rfl
    | false => exact .stays (exchange_of_ne (h ⟨retcode, rfl⟩)) rfl
  | allocatorEnter given =>
    by_cases hstate : state = .shutdown
    · subst hstate
      refine .enters (.inl rfl) ?_
      cases given <;> rfl
    · refine .stays (exchange_of_ne hstate) ?_
      simp only [Pc.advance, if_neg hstate, holding]
  | allocatorBody calls =>
    cases calls with
    | nil => exact .stays rfl rfl
    | cons call calls =>
      refine .stays rfl ?_
      simp only [Pc.advance]
      split_ifs <;> rfl
  | allocatorExit retcode => exact .leaves rfl rfl
  | done retcode => exact .stays rfl rfl

theorem holding_ne {pc : Pc} {st : ModuleState} (h : holding pc = some st) : st ≠ .shutdown ∧ st ≠ .initFinished := by
  unfold holding at h
  split at h <;> cases h <;> decide

omit [DecidableEq ι] in
/-- The state word is a lock on the bodies. -/
theorem inv_iff {state : ModuleState} {pool : ι → Pc} : Inv state pool ↔ LockWord.Exclusive holding state pool :=
  ⟨fun hi => ⟨hi.held, hi.exclusive⟩, fun hi => ⟨hi.held, hi.exclusive⟩⟩

omit [DecidableEq ι] in
/-- In a state no body keeps, no body is running. -/
theorem Inv.none_of_free {state : ModuleState} {pool : ι → Pc} (hi : Inv state pool)
    (h : state = .shutdown ∨ state = .initFinished) (i : ι) : holding (pool i) = none := by
  apply (inv_iff.mp hi).none_of_free
  intro j hj
  obtain ⟨hshutdown, hfinished⟩ := holding_ne hj
  rcases h with h | h
  · exact hshutdown h
  · exact hfinished h

theorem inv_effect {state state' : ModuleState} {pool : ι → Pc} (hi : Inv state pool) {i : ι} {pc' : Pc}
    (h : Effect state (pool i) state' pc') : Inv state' (Function.update pool i pc') := by
  rw [inv_iff]
  rcases h with ⟨rfl, hholding⟩ | ⟨hfrom, hholding⟩ | ⟨hbody, hholding⟩
  · exact (inv_iff.mp hi).stays hholding
  · apply LockWord.Exclusive.alone fun j _ => hi.none_of_free hfrom j
    intro w hw
    rw [hholding] at hw
    exact Option.some.inj hw
  · -- the one body there was has ended
    apply LockWord.Exclusive.alone fun j hji => (inv_iff.mp hi).none_of_ne hbody hji
    intro w hw
    rw [hholding] at hw
    cases hw

theorem inv_next {s s' : State ι} {a : Label ι} (hi : Inv s.state s.pool) (hsafe : Harmless s a)
    (h : next s a = some s') : Inv s'.state s'.pool := by
  have hcall : ∀ (i : ι) (pc : Pc), holding pc = none → s.call i pc = some s' → Inv s'.state s'.pool := by
    intro i pc hpc hstep
    simp only [State.call, Option.ite_none_right_eq_some, Option.some.injEq] at hstep
    obtain ⟨hidle, rfl⟩ := hstep
    refine inv_effect hi (.stays rfl ?_)
    rw [hpc, hidle]
    rfl
  cases a with
  | init i => exact hcall i _ rfl h
  | shutdown i => exact hcall i _ rfl h
  | setAllocators i given => exact hcall i _ rfl h
  | advance i result =>
    simp only [next, Option.ite_none_left_eq_some, Option.some.injEq] at h
    obtain ⟨-, rfl⟩ := h
    exact inv_effect hi (advance_effect hsafe)

/-! ## The error state -/

theorem advance_internalError (result : Retcode) (pc : Pc) :
    (pc.advance .internalError result).1 = .internalError := by
  cases pc with
  | initBody calls => cases calls <;> rfl
  | initExit retcode =>
    simp only [Pc.advance]
    split <;> rfl
  | shutdownBody calls retcode => cases calls <;> rfl
  | allocatorBody calls => cases calls <;> rfl
  | _ => rfl

theorem absorbing (s : State ι) : Absorbing s := by
  intro hstate a s' h
  have hcall : ∀ (i : ι) (pc : Pc), s.call i pc = some s' → s'.state = .internalError := by
    intro i pc hstep
    simp only [State.call, Option.ite_none_right_eq_some, Option.some.injEq] at hstep
    obtain ⟨-, rfl⟩ := hstep
    exact hstate
  cases a with
  | init i => exact hcall i _ h
  | shutdown i => exact hcall i _ h
  | setAllocators i given => exact hcall i _ h
  | advance i result =>
    simp only [next, Option.ite_none_left_eq_some, Option.some.injEq] at h
    obtain ⟨-, rfl⟩ := h
    show ((s.pool i).advance s.state result).1 = .internalError
    rw [hstate]
    exact advance_internalError result (s.pool i)

/-- **At most one guarded body.** In every run in which no losing shutdown finds a running shutdown at
its last exchange, at most one call is in its guarded body at any time, and the error state is final. -/
theorem bodies_exclusive {s : State ι} (h : ((system ι).guarded Harmless).Reachable s) : Exclusive s ∧ Absorbing s := by
  have hinv : Inv s.state s.pool := by
    refine h.guarded_invariant (P := fun s => Inv s.state s.pool) ?_ fun s a s' hi hsafe hstep =>
      inv_next hi hsafe hstep
    rintro s rfl
    refine ⟨fun i st hi => absurd hi (by simp [State.start, holding]), fun i j hi _ => ?_⟩
    exact absurd hi (by simp [State.start, holding])
  exact ⟨hinv.exclusive, absorbing s⟩

/-- A shutdown of thread 1 beside an initialisation of thread 0: it loses its entry, and its last exchange leaves
`INIT_STARTED` as it is. -/
theorem body_of_init :
    ∃ s : State (Fin 2), ((system (Fin 2)).guarded Harmless).Reachable s ∧ s.state = .initStarted ∧
      s.pool 0 = .initBody initCalls ∧ s.pool 1 = .done .error ∧ Exclusive s := by
  have hstep : ∀ (s s' : State (Fin 2)) (a : Label (Fin 2)), ((system (Fin 2)).guarded Harmless).Reachable s →
      s.state ≠ .shutdownStarted → next s a = some s' → ((system (Fin 2)).guarded Harmless).Reachable s' :=
    fun _ _ a hs hstate h => .step hs ⟨harmless_of_ne hstate a, h⟩
  have hcalled := hstep _ _ (.init 0) (.init rfl) (by decide) rfl
  have hentered := hstep _ _ (.advance 0 .success) hcalled (by decide) rfl
  have hshutdown := hstep _ _ (.shutdown 1) hentered (by decide) rfl
  have hlost := hstep _ _ (.advance 1 .success) hshutdown (by decide) rfl
  have hleft := hstep _ _ (.advance 1 .success) hlost (by decide) rfl
  exact ⟨_, hleft, rfl, rfl, rfl, (bodies_exclusive hleft).1⟩

end SubstanceConnector.Lifecycle
