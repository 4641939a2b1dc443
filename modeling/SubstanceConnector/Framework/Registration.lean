import SubstanceConnector.Framework.Core
import SubstanceConnector.Library.LockWord
import SubstanceConnector.Library.StepSystem

/-!
# Registrations beside a shutdown

The calls of `registerApplication` and `shutdown` on any number of threads, each atomic operation and each operation on a
container one step. The startup state is a lock on the containers, but `shutdown` releases it before it clears the
applications and the features: a registration that takes it there is acknowledged and lost (`registration_lost`). In the
runs in which none does, what is acknowledged stays until the next shutdown starts, and no container is changed by two calls
at once (`registrations_kept`).
-/

namespace SubstanceConnector.Framework.Registration

variable {C : Type}

/-- Where a thread is. `preShutdown` carries the applications that the loop has still to go through, `unregisterCallbacks`
also what is left of the list of the one it is at. -/
inductive Pc (C : Type) where
  | idle
  | registerEnter (application : Nat) (featureIds : List Uuid)
  | find (application : Nat) (featureIds : List Uuid)
  | insert (application : Nat) (featureIds : List Uuid)
  | insertFeatures (application : Nat) (featureIds : List Uuid)
  | registerExit (application : Nat) (featureIds : List Uuid) (result : Bool)
  | shutdownEnter
  | beginPreShutdown
  | preShutdown (applications : List Nat)
  | unregisterCallbacks (application : Nat) (callbacks : List (CallbackPair C)) (applications : List Nat)
  | coreShutdown
  | postShutdown
  | storeShutdown
  | clearApplications
  | clearFeatures
  | done (result : Bool)

namespace Pc

/-- The next step of a thread; `coreShutdown` is what the library answers, if the step is its call. -/
def advance (s : Statics C) (coreShutdown : Retcode) : Pc C → Statics C × Pc C
  | .idle => (s, .idle)
  | .registerEnter application featureIds =>
    if s.startupState = .shutdown then ({ s with startupState := .addingApplication }, .find application featureIds)
    else (s, .done false)
  | .find application featureIds =>
    (s, if application ≠ 0 ∧ application ∉ s.applications then .insert application featureIds
      else .registerExit application featureIds false)
  | .insert application featureIds =>
    ({ s with applications := Insert.insert application s.applications }, .insertFeatures application featureIds)
  | .insertFeatures application featureIds =>
    ({ s with featureLevel := s.featureLevel ++ featureIds }, .registerExit application featureIds true)
  | .registerExit _ _ result => ({ s with startupState := .shutdown }, .done result)
  | .shutdownEnter =>
    if s.startupState = .initialized then ({ s with startupState := .shutdownStarted }, .beginPreShutdown)
    else (s, .done false)
  | .beginPreShutdown => (s, .preShutdown s.applications.sort)
  | .preShutdown [] => (s, .coreShutdown)
  | .preShutdown (application :: applications) =>
    (s, .unregisterCallbacks application (s.mCallbacks application) applications)
  | .unregisterCallbacks application [] applications =>
    ({ s with mCallbacks := Function.update s.mCallbacks application [] }, .preShutdown applications)
  | .unregisterCallbacks application (callback :: callbacks) applications =>
    ({ s with callbackMap := (unbindCallback s.callbackMap callback.1).2 },
      .unregisterCallbacks application callbacks applications)
  | .coreShutdown => (s, if coreShutdown = .success then .postShutdown else .done false)
  | .postShutdown => (s, .storeShutdown)
  | .storeShutdown => ({ s with startupState := .shutdown }, .clearApplications)
  | .clearApplications => ({ s with applications := ∅ }, .clearFeatures)
  | .clearFeatures => ({ s with featureLevel := [] }, .done true)
  | .done _ => (s, .idle)

/-- The state that a thread in its body has stored last. -/
def holding : Pc C → Option StartupState
  | .find _ _ => some .addingApplication
  | .insert _ _ => some .addingApplication
  | .insertFeatures _ _ => some .addingApplication
  | .registerExit _ _ _ => some .addingApplication
  | .beginPreShutdown => some .shutdownStarted
  | .preShutdown _ => some .shutdownStarted
  | .unregisterCallbacks _ _ _ => some .shutdownStarted
  | .coreShutdown => some .shutdownStarted
  | .postShutdown => some .shutdownStarted
  | .storeShutdown => some .shutdownStarted
  | .clearApplications => some .shutdown
  | .clearFeatures => some .shutdown
  | _ => none

/-- A shutdown has stored `CONNECTOR_SHUTDOWN` and not cleared both containers yet. -/
def clearing : Pc C → Bool
  | .clearApplications => true
  | .clearFeatures => true
  | _ => false

end Pc

/-- The containers of the framework. -/
inductive Container where
  | applications
  | featureLevel
  | callbackMap
  | mCallbacks (application : Nat)

/-- The container that the next step of a thread changes. -/
def Pc.changes : Pc C → Option Container
  | .insert _ _ => some .applications
  | .insertFeatures _ _ => some .featureLevel
  | .unregisterCallbacks application [] _ => some (.mCallbacks application)
  | .unregisterCallbacks _ (_ :: _) _ => some .callbackMap
  | .clearApplications => some .applications
  | .clearFeatures => some .featureLevel
  | _ => none

/-! ## The calls alone -/

section alone

/-- Steps of one thread without others between them. -/
def Alone (coreShutdown : Retcode) : Statics C × Pc C → Statics C × Pc C → Prop :=
  Relation.ReflTransGen fun x y => x.2.advance x.1 coreShutdown = y

variable {s : Statics C} {coreShutdown : Retcode}

theorem alone_registerApplication (s : Statics C) (coreShutdown : Retcode) (application : Nat) (featureIds : List Uuid) :
    Alone coreShutdown (s, .registerEnter application featureIds)
      ((s.registerApplication application featureIds).2, .done (s.registerApplication application featureIds).1) := by
  unfold Statics.registerApplication
  by_cases hstate : s.startupState = .shutdown
  · rw [if_pos hstate]
    -- the last step stores the state that the first has found
    have hreleased : { s with startupState := .shutdown } = s := by rw [← hstate]
    refine .head (if_pos hstate) ?_
    by_cases hnew : application ≠ 0 ∧ application ∉ s.applications
    · rw [if_pos hnew]
      refine .head (congrArg (Prod.mk _) (if_pos hnew)) (.head rfl (.head rfl (.single ?_)))
      exact congrArg (fun s : Statics C => ({ s with
        applications := Insert.insert application s.applications
        featureLevel := s.featureLevel ++ featureIds }, Pc.done true)) hreleased
    · rw [if_neg hnew]
      refine .head (congrArg (Prod.mk _) (if_neg hnew)) (.single ?_)
      exact congrArg (fun s : Statics C => (s, Pc.done false)) hreleased
  · rw [if_neg hstate]
    exact .single (if_neg hstate)

/-- The list of an application is unbound entry by entry. -/
theorem alone_unregisterCallbacks (s : Statics C) (coreShutdown : Retcode) (application : Nat)
    (callbacks : List (CallbackPair C)) (applications : List Nat) :
    Alone coreShutdown (s, .unregisterCallbacks application callbacks applications)
      ({ s with
        callbackMap := unregisterCallbacks callbacks s.callbackMap
        mCallbacks := Function.update s.mCallbacks application [] }, .preShutdown applications) := by
  induction callbacks generalizing s with
  | nil => exact .single rfl
  | cons callback callbacks ih => exact .head rfl (ih _)

theorem alone_preShutdown (s : Statics C) (coreShutdown : Retcode) (applications : List Nat) :
    Alone coreShutdown (s, .preShutdown applications)
      (applications.foldl (fun s application => s.applicationPreShutdown application) s, .coreShutdown) := by
  induction applications generalizing s with
  | nil => exact .single rfl
  | cons application applications ih =>
    exact .head rfl (.trans (alone_unregisterCallbacks s coreShutdown application _ applications) (ih _))

theorem alone_shutdown (s : Statics C) (coreShutdown : Retcode) :
    Alone coreShutdown (s, .shutdownEnter) ((s.shutdown coreShutdown).2, .done (s.shutdown coreShutdown).1) := by
  unfold Statics.shutdown
  by_cases hstate : s.startupState = .initialized
  · rw [if_pos hstate]
    refine .head (if_pos hstate) (.head rfl (.trans (alone_preShutdown _ coreShutdown _) ?_))
    by_cases hcore : coreShutdown = .success
    · simp only [hcore, if_true]
      exact .head rfl (.head rfl (.head rfl (.head rfl (.single rfl))))
    · simp only [hcore, if_false]
      exact .single (congrArg (Prod.mk _) (if_neg hcore))
  · rw [if_neg hstate]
    exact .single (if_neg hstate)

end alone

/-! ## The calls on threads -/

/-- The framework, the threads, and the registrations that were acknowledged since a shutdown started last, with their
feature identifiers. -/
structure State (ι C : Type) where
  statics : Statics C
  pool : ι → Pc C
  acknowledged : List (Nat × List Uuid)

inductive Label (ι : Type) where
  | registerApplication (i : ι) (application : Nat) (featureIds : List Uuid)
  | shutdown (i : ι)
  | advance (i : ι) (coreShutdown : Retcode)

/-- A registration is acknowledged when it releases the state, and a shutdown that takes the state ends all. -/
def Pc.acknowledge (startupState : StartupState) (acknowledged : List (Nat × List Uuid)) :
    Pc C → List (Nat × List Uuid)
  | .registerExit application featureIds true => (application, featureIds) :: acknowledged
  | .shutdownEnter => if startupState = .initialized then [] else acknowledged
  | _ => acknowledged

def Pc.isIdle : Pc C → Bool
  | .idle => true
  | _ => false

variable {ι : Type} [DecidableEq ι]

def State.call (s : State ι C) (i : ι) (pc : Pc C) : Option (State ι C) :=
  if (s.pool i).isIdle then some { s with pool := Function.update s.pool i pc } else none

def next (s : State ι C) : Label ι → Option (State ι C)
  | .registerApplication i application featureIds => s.call i (.registerEnter application featureIds)
  | .shutdown i => s.call i .shutdownEnter
  | .advance i coreShutdown =>
    some
      { statics := ((s.pool i).advance s.statics coreShutdown).1
        pool := Function.update s.pool i ((s.pool i).advance s.statics coreShutdown).2
        acknowledged := (s.pool i).acknowledge s.statics.startupState s.acknowledged }

/-- A registered application with its features. -/
def Kept (s : Statics C) (registration : Nat × List Uuid) : Prop :=
  registration.1 ∈ s.applications ∧ ∀ featureId ∈ registration.2, featureId ∈ s.featureLevel

/-- No call is running, and what was acknowledged is there. -/
def Starts (s : State ι C) : Prop := (∀ i, s.pool i = .idle) ∧ ∀ registration ∈ s.acknowledged, Kept s.statics registration

def system (ι C : Type) [DecidableEq ι] : StepSystem (State ι C) (Label ι) := .ofNext Starts next

/-- What is acknowledged is there, and no two threads are about to change one container. -/
def Safe (s : State ι C) : Prop :=
  (∀ registration ∈ s.acknowledged, Kept s.statics registration) ∧
    ∀ i j container, (s.pool i).changes = some container → (s.pool j).changes = some container → i = j

/-! ## A registration between the store and the clears -/

/-- The shutdown of thread 0 has stored the state; thread 1 registers; thread 0 clears the containers. -/
def overlapRun : List (Label (Fin 2)) :=
  [.shutdown 0] ++ List.replicate 6 (.advance 0 .success) ++ [.registerApplication 1 16 [connectorInternalHandshakeUuid]] ++
    List.replicate 5 (.advance 1 .success) ++ List.replicate 2 (.advance 0 .success)

/-- An initialized framework without applications. -/
def initializedState : State (Fin 2) Unit := ⟨⟨∅, .initialized, [], [], [], fun _ => none, fun _ => []⟩, fun _ => .idle, []⟩

theorem registration_lost : ¬ ∀ s : State (Fin 2) Unit, (system (Fin 2) Unit).Reachable s → Safe s := by
  intro h
  have hrun : ((StepSystem.runList next initializedState overlapRun).map fun s =>
      (s.statics.applications, s.acknowledged)) = some (∅, [(16, [connectorInternalHandshakeUuid])]) := by
    decide +kernel
  obtain ⟨s, hs, hlost⟩ := Option.map_eq_some_iff.mp hrun
  obtain ⟨happlications, hacknowledged⟩ := Prod.mk.inj hlost
  have hstarts : Starts initializedState := ⟨fun _ => rfl, fun _ h => absurd h List.not_mem_nil⟩
  have hreach : (system (Fin 2) Unit).Reachable s := StepSystem.reachable_runList (.init hstarts) hs
  have hkept := (h s hreach).1 (16, [connectorInternalHandshakeUuid])
  rw [hacknowledged, Kept, happlications] at hkept
  exact absurd (hkept List.mem_cons_self).1 (Finset.notMem_empty _)

/-! ## Runs without it -/

def Pc.isRegisterEnter : Pc C → Bool
  | .registerEnter _ _ => true
  | _ => false

/-- No registration takes the state while a shutdown clears the containers. -/
def Spaced (s : State ι C) : Label ι → Prop
  | .advance i _ =>
    (s.pool i).isRegisterEnter = true → s.statics.startupState = .shutdown → ∀ j, (s.pool j).clearing = false
  | _ => True

/-- What a thread in its body knows: a registration of what it has inserted, a shutdown that nothing is acknowledged. -/
def Pc.Sound (s : Statics C) (acknowledged : List (Nat × List Uuid)) : Pc C → Prop
  | .insertFeatures application _ => application ∈ s.applications
  | .registerExit application featureIds result => result = true → Kept s (application, featureIds)
  | pc => pc.holding = some .shutdownStarted ∨ pc.clearing = true → acknowledged = []

structure Inv (s : State ι C) : Prop where
  lock : LockWord.Exclusive Pc.holding s.statics.startupState s.pool
  kept : ∀ registration ∈ s.acknowledged, Kept s.statics registration
  sound : ∀ i, (s.pool i).Sound s.statics s.acknowledged

section pc
variable {pc : Pc C} {statics : Statics C} {acknowledged : List (Nat × List Uuid)}

theorem sound_of_none (hpc : pc.holding = none) : pc.Sound statics acknowledged := by
  cases pc <;> simp_all [Pc.Sound, Pc.holding, Pc.clearing]

theorem holding_ne_initialized : pc.holding ≠ some .initialized := by
  cases pc <;> simp [Pc.holding]

theorem clearing_of_holding (hpc : pc.holding = some .shutdown) : pc.clearing = true := by
  cases pc <;> simp_all [Pc.clearing, Pc.holding]

theorem holding_of_isIdle (hpc : pc.isIdle = true) : pc.holding = none := by
  cases pc <;> first | rfl | cases hpc

/-- A thread that is about to change a container is in its body. -/
theorem holding_of_changes {container : Container} (h : pc.changes = some container) : pc.holding.isSome := by
  cases pc <;> first | rfl | cases h

/-- A step outside the bodies that finds the state taken changes nothing. -/
theorem advance_blocked (coreShutdown : Retcode) (acknowledged : List (Nat × List Uuid)) (hpc : pc.holding = none)
    (hregister : pc.isRegisterEnter = true → statics.startupState ≠ .shutdown)
    (hshutdown : statics.startupState ≠ .initialized) :
    (pc.advance statics coreShutdown).1 = statics ∧ (pc.advance statics coreShutdown).2.holding = none ∧
      pc.acknowledge statics.startupState acknowledged = acknowledged := by
  cases pc with
  | idle => exact ⟨rfl, rfl, rfl⟩
  | registerEnter application featureIds =>
    rw [Pc.advance, if_neg (hregister rfl)]
    exact ⟨rfl, rfl, rfl⟩
  | shutdownEnter =>
    rw [Pc.advance, Pc.acknowledge, if_neg hshutdown, if_neg hshutdown]
    exact ⟨rfl, rfl, rfl⟩
  | done result => exact ⟨rfl, rfl, rfl⟩
  | _ => cases hpc

/-- A step keeps what the thread knows, what is acknowledged, and the state that its body holds. -/
theorem advance_own (coreShutdown : Retcode)
    (hheld : ∀ w, pc.holding = some w → statics.startupState = w)
    (hkept : ∀ registration ∈ acknowledged, Kept statics registration) (hsound : pc.Sound statics acknowledged) :
    (∀ w, (pc.advance statics coreShutdown).2.holding = some w → (pc.advance statics coreShutdown).1.startupState = w) ∧
    (∀ registration ∈ pc.acknowledge statics.startupState acknowledged,
      Kept (pc.advance statics coreShutdown).1 registration) ∧
    (pc.advance statics coreShutdown).2.Sound (pc.advance statics coreShutdown).1
      (pc.acknowledge statics.startupState acknowledged) := by
  have hnone : ∀ {statics' : Statics C} {pc' : Pc C}, pc'.holding = none →
      (∀ w, pc'.holding = some w → statics'.startupState = w) := by
    intro statics' pc' hpc' w hw
    rw [hpc'] at hw
    cases hw
  cases pc with
  | idle => exact ⟨hheld, hkept, hsound⟩
  | registerEnter application featureIds =>
    by_cases hstate : statics.startupState = .shutdown
    · rw [Pc.advance, if_pos hstate]
      refine ⟨fun w hw => Option.some.inj hw, hkept, fun h => ?_⟩
      rcases h with h | h <;> cases h
    · rw [Pc.advance, if_neg hstate]
      exact ⟨hnone rfl, hkept, sound_of_none rfl⟩
  | find application featureIds =>
    by_cases hnew : application ≠ 0 ∧ application ∉ statics.applications
    · rw [Pc.advance, if_pos hnew]
      exact ⟨hheld, hkept, hsound⟩
    · rw [Pc.advance, if_neg hnew]
      refine ⟨hheld, hkept, fun h => ?_⟩
      cases h
  | insert application featureIds =>
    refine ⟨hheld, fun registration hregistration => ?_, Finset.mem_insert_self _ _⟩
    obtain ⟨happlication, hfeatures⟩ := hkept registration hregistration
    exact ⟨Finset.mem_insert_of_mem happlication, hfeatures⟩
  | insertFeatures application featureIds =>
    refine ⟨hheld, fun registration hregistration => ?_, fun _ => ?_⟩
    · obtain ⟨happlication, hfeatures⟩ := hkept registration hregistration
      exact ⟨happlication, fun featureId h => List.mem_append_left _ (hfeatures featureId h)⟩
    · exact ⟨hsound, fun featureId h => List.mem_append_right _ h⟩
  | registerExit application featureIds result =>
    cases result with
    | false => exact ⟨hnone rfl, hkept, sound_of_none rfl⟩
    | true => exact ⟨hnone rfl, List.forall_mem_cons.mpr ⟨hsound rfl, hkept⟩, sound_of_none rfl⟩
  | shutdownEnter =>
    by_cases hstate : statics.startupState = .initialized
    · rw [Pc.advance, Pc.acknowledge, if_pos hstate, if_pos hstate]
      exact ⟨fun w hw => Option.some.inj hw, fun _ h => absurd h List.not_mem_nil, fun _ => rfl⟩
    · rw [Pc.advance, Pc.acknowledge, if_neg hstate, if_neg hstate]
      exact ⟨hnone rfl, hkept, sound_of_none rfl⟩
  | beginPreShutdown => exact ⟨hheld, hkept, hsound⟩
  | preShutdown applications => cases applications <;> exact ⟨hheld, hkept, hsound⟩
  | unregisterCallbacks application callbacks applications => cases callbacks <;> exact ⟨hheld, hkept, hsound⟩
  | coreShutdown =>
    by_cases hcore : coreShutdown = .success
    · rw [Pc.advance, if_pos hcore]
      exact ⟨hheld, hkept, hsound⟩
    · rw [Pc.advance, if_neg hcore]
      exact ⟨hnone rfl, hkept, sound_of_none rfl⟩
  | postShutdown => exact ⟨hheld, hkept, hsound⟩
  | storeShutdown => exact ⟨fun w hw => Option.some.inj hw, hkept, fun _ => hsound (.inl rfl)⟩
  | clearApplications =>
    obtain rfl : acknowledged = [] := hsound (.inr rfl)
    exact ⟨hheld, fun _ h => absurd h List.not_mem_nil, hsound⟩
  | clearFeatures =>
    obtain rfl : acknowledged = [] := hsound (.inr rfl)
    exact ⟨hnone rfl, fun _ h => absurd h List.not_mem_nil, sound_of_none rfl⟩
  | done result => exact ⟨hnone rfl, hkept, sound_of_none rfl⟩

end pc

/-- A thread that stays outside its body. -/
theorem Inv.outside {s : State ι C} (hs : Inv s) {i : ι} {pc : Pc C} (hnone : (s.pool i).holding = none)
    (hpc : pc.holding = none) : Inv { s with pool := Function.update s.pool i pc } := by
  refine ⟨hs.lock.stays (hpc.trans hnone.symm), hs.kept, fun j => ?_⟩
  by_cases hji : j = i
  · simp only [hji, Function.update_self]
    exact sound_of_none hpc
  · simp only [Function.update_of_ne hji]
    exact hs.sound j

theorem inv_call {s s' : State ι C} (hs : Inv s) {i : ι} {pc : Pc C} (hpc : pc.holding = none)
    (h : s.call i pc = some s') : Inv s' := by
  simp only [State.call, Option.ite_none_right_eq_some, Option.some.injEq] at h
  obtain ⟨hidle, rfl⟩ := h
  exact hs.outside (holding_of_isIdle hidle) hpc

theorem inv_advance {s s' : State ι C} (hs : Inv s) {i : ι} {coreShutdown : Retcode}
    (hspaced : Spaced s (.advance i coreShutdown)) (h : next s (.advance i coreShutdown) = some s') : Inv s' := by
  obtain rfl := Option.some.inj h
  obtain ⟨hheld, hkept, hsound⟩ := advance_own coreShutdown (hs.lock.held i) hs.kept (hs.sound i)
  by_cases hothers : ∀ j, j ≠ i → (s.pool j).holding = none
  · refine ⟨LockWord.Exclusive.alone hothers hheld, hkept, fun j => ?_⟩
    by_cases hji : j = i
    · simp only [hji, Function.update_self]
      exact hsound
    · simp only [Function.update_of_ne hji]
      exact sound_of_none (hothers j hji)
  · -- another thread is in its body, so that this one is not, and finds the state taken
    push Not at hothers
    obtain ⟨j, hji, hj⟩ := hothers
    obtain ⟨w, hw⟩ := Option.ne_none_iff_exists'.mp hj
    have hnone : (s.pool i).holding = none :=
      hs.lock.none_of_ne (Option.isSome_iff_exists.mpr ⟨w, hw⟩) hji.symm
    have hregister : (s.pool i).isRegisterEnter = true → s.statics.startupState ≠ .shutdown := by
      intro hregister hstate
      have hclearing := hspaced hregister hstate j
      rw [hs.lock.held j w hw] at hstate
      rw [hstate] at hw
      rw [clearing_of_holding hw] at hclearing
      cases hclearing
    have hshutdown : s.statics.startupState ≠ .initialized := by
      intro hstate
      rw [hs.lock.held j w hw] at hstate
      rw [hstate] at hw
      exact holding_ne_initialized hw
    obtain ⟨hstatics, hpc, hacknowledged⟩ := advance_blocked coreShutdown s.acknowledged hnone hregister hshutdown
    rw [hstatics, hacknowledged]
    exact hs.outside hnone hpc

theorem inv_next {s s' : State ι C} (hs : Inv s) {a : Label ι} (hspaced : Spaced s a) (h : next s a = some s') :
    Inv s' := by
  cases a with
  | registerApplication i application featureIds => exact inv_call hs rfl h
  | shutdown i => exact inv_call hs rfl h
  | advance i coreShutdown => exact inv_advance hs hspaced h

/-- In every run in which no registration takes the state while a shutdown clears the containers, what is acknowledged is
there until a shutdown starts, and no two calls are about to change one container. -/
theorem registrations_kept {s : State ι C} (h : ((system ι C).guarded Spaced).Reachable s) : Safe s := by
  have hinv : Inv s := by
    refine h.guarded_invariant ?_ fun s a s' hs hspaced hstep => inv_next hs hspaced hstep
    rintro s ⟨hidle, hkept⟩
    have hnone : ∀ i, (s.pool i).holding = none := by
      intro i
      rw [hidle i]
      rfl
    exact ⟨LockWord.exclusive_of_none hnone, hkept, fun i => sound_of_none (hnone i)⟩
  refine ⟨hinv.kept, fun i j container hi hj => ?_⟩
  exact hinv.lock.exclusive i j (holding_of_changes hi) (holding_of_changes hj)

instance [Fintype ι] (s : State ι C) : (a : Label ι) → Decidable (Spaced s a)
  | .registerApplication _ _ _ => inferInstanceAs (Decidable True)
  | .shutdown _ => inferInstanceAs (Decidable True)
  | .advance _ _ => inferInstanceAs (Decidable (_ → _ → ∀ _, _))

/-- The registration of the other run, after the shutdown has cleared the containers. -/
def spacedRun : List (Label (Fin 2)) :=
  [.shutdown 0] ++ List.replicate 8 (.advance 0 .success) ++ [.registerApplication 1 16 [connectorInternalHandshakeUuid]] ++
    List.replicate 5 (.advance 1 .success)

theorem registrations_kept_spaced : ∃ s : State (Fin 2) Unit, ((system (Fin 2) Unit).guarded Spaced).Reachable s ∧
    s.acknowledged = [(16, [connectorInternalHandshakeUuid])] ∧ Safe s := by
  have hrun : ((StepSystem.runList (StepSystem.gate Spaced next) initializedState spacedRun).map State.acknowledged) =
      some [(16, [connectorInternalHandshakeUuid])] := by
    decide +kernel
  obtain ⟨s, hs, hacknowledged⟩ := Option.map_eq_some_iff.mp hrun
  have hstarts : Starts initializedState := ⟨fun _ => rfl, fun _ h => absurd h List.not_mem_nil⟩
  have hinit : ((system (Fin 2) Unit).guarded Spaced).Reachable initializedState := .init hstarts
  have hreach := StepSystem.guarded_reachable_runList hinit hs
  exact ⟨s, hreach, hacknowledged, registrations_kept hreach⟩

end SubstanceConnector.Framework.Registration
