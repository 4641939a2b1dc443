import SubstanceConnector.Framework.Schemas
import Mathlib.Data.Finset.Sort

/-!
# The framework

`core.cpp`, `application.cpp` and `callbacks.cpp`: the registered applications, the callbacks they bind while the
framework is started and unbind when it is stopped, and the names of the connection. The applications are a set of
pointers, gone through in the order of the pointers; a message identifier is bound by the first application that lists it.

While the framework is initialized its callback map is read off the lists of the applications, and is empty while it is
shut down (`Bound`), over any number of life cycles.
-/

namespace SubstanceConnector.Framework

/-! ## The callback map -/

abbrev CallbackMap (C : Type) := Uuid → Option (List C)

abbrev CallbackPair (C : Type) := Uuid × List C

section callbacks
variable {C : Type}

def bindCallback (callbackMap : CallbackMap C) (messageType : Uuid) (callbacks : List C) : Bool × CallbackMap C :=
  if (callbackMap messageType).isNone then (true, Function.update callbackMap messageType (some callbacks))
  else (false, callbackMap)

def unbindCallback (callbackMap : CallbackMap C) (messageType : Uuid) : Bool × CallbackMap C :=
  if (callbackMap messageType).isSome then (true, Function.update callbackMap messageType none) else (false, callbackMap)

def findCallbacks (callbackMap : CallbackMap C) (messageType : Uuid) : List C := (callbackMap messageType).getD []

def registerCallbacks (mCallbacks : List (CallbackPair C)) (callbackMap : CallbackMap C) : CallbackMap C :=
  mCallbacks.foldl (fun callbackMap callback => (bindCallback callbackMap callback.1 callback.2).2) callbackMap

def unregisterCallbacks (mCallbacks : List (CallbackPair C)) (callbackMap : CallbackMap C) : CallbackMap C :=
  mCallbacks.foldl (fun callbackMap callback => (unbindCallback callbackMap callback.1).2) callbackMap

end callbacks

/-! ## Applications and the life cycle -/

inductive StartupState where
  | shutdown
  | initStarted
  | initialized
  | shutdownStarted
  | addingApplication
  deriving DecidableEq

/-- The static variables of the framework and, under the pointers of the applications, their lists of callbacks. -/
@[ext] structure Statics (C : Type) where
  applications : Finset Nat
  startupState : StartupState
  featureLevel : List Uuid
  connectionDisplayName : List UInt8
  connectionId : List UInt8
  callbackMap : CallbackMap C
  mCallbacks : Nat → List (CallbackPair C)

namespace Statics
variable {C : Type}

/-- The statics when the program starts, with what the constructors of the applications listed. -/
def start (mCallbacks : Nat → List (CallbackPair C)) : Statics C := ⟨∅, .shutdown, [], [], [], fun _ => none, mCallbacks⟩

/-- An override of `preInit` that fills the list and calls `Application::preInit`. -/
def applicationPreInit (s : Statics C) (application : Nat) (pushed : List (CallbackPair C)) : Statics C :=
  let mCallbacks := s.mCallbacks application ++ pushed
  { s with
    mCallbacks := Function.update s.mCallbacks application mCallbacks
    callbackMap := registerCallbacks mCallbacks s.callbackMap }

/-- `Application::preShutdown`. -/
def applicationPreShutdown (s : Statics C) (application : Nat) : Statics C :=
  { s with
    callbackMap := unregisterCallbacks (s.mCallbacks application) s.callbackMap
    mCallbacks := Function.update s.mCallbacks application [] }

def preInit (s : Statics C) (pushed : Nat → List (CallbackPair C)) : Statics C :=
  s.applications.sort.foldl (fun s application => s.applicationPreInit application (pushed application)) s

def preShutdown (s : Statics C) : Statics C :=
  s.applications.sort.foldl (fun s application => s.applicationPreShutdown application) s

/-- `registerApplication`; the null pointer is 0 and `featureIds` is what `getFeatureIds` gives. -/
def registerApplication (s : Statics C) (application : Nat) (featureIds : List Uuid) : Bool × Statics C :=
  if s.startupState = .shutdown then
    if application ≠ 0 ∧ application ∉ s.applications then
      (true, { s with applications := insert application s.applications, featureLevel := s.featureLevel ++ featureIds })
    else (false, s)
  else (false, s)

/-- `init`: `pushed` is what each override of `preInit` puts into its list, and `coreInit` what the library answers. The
names are stored before the state is asked, and a refusal of the library leaves the state and the callbacks. -/
def init (s : Statics C) (displayName id : List UInt8) (pushed : Nat → List (CallbackPair C)) (coreInit : Retcode) :
    Bool × Statics C :=
  let s := { s with connectionDisplayName := displayName, connectionId := id }
  if s.startupState = .shutdown then
    let s := { s with startupState := .initStarted }.preInit pushed
    if coreInit = .success then (true, { s with startupState := .initialized }) else (false, s)
  else (false, s)

def shutdown (s : Statics C) (coreShutdown : Retcode) : Bool × Statics C :=
  if s.startupState = .initialized then
    let s := { s with startupState := .shutdownStarted }.preShutdown
    if coreShutdown = .success then
      (true, { s with startupState := .shutdown, applications := ∅, featureLevel := [] })
    else (false, s)
  else (false, s)

/-- `getConnectionContext`, with the library's version and the writer of JSON values. -/
def getConnectionContext (writeString : Json.Value → List UInt8) (version : List UInt8) (s : Statics C) :
    Except Json.LogicError (List UInt8) := do
  let connectionDetails : ConnectionSchema := ⟨s.connectionDisplayName, s.connectionId, version, s.featureLevel⟩
  return writeString (← connectionDetails.serialize .null)

end Statics

/-! ## What the callbacks of lists bind -/

section lists
variable {C : Type} {callbackMap : CallbackMap C}

theorem bindCallback_apply (callbackMap : CallbackMap C) (messageType id : Uuid) (callbacks : List C) :
    (bindCallback callbackMap messageType callbacks).2 id =
      (callbackMap id).or (if id = messageType then some callbacks else none) := by
  unfold bindCallback
  cases hbound : callbackMap messageType with
  | none =>
    rw [Option.isNone_none, if_pos rfl]
    by_cases hid : id = messageType
    · simp [hid, hbound]
    · simp [hid]
  | some callbacks =>
    rw [Option.isNone_some, if_neg Bool.false_ne_true]
    by_cases hid : id = messageType
    · simp [hid, hbound]
    · simp [hid]

theorem unbindCallback_apply (callbackMap : CallbackMap C) (messageType id : Uuid) :
    (unbindCallback callbackMap messageType).2 id = if id = messageType then none else callbackMap id := by
  unfold unbindCallback
  cases hbound : callbackMap messageType with
  | none =>
    rw [Option.isSome_none, if_neg Bool.false_ne_true]
    by_cases hid : id = messageType
    · simp [hid, hbound]
    · simp [hid]
  | some callbacks => simp [Function.update_apply]

/-- What is bound stays; what is not is bound to the first entry of the list. -/
theorem registerCallbacks_apply (mCallbacks : List (CallbackPair C)) (callbackMap : CallbackMap C) (id : Uuid) :
    registerCallbacks mCallbacks callbackMap id = (callbackMap id).or (mCallbacks.lookup id) := by
  unfold registerCallbacks
  induction mCallbacks generalizing callbackMap with
  | nil => simp
  | cons callback mCallbacks ih =>
    obtain ⟨messageType, callbacks⟩ := callback
    rw [List.foldl_cons, ih, bindCallback_apply, Option.or_assoc]
    by_cases hid : id = messageType
    · rw [if_pos hid, hid, List.lookup_cons_self, Option.some_or]
    · rw [if_neg hid, Json.lookup_cons_of_ne hid, Option.none_or]

/-- What the list has is not bound any more. -/
theorem unregisterCallbacks_apply (mCallbacks : List (CallbackPair C)) (callbackMap : CallbackMap C) (id : Uuid) :
    unregisterCallbacks mCallbacks callbackMap id = if (mCallbacks.lookup id).isSome then none else callbackMap id := by
  unfold unregisterCallbacks
  induction mCallbacks generalizing callbackMap with
  | nil => simp
  | cons callback mCallbacks ih =>
    obtain ⟨messageType, callbacks⟩ := callback
    rw [List.foldl_cons, ih, unbindCallback_apply]
    by_cases hid : id = messageType
    · rw [if_pos hid, hid, List.lookup_cons_self, Option.isSome_some, if_pos rfl, ite_self]
    · rw [if_neg hid, Json.lookup_cons_of_ne hid]

end lists

namespace Statics
variable {C : Type}

/-- The callbacks that the first of some applications lists for an identifier. -/
def firstOf (applications : List Nat) (mCallbacks : Nat → List (CallbackPair C)) (id : Uuid) : Option (List C) :=
  applications.findSome? fun application => (mCallbacks application).lookup id

theorem firstOf_congr {applications : List Nat} {mCallbacks mCallbacks' : Nat → List (CallbackPair C)}
    (h : ∀ application ∈ applications, mCallbacks application = mCallbacks' application) (id : Uuid) :
    firstOf applications mCallbacks id = firstOf applications mCallbacks' id := by
  unfold firstOf
  induction applications with
  | nil => rfl
  | cons application applications ih =>
    rw [List.findSome?_cons, List.findSome?_cons, h application List.mem_cons_self,
      ih fun other hother => h other (List.mem_cons_of_mem _ hother)]

theorem firstOf_cons (application : Nat) (applications : List Nat) (mCallbacks : Nat → List (CallbackPair C)) (id : Uuid) :
    firstOf (application :: applications) mCallbacks id =
      ((mCallbacks application).lookup id).or (firstOf applications mCallbacks id) := by
  rw [firstOf, List.findSome?_cons]
  cases (mCallbacks application).lookup id <;> rfl

/-- The lists are filled, and what was not bound is bound by the first application that lists it. -/
theorem preInit_loop (pushed : Nat → List (CallbackPair C)) {applications : List Nat} (hnodup : applications.Nodup)
    (s : Statics C) :
    applications.foldl (fun s application => s.applicationPreInit application (pushed application)) s =
      { s with
        mCallbacks := fun a => if a ∈ applications then s.mCallbacks a ++ pushed a else s.mCallbacks a
        callbackMap := fun id =>
          (s.callbackMap id).or (firstOf applications (fun a => s.mCallbacks a ++ pushed a) id) } := by
  induction applications generalizing s with
  | nil => simp [firstOf]
  | cons application applications ih =>
    obtain ⟨hnew, hrest⟩ := List.nodup_cons.mp hnodup
    have hother : ∀ a ∈ applications, Function.update s.mCallbacks application
        (s.mCallbacks application ++ pushed application) a = s.mCallbacks a := by
      intro a ha
      apply Function.update_of_ne
      rintro rfl
      exact hnew ha
    rw [List.foldl_cons, ih hrest, applicationPreInit]
    congr 1
    · funext id
      rw [firstOf_congr fun a ha => congrArg (· ++ pushed a) (hother a ha), firstOf_cons, ← Option.or_assoc,
        ← registerCallbacks_apply]
    · funext a
      by_cases ha : a = application
      · simp [ha, hnew]
      · simp [ha]

/-- The lists are emptied, and what an application lists is not bound any more. -/
theorem preShutdown_loop {applications : List Nat} (hnodup : applications.Nodup) (s : Statics C) :
    applications.foldl (fun s application => s.applicationPreShutdown application) s =
      { s with
        mCallbacks := fun a => if a ∈ applications then [] else s.mCallbacks a
        callbackMap := fun id => if (firstOf applications s.mCallbacks id).isSome then none else s.callbackMap id } := by
  induction applications generalizing s with
  | nil => simp [firstOf]
  | cons application applications ih =>
    obtain ⟨hnew, hrest⟩ := List.nodup_cons.mp hnodup
    have hother : ∀ a ∈ applications, Function.update s.mCallbacks application [] a = s.mCallbacks a := by
      intro a ha
      apply Function.update_of_ne
      rintro rfl
      exact hnew ha
    rw [List.foldl_cons, ih hrest, applicationPreShutdown]
    congr 1
    · funext id
      simp only [firstOf_congr hother, firstOf_cons, unregisterCallbacks_apply]
      cases (s.mCallbacks application).lookup id with
      | none => rfl
      | some callbacks => exact ite_self none
    · funext a
      by_cases ha : a = application
      · simp [ha, hnew]
      · simp [ha]

/-! ## What the calls do -/

theorem preInit_eq (s : Statics C) (pushed : Nat → List (CallbackPair C)) :
    s.preInit pushed =
      { s with
        mCallbacks := fun a => if a ∈ s.applications then s.mCallbacks a ++ pushed a else s.mCallbacks a
        callbackMap := fun id =>
          (s.callbackMap id).or (firstOf s.applications.sort (fun a => s.mCallbacks a ++ pushed a) id) } := by
  rw [preInit, preInit_loop pushed (Finset.sort_nodup _ _)]
  simp only [Finset.mem_sort]

theorem preShutdown_eq (s : Statics C) :
    s.preShutdown =
      { s with
        mCallbacks := fun a => if a ∈ s.applications then [] else s.mCallbacks a
        callbackMap := fun id =>
          if (firstOf s.applications.sort s.mCallbacks id).isSome then none else s.callbackMap id } := by
  rw [preShutdown, preShutdown_loop (Finset.sort_nodup _ _)]
  simp only [Finset.mem_sort]

/-- A call in another state stores the names and nothing else. -/
theorem init_of_ne {s : Statics C} (h : s.startupState ≠ .shutdown) (displayName id : List UInt8)
    (pushed : Nat → List (CallbackPair C)) (coreInit : Retcode) :
    s.init displayName id pushed coreInit = (false, { s with connectionDisplayName := displayName, connectionId := id }) :=
  if_neg h

/-- A call while the framework is shut down fills the lists, binds the callbacks, and asks the library then. -/
theorem init_of_shutdown {s : Statics C} (h : s.startupState = .shutdown) (displayName id : List UInt8)
    (pushed : Nat → List (CallbackPair C)) (coreInit : Retcode) :
    s.init displayName id pushed coreInit = (decide (coreInit = .success),
      { s with
        connectionDisplayName := displayName
        connectionId := id
        startupState := if coreInit = .success then .initialized else .initStarted
        mCallbacks := fun a => if a ∈ s.applications then s.mCallbacks a ++ pushed a else s.mCallbacks a
        callbackMap := fun id =>
          (s.callbackMap id).or (firstOf s.applications.sort (fun a => s.mCallbacks a ++ pushed a) id) }) := by
  simp only [init, h, if_true, preInit_eq]
  by_cases hcore : coreInit = .success
  · simp only [hcore, if_true, decide_true]
  · simp only [hcore, if_false, decide_false]

theorem shutdown_of_initialized {s : Statics C} (h : s.startupState = .initialized) :
    s.shutdown .success = (true,
      { s with
        applications := ∅
        startupState := .shutdown
        featureLevel := []
        mCallbacks := fun a => if a ∈ s.applications then [] else s.mCallbacks a
        callbackMap := fun id =>
          if (firstOf s.applications.sort s.mCallbacks id).isSome then none else s.callbackMap id }) := by
  simp only [shutdown, h, if_true, preShutdown_eq]

theorem shutdown_of_ne {s : Statics C} (h : s.startupState ≠ .initialized) (coreShutdown : Retcode) :
    s.shutdown coreShutdown = (false, s) := if_neg h

/-! ## Life cycles -/

/-- What the callback map binds: by the lists of the applications while the framework is initialized, nothing while it is
shut down, and it is in no other state between calls. -/
structure Bound (s : Statics C) : Prop where
  state : s.startupState = .shutdown ∨ s.startupState = .initialized
  initialized : s.startupState = .initialized → s.callbackMap = firstOf s.applications.sort s.mCallbacks
  shutdown : s.startupState = .shutdown → s.callbackMap = fun _ => none

theorem bound_start (mCallbacks : Nat → List (CallbackPair C)) : Bound (start mCallbacks) :=
  ⟨.inl rfl, nofun, fun _ => rfl⟩

theorem Bound.registerApplication {s : Statics C} (hs : Bound s) (application : Nat) (featureIds : List Uuid) :
    Bound (s.registerApplication application featureIds).2 := by
  unfold Statics.registerApplication
  split
  case isTrue hstate =>
    split
    case isTrue hnew =>
      exact ⟨.inl hstate, fun h => absurd (hstate.symm.trans h) (by decide), fun _ => hs.shutdown hstate⟩
    case isFalse => exact hs
  case isFalse => exact hs

theorem Bound.init {s : Statics C} (hs : Bound s) (displayName id : List UInt8)
    (pushed : Nat → List (CallbackPair C)) : Bound (s.init displayName id pushed .success).2 := by
  by_cases hstate : s.startupState = .shutdown
  · rw [init_of_shutdown hstate]
    refine ⟨.inr rfl, fun _ => ?_, nofun⟩
    funext messageType
    simp only [hs.shutdown hstate, Option.none_or]
    apply firstOf_congr
    intro a ha
    exact (if_pos ((Finset.mem_sort _).mp ha)).symm
  · rw [init_of_ne hstate]
    exact ⟨hs.state, hs.initialized, hs.shutdown⟩

theorem Bound.shutdown_success {s : Statics C} (hs : Bound s) : Bound (s.shutdown .success).2 := by
  by_cases hstate : s.startupState = .initialized
  · rw [shutdown_of_initialized hstate]
    refine ⟨.inl rfl, nofun, fun _ => ?_⟩
    funext messageType
    simp only [hs.initialized hstate]
    cases firstOf s.applications.sort s.mCallbacks messageType <;> rfl
  · rw [shutdown_of_ne hstate]
    exact hs

/-- A call of the framework, with what its environment answers; the library's calls succeed. -/
inductive Call (C : Type) where
  | registerApplication (application : Nat) (featureIds : List Uuid)
  | init (displayName id : List UInt8) (pushed : Nat → List (CallbackPair C))
  | shutdown

def after (s : Statics C) : Call C → Statics C
  | .registerApplication application featureIds => (s.registerApplication application featureIds).2
  | .init displayName id pushed => (s.init displayName id pushed .success).2
  | .shutdown => (s.shutdown .success).2

def run (s : Statics C) (calls : List (Call C)) : Statics C := calls.foldl after s

theorem Bound.after {s : Statics C} (hs : Bound s) (call : Call C) : Bound (s.after call) := by
  cases call with
  | registerApplication application featureIds => exact hs.registerApplication application featureIds
  | init displayName id pushed => exact hs.init displayName id pushed
  | shutdown => exact hs.shutdown_success

theorem Bound.run {s : Statics C} (hs : Bound s) (calls : List (Call C)) : Bound (s.run calls) := by
  induction calls generalizing s with
  | nil => exact hs
  | cons call calls ih => exact ih (hs.after call)

/-- After any calls that the library does not refuse, the callback map of an initialized framework has for each
identifier what the first application lists, and after a shutdown no identifier is bound, no application or feature
registered, and the lists of the applications are empty. -/
theorem callbacks_bound (mCallbacks : Nat → List (CallbackPair C)) (calls : List (Call C)) :
    (((start mCallbacks).run calls).startupState = .initialized →
      ((start mCallbacks).run calls).callbackMap =
        firstOf ((start mCallbacks).run calls).applications.sort ((start mCallbacks).run calls).mCallbacks) ∧
    ∀ s, ((start mCallbacks).run calls).shutdown .success = (true, s) →
      (∀ id, s.callbackMap id = none ∧ findCallbacks s.callbackMap id = []) ∧ s.applications = ∅ ∧
        s.featureLevel = [] ∧ ∀ a ∈ ((start mCallbacks).run calls).applications, s.mCallbacks a = [] := by
  have hbound := (bound_start mCallbacks).run calls
  refine ⟨hbound.initialized, fun s hshutdown => ?_⟩
  have hstate : ((start mCallbacks).run calls).startupState = .initialized := by
    by_contra hne
    rw [shutdown_of_ne hne] at hshutdown
    cases hshutdown
  have hunbound := hbound.shutdown_success
  rw [hshutdown] at hunbound
  rw [shutdown_of_initialized hstate] at hshutdown
  cases hshutdown
  refine ⟨fun id => ?_, rfl, rfl, fun a ha => if_pos ha⟩
  have hnone := congrFun (hunbound.shutdown rfl) id
  exact ⟨hnone, congrArg (Option.getD · []) hnone⟩

/-- Two applications that list one identifier, over one life cycle. -/
theorem callbacks_bound_twice :
    let s := (start fun _ => []).run [.registerApplication 16 [], .registerApplication 32 [],
      .init [] [] fun a => [(connectorInternalHandshakeUuid, [a])]]
    s.callbackMap = firstOf s.applications.sort s.mCallbacks ∧ ∀ id, (s.shutdown .success).2.callbackMap id = none := by
  intro s
  have hbound := callbacks_bound (fun _ => []) [.registerApplication 16 [], .registerApplication 32 [],
    .init [] [] fun a => [(connectorInternalHandshakeUuid, [a])]]
  have hregistered : ((start fun _ => ([] : List (CallbackPair Nat))).run
      [.registerApplication 16 [], .registerApplication 32 []]).startupState = .shutdown := rfl
  have hinitialized : s.startupState = .initialized :=
    congrArg (fun answer => answer.2.startupState) (init_of_shutdown hregistered [] []
      (fun a => [(connectorInternalHandshakeUuid, [a])]) .success)
  refine ⟨hbound.1 hinitialized, fun id => ((hbound.2 (s.shutdown .success).2 ?_).1 id).1⟩
  change s.shutdown .success = _
  rw [shutdown_of_initialized hinitialized]

end Statics

end SubstanceConnector.Framework
