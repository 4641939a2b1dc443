import SubstanceConnector.Framework.PythonUuid
import SubstanceConnector.Library.Json
import SubstanceConnector.Library.StateCalls

/-!
# The Python instance

`instance.py`: the applications are registered while the instance is shut down, their methods are called around the calls of
the native library, and the list of applications is emptied at the end of a shutdown. The feature level is not: it has
the identifiers of every application registered since the program started (`featureLevel_run`), so that the context of a
connection is right only as long as the applications of earlier life cycles had none (`available_features`).
-/

namespace SubstanceConnector.Python

open StateCalls

/-- What the methods raise. -/
inductive CallException where
  | connectorException
  | connectionError
  | typeError
  | keyError
  deriving DecidableEq

inductive InstanceState where
  | shutdown
  | initializedStarted
  | initialized
  | shutdownStarted
  | error
  deriving DecidableEq

instance : DecidableEq UUID := fun u v => decidable_of_iff (u.int = v.int) UUID.ext_iff.symm

/-- `_callback_map`. -/
abbrev CallbackMap (C : Type) := UUID → Option C

/-- The methods of an application class; `get_feature_ids` may give `None`. -/
structure Application (C : Type) where
  getFeatureIds : Option (List UUID)
  preInit : EStateM CallException (CallbackMap C) Unit
  postInit : Except CallException Unit
  preShutdown : Except CallException Unit
  postShutdown : Except CallException Unit

/-- `BaseApplication` with a list of callbacks: a later callback for an identifier takes the place of an earlier one. -/
def baseApplication {C : Type} (callbackList : List (UUID × C)) : Application C where
  getFeatureIds := none
  preInit := callbackList.forM fun entry => modify fun callbackMap => Function.update callbackMap entry.1 (some entry.2)
  postInit := .ok ()
  preShutdown := .ok ()
  postShutdown := .ok ()

/-- The attributes of the instance, of its application manager, and the callback map. -/
structure ConnectorInstance (C : Type) where
  applicationName : Option (List UInt8)
  state : InstanceState
  applicationList : List (Application C)
  openContext : Option Nat
  featureLevel : List UUID
  callbackMap : CallbackMap C

/-- What the native library answers to the calls of `initialize`. -/
structure NativeInit where
  returnCode : Nat
  openDefaultTcp : Except CallException Nat

/-- The attributes of a connection; the constructor takes any values. -/
structure ConnectionSchema where
  displayName : Json.Value
  idName : Json.Value
  connectorVersion : Json.Value
  availableFeatures : Json.Value

namespace ConnectorInstance
variable {C : Type}

/-- The attributes when the program starts. -/
def start : ConnectorInstance C := ⟨none, .shutdown, [], none, [], fun _ => none⟩

abbrev Method (C : Type) := EStateM CallException (ConnectorInstance C)

def setState (state : InstanceState) : Method C Unit := modify fun s => { s with state := state }

/-- The test that a method begins with. -/
def expectState (state : InstanceState) : Method C Unit := do
  let s ← get
  if s.state = state then pure () else throw .connectorException

def checkReturnCode (nativeReturnCode : Nat) : Method C Unit :=
  if nativeReturnCode = 0 then pure ()
  else do
    setState .error
    throw .connectorException

def registerApplication (application : Application C) : Method C Unit := do
  expectState .shutdown
  let featureIds ← MonadExcept.ofExcept (application.getFeatureIds.elim (.error .typeError) .ok)
  modify fun s => { s with featureLevel := s.featureLevel ++ featureIds }
  modify fun s => { s with applicationList := s.applicationList ++ [application] }

def callPreInit (application : Application C) : Method C Unit := fun s =>
  match application.preInit s.callbackMap with
  | .ok _ callbackMap => .ok () { s with callbackMap := callbackMap }
  | .error e callbackMap => .error e { s with callbackMap := callbackMap }

def initializeFramework (applicationName : List UInt8) (native : NativeInit) : Method C Unit := do
  expectState .shutdown
  setState .initializedStarted
  (← get).applicationList.forM callPreInit
  checkReturnCode native.returnCode
  let openContext ← MonadExcept.ofExcept native.openDefaultTcp
  modify fun s => { s with openContext := some openContext }
  modify fun s => { s with applicationName := some applicationName }
  (← get).applicationList.forM fun application => MonadExcept.ofExcept application.postInit
  setState .initialized

def shutdown (nativeReturnCode : Nat) : Method C Unit := do
  expectState .initialized
  setState .shutdownStarted
  (← get).applicationList.forM fun application => MonadExcept.ofExcept application.preShutdown
  modify fun s => { s with callbackMap := fun _ => none }
  checkReturnCode nativeReturnCode
  modify fun s => { s with applicationName := some [], openContext := none }
  (← get).applicationList.forM fun application => MonadExcept.ofExcept application.postShutdown
  modify fun s => { s with applicationList := [] }
  setState .shutdown

/-- `get_connection_context`, with the version of the library. -/
def getConnectionContext (s : ConnectorInstance C) (version : List UInt8) : ConnectionSchema where
  displayName := s.applicationName.elim .null .string
  idName := s.applicationName.elim .null .string
  connectorVersion := .string version
  availableFeatures := .array (s.featureLevel.map fun featureId => .string featureId.str)

/-! ## The feature level -/

theorem keeps_expectState (state : InstanceState) : Keeps featureLevel (expectState state : Method C Unit) :=
  keeps_get.bind fun _ => (keeps_pure ()).ite (keeps_throw _)

theorem keeps_setState (state : InstanceState) : Keeps featureLevel (setState state : Method C Unit) :=
  keeps_modify fun _ => rfl

theorem keeps_checkReturnCode (nativeReturnCode : Nat) :
    Keeps featureLevel (checkReturnCode nativeReturnCode : Method C Unit) :=
  (keeps_pure ()).ite ((keeps_setState _).bind fun _ => keeps_throw _)

theorem keeps_callPreInit (application : Application C) : Keeps featureLevel (callPreInit application) := by
  intro s
  unfold callPreInit
  cases application.preInit s.callbackMap <;> rfl

theorem keeps_forM (methods : Application C → Except CallException Unit) (applicationList : List (Application C)) :
    Keeps featureLevel (applicationList.forM fun application => MonadExcept.ofExcept (methods application) : Method C Unit) :=
  Keeps.forM (fun _ => keeps_ofExcept _) applicationList

/-- Neither of the two changes the features, whether it returns or raises. -/
theorem keeps_initializeFramework (applicationName : List UInt8) (native : NativeInit) :
    Keeps featureLevel (initializeFramework applicationName native : Method C Unit) := by
  refine Keeps.bind (keeps_expectState _) fun _ => ?_
  refine Keeps.bind (keeps_setState _) fun _ => ?_
  refine Keeps.bind keeps_get fun s => ?_
  refine Keeps.bind (Keeps.forM keeps_callPreInit s.applicationList) fun _ => ?_
  refine Keeps.bind (keeps_checkReturnCode _) fun _ => ?_
  refine Keeps.bind (keeps_ofExcept _) fun openContext => ?_
  refine Keeps.bind (keeps_modify fun _ => rfl) fun _ => ?_
  refine Keeps.bind (keeps_modify fun _ => rfl) fun _ => ?_
  refine Keeps.bind keeps_get fun s => ?_
  refine Keeps.bind (keeps_forM Application.postInit s.applicationList) fun _ => ?_
  exact keeps_setState _

theorem keeps_shutdown (nativeReturnCode : Nat) : Keeps featureLevel (shutdown nativeReturnCode : Method C Unit) := by
  refine Keeps.bind (keeps_expectState _) fun _ => ?_
  refine Keeps.bind (keeps_setState _) fun _ => ?_
  refine Keeps.bind keeps_get fun s => ?_
  refine Keeps.bind (keeps_forM Application.preShutdown s.applicationList) fun _ => ?_
  refine Keeps.bind (keeps_modify fun _ => rfl) fun _ => ?_
  refine Keeps.bind (keeps_checkReturnCode _) fun _ => ?_
  refine Keeps.bind (keeps_modify fun _ => rfl) fun _ => ?_
  refine Keeps.bind keeps_get fun s => ?_
  refine Keeps.bind (keeps_forM Application.postShutdown s.applicationList) fun _ => ?_
  refine Keeps.bind (keeps_modify fun _ => rfl) fun _ => ?_
  exact keeps_setState _

/-- A registration that returns adds the identifiers of the application. -/
theorem featureLevel_registerApplication {application : Application C} {s s' : ConnectorInstance C}
    (h : registerApplication application s = .ok () s') :
    s'.featureLevel = s.featureLevel ++ application.getFeatureIds.getD [] := by
  obtain ⟨_, t, hstate, h⟩ := bind_ok h
  obtain ⟨ids, u, hids, h⟩ := bind_ok h
  rw [← (keeps_expectState _).of_ok hstate]
  cases hfeatures : application.getFeatureIds with
  | none =>
    rw [hfeatures] at hids
    cases hids
  | some featureIds =>
    rw [hfeatures] at hids
    cases hids
    cases h
    rfl

/-! ## Runs -/

/-- A call of the program. -/
inductive Call (C : Type) where
  | registerApplication (application : Application C)
  | initializeFramework (applicationName : List UInt8) (native : NativeInit)
  | shutdown (nativeReturnCode : Nat)

def perform : Call C → Method C Unit
  | .registerApplication application => registerApplication application
  | .initializeFramework applicationName native => initializeFramework applicationName native
  | .shutdown nativeReturnCode => shutdown nativeReturnCode

/-- The applications registered before the last shutdown of some calls, and those registered since. -/
def registered : List (Call C) → List (Application C) × List (Application C) → List (Application C) × List (Application C)
  | [], x => x
  | .registerApplication application :: calls, (before, since) => registered calls (before, since ++ [application])
  | .initializeFramework _ _ :: calls, x => registered calls x
  | .shutdown _ :: calls, (before, since) => registered calls (before ++ since, [])

/-- The identifiers of some applications, one application after the other. -/
def featureIds (applications : List (Application C)) : List UUID :=
  applications.flatMap fun application => application.getFeatureIds.getD []

/-- Calls that all return leave the identifiers of all the applications that were registered. -/
theorem featureLevel_run {calls : List (Call C)} {s s' : ConnectorInstance C}
    {x : List (Application C) × List (Application C)} (hs : s.featureLevel = featureIds x.1 ++ featureIds x.2)
    (h : calls.forM perform s = .ok () s') :
    s'.featureLevel = featureIds (registered calls x).1 ++ featureIds (registered calls x).2 := by
  induction calls generalizing s x with
  | nil =>
    cases h
    exact hs
  | cons call calls ih =>
    obtain ⟨before, since⟩ := x
    obtain ⟨_, t, hcall, hrest⟩ := bind_ok h
    cases call with
    | registerApplication application =>
      refine ih (x := (before, since ++ [application])) ?_ hrest
      rw [featureLevel_registerApplication hcall, hs, List.append_assoc]
      simp [featureIds]
    | initializeFramework applicationName native =>
      exact ih (((keeps_initializeFramework applicationName native).of_ok hcall).trans hs) hrest
    | shutdown nativeReturnCode =>
      refine ih (x := (before ++ since, [])) ?_ hrest
      rw [(keeps_shutdown nativeReturnCode).of_ok hcall, hs]
      simp [featureIds]

/-- After calls that all return the context has the features of the applications registered since the last shutdown if and
only if no application registered before it has any. -/
theorem available_features {calls : List (Call C)} {s : ConnectorInstance C} (h : calls.forM perform start = .ok () s)
    (version : List UInt8) :
    (s.getConnectionContext version).availableFeatures =
        .array ((featureIds (registered calls ([], [])).2).map fun featureId => .string featureId.str) ↔
      ∀ application ∈ (registered calls ([], [])).1, application.getFeatureIds.getD [] = [] := by
  have hlevel : s.featureLevel = _ := featureLevel_run (x := ([], [])) rfl h
  rw [getConnectionContext, hlevel, List.map_append, Json.Value.array.injEq, List.append_left_eq_self,
    List.map_eq_nil_iff, featureIds, List.flatMap_eq_nil_iff]

/-- A life cycle with one feature, and the application of the next. -/
def secondCycle : List (Call Unit) :=
  let application (n : Nat) (h : n < 2 ^ 128) : Application Unit :=
    { baseApplication [] with getFeatureIds := some [⟨n, h⟩] }
  [.registerApplication (application 1 (by decide)), .initializeFramework [65] ⟨0, .ok 0⟩, .shutdown 0,
    .registerApplication (application 2 (by decide))]

/-- Before the first shutdown. -/
theorem available_features_first : ∃ s, (secondCycle.take 2).forM perform start = .ok () s ∧
    (s.getConnectionContext [49]).availableFeatures = .array [.string (UUID.str ⟨1, by decide⟩)] := by
  refine ⟨_, rfl, ?_⟩
  have hreturns : (secondCycle.take 2).forM perform start = .ok () _ := rfl
  exact (available_features hreturns [49]).mpr fun application h => absurd h List.not_mem_nil

theorem features_of_earlier_cycle : ∃ s, secondCycle.forM perform start = .ok () s ∧
    (s.getConnectionContext [49]).availableFeatures ≠
      .array ((featureIds (registered secondCycle ([], [])).2).map fun featureId => .string featureId.str) := by
  refine ⟨_, rfl, fun hfeatures => ?_⟩
  have hlength := congrArg List.length (Json.Value.array.inj hfeatures)
  revert hlength
  decide

end ConnectorInstance

end SubstanceConnector.Python
