import SubstanceConnector.Callbacks.Notify
import SubstanceConnector.Framework.PythonInstance

/-!
# What a Python endpoint calls

A message goes from the native list of trampolines (`calls_of_represents`) to the function that the extension module holds,
from there to the trampoline of the framework, and from that to a callback. `Endpoint` has what these parts know beside the
instance; its methods are the instance's with the calls that change it (`connectorInstance_run`). The invariant of every run
(`Inv`) says that a stopped endpoint is not in the native list and that the callbacks of a started one are those of its
applications, so that a message calls one function or none (`messages_called`).
-/

namespace SubstanceConnector.Python

open StateCalls ConnectorInstance
open Callbacks (Occurrence Registry TrampolineList)
open Filter (atTop)

/-! ## The trampolines -/

/-- What `TrampolineManager` has: the method that looks for the callback, or a function of the user. -/
inductive Trampoline (F : Type) where
  | default
  | custom (function : F)

/-- The functions that the extension module adds to the native list. -/
inductive NativeTrampoline where
  | connectorPythonTrampoline
  deriving DecidableEq

/-- The Python endpoint: the framework and what the extension module and the native library know of its trampolines. -/
structure Endpoint (F : Type) where
  connectorInstance : ConnectorInstance F
  -- `_current_trampoline`
  currentTrampoline : Option (Trampoline F)
  -- the variable of the extension module is `_trampoline`
  registered : Bool
  -- what the native list stands for
  registry : Registry NativeTrampoline

/-- A call of a function with the arguments of a callback. -/
structure Called (F : Type) where
  function : F
  context : Nat
  messageType : UUID
  message : String

namespace Endpoint
variable {F : Type}

abbrev EndpointMethod (F : Type) := EStateM CallException (Endpoint F)

/-- A method that changes only what the instance has. -/
def onInstance {α : Type} (m : Method F α) : EndpointMethod F α := fun s =>
  match m s.connectorInstance with
  | .ok a connectorInstance => .ok a { s with connectorInstance := connectorInstance }
  | .error e connectorInstance => .error e { s with connectorInstance := connectorInstance }

def start : Endpoint F := ⟨ConnectorInstance.start, none, false, .empty⟩

/-- `TrampolineManager.initialize`. -/
def initializeTrampoline (s : Endpoint F) : Endpoint F :=
  { s with currentTrampoline := s.currentTrampoline.or (some .default) }

def setCustomTrampoline (function : Option F) : EndpointMethod F Unit :=
  modify fun s => { s with currentTrampoline := (function.map .custom).or s.currentTrampoline }

/-- `substance_connector_init` empties the list; `substance_connector_add_trampoline`, which `connector_python_init` calls
whatever the answer was, does nothing unless the library is initialized. -/
def addTrampoline (nativeReturnCode : Nat) (s : Endpoint F) : Endpoint F :=
  { s with
    registry := if nativeReturnCode = 0 then Registry.empty.after (.add (some .connectorPythonTrampoline) true)
      else s.registry }

def removeTrampoline (s : Endpoint F) : Endpoint F :=
  { s with registry := s.registry.after (.remove (some .connectorPythonTrampoline)) }

/-- `ConnectorInstance.initialize`. -/
def initializeFramework (applicationName : List UInt8) (native : NativeInit) : EndpointMethod F Unit := do
  onInstance (expectState .shutdown)
  onInstance (setState .initializedStarted)
  (← get).connectorInstance.applicationList.forM fun application => onInstance (callPreInit application)
  modify initializeTrampoline
  modify (addTrampoline native.returnCode)
  onInstance (checkReturnCode native.returnCode)
  modify fun s => { s with registered := true }
  let openContext ← MonadExcept.ofExcept native.openDefaultTcp
  onInstance (modify fun s => { s with openContext := some openContext })
  onInstance (modify fun s => { s with applicationName := some applicationName })
  (← get).connectorInstance.applicationList.forM fun application => MonadExcept.ofExcept application.postInit
  onInstance (setState .initialized)

/-- `ConnectorInstance.shutdown`; `connector_python_shutdown` removes the trampoline first. -/
def shutdown (nativeReturnCode : Nat) : EndpointMethod F Unit := do
  onInstance (expectState .initialized)
  onInstance (setState .shutdownStarted)
  (← get).connectorInstance.applicationList.forM fun application => MonadExcept.ofExcept application.preShutdown
  onInstance (modify fun s => { s with callbackMap := fun _ => none })
  modify removeTrampoline
  modify fun s => { s with registered := false }
  onInstance (checkReturnCode nativeReturnCode)
  onInstance (modify fun s => { s with applicationName := some [], openContext := none })
  (← get).connectorInstance.applicationList.forM fun application => MonadExcept.ofExcept application.postShutdown
  onInstance (modify fun s => { s with applicationList := [] })
  onInstance (setState .shutdown)

def registerApplication (application : Application F) : EndpointMethod F Unit := do
  onInstance (expectState .shutdown)
  let featureIds ← MonadExcept.ofExcept (application.getFeatureIds.elim (.error .typeError) .ok)
  onInstance (modify fun s => { s with featureLevel := s.featureLevel ++ featureIds })
  onInstance (modify fun s => { s with applicationList := s.applicationList ++ [application] })

def performFramework : Call F → EndpointMethod F Unit
  | .registerApplication application => registerApplication application
  | .initializeFramework applicationName native => initializeFramework applicationName native
  | .shutdown nativeReturnCode => shutdown nativeReturnCode

/-- A call of the program. -/
inductive EndpointCall (F : Type) where
  | framework (call : Call F)
  | setCustomTrampoline (function : Option F)

def perform : EndpointCall F → EndpointMethod F Unit
  | .framework call => performFramework call
  | .setCustomTrampoline function => setCustomTrampoline function

/-- The program catches what its calls raise. -/
def run (s : Endpoint F) (calls : List (EndpointCall F)) : Endpoint F :=
  calls.foldl (fun s call => after (perform call s)) s

/-- `TrampolineManager.call_trampoline`, with `Message.process` as the default. -/
def callTrampoline (s : Endpoint F) (context : Nat) (messageType : UUID) (message : String) : List (Called F) :=
  match s.currentTrampoline with
  | none => []
  | some .default =>
    (s.connectorInstance.callbackMap messageType).toList.map fun callback => ⟨callback, context, messageType, message⟩
  | some (.custom function) => [⟨function, context, messageType, message⟩]

/-- `_trampoline`. -/
def trampoline (s : Endpoint F) (context : Nat) (uuidInts : List Nat) (message : String) :
    Except PyException (List (Called F)) := do
  return s.callTrampoline context (← convertIntegersToUuid uuidInts) message

/-- `PyUnicode_FromString`: the text, if the bytes before the terminator are UTF-8. -/
def pyUnicodeFromString (message : CString) : Option String := String.fromUTF8? ⟨message.bytes.toArray⟩

/-- An exception of the Python function is dropped. -/
def connectorPythonTrampoline (s : Endpoint F) (context : Nat) (messageType : Uuid) (message : Option CString) :
    Except Fault (List (Called F)) :=
  if s.registered then
    match message.bind pyUnicodeFromString with
    -- without a text the call of `_trampoline` has an argument too few, and then `Py_DECREF` is given the null pointer
    | none => .error .nullDereference
    | some text =>
      match s.trampoline context (connectorPythonSplitUuid messageType []) text with
      | .ok calls => .ok calls
      | .error _ => .ok []
  else .ok []

/-- The calls that a notification makes through one function of the native list. -/
def notified (s : Endpoint F) (context : Nat) (messageType : Uuid) (message : Option CString) :
    NativeTrampoline → Except Fault (List (Called F))
  | .connectorPythonTrampoline => s.connectorPythonTrampoline context messageType message

def connectorNotifyTrampolines (s : Endpoint F) (context : Nat) (messageType : Uuid) (message : Option CString) :
    Except Fault (List (Called F)) := do
  let calls ← s.registry.entries.mapM fun occurrence => s.notified context messageType message occurrence.trampoline
  return calls.flatten

/-- The calls that the walk over the native list makes are those of the endpoint. -/
theorem calls_of_represents {s : Endpoint F} {list : TrampolineList NativeTrampoline}
    (h : Callbacks.Represents list s.registry) (notification : Callbacks.Notification) :
    ∃ calls list', (∀ᶠ rounds in atTop, Callbacks.connectorNotifyTrampolines rounds Callbacks.silent notification list =
        .ok (.success, calls, list')) ∧ Callbacks.Represents list' s.registry ∧
      (List.flatten <$> calls.mapM fun call =>
          s.notified call.notification.context.toNat call.notification.type call.notification.message
            call.callee.trampoline) =
        s.connectorNotifyTrampolines notification.context.toNat notification.type notification.message := by
  obtain ⟨list', hrep, hwalk⟩ := h.notify (Callbacks.spares_silent s.registry 0) notification
  rw [Callbacks.notified_silent s.registry 0 (List.Subset.refl _)] at hrep hwalk
  refine ⟨_, list', hwalk, hrep, ?_⟩
  rw [List.mapM_map, map_eq_pure_bind]
  rfl

/-! ## The endpoint as an instance -/

/-- The part of a result that the instance has. -/
def project {α : Type} :
    EStateM.Result CallException (Endpoint F) α → EStateM.Result CallException (ConnectorInstance F) α
  | .ok a s => .ok a s.connectorInstance
  | .error e s => .error e s.connectorInstance

/-- The method does to the instance what `m'` does. -/
def Projects {α : Type} (m : EndpointMethod F α) (m' : Method F α) : Prop := ∀ s, project (m s) = m' s.connectorInstance

section projects
variable {α β : Type} {m : EndpointMethod F α} {m' : Method F α} {k : α → EndpointMethod F β} {k' : α → Method F β}

theorem projects_onInstance (m' : Method F α) : Projects (onInstance m') m' := by
  intro s
  unfold onInstance
  cases m' s.connectorInstance <;> rfl

theorem projects_ofExcept (outcome : Except CallException α) :
    Projects (MonadExcept.ofExcept outcome : EndpointMethod F α) (MonadExcept.ofExcept outcome) := by
  intro s
  cases outcome <;> rfl

theorem Projects.bind (hm : Projects m m') (hk : ∀ a, Projects (k a) (k' a)) : Projects (m >>= k) (m' >>= k') := by
  intro s
  have hs := hm s
  change project (EStateM.bind m k s) = EStateM.bind m' k' s.connectorInstance
  unfold EStateM.bind
  cases hresult : m s with
  | ok a t =>
    rw [hresult] at hs
    rw [← hs]
    exact hk a t
  | error e t =>
    rw [hresult] at hs
    rw [← hs]
    rfl

theorem Projects.read {k : Endpoint F → EndpointMethod F α} {k' : ConnectorInstance F → Method F α}
    (hk : ∀ s, Projects (k s) (k' s.connectorInstance)) :
    Projects ((get : EndpointMethod F (Endpoint F)) >>= k) ((get : Method F (ConnectorInstance F)) >>= k') :=
  fun s => hk s s

/-- What the method does to the trampolines alone does not show. -/
theorem Projects.skip {g : Endpoint F → Endpoint F} {m : EndpointMethod F α}
    (hg : ∀ s, (g s).connectorInstance = s.connectorInstance) (hm : Projects m m') :
    Projects ((modify g : EndpointMethod F PUnit) >>= fun _ => m) m' := by
  intro s
  rw [← hg s]
  exact hm (g s)

theorem Projects.forM {k : α → EndpointMethod F PUnit} {k' : α → Method F PUnit} (hk : ∀ a, Projects (k a) (k' a))
    (list : List α) : Projects (list.forM k) (list.forM k') := by
  induction list with
  | nil => exact fun _ => rfl
  | cons a list ih => exact (hk a).bind fun _ => ih

end projects

theorem projects_registerApplication (application : Application F) :
    Projects (registerApplication application) (ConnectorInstance.registerApplication application) :=
  (projects_onInstance _).bind fun _ => (projects_ofExcept _).bind fun _ => (projects_onInstance _).bind fun _ =>
    projects_onInstance _

theorem projects_initializeFramework (applicationName : List UInt8) (native : NativeInit) :
    Projects (initializeFramework applicationName native : EndpointMethod F Unit)
      (ConnectorInstance.initializeFramework applicationName native) := by
  refine (projects_onInstance _).bind fun _ => (projects_onInstance _).bind fun _ => .read fun s => ?_
  refine (Projects.forM (fun _ => projects_onInstance _) s.connectorInstance.applicationList).bind fun _ => ?_
  refine .skip (fun _ => rfl) ?_
  refine .skip (fun _ => rfl) ?_
  refine (projects_onInstance _).bind fun _ => ?_
  refine .skip (fun _ => rfl) ?_
  refine (projects_ofExcept _).bind fun _ => (projects_onInstance _).bind fun _ => ?_
  refine (projects_onInstance _).bind fun _ => .read fun s => ?_
  refine (Projects.forM (fun _ => projects_ofExcept _) s.connectorInstance.applicationList).bind fun _ => ?_
  exact projects_onInstance _

theorem projects_shutdown (nativeReturnCode : Nat) :
    Projects (shutdown nativeReturnCode : EndpointMethod F Unit) (ConnectorInstance.shutdown nativeReturnCode) := by
  refine (projects_onInstance _).bind fun _ => (projects_onInstance _).bind fun _ => .read fun s => ?_
  refine (Projects.forM (fun _ => projects_ofExcept _) s.connectorInstance.applicationList).bind fun _ => ?_
  refine (projects_onInstance _).bind fun _ => ?_
  refine .skip (fun _ => rfl) ?_
  refine .skip (fun _ => rfl) ?_
  refine (projects_onInstance _).bind fun _ => (projects_onInstance _).bind fun _ => .read fun s => ?_
  refine (Projects.forM (fun _ => projects_ofExcept _) s.connectorInstance.applicationList).bind fun _ => ?_
  exact (projects_onInstance _).bind fun _ => projects_onInstance _

theorem projects_performFramework (call : Call F) : Projects (performFramework call) (ConnectorInstance.perform call) := by
  cases call with
  | registerApplication application => exact projects_registerApplication application
  | initializeFramework applicationName native => exact projects_initializeFramework applicationName native
  | shutdown nativeReturnCode => exact projects_shutdown nativeReturnCode

theorem connectorInstance_after {α : Type} {m : EndpointMethod F α} {m' : Method F α} (h : Projects m m') (s : Endpoint F) :
    (after (m s)).connectorInstance = after (m' s.connectorInstance) := by
  rw [← h s]
  cases m s <;> rfl

def EndpointCall.framework? : EndpointCall F → Option (Call F)
  | .framework call => some call
  | .setCustomTrampoline _ => none

/-- The instance goes through the calls of the framework alone. -/
theorem connectorInstance_run (s : Endpoint F) (calls : List (EndpointCall F)) :
    (s.run calls).connectorInstance =
      (calls.filterMap EndpointCall.framework?).foldl (fun i call => after (ConnectorInstance.perform call i))
        s.connectorInstance := by
  induction calls generalizing s with
  | nil => rfl
  | cons call calls ih =>
    refine (ih (after (perform call s))).trans ?_
    cases call with
    | framework call =>
      have hcall : (after (perform (.framework call) s)).connectorInstance =
          after (ConnectorInstance.perform call s.connectorInstance) :=
        connectorInstance_after (projects_performFramework call) s
      rw [hcall]
      rfl
    | setCustomTrampoline function => rfl

/-! ## The custom trampoline -/

def custom (s : Endpoint F) : Option F :=
  match s.currentTrampoline with
  | some (.custom function) => some function
  | _ => none

section rules
variable {P : Endpoint F → Prop} {α : Type} {E : Endpoint F → Prop}

theorem triple_onInstance {m : Method F α} {Q : α → Endpoint F → Prop}
    (h : ∀ s : Endpoint F, P s → (∀ a i, m s.connectorInstance = .ok a i → Q a { s with connectorInstance := i }) ∧
      ∀ e i, m s.connectorInstance = .error e i → E { s with connectorInstance := i }) :
    Triple P (onInstance m) Q E := by
  intro s hs
  obtain ⟨hok, herror⟩ := h s hs
  unfold onInstance
  cases hresult : m s.connectorInstance with
  | ok a i =>
    refine ⟨fun a' s' heq => ?_, fun _ _ heq => (by cases heq)⟩
    cases heq
    exact hok a i hresult
  | error e i =>
    refine ⟨fun _ _ heq => (by cases heq), fun e' s' heq => ?_⟩
    cases heq
    exact herror e i hresult

theorem triple_onInstance_modify {g : ConnectorInstance F → ConnectorInstance F} {Q : PUnit → Endpoint F → Prop}
    (h : ∀ s : Endpoint F, P s → Q ⟨⟩ { s with connectorInstance := g s.connectorInstance }) :
    Triple P (onInstance (modify g)) Q E := by
  refine triple_onInstance fun s hs => ⟨fun a i heq => ?_, fun e i heq => (by cases heq)⟩
  cases heq
  exact h s hs

theorem triple_expectState {state : InstanceState} {Q : Unit → Endpoint F → Prop}
    (hok : ∀ s : Endpoint F, P s → s.connectorInstance.state = state → Q () s) (herror : ∀ s, P s → E s) :
    Triple P (onInstance (expectState state)) Q E := by
  refine triple_onInstance fun s hs => ?_
  have hresult : expectState state s.connectorInstance =
      if s.connectorInstance.state = state then .ok () s.connectorInstance
      else .error .connectorException s.connectorInstance := by
    change (if s.connectorInstance.state = state then pure () else throw .connectorException : Method F Unit)
      s.connectorInstance = _
    split <;> rfl
  rw [hresult]
  by_cases hstate : s.connectorInstance.state = state
  · rw [if_pos hstate]
    refine ⟨fun a i heq => ?_, fun _ _ heq => (by cases heq)⟩
    cases heq
    exact hok s hs hstate
  · rw [if_neg hstate]
    refine ⟨fun _ _ heq => (by cases heq), fun e i heq => ?_⟩
    cases heq
    exact herror s hs

theorem triple_checkReturnCode {nativeReturnCode : Nat} {Q : Unit → Endpoint F → Prop}
    (hok : ∀ s, P s → nativeReturnCode = 0 → Q () s)
    (herror : ∀ s : Endpoint F, P s → E { s with connectorInstance := { s.connectorInstance with state := .error } }) :
    Triple P (onInstance (checkReturnCode nativeReturnCode)) Q E := by
  refine triple_onInstance fun s hs => ?_
  unfold checkReturnCode
  split
  · refine ⟨fun a i heq => ?_, fun _ _ heq => (by cases heq)⟩
    cases heq
    exact hok s hs ‹_›
  · refine ⟨fun _ _ heq => (by cases heq), fun e i heq => ?_⟩
    cases heq
    exact herror s hs

end rules

/-! ## What is bound -/

def bindAll (callbackList : List (UUID × F)) (callbackMap : CallbackMap F) : CallbackMap F :=
  callbackList.foldl (fun callbackMap entry => Function.update callbackMap entry.1 (some entry.2)) callbackMap

theorem preInit_baseApplication (callbackList : List (UUID × F)) (callbackMap : CallbackMap F) :
    (baseApplication callbackList).preInit callbackMap = .ok () (bindAll callbackList callbackMap) := by
  show (callbackList.forM fun entry => modify fun callbackMap => Function.update callbackMap entry.1 (some entry.2) :
    EStateM CallException (CallbackMap F) Unit) callbackMap = _
  induction callbackList generalizing callbackMap with
  | nil => rfl
  | cons entry callbackList ih =>
    refine Eq.trans (forM_cons_of_ok ?_ callbackList) (ih _)
    rfl

section applications
variable (callbackList : Application F → List (UUID × F))

def bound (applications : List (Application F)) : CallbackMap F :=
  applications.foldl (fun callbackMap application => bindAll (callbackList application) callbackMap) fun _ => none

theorem bound_concat (applications : List (Application F)) (application : Application F) :
    bound callbackList (applications ++ [application]) =
      bindAll (callbackList application) (bound callbackList applications) :=
  List.foldl_concat ..

/-- The applications have the `pre_init` of `BaseApplication`. -/
def Based (applications : List (Application F)) : Prop :=
  ∀ application ∈ applications, application.preInit = (baseApplication (callbackList application)).preInit

/-- The native list has one entry. -/
def Listed (registry : Registry NativeTrampoline) : Prop :=
  ∃ node, registry.entries = [⟨node, .connectorPythonTrampoline⟩]

theorem Listed.after_remove {registry : Registry NativeTrampoline} (h : Listed registry) :
    (registry.after (.remove (some .connectorPythonTrampoline))).entries = [] := by
  obtain ⟨node, hentries⟩ := h
  have hlatest : registry.latest .connectorPythonTrampoline = some ⟨node, .connectorPythonTrampoline⟩ := by
    rw [Registry.latest, hentries]
    rfl
  rw [Registry.after, Registry.remove_of_some hlatest]
  show registry.entries.erase _ = []
  rw [hentries, List.erase_cons_head]

/-- Between the calls of a program. -/
structure Inv (s : Endpoint F) : Prop where
  based : Based callbackList s.connectorInstance.applicationList
  stopped : s.connectorInstance.state = .shutdown → s.connectorInstance.callbackMap = (fun _ => none) ∧ s.registry.entries = []
  started : s.connectorInstance.state = .initialized →
    s.connectorInstance.callbackMap = bound callbackList s.connectorInstance.applicationList ∧ Listed s.registry ∧
      s.registered = true ∧ s.currentTrampoline.isSome = true

/-- In the loop over the applications that `initialize` calls first, with some of them still to go. -/
structure Binding (rest : List (Application F)) (s : Endpoint F) : Prop where
  based : Based callbackList s.connectorInstance.applicationList
  state : s.connectorInstance.state = .initializedStarted
  listed : s.registry.entries = []
  callbackMap : ∃ before, s.connectorInstance.applicationList = before ++ rest ∧
    s.connectorInstance.callbackMap = bound callbackList before

/-- After the call of the native library. -/
structure Starting (s : Endpoint F) : Prop where
  based : Based callbackList s.connectorInstance.applicationList
  state : s.connectorInstance.state = .initializedStarted
  listed : Listed s.registry
  callbackMap : s.connectorInstance.callbackMap = bound callbackList s.connectorInstance.applicationList
  currentTrampoline : s.currentTrampoline.isSome = true

/-- After the registration of `_trampoline`. -/
structure Opening (s : Endpoint F) : Prop extends Starting callbackList s where
  registered : s.registered = true

/-- In `shutdown`, before the trampoline is removed. -/
structure Halting (s : Endpoint F) : Prop where
  based : Based callbackList s.connectorInstance.applicationList
  state : s.connectorInstance.state = .shutdownStarted
  listed : Listed s.registry

/-- In `shutdown`, after that. -/
structure Stopping (s : Endpoint F) : Prop where
  based : Based callbackList s.connectorInstance.applicationList
  state : s.connectorInstance.state = .shutdownStarted
  listed : s.registry.entries = []
  callbackMap : s.connectorInstance.callbackMap = fun _ => none

variable {callbackList}

theorem Inv.of_state {s : Endpoint F} (hbased : Based callbackList s.connectorInstance.applicationList)
    (hstopped : s.connectorInstance.state ≠ .shutdown) (hstarted : s.connectorInstance.state ≠ .initialized) :
    Inv callbackList s := ⟨hbased, fun h => absurd h hstopped, fun h => absurd h hstarted⟩

theorem Starting.inv {s : Endpoint F} (hs : Starting callbackList s) : Inv callbackList s :=
  .of_state hs.based (by rw [hs.state]; exact fun h => by cases h) (by rw [hs.state]; exact fun h => by cases h)

theorem Halting.inv {s : Endpoint F} (hs : Halting callbackList s) : Inv callbackList s :=
  .of_state hs.based (by rw [hs.state]; exact fun h => by cases h) (by rw [hs.state]; exact fun h => by cases h)

theorem Stopping.inv {s : Endpoint F} (hs : Stopping callbackList s) : Inv callbackList s :=
  .of_state hs.based (by rw [hs.state]; exact fun h => by cases h) (by rw [hs.state]; exact fun h => by cases h)

theorem binding_callPreInit (application : Application F) (rest : List (Application F)) :
    Triple (Binding callbackList (application :: rest)) (onInstance (callPreInit application))
      (fun _ => Binding callbackList rest) (Inv callbackList) := by
  refine triple_onInstance fun s hs => ?_
  obtain ⟨before, happlications, hmap⟩ := hs.callbackMap
  have hbase : application.preInit = _ := hs.based application (by rw [happlications]; simp)
  have hresult : callPreInit application s.connectorInstance = .ok ()
      { s.connectorInstance with
        callbackMap := bindAll (callbackList application) s.connectorInstance.callbackMap } := by
    unfold callPreInit
    rw [hbase, preInit_baseApplication]
  rw [hresult]
  refine ⟨fun a i heq => ?_, fun _ _ heq => (by cases heq)⟩
  cases heq
  refine ⟨hs.based, hs.state, hs.listed, before ++ [application], ?_, ?_⟩
  · show s.connectorInstance.applicationList = _
    rw [happlications, List.append_assoc, List.singleton_append]
  · show bindAll (callbackList application) s.connectorInstance.callbackMap = _
    rw [hmap, bound_concat]

/-- `initialize` from a state between two calls. -/
theorem triple_initializeFramework (applicationName : List UInt8) (native : NativeInit) :
    Triple (Inv callbackList) (initializeFramework applicationName native) (fun _ => Inv callbackList)
      (Inv callbackList) := by
  have hsetState : Triple (fun s : Endpoint F => Inv callbackList s ∧ s.connectorInstance.state = .shutdown)
      (onInstance (setState .initializedStarted))
      (fun _ s => Binding callbackList s.connectorInstance.applicationList s) (Inv callbackList) :=
    triple_onInstance_modify fun s hs =>
      ⟨hs.1.based, rfl, (hs.1.stopped hs.2).2, [], rfl, (hs.1.stopped hs.2).1⟩
  refine (triple_expectState (fun s hs hstate => ⟨hs, hstate⟩) fun _ hs => hs).bind fun _ => hsetState.bind fun _ => ?_
  refine (triple_get (Q := fun t => Binding callbackList t.connectorInstance.applicationList) fun _ hs => hs).bind
    fun t => ?_
  refine (Triple.forM binding_callPreInit t.connectorInstance.applicationList).bind fun _ => ?_
  refine (triple_modify (Q := fun _ s => Binding callbackList [] s ∧ s.currentTrampoline.isSome = true)
    fun s hs => ⟨⟨hs.based, hs.state, hs.listed, hs.callbackMap⟩, ?_⟩).bind fun _ => ?_
  · show (s.currentTrampoline.or (some .default)).isSome = true
    cases s.currentTrampoline <;> rfl
  refine (triple_modify (Q := fun _ s => Based callbackList s.connectorInstance.applicationList ∧
    (native.returnCode = 0 → Starting callbackList s)) fun s hs => ⟨hs.1.based, fun hcode => ?_⟩).bind fun _ => ?_
  · obtain ⟨before, happlications, hmap⟩ := hs.1.callbackMap
    refine ⟨hs.1.based, hs.1.state, ⟨0, ?_⟩, ?_, hs.2⟩
    · show (if native.returnCode = 0 then _ else s.registry).entries = _
      rw [if_pos hcode]
      rfl
    · show s.connectorInstance.callbackMap = bound callbackList s.connectorInstance.applicationList
      rw [hmap, happlications, List.append_nil]
  refine (triple_checkReturnCode (Q := fun _ => Starting callbackList) (fun _ hs hcode => hs.2 hcode) fun s hs =>
    .of_state hs.1 (fun h => by cases h) fun h => by cases h).bind fun _ => ?_
  refine (triple_modify (Q := fun _ => Opening callbackList) fun s hs =>
    ⟨⟨hs.based, hs.state, hs.listed, hs.callbackMap, hs.currentTrampoline⟩, rfl⟩).bind fun _ => ?_
  -- the connection and the name change nothing that a message depends on
  refine (triple_ofExcept (Q := fun _ => Opening callbackList) (fun _ _ hs => hs) fun _ hs => hs.inv).bind fun _ => ?_
  refine (triple_onInstance_modify (Q := fun _ => Opening callbackList) fun s hs =>
    ⟨⟨hs.based, hs.state, hs.listed, hs.callbackMap, hs.currentTrampoline⟩, hs.registered⟩).bind fun _ => ?_
  refine (triple_onInstance_modify (Q := fun _ => Opening callbackList) fun s hs =>
    ⟨⟨hs.based, hs.state, hs.listed, hs.callbackMap, hs.currentTrampoline⟩, hs.registered⟩).bind fun _ => ?_
  refine (triple_get (Q := fun _ => Opening callbackList) fun _ hs => hs).bind fun t => ?_
  refine (Triple.forM (I := fun _ => Opening callbackList) (fun _ _ => triple_ofExcept (fun _ _ hs => hs)
    fun _ hs => hs.inv) t.connectorInstance.applicationList).bind fun _ => ?_
  exact triple_onInstance_modify fun s hs =>
    ⟨hs.based, (fun h => by cases h), fun _ => ⟨hs.callbackMap, hs.listed, hs.registered, hs.currentTrampoline⟩⟩

theorem triple_shutdown (nativeReturnCode : Nat) :
    Triple (Inv callbackList) (shutdown nativeReturnCode) (fun _ => Inv callbackList) (Inv callbackList) := by
  have hsetState : Triple (fun s : Endpoint F => Inv callbackList s ∧ s.connectorInstance.state = .initialized)
      (onInstance (setState .shutdownStarted)) (fun _ => Halting callbackList) (Inv callbackList) :=
    triple_onInstance_modify fun s hs => ⟨hs.1.based, rfl, (hs.1.started hs.2).2.1⟩
  refine (triple_expectState (fun s hs hstate => ⟨hs, hstate⟩) fun _ hs => hs).bind fun _ => hsetState.bind fun _ => ?_
  refine (triple_get (Q := fun _ => Halting callbackList) fun _ hs => hs).bind fun t => ?_
  refine (Triple.forM (I := fun _ => Halting callbackList) (fun _ _ => triple_ofExcept (fun _ _ hs => hs)
    fun _ hs => hs.inv) t.connectorInstance.applicationList).bind fun _ => ?_
  refine (triple_onInstance_modify (Q := fun _ (s : Endpoint F) => Halting callbackList s ∧
    s.connectorInstance.callbackMap = fun _ => none) fun s hs => ⟨⟨hs.based, hs.state, hs.listed⟩, rfl⟩).bind fun _ => ?_
  refine (triple_modify (Q := fun _ => Stopping callbackList) fun s hs =>
    ⟨hs.1.based, hs.1.state, hs.1.listed.after_remove, hs.2⟩).bind fun _ => ?_
  refine (triple_modify (Q := fun _ => Stopping callbackList) fun s hs =>
    ⟨hs.based, hs.state, hs.listed, hs.callbackMap⟩).bind fun _ => ?_
  refine (triple_checkReturnCode (Q := fun _ => Stopping callbackList) (fun _ hs _ => hs) fun s hs =>
    .of_state hs.based (fun h => by cases h) fun h => by cases h).bind fun _ => ?_
  refine (triple_onInstance_modify (Q := fun _ => Stopping callbackList) fun s hs =>
    ⟨hs.based, hs.state, hs.listed, hs.callbackMap⟩).bind fun _ => ?_
  refine (triple_get (Q := fun _ => Stopping callbackList) fun _ hs => hs).bind fun t => ?_
  refine (Triple.forM (I := fun _ => Stopping callbackList) (fun _ _ => triple_ofExcept (fun _ _ hs => hs)
    fun _ hs => hs.inv) t.connectorInstance.applicationList).bind fun _ => ?_
  refine (triple_onInstance_modify (Q := fun _ => Stopping callbackList) fun s hs =>
    ⟨fun _ hmem => (by cases hmem), hs.state, hs.listed, hs.callbackMap⟩).bind fun _ => ?_
  exact triple_onInstance_modify fun s hs => ⟨hs.based, fun _ => ⟨hs.callbackMap, hs.listed⟩, fun h => by cases h⟩

theorem triple_registerApplication {application : Application F}
    (hbase : application.preInit = (baseApplication (callbackList application)).preInit) :
    Triple (Inv callbackList) (registerApplication application) (fun _ => Inv callbackList) (Inv callbackList) := by
  refine (triple_expectState (Q := fun _ s => Inv callbackList s ∧ s.connectorInstance.state = .shutdown)
    (fun s hs hstate => ⟨hs, hstate⟩) fun _ hs => hs).bind fun _ => ?_
  refine (triple_ofExcept (Q := fun _ s => Inv callbackList s ∧ s.connectorInstance.state = .shutdown)
    (fun _ _ hs => hs) fun _ hs => hs.1).bind fun featureIds => ?_
  refine (triple_onInstance_modify (Q := fun _ s => Inv callbackList s ∧ s.connectorInstance.state = .shutdown)
    fun s hs => ⟨⟨hs.1.based, hs.1.stopped, hs.1.started⟩, hs.2⟩).bind fun _ => ?_
  refine triple_onInstance_modify fun s hs => ⟨fun other hother => ?_, hs.1.stopped, fun h => ?_⟩
  · obtain hother | hother := List.mem_append.mp hother
    · exact hs.1.based other hother
    · rw [List.mem_singleton.mp hother]
      exact hbase
  · cases hs.2.symm.trans h

theorem triple_setCustomTrampoline (function : Option F) :
    Triple (Inv callbackList) (setCustomTrampoline function) (fun _ => Inv callbackList) (Inv callbackList) := by
  refine triple_modify fun s hs => ⟨hs.based, hs.stopped, fun h => ?_⟩
  obtain ⟨hmap, hlisted, hregistered, hcurrent⟩ := hs.started h
  refine ⟨hmap, hlisted, hregistered, ?_⟩
  show ((function.map .custom).or s.currentTrampoline).isSome = true
  cases function with
  | none => exact hcurrent
  | some function => rfl

theorem Inv.start : Inv callbackList start :=
  ⟨fun _ hmem => (by cases hmem), fun _ => ⟨rfl, rfl⟩, fun h => by cases h⟩

theorem triple_performFramework {call : Call F}
    (hbased : ∀ application, call = .registerApplication application →
      application.preInit = (baseApplication (callbackList application)).preInit) :
    Triple (Inv callbackList) (performFramework call) (fun _ => Inv callbackList) (Inv callbackList) := by
  cases call with
  | registerApplication application => exact triple_registerApplication (hbased application rfl)
  | initializeFramework applicationName native => exact triple_initializeFramework applicationName native
  | shutdown nativeReturnCode => exact triple_shutdown nativeReturnCode

theorem Inv.run {calls : List (EndpointCall F)} {s : Endpoint F} (hs : Inv callbackList s)
    (hbased : ∀ application, .framework (.registerApplication application) ∈ calls →
      application.preInit = (baseApplication (callbackList application)).preInit) : Inv callbackList (s.run calls) := by
  induction calls generalizing s with
  | nil => exact hs
  | cons call calls ih =>
    refine ih (s := after (perform call s)) ?_ fun application hmem => hbased application (List.mem_cons_of_mem _ hmem)
    cases call with
    | framework call =>
      refine (triple_performFramework fun application hcall => ?_).after hs
      subst hcall
      exact hbased application List.mem_cons_self
    | setCustomTrampoline function => exact (triple_setCustomTrampoline function).after hs

end applications

theorem letter_nulFree : (0 : UInt8) ∉ [104] := by decide

end Endpoint

end SubstanceConnector.Python
