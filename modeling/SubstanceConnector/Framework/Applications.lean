import SubstanceConnector.Framework.Core

/-!
# The applications of the framework

`system.cpp`, `sendmesh.cpp` and `sendsbsar.cpp` list a callback for each of their message identifiers and advertise the same
identifiers as their features. No two of these classes share an identifier. So while the framework is initialized with at most
one object of each class, `connector_cpp_trampoline` calls for an identifier what the object of its class has for it and
nothing else, whatever the order of the pointers, and the advertised features are the identifiers that are bound
(`applications_dispatch`), over any number of life cycles.
-/

namespace SubstanceConnector.Framework

/-- What a `MessageCallback` that is not null points to: the static function of `System`, or a function of the user. -/
inductive MessageCallback (F : Type) where
  | connectionEstablished
  | recv (f : F)
  deriving DecidableEq

/-! ## The classes -/

inductive ApplicationKind where
  | system
  | mesh
  | sbsar
  deriving DecidableEq

namespace System

def sConnectionEstablishedId : Uuid := .ofWords 0x02572bc5 0x2d84450a 0x9e01d22c 0x66b1abb1

def sConnectionClosedId : Uuid := .ofWords 0x04705ddf 0x16d44489 0xaf6c6e3a 0x93f1959d

def sConnectionUpdateContextId : Uuid := .ofWords 0x39b07a67 0x49964b62 0xa340908a 0x81f66562

end System

namespace MeshApplication

def sLoadMeshId : Uuid := .ofWords 0xfad67b5b 0xe1414be7 0xb27ad6f6 0xa4f89424

def sUpdateMeshId : Uuid := .ofWords 0x7c3e3c65 0x0c1641d5 0x808b9537 0x59930ffe

def sRequestMeshConfigId : Uuid := .ofWords 0x685dd700 0x9d31455d 0x98a4431b 0xb039819a

def sRecMeshConfigId : Uuid := .ofWords 0x0b6d7b54 0xa90b4c05 0xb0f93592 0x71b2efbc

end MeshApplication

namespace SbsarApplication

def sLoadSbsarId : Uuid := .ofWords 0x91e3dfbc 0x80b84b1a 0x92d563ec 0x09ac641a

def sUpdateSbsarId : Uuid := .ofWords 0x1643e0bf 0x73444314 0x9cbf6107 0xe30e5ed7

end SbsarApplication

open MeshApplication SbsarApplication

/-- `getFeatureIds` of the classes. -/
def ApplicationKind.getFeatureIds : ApplicationKind → List Uuid
  | .system => [System.sConnectionUpdateContextId, System.sConnectionEstablishedId, System.sConnectionClosedId]
  | .mesh => [sLoadMeshId, sUpdateMeshId, sRecMeshConfigId, sRequestMeshConfigId]
  | .sbsar => [sLoadSbsarId, sUpdateSbsarId]

/-- An object of one of the classes, with its members. -/
inductive Application (F : Type) where
  | system (mRecvConnectionEstablished mRecvConnectionClosed mRecvConnectionContext : Option F)
  | mesh (mRecvLoadMesh mRecvMeshConfig mRecvUpdateMesh mRecvMeshConfigRequest : Option F)
  | sbsar (mRecvLoadSbsar mRecvUpdateSbsar : Option F)

namespace Application
variable {F : Type}

def kind : Application F → ApplicationKind
  | .system .. => .system
  | .mesh .. => .mesh
  | .sbsar .. => .sbsar

/-- A list with one member of the object. -/
def member (callback : Option F) : List (Option (MessageCallback F)) := [callback.map .recv]

/-- What `preInit` of the classes pushes. -/
def callbackPairs : Application F → List (CallbackPair (Option (MessageCallback F)))
  | .system mRecvConnectionEstablished mRecvConnectionClosed mRecvConnectionContext =>
    [(System.sConnectionEstablishedId, some .connectionEstablished :: member mRecvConnectionEstablished),
      (System.sConnectionClosedId, member mRecvConnectionClosed),
      (System.sConnectionUpdateContextId, member mRecvConnectionContext)]
  | .mesh mRecvLoadMesh mRecvMeshConfig mRecvUpdateMesh mRecvMeshConfigRequest =>
    [(sLoadMeshId, member mRecvLoadMesh), (sUpdateMeshId, member mRecvUpdateMesh),
      (sRecMeshConfigId, member mRecvMeshConfig), (sRequestMeshConfigId, member mRecvMeshConfigRequest)]
  | .sbsar mRecvLoadSbsar mRecvUpdateSbsar =>
    [(sLoadSbsarId, member mRecvLoadSbsar), (sUpdateSbsarId, member mRecvUpdateSbsar)]

/-- A class advertises the identifiers it has callbacks for. -/
theorem keys_perm (application : Application F) :
    (application.callbackPairs.map Prod.fst).Perm application.kind.getFeatureIds := by
  cases application with
  | system established closed context =>
    show List.Perm [System.sConnectionEstablishedId, System.sConnectionClosedId, System.sConnectionUpdateContextId]
      ApplicationKind.system.getFeatureIds
    decide
  | mesh load config update request => exact .refl _
  | sbsar load update => exact .refl _

theorem nodup_keys (application : Application F) : (application.callbackPairs.map Prod.fst).Nodup := by
  rw [application.keys_perm.nodup_iff]
  cases application.kind <;> decide

theorem mem_keys {application : Application F} {id : Uuid} :
    (application.callbackPairs.lookup id).isSome ↔ id ∈ application.kind.getFeatureIds := by
  rw [← application.keys_perm.mem_iff, List.lookup_isSome_iff, List.mem_map]
  constructor
  · rintro ⟨entry, hentry, hid⟩
    exact ⟨entry, hentry, (beq_iff_eq.mp hid).symm⟩
  · rintro ⟨entry, hentry, rfl⟩
    exact ⟨entry, hentry, beq_self_eq_true _⟩

/-- The function of the library is listed for an established connection only. -/
theorem eq_member_of_ne {application : Application F} {entry : CallbackPair (Option (MessageCallback F))}
    (h : entry ∈ application.callbackPairs) (hid : entry.1 ≠ System.sConnectionEstablishedId) :
    ∃ callback, entry.2 = member callback := by
  cases application with
  | system established closed context =>
    simp only [callbackPairs, List.mem_cons, List.not_mem_nil, or_false] at h
    obtain rfl | rfl | rfl := h
    · exact absurd rfl hid
    · exact ⟨closed, rfl⟩
    · exact ⟨context, rfl⟩
  | mesh load config update request =>
    simp only [callbackPairs, List.mem_cons, List.not_mem_nil, or_false] at h
    obtain rfl | rfl | rfl | rfl := h <;> exact ⟨_, rfl⟩
  | sbsar load update =>
    simp only [callbackPairs, List.mem_cons, List.not_mem_nil, or_false] at h
    obtain rfl | rfl := h <;> exact ⟨_, rfl⟩

end Application

/-- No identifier is of two classes. -/
theorem kind_eq_of_mem {k l : ApplicationKind} {id : Uuid} (hk : id ∈ k.getFeatureIds) (hl : id ∈ l.getFeatureIds) :
    k = l := by
  have hdisjoint : ∀ k l : ApplicationKind, k ≠ l → ∀ x ∈ k.getFeatureIds, x ∉ l.getFeatureIds := by
    intro k l
    cases k <;> cases l <;> decide
  by_contra hne
  exact hdisjoint k l hne id hk hl

/-! ## Calls -/

/-- A function that is called, and its arguments. -/
structure CallbackCall (F : Type) where
  callback : MessageCallback F
  context : UInt32
  messageType : Uuid
  message : Option CString
  deriving DecidableEq

/-- `connector_cpp_trampoline`: what it calls, in order. -/
def connectorCppTrampoline {F : Type} (callbackMap : CallbackMap (Option (MessageCallback F))) (context : UInt32)
    (messageType : Uuid) (message : Option CString) : List (CallbackCall F) :=
  (findCallbacks callbackMap messageType).filterMap fun callback =>
    callback.map fun f => ⟨f, context, messageType, message⟩

namespace Statics
variable {F : Type}

/-- A call of the framework whose applications are objects of these classes; `objects` is the class of the object under each
pointer, and the members may change between two life cycles. -/
inductive ObjectCall (F : Type) (objects : Nat → ApplicationKind) where
  | registerApplication (application : Nat)
  | init (displayName id : List UInt8) (members : Nat → Application F) (hmembers : ∀ a, (members a).kind = objects a)
  | shutdown

def ObjectCall.call {objects : Nat → ApplicationKind} : ObjectCall F objects → Call (Option (MessageCallback F))
  | .registerApplication application => .registerApplication application (objects application).getFeatureIds
  | .init displayName id members _ => .init displayName id fun a => (members a).callbackPairs
  | .shutdown => .shutdown

/-- What holds between calls beside `Bound`: the features are those of the registered objects, and lists are filled only while
the framework is initialized. -/
structure Filled (objects : Nat → ApplicationKind) (s : Statics (Option (MessageCallback F))) : Prop where
  features : ∀ id, id ∈ s.featureLevel ↔ ∃ a ∈ s.applications, id ∈ (objects a).getFeatureIds
  shutdown : s.startupState = .shutdown → ∀ a, s.mCallbacks a = []
  others : ∀ a, a ∉ s.applications → s.mCallbacks a = []

variable {objects : Nat → ApplicationKind} {s : Statics (Option (MessageCallback F))}

theorem filled_start : Filled objects (start fun _ => [] : Statics (Option (MessageCallback F))) :=
  ⟨fun id => by simp [start], fun _ _ => rfl, fun _ _ => rfl⟩

theorem Filled.after (hs : Filled objects s) (call : ObjectCall F objects) :
    Filled objects (s.after call.call) := by
  cases call with
  | registerApplication application =>
    show Filled objects (s.registerApplication _ _).2
    unfold Statics.registerApplication
    split
    case isTrue hstate =>
      split
      case isTrue hnew =>
        refine ⟨fun id => ?_, hs.shutdown, fun a _ => hs.shutdown hstate a⟩
        simp only [List.mem_append, hs.features id, Finset.mem_insert, exists_eq_or_imp]
        exact or_comm
      case isFalse => exact hs
    case isFalse => exact hs
  | init displayName id members hmembers =>
    show Filled objects (s.init _ _ _ _).2
    by_cases hstate : s.startupState = .shutdown
    · rw [init_of_shutdown hstate]
      refine ⟨hs.features, fun h => absurd h StartupState.noConfusion, fun a ha => ?_⟩
      exact (if_neg ha).trans (hs.shutdown hstate a)
    · rw [init_of_ne hstate]
      exact ⟨hs.features, hs.shutdown, hs.others⟩
  | shutdown =>
    show Filled objects (s.shutdown _).2
    by_cases hstate : s.startupState = .initialized
    · rw [shutdown_of_initialized hstate]
      have hempty : ∀ a, (if a ∈ s.applications then [] else s.mCallbacks a) = [] := by
        intro a
        split
        · rfl
        · rename_i ha
          exact hs.others a ha
      exact ⟨fun id => by simp, fun _ => hempty, fun a _ => hempty a⟩
    · rw [shutdown_of_ne hstate]
      exact hs

theorem filled_run (calls : List (ObjectCall F objects)) :
    Filled objects ((start fun _ => []).run (calls.map ObjectCall.call)) ∧
      Bound ((start fun _ => []).run (calls.map ObjectCall.call)) := by
  suffices h : ∀ s : Statics (Option (MessageCallback F)), Filled objects s → Bound s →
      Filled objects (s.run (calls.map ObjectCall.call)) ∧ Bound (s.run (calls.map ObjectCall.call)) from
    h _ filled_start (bound_start _)
  induction calls with
  | nil => exact fun s hs hbound => ⟨hs, hbound⟩
  | cons call calls ih => exact fun s hs hbound => ih _ (hs.after call) (hbound.after call.call)

/-- If no other application lists the identifier, the order of the applications does not matter. -/
theorem firstOf_of_unique {C : Type} {applications : List Nat} {lists : Nat → List (CallbackPair C)} {a : Nat} {id : Uuid}
    {callbacks : List C} (ha : a ∈ applications) (hlists : (lists a).lookup id = some callbacks)
    (hothers : ∀ b ∈ applications, b ≠ a → (lists b).lookup id = none) :
    firstOf applications lists id = some callbacks := by
  induction applications with
  | nil => cases ha
  | cons b applications ih =>
    rw [firstOf_cons]
    by_cases hb : b = a
    · rw [hb, hlists, Option.some_or]
    · rw [hothers b List.mem_cons_self hb, Option.none_or]
      exact ih ((List.mem_cons.mp ha).resolve_left (Ne.symm hb)) fun d hd => hothers d (List.mem_cons_of_mem _ hd)

theorem firstOf_isSome_iff {C : Type} {applications : List Nat} {lists : Nat → List (CallbackPair C)} {id : Uuid} :
    (firstOf applications lists id).isSome ↔ ∃ a ∈ applications, ((lists a).lookup id).isSome :=
  List.findSome?_isSome_iff

/-- What an initialization from a shut down state binds. -/
theorem callbackMap_init (hs : Filled objects s) (hbound : Bound s) (hstate : s.startupState = .shutdown)
    (displayName id : List UInt8) (members : Nat → Application F) :
    (s.init displayName id (fun a => (members a).callbackPairs) .success).2.callbackMap =
      firstOf s.applications.sort fun a => (members a).callbackPairs := by
  rw [init_of_shutdown hstate, hbound.shutdown hstate]
  funext messageType
  exact firstOf_congr (fun a _ => by rw [hs.shutdown hstate a, List.nil_append]) messageType

/-- The framework was initialized with at most one object of each class registered, after any calls that left it shut
down; `members` are the objects under the pointers. -/
def StartedWith (members : Nat → Application F) (applications : Finset Nat)
    (s : Statics (Option (MessageCallback F))) : Prop :=
  ∃ (objects : Nat → ApplicationKind) (calls : List (ObjectCall F objects)) (displayName id : List UInt8),
    (∀ a, (members a).kind = objects a) ∧
    ((start fun _ => []).run (calls.map ObjectCall.call)).startupState = .shutdown ∧
    ((start fun _ => []).run (calls.map ObjectCall.call)).applications = applications ∧
    (∀ a ∈ applications, ∀ b ∈ applications, objects a = objects b → a = b) ∧
    s = (((start fun _ => []).run (calls.map ObjectCall.call)).init displayName id
      (fun a => (members a).callbackPairs) .success).2

section started
variable {members : Nat → Application F} {applications : Finset Nat}

theorem StartedWith.callbackMap_eq (h : StartedWith members applications s) :
    s.callbackMap = firstOf applications.sort fun a => (members a).callbackPairs := by
  obtain ⟨objects, calls, displayName, id, -, hstate, rfl, -, rfl⟩ := h
  obtain ⟨hs, hbound⟩ := filled_run calls
  exact callbackMap_init hs hbound hstate displayName id members

theorem StartedWith.mem_featureLevel (h : StartedWith members applications s) (messageType : Uuid) :
    messageType ∈ s.featureLevel ↔ (s.callbackMap messageType).isSome := by
  rw [h.callbackMap_eq, firstOf_isSome_iff]
  obtain ⟨objects, calls, displayName, id, hmembers, hstate, rfl, -, rfl⟩ := h
  simp only [Finset.mem_sort, Application.mem_keys, hmembers]
  rw [← (filled_run calls).1.features messageType, init_of_shutdown hstate]

/-- What an object lists is bound, whatever the order of the pointers. -/
theorem StartedWith.binds (h : StartedWith members applications s) {a : Nat} (ha : a ∈ applications)
    {entry : CallbackPair (Option (MessageCallback F))} (hentry : entry ∈ (members a).callbackPairs) :
    s.callbackMap entry.1 = some entry.2 := by
  have hfound := Json.lookup_of_mem (members a).nodup_keys hentry
  have hid : entry.1 ∈ (members a).kind.getFeatureIds := by
    rw [← Application.mem_keys, hfound]
    rfl
  rw [h.callbackMap_eq]
  obtain ⟨objects, -, -, -, hmembers, -, -, hdistinct, -⟩ := h
  refine firstOf_of_unique ((Finset.mem_sort _).mpr ha) hfound fun b hb hne => ?_
  rw [← Option.not_isSome_iff_eq_none, Application.mem_keys]
  intro hother
  have hkinds := kind_eq_of_mem hother hid
  rw [hmembers, hmembers] at hkinds
  exact hne (hdistinct b ((Finset.mem_sort _).mp hb) a ha hkinds)

/-- **The callbacks of a class are called for its identifiers.** After any calls that leave the framework shut down with at
most one object of each class registered, an initialization makes the trampoline call, for each identifier that an object
lists, the callbacks of this object that are not null, in order; the features that are advertised are exactly the identifiers
that are bound, and for any other the trampoline calls nothing. -/
theorem applications_dispatch (h : StartedWith members applications s) :
    (∀ a ∈ applications, ∀ entry ∈ (members a).callbackPairs, ∀ context message,
      connectorCppTrampoline s.callbackMap context entry.1 message =
        entry.2.filterMap fun callback => callback.map fun f => ⟨f, context, entry.1, message⟩) ∧
    ∀ messageType, (messageType ∈ s.featureLevel ↔ (s.callbackMap messageType).isSome) ∧
      (messageType ∉ s.featureLevel → ∀ context message,
        connectorCppTrampoline s.callbackMap context messageType message = []) := by
  refine ⟨fun a ha entry hentry context message => ?_, fun messageType => ⟨h.mem_featureLevel messageType, ?_⟩⟩
  · rw [connectorCppTrampoline, findCallbacks, h.binds ha hentry, Option.getD_some]
  · intro hmissing context message
    rw [h.mem_featureLevel, Option.not_isSome_iff_eq_none] at hmissing
    rw [connectorCppTrampoline, findCallbacks, hmissing]
    rfl

end started

/-! ## Two objects -/

/-- A mesh application under a lower pointer than a system one, of which only one member is set. -/
def twoMembers (a : Nat) : Application Nat :=
  if a = 32 then .system (some 7) none (some 9) else .mesh none none (some 8) none

def twoStarted : Statics (Option (MessageCallback Nat)) :=
  (((start fun _ => []).run (([.registerApplication 16, .registerApplication 32] :
    List (ObjectCall Nat fun a => (twoMembers a).kind)).map ObjectCall.call)).init [65] [65]
      (fun a => (twoMembers a).callbackPairs) .success).2

theorem startedWith_twoStarted : StartedWith twoMembers {16, 32} twoStarted := by
  refine ⟨fun a => (twoMembers a).kind, [.registerApplication 16, .registerApplication 32], [65], [65], fun _ => rfl, rfl,
    by decide, by decide, rfl⟩

theorem twoStarted_established :
    connectorCppTrampoline twoStarted.callbackMap 3 System.sConnectionEstablishedId none =
      [⟨.connectionEstablished, 3, System.sConnectionEstablishedId, none⟩,
        ⟨.recv 7, 3, System.sConnectionEstablishedId, none⟩] :=
  (applications_dispatch startedWith_twoStarted).1 32 (by decide) (System.sConnectionEstablishedId, _) List.mem_cons_self
    3 none

end Statics

end SubstanceConnector.Framework
