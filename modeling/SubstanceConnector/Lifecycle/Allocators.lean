import SubstanceConnector.Lifecycle.State
import SubstanceConnector.Queue.UintQueue

/-!
# Allocators and deallocators

`memory.c` and what `substance_connector_set_allocators`, `substance_connector_init` and
`substance_connector_shutdown` allocate and release, called one after the other in any order. Each block
carries the pair that was installed when it was allocated, and each call of `connector_free` on a block is
recorded with the deallocator it went to.

The two queues are released before the shutdown resets the pair. The application name is not: it is released
by the next initialisation, with whatever is installed then (`name_released_by_other`). Every other block is
released by its own deallocator, so all are exactly if that one finds its own (`released_matched_iff`).
-/

namespace SubstanceConnector.Allocators

open Lifecycle (ModuleState Subsystem initCalls shutdownCalls exchange)

/-- A block, with the pair installed when it was allocated. -/
structure Block (A D : Type) where
  allocator : A
  deallocator : D
  deriving DecidableEq

/-- A block passed to `connector_free`, and the deallocator installed then. -/
structure Release (A D : Type) where
  block : Block A D
  deallocator : D
  deriving DecidableEq

/-- A `connector_uint_queue_t*`, with the blocks of the queue and of its array. -/
inductive QueueBlocks (A D : Type) where
  | null
  | live (queue array : Block A D)
  | released

/-- The static state of `memory.c`, `configuration.c`, `context_queue.c` and `available_queue.c` that owns
blocks, and the state word. -/
structure Process (A D : Type) where
  state : ModuleState
  connectorMemoryAllocate : A
  connectorMemoryFree : D
  applicationName : Option (Block A D × CString)
  freeContexts : QueueBlocks A D
  connectionQueue : QueueBlocks A D
  released : List (Release A D)
  halted : Option Fault

/-- Whether each allocation of an initialisation returns a block. -/
structure Allocations where
  name : Bool
  freeContexts : Bool
  freeContextsArray : Bool
  connectionQueue : Bool
  connectionQueueArray : Bool

inductive Call (A D : Type) where
  | setAllocators (allocator : Option A) (deallocator : Option D)
  | init (name : Option CString) (o : Allocations)
  | shutdown

variable {A D : Type}

namespace Process

def connectorAllocate (p : Process A D) (allocated : Bool) : Option (Block A D) :=
  if allocated then some ⟨p.connectorMemoryAllocate, p.connectorMemoryFree⟩ else none

def connectorFree (p : Process A D) : Option (Block A D) → Process A D
  | none => p
  | some b => { p with released := p.released ++ [⟨b, p.connectorMemoryFree⟩] }

def connectorClearAllocators (malloc : A) (free : D) (p : Process A D) : Process A D :=
  { p with connectorMemoryAllocate := malloc, connectorMemoryFree := free }

/-- `connector_uint_queue_create`. A queue without an array is released, and its pointer returned. -/
def connectorUintQueueCreate (p : Process A D) (queueAllocated arrayAllocated : Bool) : Process A D × QueueBlocks A D :=
  match p.connectorAllocate queueAllocated with
  | none => (p, .null)
  | some queue =>
    match p.connectorAllocate arrayAllocated with
    | some array => (p, .live queue array)
    | none => (p.connectorFree (some queue), .released)

def connectorUintQueueDestroy (p : Process A D) : QueueBlocks A D → Process A D × Except Fault Retcode
  | .null => (p, .ok .error)
  | .live queue array => ((p.connectorFree (some array)).connectorFree (some queue), .ok .success)
  | .released => (p, .error .useAfterFree)

/-- `connector_set_application_name`, with `connector_strdup`, which writes into the copy without a test. -/
def connectorSetApplicationName (p : Process A D) (allocated : Bool) (name : Option CString) :
    Process A D × Except Fault Retcode :=
  let p := p.connectorFree (p.applicationName.map Prod.fst)
  match name with
  | none => ({ p with applicationName := none }, .ok .error)
  | some name =>
    match p.connectorAllocate allocated with
    | none => (p, .error .nullDereference)
    | some block => ({ p with applicationName := some (block, name) }, .ok .success)

/-- `connector_init_context_subsystem`: the identifiers are pushed into a queue that is not null. -/
def connectorInitContextSubsystem (p : Process A D) (queueAllocated arrayAllocated : Bool) :
    Process A D × Except Fault Retcode :=
  let created := p.connectorUintQueueCreate queueAllocated arrayAllocated
  let p := { created.1 with freeContexts := created.2 }
  match created.2 with
  | .null => (p, .ok .error)
  | .live _ _ => (p, .ok .success)
  | .released => (p, .error .useAfterFree)

/-- `connector_init_comm_subsystem`. The result of `connector_available_queue_init` is not tested. -/
def connectorInitCommSubsystem (p : Process A D) (queueAllocated arrayAllocated : Bool) :
    Process A D × Except Fault Retcode :=
  match p.connectionQueue with
  | .null =>
    let created := p.connectorUintQueueCreate queueAllocated arrayAllocated
    ({ created.1 with connectionQueue := created.2 }, .ok .success)
  | _ => (p, .ok .success)

def connectorShutdownContextSubsystem (p : Process A D) : Process A D × Except Fault Retcode :=
  let destroyed := p.connectorUintQueueDestroy p.freeContexts
  match destroyed.2 with
  | .ok .success => ({ destroyed.1 with freeContexts := .null }, destroyed.2)
  | _ => destroyed

def connectorShutdownCommSubsystem (p : Process A D) : Process A D × Except Fault Retcode :=
  let destroyed := p.connectorUintQueueDestroy p.connectionQueue
  match destroyed.2 with
  | .ok .success => ({ destroyed.1 with connectionQueue := .null }, destroyed.2)
  | _ => destroyed

/-- The calls of `substance_connector_init`. -/
def initCall (name : Option CString) (o : Allocations) (p : Process A D) : Subsystem → Process A D × Except Fault Retcode
  | .setApplicationName => p.connectorSetApplicationName o.name name
  | .initContextSubsystem => p.connectorInitContextSubsystem o.freeContexts o.freeContextsArray
  | .initCommSubsystem => p.connectorInitCommSubsystem o.connectionQueue o.connectionQueueArray
  -- the others allocate nothing
  | _ => (p, .ok .success)

def runInit (name : Option CString) (o : Allocations) : List Subsystem → Process A D → Process A D × Except Fault Retcode
  | [], p => (p, .ok .success)
  | call :: calls, p =>
    match p.initCall name o call with
    | (p, .ok .success) => runInit name o calls p
    | ended => ended

def substanceConnectorInit (p : Process A D) (name : Option CString) (o : Allocations) :
    Process A D × Except Fault Retcode :=
  if p.state = .shutdown then
    match runInit name o initCalls { p with state := .initStarted } with
    | (p, .ok .success) => ({ p with state := exchange p.state .initStarted .initFinished }, .ok .success)
    | (p, .ok retcode) => ({ p with state := exchange p.state .initStarted .internalError }, .ok retcode)
    | (p, .error fault) => (p, .error fault)
  else (p, .ok .error)

/-- The calls of `substance_connector_shutdown`. -/
def shutdownCall (malloc : A) (free : D) (p : Process A D) : Subsystem → Process A D × Except Fault Retcode
  | .shutdownContextSubsystem => p.connectorShutdownContextSubsystem
  | .shutdownCommSubsystem => p.connectorShutdownCommSubsystem
  | .clearAllocators => (p.connectorClearAllocators malloc free, .ok .success)
  -- no message has been sent or received and no trampoline added, so the others release nothing
  | _ => (p, .ok .success)

def runShutdown (malloc : A) (free : D) : List Subsystem → Retcode → Process A D → Process A D × Except Fault Retcode
  | [], retcode, p => (p, .ok retcode)
  | call :: calls, retcode, p =>
    match p.shutdownCall malloc free call with
    | (p, .ok result) => runShutdown malloc free calls (if retcode = .success then result else retcode) p
    | (p, .error fault) => (p, .error fault)

def substanceConnectorShutdown (malloc : A) (free : D) (p : Process A D) : Process A D × Except Fault Retcode :=
  if p.state = .initFinished then
    match runShutdown malloc free shutdownCalls .success { p with state := .shutdownStarted } with
    | (p, .ok retcode) => ({ p with state := exchange p.state .shutdownStarted .shutdown }, .ok retcode)
    | (p, .error fault) => (p, .error fault)
  else ({ p with state := exchange p.state .shutdownStarted .shutdown }, .ok .error)

def substanceConnectorSetAllocators (p : Process A D) (allocator : Option A) (deallocator : Option D) :
    Process A D × Except Fault Retcode :=
  if p.state = .shutdown then
    match allocator, deallocator with
    | some allocator, some deallocator =>
      ({ p with connectorMemoryAllocate := allocator, connectorMemoryFree := deallocator }, .ok .success)
    | _, _ => (p, .ok .invalid)
  else (p, .ok .invalid)

def call (malloc : A) (free : D) (p : Process A D) : Call A D → Process A D × Except Fault Retcode
  | .setAllocators allocator deallocator => p.substanceConnectorSetAllocators allocator deallocator
  | .init name o => p.substanceConnectorInit name o
  | .shutdown => p.substanceConnectorShutdown malloc free

/-- The process after the call. Nothing more happens once a call has left the defined behaviour of C. -/
def step (malloc : A) (free : D) (p : Process A D) (c : Call A D) : Process A D :=
  match p.halted with
  | some _ => p
  | none =>
    match p.call malloc free c with
    | (p, .ok _) => p
    | (p, .error fault) => { p with halted := some fault }

/-- Before the first call: the pair of the C library is installed. -/
def start (malloc : A) (free : D) : Process A D where
  state := .shutdown
  connectorMemoryAllocate := malloc
  connectorMemoryFree := free
  applicationName := none
  freeContexts := .null
  connectionQueue := .null
  released := []
  halted := none

end Process

def runCalls (malloc : A) (free : D) (calls : List (Call A D)) : Process A D :=
  calls.foldl (Process.step malloc free) (.start malloc free)

/-! ## The property -/

/-- The block went to the deallocator installed together with its allocator. -/
def Release.Matched (r : Release A D) : Prop := r.deallocator = r.block.deallocator

/-- An initialisation that runs its body finds the application name of an earlier one, if there is one,
allocated under the deallocator installed now. -/
def FindsItsOwn (p : Process A D) : Call A D → Prop
  | .init _ _ => p.halted = none → p.state = .shutdown →
      ∀ name ∈ p.applicationName, p.connectorMemoryFree = name.1.deallocator
  | _ => True

/-! ## One call -/

def QueueBlocks.OwnedBy (deallocator : D) : QueueBlocks A D → Prop
  | .live queue array => queue.deallocator = deallocator ∧ array.deallocator = deallocator
  | _ => True

/-- The blocks of the two queues were allocated under the pair installed now. -/
structure Owns (p : Process A D) : Prop where
  freeContexts : p.freeContexts.OwnedBy p.connectorMemoryFree
  connectionQueue : p.connectionQueue.OwnedBy p.connectorMemoryFree

/-- Between two calls no shutdown is running, and there are no queues after one. -/
structure Sound (p : Process A D) : Prop where
  owns : Owns p
  resting : p.state ≠ .shutdownStarted
  freeContexts : p.state = .shutdown → p.freeContexts = .null
  connectionQueue : p.state = .shutdown → p.connectionQueue = .null

/-- What was released on the way went to its own deallocator. -/
def Matching (p p' : Process A D) : Prop := ∃ rs, p'.released = p.released ++ rs ∧ ∀ r ∈ rs, r.Matched

theorem Matching.refl (p : Process A D) : Matching p p := ⟨[], (List.append_nil _).symm, fun _ h => by cases h⟩

theorem Matching.of_eq {p p' : Process A D} (h : p'.released = p.released) : Matching p p' :=
  ⟨[], by rw [h, List.append_nil], fun _ h => by cases h⟩

theorem Matching.trans {p q r : Process A D} (hpq : Matching p q) (hqr : Matching q r) : Matching p r := by
  obtain ⟨rs, hrs, hmatched⟩ := hpq
  obtain ⟨ss, hss, hmatched'⟩ := hqr
  refine ⟨rs ++ ss, by rw [hss, hrs, List.append_assoc], fun x hx => ?_⟩
  rcases List.mem_append.mp hx with hx | hx
  · exact hmatched x hx
  · exact hmatched' x hx

theorem Matching.forall_iff {p p' : Process A D} (h : Matching p p') :
    (∀ r ∈ p'.released, r.Matched) ↔ ∀ r ∈ p.released, r.Matched := by
  obtain ⟨rs, hrs, hmatched⟩ := h
  rw [hrs, List.forall_mem_append]
  exact and_iff_left hmatched

section calls
variable {p p' : Process A D}

theorem matching_free {b : Block A D} (h : b.deallocator = p.connectorMemoryFree) :
    Matching p (p.connectorFree (some b)) := by
  refine ⟨[⟨b, p.connectorMemoryFree⟩], rfl, fun r hr => ?_⟩
  rw [List.mem_singleton.mp hr]
  exact h.symm

/-- A subsystem call other than `connector_set_application_name` and `connector_clear_allocators`. -/
structure Tidy (p p' : Process A D) : Prop where
  matching : Matching p p'
  owns : Owns p'
  state : p'.state = p.state

theorem Tidy.trans {q : Process A D} (h : Tidy p p') (h' : Tidy p' q) : Tidy p q :=
  ⟨h.matching.trans h'.matching, h'.owns, h'.state.trans h.state⟩

theorem matching_create (p : Process A D) (queueAllocated arrayAllocated : Bool) :
    Matching p (p.connectorUintQueueCreate queueAllocated arrayAllocated).1 := by
  unfold Process.connectorUintQueueCreate Process.connectorAllocate
  cases queueAllocated with
  | false => exact Matching.refl p
  | true =>
    cases arrayAllocated with
    | false => exact matching_free rfl
    | true => exact Matching.refl p

theorem ownedBy_create (p : Process A D) (queueAllocated arrayAllocated : Bool) :
    (p.connectorUintQueueCreate queueAllocated arrayAllocated).2.OwnedBy p.connectorMemoryFree := by
  unfold Process.connectorUintQueueCreate Process.connectorAllocate
  cases queueAllocated with
  | false => exact trivial
  | true =>
    cases arrayAllocated with
    | false => exact trivial
    | true => exact ⟨rfl, rfl⟩

/-- Creating a queue changes nothing but what has been released. -/
theorem create_eq (p : Process A D) (queueAllocated arrayAllocated : Bool) :
    (p.connectorUintQueueCreate queueAllocated arrayAllocated).1 =
      { p with released := (p.connectorUintQueueCreate queueAllocated arrayAllocated).1.released } := by
  unfold Process.connectorUintQueueCreate Process.connectorAllocate
  cases queueAllocated with
  | false => rfl
  | true => cases arrayAllocated <;> rfl

theorem matching_destroy {q : QueueBlocks A D} (h : q.OwnedBy p.connectorMemoryFree) :
    Matching p (p.connectorUintQueueDestroy q).1 := by
  cases q with
  | null => exact Matching.refl p
  | released => exact Matching.refl p
  | live queue array => exact (matching_free h.2).trans (matching_free h.1)

theorem tidy_initContextSubsystem (h : Owns p) (queueAllocated arrayAllocated : Bool) :
    Tidy p (p.connectorInitContextSubsystem queueAllocated arrayAllocated).1 := by
  have hmatching := matching_create p queueAllocated arrayAllocated
  have howned := ownedBy_create p queueAllocated arrayAllocated
  have heq := create_eq p queueAllocated arrayAllocated
  have htidy : Tidy p { (p.connectorUintQueueCreate queueAllocated arrayAllocated).1 with
      freeContexts := (p.connectorUintQueueCreate queueAllocated arrayAllocated).2 } := by
    refine ⟨hmatching, ⟨?_, ?_⟩, ?_⟩ <;> rw [heq]
    · exact howned
    · exact h.connectionQueue
  unfold Process.connectorInitContextSubsystem
  dsimp only
  split <;> exact htidy

theorem tidy_initCommSubsystem (h : Owns p) (queueAllocated arrayAllocated : Bool) :
    Tidy p (p.connectorInitCommSubsystem queueAllocated arrayAllocated).1 := by
  have heq := create_eq p queueAllocated arrayAllocated
  unfold Process.connectorInitCommSubsystem
  split
  · refine ⟨matching_create p queueAllocated arrayAllocated, ⟨?_, ?_⟩, ?_⟩ <;> dsimp only <;> rw [heq]
    · exact h.freeContexts
    · exact ownedBy_create p queueAllocated arrayAllocated
  · exact ⟨Matching.refl p, h, rfl⟩

theorem tidy_initCall (name : Option CString) (o : Allocations) {call : Subsystem} (h : Owns p)
    (hcall : call ≠ .setApplicationName) : Tidy p (p.initCall name o call).1 := by
  cases call with
  | setApplicationName => exact absurd rfl hcall
  | initContextSubsystem => exact tidy_initContextSubsystem h _ _
  | initCommSubsystem => exact tidy_initCommSubsystem h _ _
  | _ => exact ⟨Matching.refl p, h, rfl⟩

theorem tidy_runInit (name : Option CString) (o : Allocations) (calls : List Subsystem) (h : Owns p)
    (hcalls : .setApplicationName ∉ calls) : Tidy p (Process.runInit name o calls p).1 := by
  induction calls generalizing p with
  | nil => exact ⟨Matching.refl p, h, rfl⟩
  | cons call calls ih =>
    obtain ⟨hcall, hcalls⟩ := List.ne_and_not_mem_of_not_mem_cons hcalls
    have htidy := tidy_initCall name o h (Ne.symm hcall)
    unfold Process.runInit
    split
    · rename_i heq
      rw [heq] at htidy
      exact htidy.trans (ih htidy.owns hcalls)
    · exact htidy

/-- The name is released, and replaced by a block of the pair installed now. -/
theorem setApplicationName_eq (p : Process A D) (allocated : Bool) (name : Option CString) :
    ∃ kept, (p.connectorSetApplicationName allocated name).1 =
      { p.connectorFree (p.applicationName.map Prod.fst) with applicationName := kept } := by
  unfold Process.connectorSetApplicationName Process.connectorAllocate
  cases name with
  | none => exact ⟨none, rfl⟩
  | some name =>
    cases allocated with
    | false => exact ⟨(p.connectorFree (p.applicationName.map Prod.fst)).applicationName, rfl⟩
    | true => exact ⟨some (_, name), rfl⟩

theorem owns_setApplicationName (h : Owns p) (allocated : Bool) (name : Option CString) :
    Owns (p.connectorSetApplicationName allocated name).1 := by
  obtain ⟨kept, heq⟩ := setApplicationName_eq p allocated name
  rw [heq]
  cases p.applicationName with
  | none => exact ⟨h.freeContexts, h.connectionQueue⟩
  | some old => exact ⟨h.freeContexts, h.connectionQueue⟩

theorem released_setApplicationName (p : Process A D) (allocated : Bool) (name : Option CString) :
    (∀ r ∈ (p.connectorSetApplicationName allocated name).1.released, r.Matched) ↔
      (∀ r ∈ p.released, r.Matched) ∧ ∀ name ∈ p.applicationName, p.connectorMemoryFree = name.1.deallocator := by
  obtain ⟨kept, heq⟩ := setApplicationName_eq p allocated name
  rw [heq]
  cases p.applicationName with
  | none => exact (and_iff_left fun _ h => by cases h).symm
  | some old =>
    show (∀ r ∈ p.released ++ [⟨old.1, p.connectorMemoryFree⟩], r.Matched) ↔ _
    rw [List.forall_mem_append, List.forall_mem_singleton]
    refine and_congr_right fun _ => ⟨fun h name hname => ?_, fun h => h old rfl⟩
    obtain rfl := Option.some.inj hname
    exact h

/-! ## Whole calls -/

/-- After the name only blocks of the pair installed now are released. -/
theorem runInit_initCalls (h : Owns p) (name : Option CString) (o : Allocations) :
    Matching (p.connectorSetApplicationName o.name name).1 (Process.runInit name o initCalls p).1 ∧
      Owns (Process.runInit name o initCalls p).1 ∧ (Process.runInit name o initCalls p).1.state = p.state := by
  have howns := owns_setApplicationName h o.name name
  have hstate : (p.connectorSetApplicationName o.name name).1.state = p.state := by
    obtain ⟨kept, heq⟩ := setApplicationName_eq p o.name name
    rw [heq]
    cases p.applicationName <;> rfl
  rw [initCalls, Process.runInit, Process.initCall]
  split
  · rename_i q heq
    rw [heq] at howns hstate ⊢
    have htidy := tidy_runInit name o initCalls.tail howns (by decide)
    exact ⟨htidy.matching, htidy.owns, htidy.state.trans hstate⟩
  · exact ⟨Matching.refl _, howns, hstate⟩

/-- What an initialisation releases is matched if the name it finds is. -/
theorem released_init (h : Owns p) (hstate : p.state = .shutdown) (name : Option CString) (o : Allocations) :
    (∀ r ∈ (p.substanceConnectorInit name o).1.released, r.Matched) ↔
      (∀ r ∈ p.released, r.Matched) ∧ ∀ name ∈ p.applicationName, p.connectorMemoryFree = name.1.deallocator := by
  have howns : Owns { p with state := .initStarted } := ⟨h.freeContexts, h.connectionQueue⟩
  obtain ⟨hmatching, -, -⟩ := runInit_initCalls howns name o
  refine Iff.trans ?_ (hmatching.forall_iff.trans (released_setApplicationName _ o.name name))
  unfold Process.substanceConnectorInit
  rw [if_pos hstate]
  split
  · rename_i heq
    rw [heq]
  · rename_i heq
    rw [heq]
  · rename_i heq
    rw [heq]

theorem sound_init (h : Sound p) (name : Option CString) (o : Allocations)
    (hok : (p.substanceConnectorInit name o).2.isOk = true) : Sound (p.substanceConnectorInit name o).1 := by
  have howns : Owns { p with state := .initStarted } := ⟨h.owns.freeContexts, h.owns.connectionQueue⟩
  obtain ⟨-, howned, hstarted⟩ := runInit_initCalls howns name o
  unfold Process.substanceConnectorInit at hok ⊢
  split
  case isFalse => exact h
  case isTrue hstate =>
    rw [if_pos hstate] at hok
    split at hok
    case h_3 => exact absurd hok Bool.false_ne_true
    all_goals
      rename_i heq
      rw [heq] at howned hstarted
      dsimp only at hstarted
      refine ⟨⟨howned.freeContexts, howned.connectionQueue⟩, ?_, ?_, ?_⟩ <;> dsimp only <;> rw [hstarted]
      · decide
      · exact fun hshutdown => absurd hshutdown (by decide)
      · exact fun hshutdown => absurd hshutdown (by decide)

theorem tidy_shutdownContextSubsystem (h : Owns p) :
    Tidy p p.connectorShutdownContextSubsystem.1 ∧
      p.connectorShutdownContextSubsystem.1.connectionQueue = p.connectionQueue ∧
      (p.connectorShutdownContextSubsystem.2.isOk = true → p.connectorShutdownContextSubsystem.1.freeContexts = .null) := by
  have hmatching := matching_destroy h.freeContexts
  unfold Process.connectorShutdownContextSubsystem
  cases hqueue : p.freeContexts with
  | null => exact ⟨⟨Matching.refl p, h, rfl⟩, rfl, fun _ => hqueue⟩
  | released => exact ⟨⟨Matching.refl p, h, rfl⟩, rfl, fun hok => absurd hok Bool.false_ne_true⟩
  | live queue array =>
    rw [hqueue] at hmatching
    exact ⟨⟨hmatching, ⟨trivial, h.connectionQueue⟩, rfl⟩, rfl, fun _ => rfl⟩

theorem tidy_shutdownCommSubsystem (h : Owns p) :
    Tidy p p.connectorShutdownCommSubsystem.1 ∧
      p.connectorShutdownCommSubsystem.1.freeContexts = p.freeContexts ∧
      (p.connectorShutdownCommSubsystem.2.isOk = true → p.connectorShutdownCommSubsystem.1.connectionQueue = .null) := by
  have hmatching := matching_destroy h.connectionQueue
  unfold Process.connectorShutdownCommSubsystem
  cases hqueue : p.connectionQueue with
  | null => exact ⟨⟨Matching.refl p, h, rfl⟩, rfl, fun _ => hqueue⟩
  | released => exact ⟨⟨Matching.refl p, h, rfl⟩, rfl, fun hok => absurd hok Bool.false_ne_true⟩
  | live queue array =>
    rw [hqueue] at hmatching
    exact ⟨⟨hmatching, ⟨h.freeContexts, trivial⟩, rfl⟩, rfl, fun _ => rfl⟩

variable {malloc : A} {free : D}

/-- Once both queues are released the pair is reset, and nothing else happens. -/
theorem runShutdown_rest (malloc : A) (free : D) (retcode : Retcode) (p : Process A D) :
    Process.runShutdown malloc free (shutdownCalls.drop 2) retcode p =
      (p.connectorClearAllocators malloc free, .ok retcode) := by
  have hkeep : (if retcode = .success then .success else retcode) = retcode := by
    split
    · exact Eq.symm ‹_›
    · rfl
  simp only [shutdownCalls, List.drop, Process.runShutdown, Process.shutdownCall, hkeep]

theorem runShutdown_shutdownCalls (malloc : A) (free : D) (h : Owns p) :
    Matching p (Process.runShutdown malloc free shutdownCalls .success p).1 ∧
      (Process.runShutdown malloc free shutdownCalls .success p).1.state = p.state ∧
      Owns (Process.runShutdown malloc free shutdownCalls .success p).1 ∧
      ((Process.runShutdown malloc free shutdownCalls .success p).2.isOk = true →
        (Process.runShutdown malloc free shutdownCalls .success p).1.freeContexts = .null ∧
        (Process.runShutdown malloc free shutdownCalls .success p).1.connectionQueue = .null) := by
  obtain ⟨htidy, -, hfree⟩ := tidy_shutdownContextSubsystem h
  rw [shutdownCalls, Process.runShutdown, Process.shutdownCall]
  split
  case h_2 =>
    rename_i heq
    rw [heq] at htidy
    exact ⟨htidy.matching, htidy.state, htidy.owns, fun hok => absurd hok Bool.false_ne_true⟩
  rename_i q result heq
  rw [heq] at htidy hfree
  obtain ⟨htidy', hkept, hconnection⟩ := tidy_shutdownCommSubsystem htidy.owns
  rw [Process.runShutdown, Process.shutdownCall]
  split
  case h_2 =>
    rename_i heq'
    rw [heq'] at htidy'
    have hboth := htidy.trans htidy'
    exact ⟨hboth.matching, hboth.state, hboth.owns, fun hok => absurd hok Bool.false_ne_true⟩
  rename_i q' result' heq'
  rw [heq'] at htidy' hkept hconnection
  have hboth := htidy.trans htidy'
  have hnull : q'.freeContexts = .null := hkept.trans (hfree rfl)
  have hnull' : q'.connectionQueue = .null := hconnection rfl
  have hrest := runShutdown_rest malloc free
    (if (if Retcode.success = .success then result else .success) = .success then result'
      else if Retcode.success = .success then result else .success) q'
  rw [shutdownCalls, List.drop, List.drop, List.drop] at hrest
  rw [hrest]
  refine ⟨hboth.matching, hboth.state, ⟨?_, ?_⟩, fun _ => ⟨hnull, hnull'⟩⟩
  · show q'.freeContexts.OwnedBy free
    rw [hnull]
    exact trivial
  · show q'.connectionQueue.OwnedBy free
    rw [hnull']
    exact trivial

theorem matching_shutdown (h : Owns p) : Matching p (p.substanceConnectorShutdown malloc free).1 := by
  have howns : Owns { p with state := .shutdownStarted } := ⟨h.freeContexts, h.connectionQueue⟩
  obtain ⟨hmatching, -⟩ := runShutdown_shutdownCalls malloc free howns
  unfold Process.substanceConnectorShutdown
  split
  case isFalse => exact Matching.of_eq rfl
  split
  · rename_i heq
    rw [heq] at hmatching
    exact hmatching
  · rename_i heq
    rw [heq] at hmatching
    exact hmatching

theorem sound_shutdown (h : Sound p) (hok : (p.substanceConnectorShutdown malloc free).2.isOk = true) :
    Sound (p.substanceConnectorShutdown malloc free).1 := by
  have howns : Owns { p with state := .shutdownStarted } := ⟨h.owns.freeContexts, h.owns.connectionQueue⟩
  obtain ⟨-, hstarted, howned, hnull⟩ := runShutdown_shutdownCalls malloc free howns
  unfold Process.substanceConnectorShutdown at hok ⊢
  split
  case isFalse =>
    -- there is no shutdown to end
    rw [exchange, if_neg h.resting]
    exact h
  case isTrue hstate =>
    rw [if_pos hstate] at hok
    split at hok
    case h_2 => exact absurd hok Bool.false_ne_true
    rename_i heq
    rw [heq] at howned hnull hstarted
    obtain ⟨hfree, hconnection⟩ := hnull rfl
    dsimp only at hstarted
    refine ⟨⟨howned.freeContexts, howned.connectionQueue⟩, ?_, fun _ => hfree, fun _ => hconnection⟩
    dsimp only
    rw [hstarted]
    decide

theorem sound_setAllocators (h : Sound p) (allocator : Option A) (deallocator : Option D) :
    Sound (p.substanceConnectorSetAllocators allocator deallocator).1 := by
  unfold Process.substanceConnectorSetAllocators
  split
  case isFalse => exact h
  case isTrue hstate =>
    cases allocator with
    | none => exact h
    | some allocator =>
      cases deallocator with
      | none => exact h
      | some deallocator =>
        -- no queue is left that the old pair allocated
        have hfree := h.freeContexts hstate
        have hconnection := h.connectionQueue hstate
        refine ⟨⟨?_, ?_⟩, h.resting, h.freeContexts, h.connectionQueue⟩ <;> dsimp only
        · rw [hfree]
          exact trivial
        · rw [hconnection]
          exact trivial

theorem matching_setAllocators (allocator : Option A) (deallocator : Option D) :
    Matching p (p.substanceConnectorSetAllocators allocator deallocator).1 := by
  unfold Process.substanceConnectorSetAllocators
  split
  case isFalse => exact Matching.refl p
  case isTrue => cases allocator <;> cases deallocator <;> exact Matching.of_eq rfl

end calls

/-! ## The other models of the same calls -/

/-- The blocks of a queue pointer. -/
def QueueBlocks.Holds : QueueBlocks A D → QueuePtr → Prop
  | .null, .null => True
  | .live _ _, .live _ => True
  | .released, .released => True
  | _, _ => False

theorem create_holds (p : Process A D) {size : UInt32} (hsize : size ≠ 0) (queueAllocated arrayAllocated : Bool) :
    ∃ q, connectorUintQueueCreate size queueAllocated arrayAllocated = .ok q ∧
      (p.connectorUintQueueCreate queueAllocated arrayAllocated).2.Holds q := by
  unfold connectorUintQueueCreate Process.connectorUintQueueCreate Process.connectorAllocate
  rw [if_neg hsize]
  cases queueAllocated with
  | false => exact ⟨_, rfl, trivial⟩
  | true => cases arrayAllocated <;> exact ⟨_, rfl, trivial⟩

theorem destroy_holds (p : Process A D) {blocks : QueueBlocks A D} {q : QueuePtr} (h : blocks.Holds q) :
    (p.connectorUintQueueDestroy blocks).2 = (connectorUintQueueDestroy q).map Prod.fst := by
  cases blocks <;> cases q <;> first | rfl | exact h.elim

section lifecycle
variable {p p' : Process A D} {malloc : A} {free : D} {retcode : Retcode}

/-- A thread that runs alone. -/
def alone (state : ModuleState) (pc : Lifecycle.Pc) : Lifecycle.State Unit := ⟨state, fun _ => pc⟩

theorem later_advance (state : ModuleState) (pc : Lifecycle.Pc) (result : Retcode) (h : pc ≠ .idle) :
    (Lifecycle.system Unit).Later (alone state pc) (alone (pc.advance state result).1 (pc.advance state result).2) := by
  refine .single ⟨.advance () result, (if_neg h).trans (congrArg some ?_)⟩
  exact congrArg (Lifecycle.State.mk _) (funext fun _ => Function.update_self ..)

theorem later_runInit {name : Option CString} {o : Allocations} {state : ModuleState} {calls : List Subsystem}
    (hcalls : calls ≠ []) (h : Process.runInit name o calls p = (p', .ok retcode)) :
    (Lifecycle.system Unit).Later (alone state (.initBody calls)) (alone state (.initExit retcode)) := by
  induction calls generalizing p with
  | nil => exact absurd rfl hcalls
  | cons call calls ih =>
    have hstep (result : Retcode) := later_advance state (.initBody (call :: calls)) result (by simp)
    rw [Process.runInit] at h
    split at h
    · cases calls with
      | nil =>
        obtain ⟨-, rfl⟩ : _ ∧ Retcode.success = retcode := by simpa [Process.runInit] using h
        exact hstep .success
      | cons call' calls' => exact (hstep .success).trans (ih (List.cons_ne_nil _ _) h)
    · rename_i hended
      have hne : retcode ≠ .success := fun hsuccess => hended p' (hsuccess ▸ h)
      have hlast := hstep retcode
      simp only [Lifecycle.Pc.advance, if_neg hne] at hlast
      exact hlast

theorem later_runShutdown {state : ModuleState} {calls : List Subsystem} {code : Retcode} (hcalls : calls ≠ [])
    (h : Process.runShutdown malloc free calls code p = (p', .ok retcode)) :
    (Lifecycle.system Unit).Later (alone state (.shutdownBody calls code)) (alone state (.shutdownExit true retcode)) := by
  induction calls generalizing p code with
  | nil => exact absurd rfl hcalls
  | cons call calls ih =>
    have hstep (result : Retcode) := later_advance state (.shutdownBody (call :: calls) code) result (by simp)
    rw [Process.runShutdown] at h
    split at h
    case h_2 => cases h
    rename_i result _
    cases calls with
    | nil =>
      obtain ⟨-, hcode⟩ := Prod.mk.inj h
      obtain rfl := Except.ok.inj hcode
      exact hstep result
    | cons call' calls' => exact (hstep result).trans (ih (List.cons_ne_nil _ _) h)

/-- An initialisation moves the state word as one thread of the life cycle does. -/
theorem later_init {name : Option CString} {o : Allocations} (hs : Sound p)
    (h : p.substanceConnectorInit name o = (p', .ok retcode)) :
    (Lifecycle.system Unit).Later (alone p.state .initEnter) (alone p'.state (.done retcode)) := by
  have henter := later_advance p.state .initEnter .success (by simp)
  have howns : Owns { p with state := .initStarted } := ⟨hs.owns.freeContexts, hs.owns.connectionQueue⟩
  obtain ⟨-, -, hstarted⟩ := runInit_initCalls howns name o
  unfold Process.substanceConnectorInit at h
  split at h
  case isFalse hstate =>
    obtain ⟨rfl, hcode⟩ := Prod.mk.inj h
    obtain rfl := Except.ok.inj hcode
    simp only [Lifecycle.Pc.advance, exchange, if_neg hstate] at henter
    exact henter
  case isTrue hstate =>
    simp only [Lifecycle.Pc.advance, exchange, if_pos hstate] at henter
    refine henter.trans ?_
    split at h
    · rename_i q hrun
      rw [hrun] at hstarted
      obtain ⟨rfl, hcode⟩ := Prod.mk.inj h
      obtain rfl := Except.ok.inj hcode
      dsimp only at hstarted ⊢
      rw [hstarted]
      exact (later_runInit (List.cons_ne_nil _ _) hrun).trans (later_advance _ _ .success (by simp))
    · rename_i q code hne hrun
      rw [hrun] at hstarted
      obtain ⟨rfl, hcode⟩ := Prod.mk.inj h
      obtain rfl := Except.ok.inj hcode
      have hexit := later_advance .initStarted (.initExit code) .success (by simp)
      simp only [Lifecycle.Pc.advance, if_neg hne] at hexit
      dsimp only at hstarted ⊢
      rw [hstarted]
      exact (later_runInit (List.cons_ne_nil _ _) hrun).trans hexit
    · cases h

theorem later_shutdown (hs : Sound p) (h : p.substanceConnectorShutdown malloc free = (p', .ok retcode)) :
    (Lifecycle.system Unit).Later (alone p.state .shutdownEnter) (alone p'.state (.done retcode)) := by
  have henter := later_advance p.state .shutdownEnter .success (by simp)
  have howns : Owns { p with state := .shutdownStarted } := ⟨hs.owns.freeContexts, hs.owns.connectionQueue⟩
  obtain ⟨-, hstarted, -⟩ := runShutdown_shutdownCalls malloc free howns
  unfold Process.substanceConnectorShutdown at h
  split at h
  case isFalse hstate =>
    obtain ⟨rfl, hcode⟩ := Prod.mk.inj h
    obtain rfl := Except.ok.inj hcode
    rw [Lifecycle.Pc.advance, if_neg hstate, Lifecycle.exchange_of_ne hstate] at henter
    exact henter.trans (later_advance _ _ .success (by simp))
  case isTrue hstate =>
    simp only [Lifecycle.Pc.advance, exchange, if_pos hstate] at henter
    refine henter.trans ?_
    split at h
    case h_2 => cases h
    rename_i q code hrun
    rw [hrun] at hstarted
    obtain ⟨rfl, hcode⟩ := Prod.mk.inj h
    obtain rfl := Except.ok.inj hcode
    dsimp only at hstarted ⊢
    rw [hstarted]
    exact (later_runShutdown (List.cons_ne_nil _ _) hrun).trans (later_advance _ _ .success (by simp))

end lifecycle

/-! ## Sequences of calls -/

section sequences
variable {p : Process A D} {malloc : A} {free : D}

theorem sound_call (malloc : A) (free : D) (c : Call A D) (h : Sound p) (hok : (p.call malloc free c).2.isOk = true) :
    Sound (p.call malloc free c).1 := by
  cases c with
  | setAllocators allocator deallocator => exact sound_setAllocators h allocator deallocator
  | init name o => exact sound_init h name o hok
  | shutdown => exact sound_shutdown h hok

theorem released_call (malloc : A) (free : D) (c : Call A D) (h : Sound p) (hhalted : p.halted = none) :
    (∀ r ∈ (p.call malloc free c).1.released, r.Matched) ↔ (∀ r ∈ p.released, r.Matched) ∧ FindsItsOwn p c := by
  cases c with
  | setAllocators allocator deallocator =>
    exact (matching_setAllocators allocator deallocator).forall_iff.trans (and_iff_left trivial).symm
  | shutdown => exact (matching_shutdown h.owns).forall_iff.trans (and_iff_left trivial).symm
  | init name o =>
    by_cases hstate : p.state = .shutdown
    · refine (released_init h.owns hstate name o).trans (and_congr_right fun _ => ?_)
      exact ⟨fun hown _ _ => hown, fun hown => hown hhalted hstate⟩
    · show (∀ r ∈ (p.substanceConnectorInit name o).1.released, r.Matched) ↔ _
      rw [Process.substanceConnectorInit, if_neg hstate]
      exact (and_iff_left fun _ hshutdown => absurd hshutdown hstate).symm

theorem released_step {c : Call A D} (h : p.halted = none → Sound p) :
    (∀ r ∈ (p.step malloc free c).released, r.Matched) ↔ (∀ r ∈ p.released, r.Matched) ∧ FindsItsOwn p c := by
  unfold Process.step
  split
  · rename_i hhalted
    refine (and_iff_left ?_).symm
    cases c with
    | init name o => exact fun hnone => absurd (hhalted.symm.trans hnone) (Option.some_ne_none _)
    | _ => exact trivial
  · rename_i hnone
    have hcall := released_call malloc free c (h hnone) hnone
    split
    · rename_i heq
      rw [heq] at hcall
      exact hcall
    · rename_i heq
      rw [heq] at hcall
      exact hcall

theorem sound_step {c : Call A D} (h : p.halted = none → Sound p) (hhalted : (p.step malloc free c).halted = none) :
    Sound (p.step malloc free c) := by
  unfold Process.step at hhalted ⊢
  split at hhalted
  · rename_i hsome
    exact absurd (hsome.symm.trans hhalted) (Option.some_ne_none _)
  · rename_i hnone
    have hcall := sound_call malloc free c (h hnone)
    split at hhalted
    · rename_i heq
      rw [heq] at hcall
      exact hcall rfl
    · cases hhalted

end sequences

theorem runCalls_concat (malloc : A) (free : D) (calls : List (Call A D)) (c : Call A D) :
    runCalls malloc free (calls ++ [c]) = (runCalls malloc free calls).step malloc free c := List.foldl_concat ..

theorem sound_runCalls (malloc : A) (free : D) (calls : List (Call A D)) :
    (runCalls malloc free calls).halted = none → Sound (runCalls malloc free calls) := by
  induction calls using List.reverseRecOn with
  | nil => exact fun _ => ⟨⟨trivial, trivial⟩, ModuleState.noConfusion, fun _ => rfl, fun _ => rfl⟩
  | append_singleton calls c ih =>
    rw [runCalls_concat]
    exact sound_step ih

/-- **Exactly when every block goes to its own deallocator**: an initialisation that runs its body never finds
a name of another pair. -/
theorem released_matched_iff (A D : Type) (malloc : A) (free : D) (calls : List (Call A D)) :
    (∀ r ∈ (runCalls malloc free calls).released, r.Matched) ↔
      ∀ before c after, calls = before ++ c :: after → FindsItsOwn (runCalls malloc free before) c := by
  induction calls using List.reverseRecOn with
  | nil =>
    refine ⟨fun _ before c after h => absurd h (by simp), fun _ r hr => ?_⟩
    cases hr
  | append_singleton calls last ih =>
    rw [runCalls_concat, released_step (sound_runCalls malloc free calls), ih]
    refine ⟨fun ⟨hbefore, hlast⟩ before c after h => ?_, fun h => ⟨fun before c after heq => ?_, ?_⟩⟩
    · obtain rfl | ⟨after, e, rfl⟩ := List.eq_nil_or_concat' after
      · obtain ⟨rfl, hc⟩ := List.append_inj' h rfl
        obtain rfl := List.head_eq_of_cons_eq hc
        exact hlast
      · rw [← List.cons_append, ← List.append_assoc] at h
        exact hbefore before c after (List.append_inj_left' h rfl)
    · refine h before c (after ++ [last]) ?_
      rw [heq, List.append_assoc, List.cons_append]
    · exact h calls last [] rfl


def viewer : CString := ⟨[118, 105, 101, 119], by decide⟩

/-- An initialisation whose allocations all return a block. -/
def initialised : Call Bool Bool := .init (some viewer) ⟨true, true, true, true, true⟩

/-- A pair is installed for the first of two life cycles. -/
def renamedCalls : List (Call Bool Bool) := [.setAllocators (some true) (some true), initialised, .shutdown, initialised]

/-- The second initialisation passes the name to the deallocator of the C library. -/
theorem name_released_by_other : ∃ r ∈ (runCalls false false renamedCalls).released, ¬r.Matched := by
  have hmem : (⟨⟨true, true⟩, false⟩ : Release Bool Bool) ∈ (runCalls false false renamedCalls).released := by
    decide +kernel
  exact ⟨_, hmem, Bool.false_ne_true⟩

end SubstanceConnector.Allocators
