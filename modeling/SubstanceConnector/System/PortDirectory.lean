import Mathlib.Data.Fintype.Basic
import Mathlib.Data.List.Basic
import SubstanceConnector.Library.StepSystem
import SubstanceConnector.System.DirectoryList

/-!
# The directory of open ports

Instances find each other through a directory that they share: `connector_open_tcp_impl` leaves a file named by its port
once it listens, `connector_close_tcp` removes it before it closes the socket, and a broadcast connects to the ports it
finds and removes the file of a port that it cannot connect to. Here any number of threads of any number of instances do
this at once, one system call a step; the file names are the ports they stand for, the contexts are TCP contexts, an
instance has a free context whenever it takes one, files can be made and removed, and no instance is shut down.

A broadcast works on the names it has read. If a context is closed and its port opened again before the broadcast comes
to it, a connect between the new bind and the new listen fails, and the removal that follows takes the new file away
(`reopened_not_announced`). It passes over the ports that a context of its instance has, also one in the free queue that
a connect left filled when it was refused (`refused_not_reached`). The results are about the runs without this
(`Orderly`).
-/

namespace SubstanceConnector.PortDirectory

section model

abbrev Port := UInt16

inductive Socket where
  | closed
  | bound
  | listening
  deriving DecidableEq

/-- What a context is filled for. A refused connect returns its context without clearing it. -/
inductive Use where
  | opening
  | connecting
  | connected
  | accepted
  | refused
  | closing
  | disconnecting
  deriving DecidableEq

structure Slot where
  use : Use
  port : Port
  deriving DecidableEq

/-- The next system call of a thread, or its next access to the contexts: of `connector_context_open`, of
`connector_context_shutdown_from_read_thread`, or of `broadcast_connect_impl`, with the names it has yet to look at. -/
inductive Pc where
  | idle
  | bind (port : Port)
  | listen (port : Port)
  | commit (port : Port)
  | testFile (port : Port)
  | removeFile (port : Port)
  | closeSocket (port : Port)
  | clearContext (port : Port)
  | list
  | visit (elements : List Port)
  | testValidity (port : Port) (elements : List Port)
  | takeContext (port : Port) (elements : List Port)
  | connect (port : Port) (elements : List Port)
  | removeElement (port : Port) (elements : List Port)
  | finished
  deriving DecidableEq

/-- The sockets at the ports, the directory, the instance that has a context open at a port, the other contexts of each
instance that are not clear, and the threads. -/
structure State (ι κ : Type) where
  socket : Port → Socket
  files : List Port
  isOpen : Port → Option κ
  slots : κ → List Slot
  pc : ι → Pc

/-- What the system answers: `bind` with the port. -/
inductive Answer where
  | success
  | failure
  | port (port : Port)

/-- Besides the threads, connections come to an instance and end, and contexts that a refused connect left filled are
used again. -/
inductive Label (ι κ : Type) where
  | openTcp (i : ι) (port : Port)
  | closeTcp (i : ι) (port : Port)
  | broadcast (i : ι)
  | step (i : ι) (answer : Answer)
  | accept (c : κ) (port : Port)
  | disconnect (c : κ) (slot : Slot)
  | clear (c : κ) (slot : Slot)

variable {ι κ : Type} [DecidableEq ι] [DecidableEq κ]

namespace State

def goto (s : State ι κ) (i : ι) (pc : Pc) : State ι κ := { s with pc := Function.update s.pc i pc }

def setSocket (s : State ι κ) (port : Port) (socket : Socket) : State ι κ :=
  { s with socket := Function.update s.socket port socket }

/-- `fopen` with mode `w`. -/
def createFile (s : State ι κ) (port : Port) : State ι κ := { s with files := s.files.insert port }

/-- `connector_remove_file`. -/
def deleteFile (s : State ι κ) (port : Port) : State ι κ := { s with files := s.files.filter (· ≠ port) }

def setOpen (s : State ι κ) (port : Port) (isOpen : Option κ) : State ι κ :=
  { s with isOpen := Function.update s.isOpen port isOpen }

def fill (s : State ι κ) (c : κ) (use : Use) (port : Port) : State ι κ :=
  { s with slots := Function.update s.slots c (⟨use, port⟩ :: s.slots c) }

def release (s : State ι κ) (c : κ) (use : Use) (port : Port) : State ι κ :=
  { s with slots := Function.update s.slots c ((s.slots c).erase ⟨use, port⟩) }

/-- `test_tcp_validity`. -/
def testTcpValidity (s : State ι κ) (c : κ) (port : Port) : Bool :=
  s.isOpen port ≠ some c && (s.slots c).all (·.port ≠ port)

/-- The instance has the port open, a connection to it, or a connect to it under way. -/
def Has (s : State ι κ) (c : κ) (port : Port) : Prop :=
  s.isOpen port = some c ∨ ⟨.connecting, port⟩ ∈ s.slots c ∨ ⟨.connected, port⟩ ∈ s.slots c

instance (s : State ι κ) (c : κ) (port : Port) : Decidable (s.Has c port) :=
  inferInstanceAs (Decidable (_ ∨ _ ∨ _))

end State

-- the instance of each thread
variable (home : ι → κ)

/-- One system call. A port is bound to one socket, and a connect succeeds only where a socket listens. -/
def systemCall (s : State ι κ) (i : ι) : Pc → Answer → Option (State ι κ)
  | .bind requested, .port p =>
    if s.socket p = .closed ∧ (requested = 0 ∨ requested = p) then
      some ((((s.setSocket p .bound).release (home i) .opening requested).fill (home i) .opening p).goto i (.listen p))
    else none
  | .bind requested, .failure => some ((s.release (home i) .opening requested).goto i .idle)
  | .listen p, .success => some ((s.setSocket p .listening).goto i (.commit p))
  | .listen p, .failure => some (((s.setSocket p .closed).release (home i) .opening p).goto i .idle)
  -- the context keeps the socket from here on
  | .commit p, .success =>
    some ((((s.createFile p).release (home i) .opening p).setOpen p (some (home i))).goto i .idle)
  | .testFile p, .success => some (s.goto i (if p ∈ s.files then .removeFile p else .closeSocket p))
  | .removeFile p, .success => some ((s.deleteFile p).goto i (.closeSocket p))
  | .closeSocket p, .success => some ((s.setSocket p .closed).goto i (.clearContext p))
  | .clearContext p, .success => some ((s.release (home i) .closing p).goto i .idle)
  -- a longer list may have no end
  | .list, .success => if s.files.length < connectorDefaultFileListSize then some (s.goto i (.visit s.files)) else none
  | .list, .failure => some (s.goto i .finished)
  | .visit [], .success => some (s.goto i .finished)
  | .visit (p :: elements), .success =>
    some (s.goto i (if p ∈ s.files then .testValidity p elements else .visit elements))
  | .testValidity p elements, .success =>
    some (s.goto i (if s.testTcpValidity (home i) p then .takeContext p elements else .visit elements))
  | .takeContext p elements, .success => some ((s.fill (home i) .connecting p).goto i (.connect p elements))
  | .connect p elements, .success =>
    if s.socket p = .listening then
      some (((s.release (home i) .connecting p).fill (home i) .connected p).goto i (.visit elements))
    else none
  | .connect p elements, .failure =>
    some (((s.release (home i) .connecting p).fill (home i) .refused p).goto i (.removeElement p elements))
  | .removeElement p elements, .success => some ((s.deleteFile p).goto i (.visit elements))
  | .finished, .success => some (s.goto i .idle)
  | _, _ => none

def next (s : State ι κ) : Label ι κ → Option (State ι κ)
  | .openTcp i p => if s.pc i = .idle then some ((s.fill (home i) .opening p).goto i (.bind p)) else none
  | .closeTcp i p =>
    if s.pc i = .idle ∧ s.isOpen p = some (home i) then
      some (((s.setOpen p none).fill (home i) .closing p).goto i (.testFile p))
    else none
  | .broadcast i => if s.pc i = .idle then some (s.goto i .list) else none
  | .step i answer => systemCall home s i (s.pc i) answer
  -- `connector_context_accept` leaves the port of the context it takes as it is
  | .accept c p =>
    if p = 0 ∨ ⟨.refused, p⟩ ∈ s.slots c then some ((s.release c .refused p).fill c .accepted p) else none
  | .disconnect c ⟨use, p⟩ =>
    if ⟨use, p⟩ ∈ s.slots c ∧ (use = .connected ∨ use = .accepted) then
      some ((s.release c use p).fill c .disconnecting p)
    else none
  | .clear c ⟨use, p⟩ =>
    if ⟨use, p⟩ ∈ s.slots c ∧ (use = .refused ∨ use = .disconnecting) then some (s.release c use p) else none

def Starts (s : State ι κ) : Prop :=
  (∀ p, s.socket p = .closed) ∧ s.files = [] ∧ (∀ p, s.isOpen p = none) ∧ (∀ c, s.slots c = []) ∧ ∀ i, s.pc i = .idle

def system : StepSystem (State ι κ) (Label ι κ) := StepSystem.ofNext Starts (next home)

/-- The names a broadcast has read and not done with. -/
def pending : Pc → List Port
  | .visit elements => elements
  | .testValidity p elements | .takeContext p elements | .connect p elements | .removeElement p elements =>
    p :: elements
  | _ => []

/-- The directory can be read, and a connect fails only where no socket listens. -/
def mayFail (socket : Port → Socket) : Pc → Bool
  | .list => false
  | .connect p _ => socket p ≠ .listening
  | _ => true

/-- A port that its instance has in some context is a port that its instance has. -/
def mayTest (s : State ι κ) (c : κ) : Pc → Bool
  | .testValidity p _ => s.testTcpValidity c p || decide (s.Has c p)
  | _ => true

/-- No port is bound that a broadcast has read and is not done with, and no broadcast passes over a port only for
contexts that try to open it, are being closed, or keep the port of a refused connect. -/
def Orderly (s : State ι κ) : Label ι κ → Prop
  | .step _ (.port p) => ∀ j, p ∉ pending (s.pc j)
  | .step i .failure => mayFail s.socket (s.pc i) = true
  | .step i .success => mayTest s (home i) (s.pc i) = true
  | _ => True

instance [Fintype ι] (s : State ι κ) : (a : Label ι κ) → Decidable (Orderly home s a)
  | .openTcp _ _ | .closeTcp _ _ | .broadcast _ | .accept _ _ | .disconnect _ _ | .clear _ _ =>
    inferInstanceAs (Decidable True)
  | .step _ (.port p) => inferInstanceAs (Decidable (∀ j, p ∉ pending (s.pc j)))
  | .step _ .failure | .step _ .success => inferInstanceAs (Decidable (_ = true))

end model

/-! ## The invariant -/

section invariant
variable {ι κ : Type}

/-- The port whose socket the thread has. -/
def holds : Pc → Option Port
  | .listen p | .commit p | .testFile p | .removeFile p | .closeSocket p => some p
  | _ => none

/-- How the socket is, and whether it has a file, while a thread has it. -/
def held : Pc → Socket × Bool
  | .listen _ => (.bound, false)
  | .testFile _ | .removeFile _ => (.listening, true)
  | _ => (.listening, false)

/-- The socket, the file and the context of a port, by who has the socket: nobody, an open context or a thread. -/
def status (pc : ι → Pc) : Option (κ ⊕ ι) → Socket × Bool × Option κ
  | none => (.closed, false, none)
  | some (.inl c) => (.listening, true, some c)
  | some (.inr i) => ((held (pc i)).1, (held (pc i)).2, none)

structure Inv (s : State ι κ) (owner : Port → Option (κ ⊕ ι)) : Prop where
  status : ∀ p, (s.socket p, decide (p ∈ s.files), s.isOpen p) = status s.pc (owner p)
  owned : ∀ i p, holds (s.pc i) = some p ↔ owner p = some (.inr i)
  listed : ∀ i, ∀ p ∈ pending (s.pc i), s.socket p ≠ .bound
  removed : ∀ i p elements, s.pc i = .removeElement p elements → s.socket p = .closed

variable [DecidableEq ι] {s s' : State ι κ} {owner : Port → Option (κ ⊕ ι)} {i j : ι} {p : Port} {pc' : Pc}

omit [DecidableEq ι] in
theorem status_congr {pc pc' : ι → Pc} {a : Option (κ ⊕ ι)} (h : ∀ i, a = some (.inr i) → pc' i = pc i) :
    status pc' a = status pc a := by
  cases a with
  | none => rfl
  | some a =>
    cases a with
    | inl _ => rfl
    | inr i => rw [PortDirectory.status, PortDirectory.status, h i rfl]

namespace Inv

omit [DecidableEq ι] in
/-- The contexts that are not open play no part. -/
theorem slots (hi : Inv s owner) (slots' : κ → List Slot) : Inv { s with slots := slots' } owner :=
  ⟨hi.status, hi.owned, hi.listed, hi.removed⟩

/-- A step of a broadcast, or one that neither has a socket before nor after. -/
theorem look (hi : Inv s owner) {files' : List Port} {slots' : κ → List Slot} (hfree : holds (s.pc i) = none)
    (hfree' : holds pc' = none) (hfiles : ∀ p, p ∈ files' ↔ p ∈ s.files)
    (hlisted : ∀ p ∈ pending pc', s.socket p ≠ .bound)
    (hremoved : ∀ p elements, pc' = .removeElement p elements → s.socket p = .closed) :
    Inv { s with files := files', slots := slots', pc := Function.update s.pc i pc' } owner where
  status p := by
    have hstatus :
        PortDirectory.status (Function.update s.pc i pc') (owner p) = PortDirectory.status s.pc (owner p) := by
      refine status_congr fun j hj => Function.update_of_ne ?_ _ _
      rintro rfl
      rw [(hi.owned j p).mpr hj] at hfree
      cases hfree
    rw [hstatus, ← hi.status p]
    simp only [hfiles]
  owned := by
    refine (Function.forall_update_iff s.pc (p := fun j pc => ∀ p, holds pc = some p ↔ owner p = some (.inr j))).mpr
      ⟨fun p => ?_, fun j _ => hi.owned j⟩
    rw [hfree', ← hfree]
    exact hi.owned i p
  listed := (Function.forall_update_iff s.pc (p := fun _ pc => ∀ p ∈ pending pc, s.socket p ≠ .bound)).mpr
    ⟨hlisted, fun j _ => hi.listed j⟩
  removed := (Function.forall_update_iff s.pc (p := fun _ pc => ∀ p elements,
    pc = .removeElement p elements → s.socket p = .closed)).mpr ⟨hremoved, fun j _ => hi.removed j⟩

/-- A step that changes who has the socket at a port, or what its owner does with it. -/
theorem turn (hi : Inv s owner) (pc' : Pc) (socket' : Socket) (files' : List Port) (isOpen' : Option κ)
    (owner' : Option (κ ⊕ ι))
    (hbefore : ∀ q, holds (s.pc i) = some q → q = p) (hafter : ∀ q, holds pc' = some q ↔ q = p ∧ owner' = some (.inr i))
    (howner : owner p = none ∨ (∃ c, owner p = some (.inl c)) ∨ owner p = some (.inr i))
    (howner' : owner' = none ∨ (∃ c, owner' = some (.inl c)) ∨ owner' = some (.inr i))
    (hstatus : (socket', decide (p ∈ files'), isOpen') = PortDirectory.status (Function.update s.pc i pc') owner')
    (hfiles : ∀ q ≠ p, q ∈ files' ↔ q ∈ s.files) (hquiet : pending pc' = [])
    (hsocket : (∃ j, p ∈ pending (s.pc j)) →
      socket' = s.socket p ∨ socket' = .closed ∨ (s.socket p ≠ .closed ∧ socket' ≠ .bound)) :
    Inv { s with
      socket := Function.update s.socket p socket'
      files := files'
      isOpen := Function.update s.isOpen p isOpen'
      pc := Function.update s.pc i pc' } (Function.update owner p owner') where
  status q := by
    by_cases hq : q = p
    · subst hq
      simp only [Function.update_self]
      exact hstatus
    · simp only [Function.update_of_ne hq, hfiles q hq]
      rw [hi.status q]
      refine (status_congr fun j hj => Function.update_of_ne ?_ _ _).symm
      rintro rfl
      exact hq (hbefore q ((hi.owned j q).mpr hj))
  owned := by
    refine (Function.forall_update_iff s.pc (p := fun j pc => ∀ q, holds pc = some q ↔
      Function.update owner p owner' q = some (.inr j))).mpr ⟨fun q => ?_, fun j hj q => ?_⟩
    · rw [hafter]
      by_cases hq : q = p
      · subst hq
        simp
      · rw [Function.update_of_ne hq, ← hi.owned i q]
        exact ⟨fun h => absurd h.1 hq, fun h => absurd (hbefore q h) hq⟩
    · rw [hi.owned j q]
      by_cases hq : q = p
      · subst hq
        rw [Function.update_self]
        rcases howner with h | ⟨c, h⟩ | h <;> rcases howner' with h' | ⟨c', h'⟩ | h' <;> simp [h, h', Ne.symm hj]
      · rw [Function.update_of_ne hq]
  listed := by
    refine (Function.forall_update_iff s.pc (p := fun _ pc => ∀ q ∈ pending pc,
      Function.update s.socket p socket' q ≠ .bound)).mpr ⟨fun q hq => ?_, fun j _ q hq => ?_⟩
    · rw [hquiet] at hq
      cases hq
    · by_cases hqp : q = p
      · subst hqp
        rw [Function.update_self]
        rcases hsocket ⟨j, hq⟩ with h | h | h
        · rw [h]
          exact hi.listed j q hq
        · simp [h]
        · exact h.2
      · rw [Function.update_of_ne hqp]
        exact hi.listed j q hq
  removed := by
    refine (Function.forall_update_iff s.pc (p := fun _ pc => ∀ q elements,
      pc = .removeElement q elements → Function.update s.socket p socket' q = .closed)).mpr ⟨?_, ?_⟩
    · rintro q elements rfl
      cases hquiet
    · intro j _ q elements hpc
      have hclosed := hi.removed j q elements hpc
      by_cases hqp : q = p
      · subst hqp
        rw [Function.update_self]
        rcases hsocket ⟨j, by rw [hpc]; exact List.mem_cons_self⟩ with h | h | h
        · rw [h, hclosed]
        · exact h
        · exact absurd hclosed h.1
      · rw [Function.update_of_ne hqp]
        exact hclosed

omit [DecidableEq ι] in
theorem owner_eq_none (hi : Inv s owner) (h : s.socket p = .closed) : owner p = none := by
  have hstatus := hi.status p
  cases howner : owner p with
  | none => rfl
  | some a =>
    rw [howner, h] at hstatus
    cases a with
    | inl _ => cases congrArg Prod.fst hstatus
    | inr j =>
      have hheld : (held (s.pc j)).1 = .closed := (congrArg Prod.fst hstatus).symm
      cases hpc : s.pc j <;> simp [hpc, held] at hheld

omit [DecidableEq ι] in
/-- What a thread that has a socket finds. -/
theorem status_of_holds (hi : Inv s owner) (h : holds (s.pc i) = some p) :
    s.socket p = (held (s.pc i)).1 ∧ (p ∈ s.files ↔ (held (s.pc i)).2 = true) ∧ s.isOpen p = none := by
  have hstatus := hi.status p
  rw [(hi.owned i p).mp h] at hstatus
  obtain ⟨hsocket, hrest⟩ := Prod.ext_iff.mp hstatus
  obtain ⟨hfile, hopen⟩ := Prod.ext_iff.mp hrest
  refine ⟨hsocket, ?_, hopen⟩
  have hfile : decide (p ∈ s.files) = (held (s.pc i)).2 := hfile
  rw [← hfile, decide_eq_true_iff]

omit [DecidableEq ι] in
theorem status_of_open {c : κ} (hi : Inv s owner) (h : s.isOpen p = some c) :
    owner p = some (.inl c) ∧ s.socket p = .listening ∧ p ∈ s.files := by
  have hstatus := hi.status p
  cases howner : owner p with
  | none =>
    rw [howner, h] at hstatus
    cases congrArg (fun x => x.2.2) hstatus
  | some a =>
    rw [howner, h] at hstatus
    cases a with
    | inl _ =>
      obtain ⟨hsocket, hrest⟩ := Prod.ext_iff.mp hstatus
      obtain ⟨hfile, hopen⟩ := Prod.ext_iff.mp hrest
      exact ⟨by rw [Option.some.inj hopen], hsocket, of_decide_eq_true hfile⟩
    | inr j => cases congrArg (fun x => x.2.2) hstatus

theorem mem_insert_of_ne {q : Port} (files : List Port) (h : q ≠ p) : q ∈ files.insert p ↔ q ∈ files := by
  rw [List.mem_insert_iff]
  exact ⟨fun hq => hq.resolve_left h, .inr⟩

theorem mem_filter_of_ne {q : Port} (files : List Port) (h : q ≠ p) : q ∈ files.filter (· ≠ p) ↔ q ∈ files := by
  simp [h]

/-- A thread that has the socket at a port goes on with it, gives it to a context or closes it. -/
theorem own (hi : Inv s owner) (h : holds (s.pc i) = some p) (pc' : Pc) (socket' : Socket) (files' : List Port)
    (isOpen' : Option κ) (owner' : Option (κ ⊕ ι))
    (hafter : ∀ q, holds pc' = some q ↔ q = p ∧ owner' = some (.inr i))
    (howner' : owner' = none ∨ (∃ c, owner' = some (.inl c)) ∨ owner' = some (.inr i))
    (hstatus : (socket', decide (p ∈ files'), isOpen') = PortDirectory.status (Function.update s.pc i pc') owner')
    (hfiles : ∀ q ≠ p, q ∈ files' ↔ q ∈ s.files) (hquiet : pending pc' = []) (hsocket : socket' ≠ .bound) :
    Inv { s with
      socket := Function.update s.socket p socket'
      files := files'
      isOpen := Function.update s.isOpen p isOpen'
      pc := Function.update s.pc i pc' } (Function.update owner p owner') := by
  have howner := (hi.owned i p).mp h
  refine hi.turn pc' socket' files' isOpen' owner' (fun q hq => Option.some.inj (hq.symm.trans h)) hafter
    (.inr (.inr howner)) howner' hstatus hfiles hquiet fun _ => .inr (.inr ⟨fun hclosed => ?_, hsocket⟩)
  rw [hi.owner_eq_none hclosed] at howner
  cases howner

omit [DecidableEq ι] in
theorem listening_of_mem (hi : Inv s owner) (h : p ∈ s.files) : s.socket p = .listening := by
  have hstatus := hi.status p
  rw [decide_eq_true h] at hstatus
  cases howner : owner p with
  | none =>
    rw [howner] at hstatus
    cases congrArg (fun x => x.2.1) hstatus
  | some a =>
    rw [howner] at hstatus
    cases a with
    | inl _ => exact congrArg Prod.fst hstatus
    | inr j =>
      have hheld : (held (s.pc j)).2 = true := (congrArg (fun x => x.2.1) hstatus).symm
      refine (congrArg Prod.fst hstatus).trans ?_
      cases hpc : s.pc j <;> simp [hpc, held] at hheld <;> rw [PortDirectory.status, hpc] <;> rfl

variable [DecidableEq κ] {home : ι → κ}

/-- The statements of a broadcast leave the sockets and, in the runs considered, the directory. -/
theorem broadcastCall (hi : Inv s owner) {answer : Answer} (hfree : holds (s.pc i) = none)
    (hquiet : ∀ p, s.pc i ≠ .bind p ∧ s.pc i ≠ .clearContext p) (hanswer : Orderly home s (.step i answer))
    (h : PortDirectory.systemCall home s i (s.pc i) answer = some s') : Inv s' owner := by
  have hlisted := hi.listed i
  cases hpc : s.pc i with
  | list =>
    rw [hpc] at h
    cases answer with
    | success =>
      obtain ⟨-, hs'⟩ := Option.ite_none_right_eq_some.mp h
      obtain rfl := Option.some.inj hs'
      refine hi.look hfree rfl (fun p => .rfl) (fun p hp hbound => ?_) nofun
      rw [hi.listening_of_mem hp] at hbound
      cases hbound
    | failure =>
      have hfail : mayFail s.socket (s.pc i) = true := hanswer
      rw [hpc] at hfail
      cases hfail
    | port q => cases h
  | visit elements =>
    rw [hpc] at h hlisted
    cases elements with
    | nil =>
      cases answer with
      | success =>
        obtain rfl := Option.some.inj h
        exact hi.look hfree rfl (fun p => .rfl) nofun nofun
      | _ => cases h
    | cons p elements =>
      cases answer with
      | success =>
        obtain rfl := Option.some.inj h
        by_cases hp : p ∈ s.files
        · rw [if_pos hp]
          exact hi.look hfree rfl (fun p => .rfl) hlisted nofun
        · rw [if_neg hp]
          exact hi.look hfree rfl (fun p => .rfl) (fun q hq => hlisted q (List.mem_cons_of_mem p hq)) nofun
      | _ => cases h
  | testValidity p elements =>
    rw [hpc] at h hlisted
    cases answer with
    | success =>
      obtain rfl := Option.some.inj h
      by_cases hp : s.testTcpValidity (home i) p = true
      · rw [if_pos hp]
        exact hi.look hfree rfl (fun p => .rfl) hlisted nofun
      · rw [if_neg hp]
        exact hi.look hfree rfl (fun p => .rfl) (fun q hq => hlisted q (List.mem_cons_of_mem p hq)) nofun
    | _ => cases h
  | takeContext p elements =>
    rw [hpc] at h hlisted
    cases answer with
    | success =>
      obtain rfl := Option.some.inj h
      exact hi.look hfree rfl (fun p => .rfl) hlisted nofun
    | _ => cases h
  | connect p elements =>
    rw [hpc] at h hlisted
    cases answer with
    | success =>
      obtain ⟨-, hs'⟩ := Option.ite_none_right_eq_some.mp h
      obtain rfl := Option.some.inj hs'
      exact hi.look hfree rfl (fun p => .rfl) (fun q hq => hlisted q (List.mem_cons_of_mem p hq)) nofun
    | failure =>
      obtain rfl := Option.some.inj h
      refine hi.look hfree rfl (fun p => .rfl) hlisted ?_
      rintro _ _ ⟨⟩
      -- it is neither bound, since it was read, nor does it listen
      have hfail : mayFail s.socket (s.pc i) = true := hanswer
      rw [hpc, mayFail, decide_eq_true_iff] at hfail
      have hbound := hlisted p List.mem_cons_self
      cases hsocket : s.socket p with
      | closed => rfl
      | bound => exact absurd hsocket hbound
      | listening => exact absurd hsocket hfail
    | port q => cases h
  | removeElement p elements =>
    have hclosed := hi.removed i p elements hpc
    rw [hpc] at h hlisted
    have hnot : p ∉ s.files := fun hp => by simp [hi.listening_of_mem hp] at hclosed
    cases answer with
    | success =>
      obtain rfl := Option.some.inj h
      refine hi.look hfree rfl (fun q => ?_) (fun q hq => hlisted q (List.mem_cons_of_mem p hq)) nofun
      by_cases hq : q = p
      · subst hq
        exact ⟨fun hq => absurd (List.mem_filter.mp hq).2 (by simp), fun hq => absurd hq hnot⟩
      · exact mem_filter_of_ne s.files hq
    | _ => cases h
  | finished =>
    rw [hpc] at h
    cases answer with
    | success =>
      obtain rfl := Option.some.inj h
      exact hi.look hfree rfl (fun p => .rfl) nofun nofun
    | _ => cases h
  | idle =>
    rw [hpc] at h
    cases answer <;> cases h
  | bind p => exact absurd hpc (hquiet p).1
  | clearContext p => exact absurd hpc (hquiet p).2
  | _ =>
    rw [hpc] at hfree
    cases hfree

theorem systemCall (hi : Inv s owner) {answer : Answer} (hanswer : Orderly home s (.step i answer))
    (h : systemCall home s i (s.pc i) answer = some s') : ∃ owner', Inv s' owner' := by
  have hdecide {p : Port} {files : List Port} (hp : p ∉ files) : decide (p ∈ files) = false := decide_eq_false hp
  cases hpc : s.pc i with
  | idle =>
    rw [hpc] at h
    cases answer <;> cases h
  | bind requested =>
    rw [hpc] at h
    cases answer with
    | success => cases h
    | failure =>
      obtain rfl := Option.some.inj h
      exact ⟨owner, hi.look (by rw [hpc]; rfl) rfl (fun p => .rfl) nofun nofun⟩
    | port p =>
      obtain ⟨⟨hclosed, -⟩, hs'⟩ := Option.ite_none_right_eq_some.mp h
      obtain rfl := Option.some.inj hs'
      have hnone := hi.owner_eq_none hclosed
      have hstatus := hi.status p
      rw [hnone, hclosed] at hstatus
      obtain ⟨hfile, hopen⟩ := Prod.ext_iff.mp (Prod.ext_iff.mp hstatus).2
      have hturn := hi.turn (.listen p) .bound s.files (s.isOpen p) (some (.inr i)) (p := p) (by simp [hpc, holds])
        (by simp [holds, eq_comm]) (.inl hnone) (.inr (.inr rfl)) ?_ (fun q _ => .rfl) rfl
        fun ⟨j, hj⟩ => absurd hj (hanswer j)
      · rw [Function.update_eq_self] at hturn
        exact ⟨_, hturn.slots _⟩
      · simp only [PortDirectory.status, Function.update_self, held]
        rw [show decide (p ∈ s.files) = false from hfile, show s.isOpen p = none from hopen]
  | listen p =>
    have hholds : holds (s.pc i) = some p := by rw [hpc]; rfl
    obtain ⟨hsocket, hfile, hopen⟩ := hi.status_of_holds hholds
    rw [hpc] at h hfile
    have hnot : p ∉ s.files := fun hp => nomatch hfile.mp hp
    cases answer with
    | success =>
      obtain rfl := Option.some.inj h
      have hown := hi.own hholds (.commit p) .listening s.files (s.isOpen p) (some (.inr i)) (by simp [holds, eq_comm])
        (.inr (.inr rfl)) ?_ (fun q _ => .rfl) rfl (by simp)
      · rw [Function.update_eq_self] at hown
        exact ⟨_, hown.slots _⟩
      · simp only [PortDirectory.status, Function.update_self, held, hdecide hnot, hopen]
    | failure =>
      obtain rfl := Option.some.inj h
      have hown := hi.own hholds .idle .closed s.files (s.isOpen p) none (by simp [holds]) (.inl rfl) ?_
        (fun q _ => .rfl) rfl (by simp)
      · rw [Function.update_eq_self] at hown
        exact ⟨_, hown.slots _⟩
      · simp only [PortDirectory.status, hdecide hnot, hopen]
    | port q => cases h
  | commit p =>
    have hholds : holds (s.pc i) = some p := by rw [hpc]; rfl
    obtain ⟨hsocket, -, -⟩ := hi.status_of_holds hholds
    rw [hpc] at h hsocket
    cases answer with
    | success =>
      obtain rfl := Option.some.inj h
      have hown := hi.own hholds .idle (s.socket p) (s.files.insert p) (some (home i)) (some (.inl (home i)))
        (by simp [holds]) (.inr (.inl ⟨_, rfl⟩)) ?_ (fun q => mem_insert_of_ne s.files) rfl (by simp [hsocket, held])
      · rw [Function.update_eq_self] at hown
        exact ⟨_, hown.slots _⟩
      · simp [PortDirectory.status, hsocket, held]
    | failure => cases h
    | port q => cases h
  | testFile p =>
    have hholds : holds (s.pc i) = some p := by rw [hpc]; rfl
    obtain ⟨hsocket, hfile, hopen⟩ := hi.status_of_holds hholds
    rw [hpc] at h hfile hsocket
    have hmem : p ∈ s.files := hfile.mpr rfl
    cases answer with
    | success =>
      obtain rfl := Option.some.inj h
      rw [if_pos hmem]
      have hown := hi.own hholds (.removeFile p) (s.socket p) s.files (s.isOpen p) (some (.inr i))
        (by simp [holds, eq_comm]) (.inr (.inr rfl)) ?_ (fun q _ => .rfl) rfl (by simp [hsocket, held])
      · rw [Function.update_eq_self, Function.update_eq_self] at hown
        exact ⟨_, hown.slots _⟩
      · simp [PortDirectory.status, hsocket, held, hmem, hopen]
    | failure => cases h
    | port q => cases h
  | removeFile p =>
    have hholds : holds (s.pc i) = some p := by rw [hpc]; rfl
    obtain ⟨hsocket, -, hopen⟩ := hi.status_of_holds hholds
    rw [hpc] at h hsocket
    cases answer with
    | success =>
      obtain rfl := Option.some.inj h
      have hown := hi.own hholds (.closeSocket p) (s.socket p) (s.files.filter (· ≠ p)) (s.isOpen p) (some (.inr i))
        (by simp [holds, eq_comm]) (.inr (.inr rfl)) ?_ (fun q => mem_filter_of_ne s.files) rfl
        (by simp [hsocket, held])
      · rw [Function.update_eq_self, Function.update_eq_self] at hown
        exact ⟨_, hown.slots _⟩
      · simp [PortDirectory.status, hsocket, held, hopen]
    | failure => cases h
    | port q => cases h
  | closeSocket p =>
    have hholds : holds (s.pc i) = some p := by rw [hpc]; rfl
    obtain ⟨-, hfile, hopen⟩ := hi.status_of_holds hholds
    rw [hpc] at h hfile
    have hnot : p ∉ s.files := fun hp => nomatch hfile.mp hp
    cases answer with
    | success =>
      obtain rfl := Option.some.inj h
      have hown := hi.own hholds (.clearContext p) .closed s.files (s.isOpen p) none (by simp [holds]) (.inl rfl) ?_
        (fun q _ => .rfl) rfl (by simp)
      · rw [Function.update_eq_self] at hown
        exact ⟨_, hown.slots _⟩
      · simp only [PortDirectory.status, hdecide hnot, hopen]
    | failure => cases h
    | port q => cases h
  | clearContext p =>
    rw [hpc] at h
    cases answer with
    | success =>
      obtain rfl := Option.some.inj h
      exact ⟨owner, hi.look (by rw [hpc]; rfl) rfl (fun p => .rfl) nofun nofun⟩
    | _ => cases h
  | _ => exact ⟨owner, hi.broadcastCall (by simp [hpc, holds]) (fun p => by simp [hpc]) hanswer h⟩

theorem next (hi : Inv s owner) {a : Label ι κ} (ha : Orderly home s a) (h : PortDirectory.next home s a = some s') :
    ∃ owner', Inv s' owner' := by
  cases a with
  | openTcp i requested =>
    obtain ⟨hidle, hs'⟩ := Option.ite_none_right_eq_some.mp h
    obtain rfl := Option.some.inj hs'
    exact ⟨owner, hi.look (by rw [hidle]; rfl) rfl (fun p => .rfl) nofun nofun⟩
  | broadcast i =>
    obtain ⟨hidle, hs'⟩ := Option.ite_none_right_eq_some.mp h
    obtain rfl := Option.some.inj hs'
    exact ⟨owner, hi.look (by rw [hidle]; rfl) rfl (fun p => .rfl) nofun nofun⟩
  | closeTcp i p =>
    obtain ⟨⟨hidle, hopen⟩, hs'⟩ := Option.ite_none_right_eq_some.mp h
    obtain rfl := Option.some.inj hs'
    obtain ⟨howner, hsocket, hfile⟩ := hi.status_of_open hopen
    have hturn := hi.turn (.testFile p) (s.socket p) s.files none (some (.inr i)) (p := p) (by simp [hidle, holds])
      (by simp [holds, eq_comm]) (.inr (.inl ⟨_, howner⟩)) (.inr (.inr rfl)) ?_ (fun q _ => .rfl) rfl fun _ => .inl rfl
    · rw [Function.update_eq_self] at hturn
      exact ⟨_, hturn.slots _⟩
    · simp [PortDirectory.status, hsocket, hfile, held]
  | step i answer => exact hi.systemCall ha h
  | accept c p =>
    obtain ⟨-, hs'⟩ := Option.ite_none_right_eq_some.mp h
    obtain rfl := Option.some.inj hs'
    exact ⟨owner, hi.slots _⟩
  | disconnect c slot =>
    obtain ⟨-, hs'⟩ := Option.ite_none_right_eq_some.mp h
    obtain rfl := Option.some.inj hs'
    exact ⟨owner, hi.slots _⟩
  | clear c slot =>
    obtain ⟨-, hs'⟩ := Option.ite_none_right_eq_some.mp h
    obtain rfl := Option.some.inj hs'
    exact ⟨owner, hi.slots _⟩

omit [DecidableEq ι] [DecidableEq κ] in
theorem start (h : Starts s) : Inv s fun _ => none := by
  obtain ⟨hsocket, hfiles, hopen, -, hidle⟩ := h
  refine ⟨fun p => ?_, fun i p => ?_, fun i p hp => ?_, fun i p elements hpc => ?_⟩
  · rw [hsocket, hfiles, hopen]
    rfl
  · rw [hidle]
    exact ⟨nofun, nofun⟩
  · rw [hidle] at hp
    cases hp
  · rw [hidle] at hpc
    cases hpc

end Inv

variable [DecidableEq κ] {home : ι → κ}

theorem inv_of_reachable (h : ((system home).guarded (Orderly home)).Reachable s) : ∃ owner, Inv s owner := by
  refine h.guarded_invariant (P := fun s => ∃ owner, Inv s owner) (fun s hs => ⟨_, .start hs⟩) ?_
  rintro s a s' ⟨owner, hi⟩ ha hstep
  exact hi.next ha hstep

/-! ## One broadcast -/

/-- The broadcast has yet to look at the port. -/
def Ahead (p : Port) (pc : Pc) : Prop := pc = .list ∨ p ∈ pending pc

/-- The step of the thread connects its instance to the port, or finds that the instance has it. -/
def Reaches (home : ι → κ) (i : ι) (p : Port) (s : State ι κ) (a : Label ι κ) : Prop :=
  a = .step i .success ∧
    ∃ elements, s.pc i = .connect p elements ∨ s.pc i = .testValidity p elements ∧ s.Has (home i) p

theorem systemCall_other {pc : Pc} {answer : Answer} (h : systemCall home s i pc answer = some s') (hj : j ≠ i) :
    s'.pc j = s.pc j := by
  have hgoto (t : State ι κ) (pc' : Pc) : (t.goto i pc').pc j = t.pc j := Function.update_of_ne hj _ _
  unfold systemCall at h
  split at h
  all_goals first
    | (obtain rfl := Option.some.inj h; exact hgoto _ _)
    | (obtain ⟨-, hs⟩ := Option.ite_none_right_eq_some.mp h; obtain rfl := Option.some.inj hs; exact hgoto _ _)
    | cases h

/-- A thread that is in a function leaves it only by steps of its own. -/
theorem next_other {a : Label ι κ} (h : next home s a = some s') (hbusy : s.pc i ≠ .idle)
    (ha : ∀ answer, a ≠ .step i answer) : s'.pc i = s.pc i := by
  have hidle {j : ι} (hj : s.pc j = .idle) : i ≠ j := by
    rintro rfl
    exact hbusy hj
  cases a with
  | step j answer => exact systemCall_other h fun hij => ha answer (by rw [hij])
  | openTcp j q =>
    obtain ⟨hj, hs⟩ := Option.ite_none_right_eq_some.mp h
    obtain rfl := Option.some.inj hs
    exact Function.update_of_ne (hidle hj) _ _
  | closeTcp j q =>
    obtain ⟨hj, hs⟩ := Option.ite_none_right_eq_some.mp h
    obtain rfl := Option.some.inj hs
    exact Function.update_of_ne (hidle hj.1) _ _
  | broadcast j =>
    obtain ⟨hj, hs⟩ := Option.ite_none_right_eq_some.mp h
    obtain rfl := Option.some.inj hs
    exact Function.update_of_ne (hidle hj) _ _
  | _ =>
    obtain ⟨-, hs⟩ := Option.ite_none_right_eq_some.mp h
    obtain rfl := Option.some.inj hs
    rfl

/-- A broadcast does not lose a port that is open. -/
theorem Inv.ahead (hi : Inv s owner) {answer : Answer} (hanswer : Orderly home s (.step i answer))
    (h : PortDirectory.systemCall home s i (s.pc i) answer = some s') (hopen : s.isOpen p ≠ none)
    (hahead : Ahead p (s.pc i)) : Ahead p (s'.pc i) ∨ Reaches home i p s (.step i answer) := by
  obtain ⟨c, hopen⟩ := Option.ne_none_iff_exists'.mp hopen
  obtain ⟨-, hsocket, hfile⟩ := hi.status_of_open hopen
  have hgoto (t : State ι κ) (pc' : Pc) : (t.goto i pc').pc i = pc' := Function.update_self ..
  cases hpc : s.pc i with
  | list =>
    rw [hpc] at h
    cases answer with
    | success =>
      obtain ⟨-, hs'⟩ := Option.ite_none_right_eq_some.mp h
      obtain rfl := Option.some.inj hs'
      rw [hgoto]
      exact .inl (.inr hfile)
    | failure =>
      have hfail : mayFail s.socket (s.pc i) = true := hanswer
      rw [hpc] at hfail
      cases hfail
    | port q => cases h
  | visit elements =>
    rw [hpc] at h hahead
    have hp : p ∈ elements := hahead.resolve_left nofun
    cases elements with
    | nil => cases hp
    | cons q elements =>
      cases answer with
      | success =>
        obtain rfl := Option.some.inj h
        rw [hgoto]
        by_cases hq : q ∈ s.files
        · rw [if_pos hq]
          exact .inl (.inr hp)
        · rw [if_neg hq]
          have hne : p ≠ q := fun hpq => hq (hpq ▸ hfile)
          exact .inl (.inr ((List.mem_cons.mp hp).resolve_left hne))
      | _ => cases h
  | testValidity q elements =>
    rw [hpc] at h hahead
    have hp : p ∈ q :: elements := hahead.resolve_left nofun
    cases answer with
    | success =>
      obtain rfl := Option.some.inj h
      rw [hgoto]
      by_cases hq : s.testTcpValidity (home i) q = true
      · rw [if_pos hq]
        exact .inl (.inr hp)
      · rw [if_neg hq]
        rcases List.mem_cons.mp hp with rfl | hp
        · have htest : mayTest s (home i) (s.pc i) = true := hanswer
          rw [hpc, mayTest, Bool.or_eq_true] at htest
          exact .inr ⟨rfl, elements, .inr ⟨hpc, of_decide_eq_true (htest.resolve_left hq)⟩⟩
        · exact .inl (.inr hp)
    | _ => cases h
  | takeContext q elements =>
    rw [hpc] at h hahead
    cases answer with
    | success =>
      obtain rfl := Option.some.inj h
      rw [hgoto]
      exact .inl (.inr (hahead.resolve_left nofun))
    | _ => cases h
  | connect q elements =>
    rw [hpc] at h hahead
    have hp : p ∈ q :: elements := hahead.resolve_left nofun
    cases answer with
    | success =>
      obtain ⟨-, hs'⟩ := Option.ite_none_right_eq_some.mp h
      obtain rfl := Option.some.inj hs'
      rw [hgoto]
      rcases List.mem_cons.mp hp with rfl | hp
      · exact .inr ⟨rfl, elements, .inl hpc⟩
      · exact .inl (.inr hp)
    | failure =>
      obtain rfl := Option.some.inj h
      rw [hgoto]
      exact .inl (.inr hp)
    | port q => cases h
  | removeElement q elements =>
    have hclosed := hi.removed i q elements hpc
    rw [hpc] at h hahead
    have hp : p ∈ q :: elements := hahead.resolve_left nofun
    have hne : p ≠ q := by
      rintro rfl
      rw [hsocket] at hclosed
      cases hclosed
    cases answer with
    | success =>
      obtain rfl := Option.some.inj h
      rw [hgoto]
      exact .inl (.inr ((List.mem_cons.mp hp).resolve_left hne))
    | _ => cases h
  | _ =>
    rw [hpc] at hahead
    rcases hahead with h | h <;> cases h

theorem Inv.ahead_next (hi : Inv s owner) {a : Label ι κ} (ha : Orderly home s a)
    (h : PortDirectory.next home s a = some s') (hopen : s.isOpen p ≠ none) (hahead : Ahead p (s.pc i)) :
    Ahead p (s'.pc i) ∨ Reaches home i p s a := by
  by_cases hown : ∃ answer, a = .step i answer
  · obtain ⟨answer, rfl⟩ := hown
    exact hi.ahead ha h hopen hahead
  · have hbusy : s.pc i ≠ .idle := by
      intro hidle
      rw [hidle] at hahead
      rcases hahead with h | h <;> cases h
    rw [next_other h hbusy fun answer heq => hown ⟨answer, heq⟩]
    exact .inl hahead

end invariant

/-! ## Runs -/

section runs
variable {ι κ : Type}

/-- The open contexts are the ports announced, up to those being closed, and every port announced is listened to. -/
def Announced (s : State ι κ) : Prop :=
  (∀ p, s.isOpen p ≠ none → p ∈ s.files) ∧ ∀ p ∈ s.files, s.socket p = .listening ∧
    (s.isOpen p ≠ none ∨ ∃ i, s.pc i = .testFile p ∨ s.pc i = .removeFile p)

theorem Inv.announced {s : State ι κ} {owner : Port → Option (κ ⊕ ι)} (hi : Inv s owner) : Announced s := by
  refine ⟨fun p hopen => ?_, fun p hp => ⟨hi.listening_of_mem hp, ?_⟩⟩
  · obtain ⟨c, hopen⟩ := Option.ne_none_iff_exists'.mp hopen
    exact (hi.status_of_open hopen).2.2
  have hstatus := hi.status p
  cases howner : owner p with
  | none =>
    rw [howner, decide_eq_true hp] at hstatus
    cases congrArg (fun x => x.2.1) hstatus
  | some a =>
    rw [howner] at hstatus
    cases a with
    | inl c =>
      have hopen : s.isOpen p = some c := congrArg (fun x => x.2.2) hstatus
      exact .inl (by simp [hopen])
    | inr i =>
      have hholds := (hi.owned i p).mpr howner
      have hheld := (hi.status_of_holds hholds).2.1.mp hp
      refine .inr ⟨i, ?_⟩
      cases hpc : s.pc i <;> simp [hpc, held] at hheld <;> simp_all [holds]

variable [DecidableEq ι] [DecidableEq κ] {home : ι → κ}

/-- **Discovery.** At every moment the directory names the ports of the open contexts, and a broadcast connects to every
port at which a context is open from its beginning to its end, or finds that its instance has the port. -/
theorem contexts_discovered {len : Nat} (x : ((system home).guarded (Orderly home)).Trace len) :
    (∀ k ≤ len, Announced (x.state k)) ∧ ∀ i a b p, a ≤ b → b ≤ len → (x.state a).pc i = .list →
      (∀ k, a ≤ k → k ≤ b → (x.state k).isOpen p ≠ none) → (x.state b).pc i = .finished →
      ∃ k, a ≤ k ∧ k < b ∧ Reaches home i p (x.state k) (x.label k) := by
  have hinv (k : Nat) (hk : k ≤ len) : ∃ owner, Inv (x.state k) owner := inv_of_reachable (x.reachable hk)
  refine ⟨fun k hk => ?_, fun i a b p hab hb hstart hopen hend => ?_⟩
  · obtain ⟨owner, hi⟩ := hinv k hk
    exact hi.announced
  · have hahead : ∀ d, a + d ≤ b → Ahead p ((x.state (a + d)).pc i) ∨
        ∃ k, a ≤ k ∧ k < a + d ∧ Reaches home i p (x.state k) (x.label k) := by
      intro d
      induction d with
      | zero => exact fun _ => .inl (.inl hstart)
      | succ d ih =>
        intro hd
        rcases ih (by omega) with hahead | ⟨k, hk, hlt, hreaches⟩
        · obtain ⟨owner, hi⟩ := hinv (a + d) (by omega)
          obtain ⟨horderly, hstep⟩ := x.follows (a + d) (by omega)
          have hopen := hopen (a + d) (by omega) (by omega)
          refine (hi.ahead_next horderly hstep hopen hahead).imp_right fun hreaches => ?_
          exact ⟨a + d, by omega, by omega, hreaches⟩
        · exact .inr ⟨k, hk, by omega, hreaches⟩
    have hlast := hahead (b - a) (by omega)
    rw [Nat.add_sub_cancel' hab, hend] at hlast
    refine hlast.resolve_left ?_
    rintro (h | h) <;> cases h

/-- Two instances with one thread each. -/
def nothingOpen : State Bool Bool := ⟨fun _ => .closed, [], fun _ => none, fun _ => [], fun _ => .idle⟩

theorem nothingOpen_starts : Starts nothingOpen :=
  ⟨fun _ => rfl, rfl, fun _ => rfl, fun _ => rfl, fun _ => rfl⟩

/-- One opens port 7. -/
def opened : List (Label Bool Bool) :=
  [.openTcp true 7, .step true (.port 7), .step true .success, .step true .success]

/-- Then the other broadcasts. -/
def openAndBroadcast : List (Label Bool Bool) := opened ++ .broadcast false :: List.replicate 6 (.step false .success)

theorem seven_discovered : ∃ x : ((system (id : Bool → Bool)).guarded (Orderly id)).Trace 11,
    (x.state 11).pc false = .finished ∧ ∃ k, 5 ≤ k ∧ k < 11 ∧ Reaches id false 7 (x.state k) (x.label k) := by
  let state := StepSystem.stateAt (StepSystem.gate (Orderly id) (next id)) nothingOpen openAndBroadcast
  obtain ⟨s, hs⟩ : ∃ s, StepSystem.runList (StepSystem.gate (Orderly id) (next id)) nothingOpen openAndBroadcast =
      some s :=
    Option.isSome_iff_exists.mp (by decide +kernel)
  have hlist : (state 5).pc false = .list := by decide +kernel
  have hopen : ∀ k < 12, 5 ≤ k → (state k).isOpen 7 ≠ none := by decide +kernel
  have hend : (state 11).pc false = .finished := by decide +kernel
  let x := StepSystem.Trace.ofGuardedRunList (.broadcast true) nothingOpen_starts hs
  exact ⟨x, hend, (contexts_discovered x).2 false 5 11 7 (by decide) (by decide) hlist
    (fun k hk hk' => hopen k (by omega) hk) hend⟩

/-- The context is closed while the other is at it. -/
def interrupted : List (Label Bool Bool) :=
  opened ++ .broadcast false :: List.replicate 4 (.step false .success) ++
    .closeTcp true 7 :: List.replicate 4 (.step true .success) ++ [.step false .failure]

/-- The port is opened again before the other removes the file. -/
def reopened : List (Label Bool Bool) := interrupted ++ opened ++ [.step false .success]

theorem reopened_not_announced :
    ∃ s, (system (id : Bool → Bool)).Reachable s ∧ s.isOpen 7 ≠ none ∧ 7 ∉ s.files := by
  have hrun : (StepSystem.runList (next id) nothingOpen reopened).map
      (fun s => decide (s.isOpen 7 ≠ none ∧ 7 ∉ s.files)) = some true := by
    decide +kernel
  obtain ⟨s, hs, hend⟩ := Option.map_eq_some_iff.mp hrun
  exact ⟨s, StepSystem.reachable_runList (.init nothingOpen_starts) hs, of_decide_eq_true hend⟩

/-- The port is opened again after the broadcast, and there is another one. -/
def refused : List (Label Bool Bool) :=
  interrupted ++ List.replicate 3 (.step false .success) ++ opened ++ .broadcast false ::
    List.replicate 4 (.step false .success)

theorem refused_not_reached : ∃ x : (system (id : Bool → Bool)).Trace 27,
    (x.state 23).pc false = .list ∧ (x.state 27).pc false = .finished ∧
      ∀ k < 28, 23 ≤ k → (x.state k).isOpen 7 ≠ none ∧ ¬ (x.state k).Has false 7 := by
  obtain ⟨s, hs⟩ : ∃ s, StepSystem.runList (next id) nothingOpen refused = some s :=
    Option.isSome_iff_exists.mp (by decide +kernel)
  have hlist : (StepSystem.stateAt (next id) nothingOpen refused 23).pc false = .list := by decide +kernel
  have hend : (StepSystem.stateAt (next id) nothingOpen refused 27).pc false = .finished := by decide +kernel
  have hduring : ∀ k < 28, 23 ≤ k → (StepSystem.stateAt (next id) nothingOpen refused k).isOpen 7 ≠ none ∧
      ¬ (StepSystem.stateAt (next id) nothingOpen refused k).Has false 7 := by
    decide +kernel
  exact ⟨.ofRunList (.broadcast true) nothingOpen_starts hs, hlist, hend, hduring⟩

end runs

end SubstanceConnector.PortDirectory
