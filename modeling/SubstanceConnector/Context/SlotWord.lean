import Mathlib.Data.Fintype.Basic
import SubstanceConnector.Context.Table
import SubstanceConnector.Library.StepSystem

/-!
# The configuration word of one slot

The word is read and written without atomics by `connector_context_close`, `connector_context_connect` and
`connector_context_write_handshake`; here each load and each store is a step of its own, as is the clearing
by `connector_context_shutdown_from_read_thread`. Any number of threads close, connect and hold the slot.
The queues are the numbers of times the slot's identifier is in them.

A close that stores its bit between the load and the store of another operation is lost, although it
returns `SUCCESS`; so is one that stores into a slot that has been cleared since its test. It is kept if
every operation under way still loads the word before it stores it (`close_kept`).
-/

namespace SubstanceConnector.SlotWord

/-- `connector_context_close`: the test of the state, then `|= SHUTDOWN`. -/
inductive ClosePc where
  | idle
  | test
  | load
  | store (word : UInt64)
  deriving DecidableEq

/-- `connector_context_connect`, from the `memset` of the slot to `append_available`, or to the push on the
free queue if the connection fails. -/
inductive ConnectPc where
  | idle
  | memset (type : UInt64)
  | storeType (type : UInt64)
  | loadOpen
  | storeOpen (word : UInt64)
  | bridge
  | loadMask
  | storeMask (word : UInt64)
  | loadConnected
  | storeConnected (word : UInt64)
  | append
  | giveBack
  deriving DecidableEq

/-- A read thread and the slot: `connector_context_write_handshake` when it acquires the slot, then the
tests of the cleanup, `memset` and the push on the free queue. -/
inductive ReaderPc where
  | idle
  | sentTest
  | stateTest
  | write
  | load
  | store (word : UInt64)
  | held
  | clear
  | giveBack
  deriving DecidableEq

/-- `acked` records that a close has stored its bit, and returns `SUCCESS`, since the slot was cleared. -/
structure State (C A R : Type) where
  word : UInt64
  free : Nat
  available : Nat
  closers : C → ClosePc
  connectors : A → ConnectPc
  readers : R → ReaderPc
  acked : Bool

inductive Label (C A R : Type) where
  | close (c : C)
  -- a connect that finds the free queue empty goes on with slot 0
  | connect (a : A) (type : UInt64) (exhausted : Bool)
  | connector (a : A) (bridged : Bool)
  | acquire (r : R)
  | reader (r : R) (written : Bool)

variable {C A R : Type} [DecidableEq C] [DecidableEq A] [DecidableEq R]

namespace State

def setCloser (s : State C A R) (c : C) (pc : ClosePc) : State C A R :=
  { s with closers := Function.update s.closers c pc }

def setConnector (s : State C A R) (a : A) (pc : ConnectPc) : State C A R :=
  { s with connectors := Function.update s.connectors a pc }

def setReader (s : State C A R) (r : R) (pc : ReaderPc) : State C A R :=
  { s with readers := Function.update s.readers r pc }

end State

def stepCloser (s : State C A R) (c : C) : State C A R :=
  match s.closers c with
  | .idle => s.setCloser c .test
  | .test =>
    let state := s.word &&& connMask
    s.setCloser c (if state &&& connOpen ≠ 0 ∨ state &&& connConnected ≠ 0 then .load else .idle)
  | .load => s.setCloser c (.store s.word)
  | .store word => { s with word := word ||| connShutdown, acked := true }.setCloser c .idle

def stepConnector (s : State C A R) (a : A) (bridged : Bool) : Option (State C A R) :=
  match s.connectors a with
  | .idle => none
  | .memset type => some ({ s with word := 0 }.setConnector a (.storeType type))
  | .storeType type => some ({ s with word := type }.setConnector a .loadOpen)
  | .loadOpen => some (s.setConnector a (.storeOpen s.word))
  | .storeOpen word => some ({ s with word := word ||| connOpen }.setConnector a .bridge)
  | .bridge => some (s.setConnector a (if bridged then .loadMask else .giveBack))
  | .loadMask => some (s.setConnector a (.storeMask s.word))
  | .storeMask word => some ({ s with word := word &&& ~~~connMask }.setConnector a .loadConnected)
  | .loadConnected => some (s.setConnector a (.storeConnected s.word))
  | .storeConnected word => some ({ s with word := word ||| connConnected }.setConnector a .append)
  | .append => some ({ s with available := s.available + 1 }.setConnector a .idle)
  | .giveBack => some ({ s with free := s.free + 1 }.setConnector a .idle)

def stepReader (s : State C A R) (r : R) (written : Bool) : Option (State C A R) :=
  match s.readers r with
  | .idle => none
  | .sentTest => some (s.setReader r (if s.word &&& handshakeMask = handshakeSent then .held else .stateTest))
  | .stateTest => some (s.setReader r (if s.word &&& connMask = connConnected then .write else .held))
  -- `context_message_op_generic` tests the state again
  | .write => some (s.setReader r (if s.word &&& connMask = connConnected ∧ written then .load else .held))
  | .load => some (s.setReader r (.store s.word))
  | .store word => some ({ s with word := word ||| handshakeSent }.setReader r .held)
  | .held => if (s.word &&& connMask) &&& connShutdown ≠ 0 then some (s.setReader r .clear) else none
  | .clear => some ({ s with word := 0, acked := false }.setReader r .giveBack)
  | .giveBack => some ({ s with free := s.free + 1 }.setReader r .idle)

def next (s : State C A R) : Label C A R → Option (State C A R)
  | .close c => some (stepCloser s c)
  | .connect a type exhausted =>
    if s.connectors a = .idle then
      if exhausted then if s.free = 0 then some (s.setConnector a (.memset (type &&& commMask))) else none
      else if 0 < s.free then some ({ s with free := s.free - 1 }.setConnector a (.memset (type &&& commMask))) else none
    else none
  | .connector a bridged => stepConnector s a bridged
  | .acquire r =>
    if s.readers r = .idle ∧ 0 < s.available then some ({ s with available := s.available - 1 }.setReader r .sentTest)
    else none
  | .reader r written => stepReader s r written

/-- The slot after the initialisation of the library: cleared, and once in the free queue. -/
def State.start : State C A R where
  word := 0
  free := 1
  available := 0
  closers _ := .idle
  connectors _ := .idle
  readers _ := .idle
  acked := false

def system (C A R : Type) [DecidableEq C] [DecidableEq A] [DecidableEq R] : StepSystem (State C A R) (Label C A R) :=
  .ofNext (· = .start) next

/-! ## Calls run alone

When nobody else moves, the steps of a call come to what the call does to the table. -/

section alone
variable {cfg : BuildConfig} {t : ContextTable} {context : UInt32} {s : State C A R}

/-- Steps of one thread, taken one after the other. -/
def Alone (a : Label C A R) : State C A R → State C A R → Prop :=
  Relation.ReflTransGen fun s s' => next s a = some s'

omit [DecidableEq A] [DecidableEq R] in
theorem closers_setCloser (s : State C A R) (c : C) (pc : ClosePc) : (s.setCloser c pc).closers c = pc := by
  unfold State.setCloser
  exact Function.update_self c pc s.closers

/-- `connector_context_close`. -/
theorem alone_close {c : C} (hidle : s.closers c = .idle) (hrange : context.toNat < cfg.contextCount)
    (hlength : context.toNat < t.contextList.length) (hword : s.word = (t.slot context).configuration) :
    ∃ s', Alone (.close c) s s' ∧ s'.closers c = .idle ∧
      s'.word = ((connectorContextClose cfg t context).2.slot context).configuration := by
  have hcall : next s (.close c) = some (s.setCloser c .test) := by
    simp only [next, stepCloser, hidle]
  unfold connectorContextClose ConnectorContext.state
  rw [if_pos hrange]
  dsimp only
  rw [← hword]
  split
  · rename_i hopen
    have htest : next (s.setCloser c .test) (.close c) = some ((s.setCloser c .test).setCloser c .load) := by
      simp only [next, stepCloser, closers_setCloser]
      exact congrArg some (congrArg _ (if_pos hopen))
    have hload : next ((s.setCloser c .test).setCloser c .load) (.close c) =
        some (((s.setCloser c .test).setCloser c .load).setCloser c (.store s.word)) := by
      simp only [next, stepCloser, closers_setCloser]
      rfl
    have hstore : next (((s.setCloser c .test).setCloser c .load).setCloser c (.store s.word)) (.close c) =
        some ({ ((s.setCloser c .test).setCloser c .load).setCloser c (.store s.word) with
          word := s.word ||| connShutdown, acked := true }.setCloser c .idle) := by
      simp only [next, stepCloser, closers_setCloser]
    refine ⟨_, .tail (.tail (.tail (.single hcall) htest) hload) hstore, closers_setCloser _ _ _, ?_⟩
    rw [slot_setSlot_self _ hlength]
    rfl
  · rename_i hclosed
    have htest : next (s.setCloser c .test) (.close c) = some ((s.setCloser c .test).setCloser c .idle) := by
      simp only [next, stepCloser, closers_setCloser]
      exact congrArg some (congrArg _ (if_neg hclosed))
    exact ⟨_, .tail (.single hcall) htest, closers_setCloser _ _ _, hword⟩

omit [DecidableEq C] [DecidableEq A] in
theorem readers_setReader (s : State C A R) (r : R) (pc : ReaderPc) : (s.setReader r pc).readers r = pc := by
  unfold State.setReader
  exact Function.update_self r pc s.readers

/-- `connector_context_write_handshake`. -/
theorem alone_write_handshake {o : HandshakeOutcome} {r : R} {written : Bool} (hacquired : s.readers r = .sentTest)
    (hwritten : written = true ↔ o.built = true ∧ connectorWriteConnection o.written (t.slot context) = .success)
    (hrange : context.toNat < cfg.contextCount) (hlength : context.toNat < t.contextList.length)
    (hword : s.word = (t.slot context).configuration) :
    ∃ s', Alone (.reader r written) s s' ∧ s'.readers r = .held ∧
      s'.word = ((connectorContextWriteHandshake cfg o t context).2.slot context).configuration := by
  unfold connectorContextWriteHandshake ConnectorContext.state
  rw [if_pos hrange]
  dsimp only
  rw [← hword]
  by_cases hsent : s.word &&& handshakeMask = handshakeSent
  · have hdone : next s (.reader r written) = some (s.setReader r .held) := by
      simp only [next, stepReader, hacquired, if_pos hsent]
    rw [if_pos hsent]
    exact ⟨_, .single hdone, readers_setReader _ _ _, hword⟩
  have htest : next s (.reader r written) = some (s.setReader r .stateTest) := by
    simp only [next, stepReader, hacquired, if_neg hsent]
  rw [if_neg hsent]
  by_cases hconnected : s.word &&& connMask = connConnected
  case neg =>
    have hdone : next (s.setReader r .stateTest) (.reader r written) =
        some ((s.setReader r .stateTest).setReader r .held) := by
      simp only [next, stepReader, readers_setReader]
      exact congrArg some (congrArg _ (if_neg hconnected))
    rw [if_neg hconnected]
    exact ⟨_, .tail (.single htest) hdone, readers_setReader _ _ _, hword⟩
  have hstate : next (s.setReader r .stateTest) (.reader r written) =
      some ((s.setReader r .stateTest).setReader r .write) := by
    simp only [next, stepReader, readers_setReader]
    exact congrArg some (congrArg _ (if_pos hconnected))
  rw [if_pos hconnected]
  cases written with
  | false =>
    have hdone : next ((s.setReader r .stateTest).setReader r .write) (.reader r false) =
        some (((s.setReader r .stateTest).setReader r .write).setReader r .held) := by
      simp only [next, stepReader, readers_setReader]
      exact congrArg some (congrArg _ (if_neg fun h => Bool.false_ne_true h.2))
    refine ⟨_, .tail (.tail (.single htest) hstate) hdone, readers_setReader _ _ _, ?_⟩
    split
    · rename_i hbuilt
      rw [if_neg fun h => Bool.false_ne_true (hwritten.mpr ⟨hbuilt, h⟩)]
      exact hword
    · exact hword
  | true =>
    obtain ⟨hbuilt, hsuccess⟩ := hwritten.mp rfl
    have hwrite : next ((s.setReader r .stateTest).setReader r .write) (.reader r true) =
        some (((s.setReader r .stateTest).setReader r .write).setReader r .load) := by
      simp only [next, stepReader, readers_setReader]
      exact congrArg some (congrArg _ (if_pos ⟨hconnected, trivial⟩))
    have hload : next (((s.setReader r .stateTest).setReader r .write).setReader r .load) (.reader r true) =
        some ((((s.setReader r .stateTest).setReader r .write).setReader r .load).setReader r (.store s.word)) := by
      simp only [next, stepReader, readers_setReader]
      rfl
    have hstore : next ((((s.setReader r .stateTest).setReader r .write).setReader r .load).setReader r (.store s.word))
        (.reader r true) = some ({ (((s.setReader r .stateTest).setReader r .write).setReader r .load).setReader r
          (.store s.word) with word := s.word ||| handshakeSent }.setReader r .held) := by
      simp only [next, stepReader, readers_setReader]
    refine ⟨_, .tail (.tail (.tail (.tail (.single htest) hstate) hwrite) hload) hstore, readers_setReader _ _ _, ?_⟩
    rw [if_pos hbuilt, if_pos hsuccess, slot_setSlot_self _ hlength]
    rfl

end alone

/-- The bit is set. -/
def Shut (word : UInt64) : Prop := word &&& connShutdown ≠ 0

instance (word : UInt64) : Decidable (Shut word) := inferInstanceAs (Decidable (_ ≠ _))

/-- A close is never lost: while one has returned `SUCCESS` and the slot is not cleared, the bit is set. -/
def Kept (s : State C A R) : Prop := s.acked = true → Shut s.word

/-! ## Closes that are kept -/

def ClosePc.storing : ClosePc → Bool
  | .store _ => true
  | _ => false

/-- What a connect under way still does to the word keeps a bit that is stored now. -/
def ConnectPc.Carries : ConnectPc → Prop
  | .idle | .loadConnected | .append => True
  | .storeConnected word => Shut word
  | _ => False

def ReaderPc.Carries : ReaderPc → Prop
  | .store word => Shut word
  | .giveBack => False
  | _ => True

/-- A close stores its bit into a slot that is not free, and nobody is about to overwrite it; a connect that
goes on with the slot although it is not free finds it open. -/
def Lands (s : State C A R) : Label C A R → Prop
  | .close c => (s.closers c).storing = true →
      s.free = 0 ∧ (∀ a, (s.connectors a).Carries) ∧ ∀ r, (s.readers r).Carries
  | .connect _ _ exhausted => exhausted = true → ¬Shut s.word
  | _ => True

/-- What holds as long as a close is to be kept. -/
structure Carried (s : State C A R) : Prop where
  word : Shut s.word
  free : s.free = 0
  connectors : ∀ a, (s.connectors a).Carries
  readers : ∀ r, (s.readers r).Carries

theorem Shut.or {word : UInt64} (h : Shut word) (bits : UInt64) : Shut (word ||| bits) := by
  intro hzero
  rw [or_and_distrib] at hzero
  exact h (UInt64.or_eq_zero_iff.mp hzero).1

theorem shut_or (word : UInt64) : Shut (word ||| connShutdown) := by
  intro hzero
  rw [or_and_distrib] at hzero
  exact absurd (UInt64.or_eq_zero_iff.mp hzero).2 (by decide)

section steps
variable {s s' : State C A R} {a : Label C A R}

omit [DecidableEq C] [DecidableEq R] in
theorem Carried.setConnector (hs : Carried s) {a : A} (pc : ConnectPc) (h : pc.Carries) : Carried (s.setConnector a pc) :=
  ⟨hs.word, hs.free, Function.forall_update_iff s.connectors (fun _ pc => pc.Carries) |>.mpr ⟨h, fun b _ => hs.connectors b⟩,
    hs.readers⟩

omit [DecidableEq C] [DecidableEq A] in
theorem Carried.setReader (hs : Carried s) {r : R} (pc : ReaderPc) (h : pc.Carries) : Carried (s.setReader r pc) :=
  ⟨hs.word, hs.free, hs.connectors, Function.forall_update_iff s.readers (fun _ pc => pc.Carries) |>.mpr
    ⟨h, fun q _ => hs.readers q⟩⟩

omit [DecidableEq A] [DecidableEq R] in
theorem carried_stepCloser {c : C} (hlands : (s.closers c).storing = true →
      s.free = 0 ∧ (∀ a, (s.connectors a).Carries) ∧ ∀ r, (s.readers r).Carries)
    (hs : s.acked = true → Carried s) (hacked : (stepCloser s c).acked = true) : Carried (stepCloser s c) := by
  unfold stepCloser at hacked ⊢
  cases hpc : s.closers c with
  | idle | test | load =>
    rw [hpc] at hacked
    have hcarried := hs hacked
    exact ⟨hcarried.word, hcarried.free, hcarried.connectors, hcarried.readers⟩
  | store word =>
    rw [hpc] at hlands
    obtain ⟨hfree, hconnectors, hreaders⟩ := hlands rfl
    exact ⟨shut_or word, hfree, hconnectors, hreaders⟩

omit [DecidableEq C] [DecidableEq R] in
theorem carried_stepConnector {a : A} {bridged : Bool} (hs : Carried s) (h : stepConnector s a bridged = some s') :
    Carried s' := by
  have ha := hs.connectors a
  unfold stepConnector at h
  cases hpc : s.connectors a with
  | loadConnected =>
    rw [hpc] at h
    obtain rfl := Option.some.inj h
    exact hs.setConnector (.storeConnected s.word) hs.word
  | storeConnected word =>
    rw [hpc] at h ha
    obtain rfl := Option.some.inj h
    have hstored : Carried { s with word := word ||| connConnected } :=
      ⟨Shut.or ha _, hs.free, hs.connectors, hs.readers⟩
    exact hstored.setConnector .append trivial
  | append =>
    rw [hpc] at h
    obtain rfl := Option.some.inj h
    have hpushed : Carried { s with available := s.available + 1 } :=
      ⟨hs.word, hs.free, hs.connectors, hs.readers⟩
    exact hpushed.setConnector .idle trivial
  | idle =>
    rw [hpc] at h
    cases h
  | _ =>
    rw [hpc] at ha
    exact ha.elim

omit [DecidableEq C] [DecidableEq A] in
theorem carried_stepReader {r : R} {written : Bool} (hs : Carried s) (h : stepReader s r written = some s')
    (hacked : s'.acked = true) : Carried s' := by
  have hr := hs.readers r
  unfold stepReader at h
  cases hpc : s.readers r with
  | idle =>
    rw [hpc] at h
    cases h
  | sentTest | stateTest | write =>
    rw [hpc] at h
    obtain rfl := Option.some.inj h
    refine hs.setReader _ ?_
    split <;> exact trivial
  | load =>
    rw [hpc] at h
    obtain rfl := Option.some.inj h
    exact hs.setReader (.store s.word) hs.word
  | store word =>
    rw [hpc] at h hr
    obtain rfl := Option.some.inj h
    have hstored : Carried { s with word := word ||| handshakeSent } :=
      ⟨Shut.or hr _, hs.free, hs.connectors, hs.readers⟩
    exact hstored.setReader .held trivial
  | held =>
    rw [hpc] at h
    obtain ⟨-, h⟩ := Option.ite_none_right_eq_some.mp h
    obtain rfl := Option.some.inj h
    exact hs.setReader .clear trivial
  | clear =>
    rw [hpc] at h
    obtain rfl := Option.some.inj h
    cases hacked
  | giveBack =>
    rw [hpc] at hr
    exact hr.elim

omit [DecidableEq C] [DecidableEq R] in
theorem acked_of_stepConnector {a : A} {bridged : Bool} (h : stepConnector s a bridged = some s') :
    s'.acked = s.acked := by
  unfold stepConnector at h
  split at h
  case h_1 => cases h
  all_goals
    obtain rfl := Option.some.inj h
    rfl

omit [DecidableEq C] [DecidableEq A] in
theorem acked_of_stepReader {r : R} {written : Bool} (h : stepReader s r written = some s') (hacked : s'.acked = true) :
    s.acked = true := by
  unfold stepReader at h
  cases hpc : s.readers r with
  | idle =>
    rw [hpc] at h
    cases h
  | held =>
    rw [hpc] at h
    obtain ⟨-, h⟩ := Option.ite_none_right_eq_some.mp h
    obtain rfl := Option.some.inj h
    exact hacked
  | clear =>
    rw [hpc] at h
    obtain rfl := Option.some.inj h
    cases hacked
  | _ =>
    rw [hpc] at h
    obtain rfl := Option.some.inj h
    exact hacked

theorem carried_next (hs : s.acked = true → Carried s) (hlands : Lands s a) (h : next s a = some s')
    (hacked : s'.acked = true) : Carried s' := by
  cases a with
  | close c =>
    obtain rfl := Option.some.inj h
    exact carried_stepCloser hlands hs hacked
  | connect a type exhausted =>
    obtain ⟨-, h⟩ := Option.ite_none_right_eq_some.mp h
    cases exhausted with
    | true =>
      obtain ⟨-, h⟩ := Option.ite_none_right_eq_some.mp h
      obtain rfl := Option.some.inj h
      exact absurd (hs hacked).word (hlands rfl)
    | false =>
      -- a slot with a close to be kept is not free
      obtain ⟨hfree, h⟩ := Option.ite_none_right_eq_some.mp h
      obtain rfl := Option.some.inj h
      have hnone := (hs hacked).free
      omega
  | connector a bridged => exact carried_stepConnector (hs ((acked_of_stepConnector h).symm.trans hacked)) h
  | acquire r =>
    obtain ⟨-, h⟩ := Option.ite_none_right_eq_some.mp h
    obtain rfl := Option.some.inj h
    have hcarried := hs hacked
    have hpopped : Carried { s with available := s.available - 1 } :=
      ⟨hcarried.word, hcarried.free, hcarried.connectors, hcarried.readers⟩
    exact hpopped.setReader .sentTest trivial
  | reader r written => exact carried_stepReader (hs (acked_of_stepReader h hacked)) h hacked

end steps

/-- **No close is lost** in a run in which every close lands. -/
theorem close_kept (C A R : Type) [DecidableEq C] [DecidableEq A] [DecidableEq R] (s : State C A R)
    (h : ((system C A R).guarded Lands).Reachable s) : Kept s := by
  have hcarried : s.acked = true → Carried s := by
    refine h.guarded_invariant (P := fun s => s.acked = true → Carried s) (fun s hs => ?_) fun s a s' hs hlands hstep =>
      carried_next hs hlands hstep
    obtain rfl : s = .start := hs
    exact fun hacked => absurd hacked Bool.false_ne_true
  exact fun hacked => (hcarried hacked).word

instance : ∀ pc, Decidable (ConnectPc.Carries pc)
  | .idle | .loadConnected | .append => inferInstanceAs (Decidable True)
  | .storeConnected word => inferInstanceAs (Decidable (Shut word))
  | .memset _ | .storeType _ | .loadOpen | .storeOpen _ | .bridge | .loadMask | .storeMask _ | .giveBack =>
    inferInstanceAs (Decidable False)

instance : ∀ pc, Decidable (ReaderPc.Carries pc)
  | .store word => inferInstanceAs (Decidable (Shut word))
  | .giveBack => inferInstanceAs (Decidable False)
  | .idle | .sentTest | .stateTest | .write | .load | .held | .clear => inferInstanceAs (Decidable True)

instance [Fintype A] [Fintype R] (s : State C A R) : ∀ a, Decidable (Lands s a)
  | .close _ => inferInstanceAs (Decidable (_ → _ ∧ _ ∧ _))
  | .connect _ _ _ => inferInstanceAs (Decidable (_ → _))
  | .connector _ _ => inferInstanceAs (Decidable True)
  | .acquire _ => inferInstanceAs (Decidable True)
  | .reader _ _ => inferInstanceAs (Decidable True)

/-- A connection is established and a read thread takes the slot. -/
def taken : List (Label Unit Unit Unit) :=
  .connect () commUnix false :: .replicate 10 (.connector () true) ++ [.acquire ()]

/-- The slot is closed after the handshake has been written. -/
def keptRun : List (Label Unit Unit Unit) :=
  taken ++ .replicate 5 (.reader () true) ++ .replicate 4 (.close ())

theorem close_kept_run : ∃ s : State Unit Unit Unit, s.acked = true ∧ Kept s := by
  have hrun : (StepSystem.runList (StepSystem.gate Lands next) .start keptRun).map (fun s => s.acked) = some true := by
    decide +kernel
  obtain ⟨s, hs, hacked⟩ := Option.map_eq_some_iff.mp hrun
  exact ⟨s, hacked, close_kept Unit Unit Unit s (StepSystem.guarded_reachable_runList (.init rfl) hs)⟩

/-- The read thread has loaded the word, to set the bit of the handshake, when the close stores its own. -/
def lostRun : List (Label Unit Unit Unit) :=
  taken ++ .replicate 4 (.reader () true) ++ .replicate 4 (.close ()) ++ [.reader () true]

theorem close_lost : ∃ s : State Unit Unit Unit, (system Unit Unit Unit).Reachable s ∧ ¬Kept s := by
  have hrun : (StepSystem.runList next (.start : State Unit Unit Unit) lostRun).map
      (fun s => decide (s.acked = true ∧ ¬Shut s.word)) = some true := by
    decide +kernel
  obtain ⟨s, hs, hlost⟩ := Option.map_eq_some_iff.mp hrun
  obtain ⟨hacked, hcleared⟩ := of_decide_eq_true hlost
  exact ⟨s, StepSystem.reachable_runList (.init rfl) hs, fun hkept => hcleared (hkept hacked)⟩

end SubstanceConnector.SlotWord
