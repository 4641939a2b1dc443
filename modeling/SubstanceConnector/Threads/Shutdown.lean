import SubstanceConnector.Threads.Stopping

/-!
# What the shutdown finds

While `substance_connector_shutdown` runs, the module is shut down for the application (`Shut`) and all threads of the pools
have been created (`Born`). A thread that sleeps does so in one of five places (`Parked`). A dispatch or read thread that is
joined does not sleep, because it tests its flag under the lock under which it waits (`Roused`).
-/

namespace SubstanceConnector.CoreThreads

open LockOrder (Instr Owned Status Awake next)

/-- In `substance_connector_shutdown`. -/
def Pc.stopping : Pc → Bool
  | enter .stopWriters | enter .stopReaders | enter .stopDispatchers | enter .dispatchersStopped => true
  | inside .stopWriters _ _ | inside .stopReaders _ _ => true
  | inside .stopDispatchers _ _ | inside .dispatchersStopped _ _ => true
  | main .shutdownContexts | main (.setFlag _) | main (.join _ _) | main (.destroy _) | main .shutdownAvailable => true
  | main (.clearLock _) | main (.clearTest _) | main (.clear _ _) | main (.clearUnlock _) | done none => true
  | _ => false

section routines
variable (cfg : BuildConfig) (signalMain : Bool)

/-! ## The module is shut down -/

/-- From the beginning of the shutdown on. -/
def Shut (pc : Pc) (g : Shared) : Prop := pc.stopping = true → g.ready = false

theorem setLength_ready (g : Shared) (n : Nat) (q : Queue) : (g.setLength n q).ready = g.ready := by
  cases q <;> rfl

theorem setFlag_ready (g : Shared) (value : Bool) (k : Kind) : (g.setFlag value k).ready = g.ready := by
  cases k <;> rfl

theorem tryAcquire_ready (a : Answer) (g : Shared) (assigned : Nat) : (tryAcquire a g assigned).1.ready = g.ready := by
  unfold tryAcquire
  split <;> rfl

/-- The threads of the pools and of the application do not change the state of the module. -/
theorem routine_ready {users : Nat} {name : Name cfg users} (hname : name ≠ .main) {pc : Pc}
    (hrole : pc.role = name.role cfg) : (routine cfg signalMain name pc).Acts fun g r => r.1.ready = g.ready := by
  have hmain : name.role cfg ≠ .main := by
    cases name <;> simp_all [Name.role]
  cases pc with
  | enter site | unborn k => trivial
  | inside site todo message =>
    cases todo with
    | nil => trivial
    | cons op todo =>
      cases op with
      | enqueue q | dequeue q => exact fun _ g => setLength_ready g _ q
      | setCode value => exact fun _ g => setFlag_ready g value .dispatcher
      | signal c | broadcast c => trivial
  | dispatch pc =>
    cases pc with
    | waitTest message =>
      intro a g
      dsimp only
      split <;> rfl
    | loopTest | wokenTest | handleTest message | roundEnd | handle | exit => exact fun _ _ => rfl
    | _ => trivial
  | write pc =>
    cases pc with
    | waitTest message =>
      cases message with
      | true => exact fun _ _ => rfl
      | false => trivial
    | loopTest | wokenTest | write message | exit => exact fun _ _ => rfl
    | _ => trivial
  | read pc assigned =>
    cases pc with
    | loopTest | waitTest => exact fun _ _ => rfl
    | wokenTest | exitTest =>
      intro a g
      dsimp only
      split
      · rfl
      · exact tryAcquire_ready a g assigned
    | poll =>
      intro a g
      dsimp only
      split
      · rfl
      · cases a <;> rfl
    | exit =>
      intro a g
      dsimp only
      split <;> rfl
    | accepted => exact fun _ _ => rfl
    | _ => trivial
  | main pc => exact absurd hrole.symm hmain
  | application host =>
    intro a g
    cases a with
    | shutdown =>
      have hhost : ¬ (host = .main ∧ g.ready = true) := by
        rintro ⟨rfl, -⟩
        exact hmain hrole.symm
      dsimp only
      rw [if_neg hhost]
    | _ => rfl
  | connecting host => exact fun _ _ => rfl
  | appending host =>
    intro a g
    dsimp only [routine, appendingRoutine]
    split <;> rfl
  | connected host => exact fun _ _ => rfl
  | done k => trivial

theorem main_shut (pc : MainPc) : (mainRoutine cfg pc).KeepsWith Shut (.main pc) := by
  cases pc with
  | createDispatchers i | createWriters i | createReaders i =>
    intro a g _
    dsimp only
    split <;> exact fun h => by cases h
  | spinTest i =>
    intro a g _ h
    dsimp only at h
    split at h
    · split at h <;> cases h
    · cases h
  | spinUnlock initialized => cases initialized <;> exact fun _ _ h => by cases h
  | finish => exact fun _ _ _ h => by cases h
  | setFlag k => exact fun _ g h _ => (setFlag_ready g true k).trans (h rfl)
  | join k i =>
    unfold mainRoutine
    dsimp only
    split
    · exact fun _ _ h _ => h rfl
    · cases k <;> exact fun _ _ h _ => h rfl
  | clear q left =>
    cases left with
    | zero => exact fun _ _ h _ => h rfl
    | succ left => exact fun _ g h _ => (setLength_ready g left q).trans (h rfl)
  | shutdownContexts | shutdownAvailable | destroy m | clearTest q => exact fun _ _ h _ => h rfl
  | clearLock q | clearUnlock q => exact fun _ h _ => h rfl
  | _ => exact fun _ _ h => by cases h

theorem routine_shut {users : Nat} {pc : Pc} (hrole : pc.role = .main) :
    (routine cfg signalMain (Name.main : Name cfg users) pc).KeepsWith Shut pc := by
  cases pc with
  | enter site => exact fun _ h hstop => h (by cases site <;> exact hstop)
  | inside site todo message =>
    cases todo with
    | nil =>
      intro g h
      cases site with
      | stopWriters | stopReaders | stopDispatchers | dispatchersStopped => exact fun _ => h rfl
      | acquireSecond => cases hrole
      | _ => exact fun hstop => by cases hstop
    | cons op todo =>
      have hsame (message' : Bool) (hstop : (Pc.inside site todo message').stopping = true) :
          (Pc.inside site (op :: todo) message).stopping = true := by
        cases site <;> exact hstop
      cases op with
      | enqueue q | dequeue q => exact fun _ g h hstop => (setLength_ready g _ q).trans (h (hsame _ hstop))
      | setCode value => exact fun _ g h hstop => (setFlag_ready g value .dispatcher).trans (h (hsame _ hstop))
      | signal c | broadcast c => exact fun _ h hstop => h (hsame _ hstop)
  | main pc => exact main_shut cfg pc
  | application host =>
    intro a g _
    cases a with
    | shutdown =>
      dsimp only
      split
      · exact fun _ => rfl
      · exact fun hstop => by cases hstop
    | write | connect | await =>
      dsimp only
      split <;> exact fun hstop => by cases hstop
    | _ => cases host <;> exact fun hstop => by cases hstop
  | connecting host =>
    intro a g _
    dsimp only [routine, connectingRoutine]
    split <;> exact fun hstop => by cases hstop
  | appending host =>
    intro a g _
    dsimp only [routine, appendingRoutine]
    split <;> exact fun hstop => by cases hstop
  | connected host =>
    intro a g _
    dsimp only [routine, connectedRoutine]
    split <;> exact fun hstop => by cases hstop
  | done k => trivial
  | unborn k => cases k <;> cases hrole
  | dispatch pc | write pc | read pc assigned => cases hrole

/-! ## All threads have been created -/

/-- How many threads of a pool have been created at least. -/
def Pc.due (cfg : BuildConfig) : Kind → Pc → Nat
  | .dispatcher, main (.createDispatchers i) => i
  | .writer, main (.createWriters i) => i
  | .reader, main (.createReaders i) => i
  | .reader, main (.readersWait i) => i + 1
  | .dispatcher, _ => cfg.dispatchCount
  | _, main (.createDispatchers _) | _, main .spinLock | _, main (.spinTest _) | _, main (.spinUnlock _) => 0
  | .writer, _ => cfg.outboundCount
  | .reader, main (.createWriters _) | .reader, main .readersLock => 0
  | .reader, _ => cfg.inboundCount

/-- In the part of `substance_connector_init` that creates the threads. -/
def Pc.creating : Pc → Bool
  | main (.createDispatchers _) | main .spinLock | main (.spinTest _) | main (.spinUnlock _) => true
  | main (.createWriters _) | main .readersLock | main (.createReaders _) | main (.readersWait _) => true
  | _ => false

def Born (cfg : BuildConfig) (pc : Pc) (g : Shared) : Prop := ∀ k, pc.due cfg k ≤ g.created k

/-- Except where a pool is created, the numbers do not change. -/
theorem Born.same {pc pc' : Pc} {g g' : Shared} (h : Born cfg pc g) (hdue : ∀ k, pc'.due cfg k ≤ pc.due cfg k)
    (hcreated : g'.created = g.created) : Born cfg pc' g' := by
  intro k
  rw [hcreated]
  exact (hdue k).trans (h k)

theorem Born.create {pc pc' : Pc} {g : Shared} (h : Born cfg pc g) (k : Kind) (n : Nat) (hk : pc'.due cfg k ≤ n)
    (hothers : ∀ k' ≠ k, pc'.due cfg k' ≤ pc.due cfg k') : Born cfg pc' (g.create k n) := by
  intro k'
  show pc'.due cfg k' ≤ Function.update g.created k n k'
  by_cases hk' : k' = k
  · subst hk'
    rwa [Function.update_self]
  · rw [Function.update_of_ne hk']
    exact (hothers k' hk').trans (h k')

theorem due_of_not_creating {pc : Pc} (h : pc.creating = false) (k : Kind) : pc.due cfg k = count cfg k := by
  cases pc with
  | main pc => cases pc <;> cases k <;> first | rfl | cases h
  | _ => cases k <;> rfl

theorem resume_creating (message : Bool) (site : Site) : (resume signalMain message site).creating = false := by
  cases site with
  | acquireSecond =>
    unfold resume
    dsimp only
    split <;> rfl
  | _ => rfl

theorem main_born (pc : MainPc) : (mainRoutine cfg pc).KeepsWith (Born cfg) (.main pc) := by
  cases pc with
  | createDispatchers i =>
    intro a g h
    dsimp only
    split
    case isTrue hlt =>
      exact h.create cfg .dispatcher _ le_rfl fun k hk => by cases k <;> first | exact absurd rfl hk | exact le_rfl
    case isFalse hle =>
      intro k
      cases k with
      | dispatcher => exact (Nat.le_of_not_lt hle).trans (h .dispatcher)
      | writer | reader => exact Nat.zero_le _
  | createWriters i =>
    intro a g h
    dsimp only
    split
    case isTrue hlt =>
      exact h.create cfg .writer _ le_rfl fun k hk => by cases k <;> first | exact absurd rfl hk | exact le_rfl
    case isFalse hle =>
      intro k
      cases k with
      | dispatcher => exact h .dispatcher
      | writer => exact (Nat.le_of_not_lt hle).trans (h .writer)
      | reader => exact Nat.zero_le _
  | createReaders i =>
    intro a g h
    dsimp only
    split
    case isTrue hlt =>
      exact h.create cfg .reader _ le_rfl fun k hk => by cases k <;> first | exact absurd rfl hk | exact le_rfl
    case isFalse hle =>
      intro k
      cases k with
      | dispatcher => exact h .dispatcher
      | writer => exact h .writer
      | reader => exact (Nat.le_of_not_lt hle).trans (h .reader)
  | spinTest i =>
    intro a g h
    dsimp only
    split
    · split <;> exact h.same cfg (fun k => by cases k <;> exact le_rfl) rfl
    · exact h.same cfg (fun k => by cases k <;> exact le_rfl) rfl
  | spinUnlock initialized =>
    cases initialized <;> exact fun g h => h.same cfg (fun k => by cases k <;> exact le_rfl) rfl
  | setFlag k =>
    exact fun a g h => h.same cfg (fun k' => by cases k <;> cases k' <;> exact le_rfl) (by cases k <;> rfl)
  | join k i =>
    unfold mainRoutine
    dsimp only
    split
    · exact fun g _ h => h.same cfg (fun k' => by cases k' <;> exact le_rfl) rfl
    · cases k <;> exact fun a g h => h.same cfg (fun k' => by cases k' <;> exact le_rfl) rfl
  | clear q left =>
    intro a g h
    cases left with
    | zero => exact h.same cfg (fun k => by cases k <;> exact le_rfl) rfl
    | succ left => exact h.same cfg (fun k => by cases k <;> exact le_rfl) (setLength_created g left q)
  | clearUnlock q => cases q <;> exact fun g h => h.same cfg (fun k => by cases k <;> exact le_rfl) rfl
  | finish | shutdownContexts | shutdownAvailable | clearTest q =>
    exact fun a g h => h.same cfg (fun k => by cases k <;> exact le_rfl) rfl
  | destroy m =>
    intro a g h
    cases m with
    | queue q => cases q <;> exact h.same cfg (fun k => by cases k <;> exact le_rfl) rfl
    | _ => exact h.same cfg (fun k => by cases k <;> exact le_rfl) rfl
  | _ => exact fun g h => h.same cfg (fun k => by cases k <;> exact le_rfl) rfl

theorem Born.all {pc pc' : Pc} {g g' : Shared} (h : Born cfg pc g) (hpc : pc.creating = false)
    (hpc' : pc'.creating = false) (hcreated : g'.created = g.created) : Born cfg pc' g' :=
  h.same cfg (fun k => by rw [due_of_not_creating cfg hpc, due_of_not_creating cfg hpc']) hcreated

theorem routine_born {users : Nat} {pc : Pc} (hrole : pc.role = .main) :
    (routine cfg signalMain (Name.main : Name cfg users) pc).KeepsWith (Born cfg) pc := by
  cases pc with
  | enter site => exact fun g h => h.all cfg rfl rfl rfl
  | inside site todo message =>
    cases todo with
    | nil => exact fun g h => h.all cfg rfl (resume_creating signalMain message site) rfl
    | cons op todo =>
      cases op with
      | enqueue q | dequeue q => exact fun a g h => h.all cfg rfl rfl (setLength_created g _ q)
      | setCode value => exact fun a g h => h.all cfg rfl rfl rfl
      | signal c | broadcast c => exact fun g h => h.all cfg rfl rfl rfl
  | main pc => exact main_born cfg pc
  | application host =>
    intro a g h
    cases a with
    | write | connect | await | shutdown =>
      dsimp only
      split <;> exact h.all cfg rfl rfl rfl
    | _ => cases host <;> exact h.all cfg rfl rfl rfl
  | connecting host =>
    intro a g h
    dsimp only [routine, connectingRoutine]
    split <;> exact h.all cfg rfl rfl rfl
  | appending host =>
    intro a g h
    dsimp only [routine, appendingRoutine]
    split <;> exact h.all cfg rfl rfl rfl
  | connected host =>
    intro a g h
    dsimp only [routine, connectedRoutine]
    split <;> exact h.all cfg rfl rfl rfl
  | done k => trivial
  | unborn k => cases k <;> cases hrole
  | dispatch pc | write pc | read pc assigned => cases hrole

/-! ## The end of a thread -/

/-- The end of the routine of a thread is known to the thread that joins it. -/
theorem done_ended {users : Nat} {name : Name cfg users} {pc : Pc} (hrole : pc.role = name.role cfg) {k : Kind} {i : Nat}
    (hslot : name.slot = some (k, i)) :
    (routine cfg signalMain name pc).KeepsWith (fun pc g => pc = .done (some k) → g.ended k i = true) pc := by
  have hfinished (g : Shared) : (g.finished k i).ended k i = true := (ended_finished g k k i i).mpr (.inr rfl)
  cases pc with
  | enter site => exact fun _ _ h => by cases h
  | inside site todo message =>
    cases todo with
    | nil =>
      intro g _ h
      cases site with
      | acquireSecond =>
        unfold resume at h
        dsimp only at h
        split at h <;> cases h
      | _ => cases h
    | cons op todo =>
      cases op with
      | enqueue q | dequeue q | setCode value => exact fun _ _ _ h => by cases h
      | signal c | broadcast c => exact fun _ _ h => by cases h
  | unborn k' => exact fun _ _ _ h => by cases k' <;> cases h
  | dispatch pc =>
    cases pc with
    | loopTest | wokenTest | handleTest message | roundEnd | waitTest message =>
      intro a g _ h
      dsimp only at h
      split at h <;> cases h
    | handle kind => exact fun _ _ _ h => by cases kind <;> cases h
    | exit =>
      cases name with
      | dispatcher i =>
        cases hslot
        exact fun _ g _ _ => hfinished g
      | _ => cases hrole
    | _ => exact fun _ _ h => by cases h
  | write pc =>
    cases pc with
    | waitTest message =>
      cases message with
      | true => exact fun _ _ _ h => by cases h
      | false => exact fun _ _ h => by cases h
    | loopTest | wokenTest | write message =>
      intro a g _ h
      dsimp only at h
      split at h <;> cases h
    | exit =>
      cases name with
      | writer i =>
        cases hslot
        exact fun _ g _ _ => hfinished g
      | _ => cases hrole
    | _ => exact fun _ _ h => by cases h
  | read pc assigned =>
    cases pc with
    | loopTest | waitTest | wokenTest | exitTest =>
      intro a g _ h
      dsimp only at h
      split at h <;> cases h
    | poll =>
      intro a g _ h
      dsimp only at h
      split at h
      · cases h
      · cases a with
        | exit =>
          dsimp only at h
          split at h <;> cases h
        | _ => cases h
    | exit =>
      cases name with
      | reader i =>
        cases hslot
        intro a g _ h
        dsimp only at h ⊢
        split at h
        case isTrue hnone =>
          rw [if_pos hnone]
          exact hfinished g
        case isFalse => cases h
      | _ => cases hrole
    | accepted => exact fun _ _ _ h => by cases h
    | _ => exact fun _ _ h => by cases h
  | main pc =>
    cases name with
    | main => cases hslot
    | _ => cases hrole
  | application host =>
    intro a g _ h
    cases a with
    | write | connect | await | shutdown =>
      dsimp only at h
      split at h <;> cases h
    | _ => cases host <;> cases h
  | connecting host =>
    intro a g _ h
    dsimp only [routine, connectingRoutine] at h
    split at h <;> cases h
  | appending host =>
    intro a g _ h
    dsimp only [routine, appendingRoutine] at h
    split at h <;> cases h
  | connected host =>
    intro a g _ h
    dsimp only [routine, connectedRoutine] at h
    split at h <;> cases h
  | done k => trivial

/-! ## Who sleeps -/

/-- The condition on which a thread has waited that goes on here. -/
def Pc.parkedOn : Pc → Option Condition
  | dispatch .wokenUnlock => some .dispatch
  | write .wokenTest => some .outbound
  | read .wokenTest _ => some .inbound
  | main (.createReaders _) => some .readMain
  | main .awaitUnlock => some .dispatchMain
  | _ => none

theorem parkedOn_of_wait {users : Nat} {name : Name cfg users} {pc pc' : Pc} {c : Condition} {m : Mutex}
    (h : routine cfg signalMain name pc = .wait c m pc') : pc'.parkedOn = some c := by
  cases pc with
  | enter site | unborn k | application host | connecting host | appending host | connected host | done k => cases h
  | inside site todo message =>
    cases todo with
    | nil => cases h
    | cons op todo => cases op <;> cases h
  | dispatch pc => cases pc <;> cases h; rfl
  | write pc =>
    cases pc with
    | waitTest message =>
      cases message with
      | true => cases h
      | false =>
        cases h
        rfl
    | _ => cases h
  | read pc assigned => cases pc <;> cases h; rfl
  | main pc =>
    cases pc with
    | readersWait i | awaitWait =>
      cases h
      rfl
    | join k i =>
      unfold routine mainRoutine at h
      dsimp only at h
      split at h
      · cases h
      · cases k <;> cases h
    | _ => cases h

/-- About to wait for a message or for a context. -/
def Pc.waits : Pc → Bool
  | dispatch .wait | read .wait _ => true
  | _ => false

/-- A dispatch or read thread does not come to its wait while its flag is up. -/
theorem routine_waits {users : Nat} {name : Name cfg users} {pc : Pc} (hrole : pc.role = name.role cfg) {k : Kind}
    {i : Nat} (hslot : name.slot = some (k, i)) :
    (routine cfg signalMain name pc).KeepsWith (fun pc g => g.flag k = true → pc.waits = false) pc := by
  cases pc with
  | enter site => exact fun _ _ _ => rfl
  | inside site todo message =>
    cases todo with
    | nil =>
      intro g _ _
      cases site with
      | acquireSecond =>
        unfold resume
        dsimp only
        split <;> rfl
      | _ => rfl
    | cons op todo =>
      cases op with
      | enqueue q | dequeue q | setCode value => exact fun _ _ _ _ => rfl
      | signal c | broadcast c => exact fun _ _ _ => rfl
  | unborn k' => exact fun _ _ _ _ => by cases k' <;> rfl
  | dispatch pc =>
    cases pc with
    | waitTest message =>
      cases name with
      | dispatcher i =>
        cases hslot
        intro a g _
        dsimp only
        split
        case isTrue hwait =>
          intro (hflag : g.dispatchCode = true)
          rw [hflag, Bool.not_true, Bool.and_false] at hwait
          cases hwait
        case isFalse => exact fun _ => rfl
      | _ => cases hrole
    | loopTest | wokenTest | handleTest message | roundEnd =>
      intro a g _ _
      dsimp only
      split <;> rfl
    | handle kind => exact fun _ _ _ _ => by cases kind <;> rfl
    | exit => exact fun _ _ _ _ => rfl
    | _ => exact fun _ _ _ => rfl
  | write pc =>
    cases pc with
    | waitTest message =>
      cases message with
      | true => exact fun _ _ _ _ => rfl
      | false => exact fun _ _ _ => rfl
    | loopTest | wokenTest | write message =>
      intro a g _ _
      dsimp only
      split <;> rfl
    | exit => exact fun _ _ _ _ => rfl
    | _ => exact fun _ _ _ => rfl
  | read pc assigned =>
    cases pc with
    | waitTest =>
      cases name with
      | reader i =>
        cases hslot
        intro a g _
        dsimp only
        split
        case isTrue hwait =>
          intro (hflag : g.readFlag = true)
          rw [hflag] at hwait
          cases hwait.2
        case isFalse => exact fun _ => rfl
      | _ => cases hrole
    | loopTest | wokenTest | exitTest | exit =>
      intro a g _ _
      dsimp only
      split <;> rfl
    | poll =>
      intro a g _ _
      dsimp only
      split
      · rfl
      · cases a with
        | exit =>
          dsimp only
          split <;> rfl
        | _ => rfl
    | accepted => exact fun _ _ _ _ => rfl
    | _ => exact fun _ _ _ => rfl
  | main pc =>
    cases name with
    | main => cases hslot
    | _ => cases hrole
  | application host =>
    intro a g _ _
    cases a with
    | write | connect | await | shutdown =>
      dsimp only
      split <;> rfl
    | _ => cases host <;> rfl
  | connecting host =>
    intro a g _ _
    dsimp only [routine, connectingRoutine]
    split <;> rfl
  | appending host =>
    intro a g _ _
    dsimp only [routine, appendingRoutine]
    split <;> rfl
  | connected host =>
    intro a g _ _
    dsimp only [routine, connectedRoutine]
    split <;> rfl
  | done k => trivial

/-- The condition on which the threads of a pool wait for work, and its mutex. -/
def Kind.condition : Kind → Condition
  | .dispatcher => .dispatch
  | .writer => .outbound
  | .reader => .inbound

def Kind.mutex : Kind → Mutex
  | .dispatcher => .dispatch
  | .writer => .outbound
  | .reader => .inbound

/-- The shutdown has woken the dispatch or the read threads. -/
def Pc.roused : Kind → Pc → Bool
  | .dispatcher, inside .stopDispatchers [] _ | .dispatcher, main (.join .dispatcher _) => true
  | .reader, inside .stopReaders [] _ | .reader, main (.join .reader _) => true
  | _, _ => false

theorem flagUp_of_roused {k : Kind} {pc : Pc} (h : pc.roused k = true) : pc.flagUp k = true := by
  cases pc with
  | inside site todo message =>
    cases todo with
    | nil => cases k <;> cases site <;> first | rfl | cases h
    | cons op todo => cases k <;> cases site <;> cases h
  | main pc =>
    cases pc with
    | join k' i => cases k <;> cases k' <;> first | rfl | cases h
    | _ => cases k <;> cases h
  | _ => cases k <;> cases h

/-- The shutdown wakes them by a broadcast, with the mutex of their condition. -/
theorem roused_keeps {users : Nat} (k : Kind) {pc : Pc} (hrole : pc.role = .main) (hvalid : pc.Valid) :
    (routine cfg signalMain (Name.main : Name cfg users) pc).Keeps fun pc' => pc'.roused k = true →
      pc.roused k = true ∨
        ∃ site message, pc = .inside site [.broadcast k.condition] message ∧ site.function.mutex = k.mutex := by
  cases pc with
  | enter site =>
    intro h
    cases site <;> cases k <;> cases h
  | inside site todo message =>
    cases todo with
    | nil =>
      intro h
      cases site with
      | awaitFlag | dispatchersStopped => cases k <;> cases h
      | stopWriters | stopReaders | stopDispatchers => cases k <;> first | exact .inl rfl | cases h
      | writeEnqueue host | writeFlag host | connectFlag host => cases k <;> cases h
      | _ => cases hrole
    | cons op todo =>
      have hlast (m : Bool) (h : (Pc.inside site todo m).roused k = true) :
          (Pc.inside site (op :: todo) message).roused k = true ∨ ∃ site' message',
            Pc.inside site (op :: todo) message = .inside site' [.broadcast k.condition] message' ∧
              site'.function.mutex = k.mutex := by
        cases todo with
        | cons op' todo => cases k <;> cases site <;> cases h
        | nil =>
          refine .inr ⟨site, message, ?_, ?_⟩
          · have hlast : site.function.body.getLast? = some op := by
              obtain ⟨before, hbody⟩ := hvalid
              rw [← hbody, List.getLast?_concat]
            cases k <;> cases site <;> first | (cases hlast; rfl) | cases h
          · cases k <;> cases site <;> first | rfl | cases h
      cases op with
      | enqueue q | dequeue q | setCode value => exact fun _ _ => hlast _
      | signal c | broadcast c => exact hlast _
  | main pc =>
    cases pc with
    | createDispatchers i | createWriters i | createReaders i | spinTest i =>
      intro a g h
      dsimp only at h
      split at h <;> first | (cases k <;> cases h) | (split at h <;> cases k <;> cases h)
    | spinUnlock initialized => cases initialized <;> exact fun h => by cases k <;> cases h
    | setFlag k' => exact fun _ _ h => by cases k' <;> cases k <;> cases h
    | join k' i =>
      unfold routine mainRoutine
      dsimp only
      split
      · exact fun h => .inl (by cases k <;> cases k' <;> first | rfl | cases h)
      · cases k' <;> exact fun _ _ h => by cases k <;> cases h
    | clear q left => exact fun _ _ h => by cases left <;> cases k <;> cases h
    | clearUnlock q => cases q <;> exact fun h => by cases k <;> cases h
    | destroy m =>
      cases m with
      | queue q => cases q <;> exact fun _ _ h => by cases k <;> cases h
      | _ => exact fun _ _ h => by cases k <;> cases h
    | finish | shutdownContexts | shutdownAvailable | clearTest q => exact fun _ _ h => by cases k <;> cases h
    | _ => exact fun h => by cases k <;> cases h
  | application host =>
    intro a g h
    cases a with
    | write | connect | await | shutdown =>
      dsimp only at h
      split at h <;> cases k <;> cases h
    | _ => cases host <;> cases k <;> cases h
  | connecting host =>
    intro a g h
    dsimp only [routine, connectingRoutine] at h
    split at h <;> cases k <;> cases h
  | appending host =>
    intro a g h
    dsimp only [routine, appendingRoutine] at h
    split at h <;> cases k <;> cases h
  | connected host =>
    intro a g h
    dsimp only [routine, connectedRoutine] at h
    split at h <;> cases k <;> cases h
  | done k => trivial
  | unborn k => cases k <;> cases hrole
  | dispatch pc | write pc | read pc assigned => cases hrole

end routines

/-! ## Whole runs -/

section system
variable {cfg : BuildConfig} {signalMain : Bool} {users : Nat} {s s' : State cfg users}

theorem born_of_reachable (h : (system cfg signalMain users).Reachable s) :
    Born cfg (s.threads .main).locals s.shared := by
  induction h with
  | init h =>
    subst h
    exact fun k => by cases k <;> exact Nat.zero_le _
  | step hreach h ih =>
    refine LockOrder.thread_next (P := Runs) (fun pc hpc => routine_born cfg signalMain hpc.1)
      (fun name pc pc₀ hname hpc => ?_) (runs_of_reachable hreach) h ih
    refine (routine_frame cfg signalMain hname hpc.1 hpc.2).mono fun g r hframe hborn => ?_
    exact hborn.same cfg (fun _ => le_rfl) hframe.created

theorem ended_of_done (h : (system cfg signalMain users).Reachable s) {name : Name cfg users} {k : Kind} {i : Nat}
    (hslot : name.slot = some (k, i)) (hdone : (s.threads name).locals = .done (some k)) : s.shared.ended k i = true := by
  have hname : name ≠ .main := by
    rintro rfl
    cases hslot
  induction h with
  | init h =>
    subst h
    cases name <;> cases hdone
  | step hreach h ih =>
    refine LockOrder.thread_next (P := Runs) (Q := fun pc g => pc = .done (some k) → g.ended k i = true)
      (fun pc hpc => done_ended cfg signalMain hpc.1 hslot) (fun name' pc pc₀ hne hpc => ?_)
      (runs_of_reachable hreach) h ih hdone
    by_cases hmain : name' = .main
    · subst hmain
      refine (main_ended cfg signalMain hpc.1).mono fun g r hsame hended => ?_
      rwa [hsame]
    · refine (routine_frame cfg signalMain hmain hpc.1 hpc.2).mono fun g r hframe hended hpc₀ => ?_
      exact hframe.kept k i (hended hpc₀)

/-- A thread that sleeps, or has been woken, is where it goes on from its wait. -/
def Parked : At → Prop
  | .running _ => True
  | .blocked c _ pc => pc.parkedOn = some c
  | .woken _ pc => pc.parkedOn.isSome = true

theorem Parked.wake {x : At} (h : Parked x) (c : Condition) : Parked (x.wake c) := by
  cases x with
  | running pc => trivial
  | woken m pc => exact h
  | blocked d m pc =>
    rw [Status.wake]
    split
    · show pc.parkedOn.isSome = true
      rw [show pc.parkedOn = some d from h]
      rfl
    · exact h

theorem parked_of_reachable (h : (system cfg signalMain users).Reachable s) (name : Name cfg users) :
    Parked (s.threads name) := by
  induction h generalizing name with
  | init h =>
    subst h
    trivial
  | step hreach h ih =>
    rename_i t t' a
    have hput {threads : Name cfg users → At} {x : At} {j : Name cfg users} (hx : Parked x)
        (hothers : ∀ j, Parked (threads j)) : Parked (Function.update threads j x name) := by
      by_cases hj : name = j
      · subst hj
        rwa [Function.update_self]
      · rw [Function.update_of_ne hj]
        exact hothers name
    cases LockOrder.next_effect h with
    | spurious j c m pc hat =>
      have hj := ih j
      rw [hat] at hj
      exact hput (by rw [Parked, show pc.parkedOn = some c from hj]; rfl) ih
    | wait j _ _ c m pc k hat hinstr => exact hput (parkedOn_of_wait cfg signalMain hinstr) ih
    | signal j _ _ c pc k threads hat hinstr hwoken =>
      refine hput trivial fun j' => ?_
      show Parked (threads j')
      obtain hj | hj := hwoken j'
      · rw [hj]
        exact ih j'
      · rw [hj]
        exact (ih j').wake c
    | broadcast j _ _ c pc k hat hinstr => exact hput trivial fun j' => (ih j').wake c
    | reacquire | act | lock | unlock | await => exact hput trivial ih

theorem waits_of_parkedOn {pc : Pc} (h : pc.parkedOn.isSome = true) : pc.waits = false := by
  cases pc with
  | dispatch pc => cases pc <;> first | rfl | cases h
  | read pc assigned => cases pc <;> first | rfl | cases h
  | _ => rfl

/-- A sleeping thread of a pool is where it goes on from a wait for work. -/
theorem condition_of_parkedOn {name : Name cfg users} {pc : Pc} (hrole : pc.role = name.role cfg) {k : Kind} {i : Nat}
    (hslot : name.slot = some (k, i)) {c : Condition} (h : pc.parkedOn = some c) : c = k.condition := by
  cases name with
  | main | user j => cases hslot
  | dispatcher j | writer j | reader j =>
    cases hslot
    cases pc with
    | dispatch pc | write pc | read pc assigned => cases pc <;> first | (cases h; first | rfl | cases hrole) | cases h
    | main pc => cases hrole
    | _ => cases h

/-- The dispatch and read threads wait for work in one place each. -/
theorem waits_of_wait {name : Name cfg users} {pc pc' : Pc} (hrole : pc.role = name.role cfg) {k : Kind} {i : Nat}
    (hslot : name.slot = some (k, i)) {main : Pc} (hroused : main.roused k = true) {c : Condition} {m : Mutex}
    (h : routine cfg signalMain name pc = .wait c m pc') : pc.waits = true := by
  cases name with
  | main | user j => cases hslot
  | writer j =>
    cases hslot
    cases hroused
  | dispatcher j | reader j =>
    cases hslot
    cases pc with
    | dispatch pc | read pc assigned => cases pc <;> first | rfl | cases h
    | inside site todo message =>
      cases todo with
      | nil => cases h
      | cons op todo => cases op <;> cases h
    | enter site | unborn k' | application host | connecting host | appending host | connected host | done k' => cases h
    | write pc | main pc => cases hrole

/-- A thread that is about to wait for work has the mutex of its condition. -/
theorem mutex_of_waits {name : Name cfg users} {pc : Pc} (hrole : pc.role = name.role cfg) {k : Kind} {i : Nat}
    (hslot : name.slot = some (k, i)) (h : pc.waits = true) : pc.held = [k.mutex] := by
  cases name with
  | main | user j => cases hslot
  | dispatcher j | writer j | reader j =>
    cases hslot
    cases pc with
    | dispatch pc | read pc assigned => cases pc <;> first | (cases h; first | rfl | cases hrole) | cases h
    | _ => cases h

/-- What a thread that sleeps or wants its mutex back is not about to do. -/
theorem waits_of_awake (h : (system cfg signalMain users).Reachable s) {name : Name cfg users} {pc : Pc}
    (hpc : (s.threads name).locals = pc) (hwaits : pc.waits = true) : s.threads name = .running pc := by
  have hparked := parked_of_reachable h name
  cases hat : s.threads name with
  | running pc' =>
    rw [hat] at hpc
    exact congrArg Status.running hpc
  | blocked c m pc' =>
    rw [hat] at hpc hparked
    obtain rfl : pc' = pc := hpc
    rw [waits_of_parkedOn (by rw [show pc'.parkedOn = some c from hparked]; rfl)] at hwaits
    cases hwaits
  | woken m pc' =>
    rw [hat] at hpc hparked
    obtain rfl : pc' = pc := hpc
    rw [waits_of_parkedOn hparked] at hwaits
    cases hwaits

/-- The dispatch and the read threads that have been woken for the shutdown do not sleep any more. -/
def Roused (s : State cfg users) : Prop :=
  ∀ name k i, name.slot = some (k, i) → (s.threads .main).locals.roused k = true →
    Awake s name ∧ (s.threads name).locals.waits = false

/-- When the shutdown makes a step, it has woken them already or does so now. -/
theorem Roused.main_step (h : (system cfg signalMain users).Reachable s) (hs : Roused s) {answer : Answer}
    {chosen : Option (Name cfg users)} (hstep : next (routine cfg signalMain) s (.step .main answer chosen) = some s') :
    Roused s' := by
  intro name k i hslot hroused
  have hname : name ≠ .main := by
    rintro rfl
    cases hslot
  have hlocals := LockOrder.next_locals hstep hname
  by_cases hbefore : (s.threads .main).locals.roused k = true
  · obtain ⟨hawake, hwaits⟩ := hs name k i hslot hbefore
    refine ⟨fun c m pc => ?_, hlocals ▸ hwaits⟩
    rw [LockOrder.next_threads hstep hname hawake]
    exact hawake c m pc
  obtain ⟨m, pc, hat, hat', -⟩ | ⟨pc, hat⟩ := LockOrder.next_own hstep
  · rw [hat] at hbefore
    rw [hat'] at hroused
    exact absurd hroused hbefore
  · obtain ⟨hrole, hvalid⟩ := runs_of_reachable h .main
    rw [hat] at hrole hvalid hbefore
    obtain hpc | ⟨site, message, hpc, hmutex⟩ :=
      (@roused_keeps cfg signalMain users k pc hrole hvalid).step hat hstep hroused
    · exact absurd hpc hbefore
    obtain rfl : pc = _ := hpc
    have howned := owned_of_reachable h
    have hmain : s.holder k.mutex = some .main := by
      have hi := howned .main
      rw [hat] at hi
      exact (hi k.mutex).mp (hmutex ▸ List.mem_cons_self)
    rw [LockOrder.next_broadcast hat rfl hstep]
    constructor
    · -- who slept on the condition has been woken
      intro c m pc' hblocked
      have hthread : (s.threads name).wake k.condition = .blocked c m pc' :=
        (Function.update_of_ne hname _ _).symm.trans hblocked
      cases hx : s.threads name with
      | running pc'' =>
        rw [hx] at hthread
        cases hthread
      | woken m' pc'' =>
        rw [hx] at hthread
        cases hthread
      | blocked c' m' pc'' =>
        have hparked := parked_of_reachable h name
        have hrole' := (runs_of_reachable h name).1
        rw [hx] at hparked hrole' hthread
        rw [Status.wake, if_pos (condition_of_parkedOn hrole' hslot hparked)] at hthread
        cases hthread
    · -- who is about to wait has the mutex, and so is the thread of the shutdown
      rw [← LockOrder.next_broadcast hat rfl hstep, hlocals]
      by_contra hwaits
      have hwaits := Bool.eq_true_of_not_eq_false hwaits
      have hat' := waits_of_awake h rfl hwaits
      have hheld := mutex_of_waits (runs_of_reachable h name).1 hslot hwaits
      have hi := howned name
      rw [hat'] at hi
      have hholder := (hi k.mutex).mp (hheld ▸ List.mem_singleton_self k.mutex)
      exact hname (Option.some.inj (hholder.symm.trans hmain))

/-- A thread that has been woken waits no more, as its flag is up. -/
theorem Roused.own_step (h : (system cfg signalMain users).Reachable s) {name : Name cfg users} {k : Kind} {i : Nat}
    (hslot : name.slot = some (k, i)) (hroused : (s.threads .main).locals.roused k = true) (hawake : Awake s name)
    (hwaits : (s.threads name).locals.waits = false) {answer : Answer} {chosen : Option (Name cfg users)}
    (hstep : next (routine cfg signalMain) s (.step name answer chosen) = some s') :
    Awake s' name ∧ (s'.threads name).locals.waits = false := by
  have hflag : s.shared.flag k = true := ((told_of_reachable h).flag k).trans (flagUp_of_roused hroused)
  obtain ⟨m, pc, hat, hat', -⟩ | ⟨pc, hat⟩ := LockOrder.next_own hstep
  · rw [hat] at hwaits
    rw [hat']
    exact ⟨fun c m' pc' => by rw [hat']; exact nofun, hwaits⟩
  · rw [hat] at hwaits
    have hrole := (runs_of_reachable h name).1
    rw [hat] at hrole
    have hafter := LockOrder.step_keepsWith hat hstep (routine_waits cfg signalMain hrole hslot) fun _ => hwaits
    have hflag' : s'.shared.flag k = true := by
      refine ((told_of_reachable (.step h hstep)).flag k).trans ?_
      rw [LockOrder.next_locals hstep (by rintro rfl; cases hslot)]
      exact flagUp_of_roused hroused
    refine ⟨LockOrder.next_awake (fun pc' hat' c m k hinstr => ?_) hstep, hafter hflag'⟩
    cases hat.symm.trans hat'
    have hwaiting : pc.waits = true := waits_of_wait hrole hslot hroused hinstr
    rw [show pc.waits = false from hwaits] at hwaiting
    cases hwaiting

theorem roused_of_reachable (h : (system cfg signalMain users).Reachable s) : Roused s := by
  induction h with
  | init h =>
    subst h
    intro name k i _ hroused
    cases k <;> cases hroused
  | step hreach hstep ih =>
    rename_i t t' a
    cases a with
    | spurious j =>
      intro name k i hslot hroused
      have hlocals := LockOrder.spurious_locals hstep
      rw [hlocals .main] at hroused
      obtain ⟨hawake, hwaits⟩ := ih name k i hslot hroused
      refine ⟨?_, (congrArg Pc.waits (hlocals name)).trans hwaits⟩
      cases LockOrder.next_effect hstep with
      | spurious _ c m pc hat =>
        have hne : name ≠ j := by
          rintro rfl
          exact hawake c m pc hat
        intro c' m' pc' hblocked
        exact hawake c' m' pc' ((Function.update_of_ne hne _ _).symm.trans hblocked)
    | step j answer chosen =>
      by_cases hmain : j = .main
      · subst hmain
        exact ih.main_step hreach hstep
      · intro name k i hslot hroused
        rw [LockOrder.next_locals hstep (Ne.symm hmain)] at hroused
        obtain ⟨hawake, hwaits⟩ := ih name k i hslot hroused
        by_cases hname : name = j
        · subst hname
          exact Roused.own_step hreach hslot hroused hawake hwaits hstep
        · refine ⟨fun c m pc => ?_, (congrArg Pc.waits (LockOrder.next_locals hstep hname)).trans hwaits⟩
          rw [LockOrder.next_threads hstep hname hawake]
          exact hawake c m pc

theorem shut_of_stopping (h : (system cfg signalMain users).Reachable s) : Shut (s.threads .main).locals s.shared := by
  induction h with
  | init h =>
    subst h
    exact fun hstop => by cases hstop
  | step hreach h ih =>
    refine LockOrder.thread_next (P := Runs) (fun pc hpc => routine_shut cfg signalMain hpc.1)
      (fun name pc pc₀ hname hpc => ?_) (runs_of_reachable hreach) h ih
    exact (routine_ready cfg signalMain hname hpc.1).mono fun g r hsame hshut hstop => hsame.trans (hshut hstop)

end system

end SubstanceConnector.CoreThreads
