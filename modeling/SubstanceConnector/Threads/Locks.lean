import Mathlib.Order.WithBot
import SubstanceConnector.Threads.Core

/-!
# The order of the locks of the core

Each local state of the machine of all threads says which mutexes its thread has. A mutex is taken under another one in three
places only: a write thread takes the lock of the outbound queue under `outbound_lock`, a read thread `read_main_lock` under
`inbound_lock`, and `connector_await_dispatch` takes `dispatch_lock` under `dispatch_main_lock`; so two ranks order them.
-/

namespace SubstanceConnector.CoreThreads

open LockOrder (Instr Owned Status next)

namespace Mutex

def rank : Mutex → Nat
  | dispatchMain | outbound | inbound => 0
  | dispatch | readMain | queue _ => 1

theorem rank_le (m : Mutex) : m.rank ≤ 1 := by
  cases m <;> simp [rank]

end Mutex

namespace Pc

/-- The mutexes a thread has, the one taken last in front. -/
def held : Pc → List Mutex
  | enter site => site.under
  | inside site _ _ => site.function.mutex :: site.under
  | dispatch (.waitTest _) | dispatch .wait | dispatch .wokenUnlock | dispatch (.unlock _) => [.dispatch]
  | write (.waitTest _) | write .wokenTest | write .unlock | write .unlockExit => [.outbound]
  | read .waitTest _ | read .wait _ | read .wokenTest _ | read .unlock _ => [.inbound]
  | main (.spinTest _) | main (.spinUnlock _) => [.dispatch]
  | main (.createReaders _) | main (.readersWait _) | main .readersUnlock => [.readMain]
  | main .awaitWait | main .awaitUnlock => [.dispatchMain]
  | main (.clearTest q) | main (.clear q _) | main (.clearUnlock q) => [.queue q]
  | _ => []

/-- More than the steps a thread makes before it gives up a mutex it has: the two loops inside a critical section are that of
the initialization over the dispatch threads and that over the messages of a queue. -/
def work (cfg : BuildConfig) : Pc → WithTop Nat
  | enter .acquireWoken | enter (.notify _) | enter .awaitFlag => .some 20
  | inside _ todo _ => .some (todo.length + 5)
  | dispatch (.waitTest _) | write (.waitTest _) | read .waitTest _ => .some 2
  | dispatch .wait | dispatch .wokenUnlock | dispatch (.unlock _) => .some 1
  | write .wokenTest => .some 30
  | write .unlock | write .unlockExit => .some 1
  | read .wait _ | read .unlock _ => .some 1
  | read .wokenTest _ => .some 3
  | main (.spinTest i) => .some (cfg.dispatchCount - i + 2)
  | main (.spinUnlock _) => .some 1
  | main (.createReaders _) => .some 3
  | main (.readersWait _) => .some 2
  | main .readersUnlock | main .awaitUnlock => .some 1
  | main .awaitWait => .some 2
  | main (.clearTest _) => ⊤
  | main (.clear _ left) => .some (left + 2)
  | main (.clearUnlock _) => .some 1
  | _ => .some 0

end Pc

section routines
variable (cfg : BuildConfig) (signalMain : Bool)

theorem held_resume (message : Bool) (site : Site) : (resume signalMain message site).held = site.under := by
  cases site with
  | acquireSecond =>
    unfold resume
    dsimp only
    split
    · rfl
    · rfl
  | _ => rfl

theorem mutex_notMem_under (site : Site) : site.function.mutex ∉ site.under := by
  cases site <;> simp [Site.function, Site.under, Section.mutex]

theorem rank_under (site : Site) : ∀ m ∈ site.under, m.rank < site.function.mutex.rank := by
  cases site <;> simp [Site.function, Site.under, Section.mutex, Mutex.rank]

theorem work_resume_lt (message : Bool) (site : Site) :
    (resume signalMain message site).work cfg < (Pc.inside site [] message).work cfg := by
  cases site with
  | acquireSecond =>
    unfold resume
    dsimp only
    split
    · exact WithTop.coe_lt_coe.mpr (by decide)
    · exact WithTop.coe_lt_coe.mpr (by decide)
  | _ => exact WithTop.coe_lt_coe.mpr (by decide)

/-! ## The routines keep to the order -/

theorem inside_follows (site : Site) (todo : List Op) (message : Bool) :
    (insideRoutine signalMain site message todo).Follows Pc.held Mutex.rank (.inside site todo message) := by
  cases todo with
  | nil =>
    refine ⟨?_, ?_⟩
    · rw [held_resume]
      rfl
    · rw [held_resume]
      exact mutex_notMem_under site
  | cons op todo =>
    cases op with
    | enqueue q | dequeue q | setCode value => exact fun _ _ => rfl
    | signal c | broadcast c => exact rfl

theorem dispatch_follows (i : Nat) (pc : DispatchPc) :
    (dispatchRoutine signalMain i pc).Follows Pc.held Mutex.rank (.dispatch pc) := by
  cases pc with
  | lock message => exact ⟨rfl, nofun⟩
  | wait => exact ⟨rfl, rfl⟩
  | wokenUnlock | unlock message => exact ⟨rfl, List.not_mem_nil⟩
  | loopTest | wokenTest | handleTest message | roundEnd | waitTest message =>
    intro a g
    dsimp only
    split <;> rfl
  | handle kind =>
    intro a g
    cases kind <;> rfl
  | exit => exact fun _ _ => rfl

theorem write_follows (i : Nat) (pc : WritePc) : (writeRoutine i pc).Follows Pc.held Mutex.rank (.write pc) := by
  cases pc with
  | lock => exact ⟨rfl, nofun⟩
  | waitTest message =>
    cases message with
    | true => exact fun _ _ => rfl
    | false => exact ⟨rfl, rfl⟩
  | unlock | unlockExit => exact ⟨rfl, List.not_mem_nil⟩
  | loopTest | wokenTest | write message =>
    intro a g
    dsimp only
    split <;> rfl
  | exit => exact fun _ _ => rfl

theorem read_follows (i assigned : Nat) (pc : ReadPc) :
    (readRoutine i assigned pc).Follows Pc.held Mutex.rank (.read pc assigned) := by
  cases pc with
  | lock => exact ⟨rfl, nofun⟩
  | wait => exact ⟨rfl, rfl⟩
  | unlock => exact ⟨rfl, List.not_mem_nil⟩
  | loopTest | waitTest | wokenTest | exitTest | exit =>
    intro a g
    dsimp only
    split <;> rfl
  | poll =>
    intro a g
    dsimp only
    split
    · rfl
    · cases a with
      | exit =>
        dsimp only
        split <;> rfl
      | _ => rfl
  | accepted => exact fun _ _ => rfl

theorem application_follows (host : Host) :
    (applicationRoutine signalMain host).Follows Pc.held Mutex.rank (.application host) := by
  intro a g
  cases a with
  | write | connect | await | shutdown =>
    dsimp only
    split <;> rfl
  | _ => cases host <;> rfl

theorem connecting_follows (host : Host) : (connectingRoutine host).Follows Pc.held Mutex.rank (.connecting host) := by
  intro a g
  dsimp only
  split <;> rfl

theorem appending_follows (host : Host) : (appendingRoutine host).Follows Pc.held Mutex.rank (.appending host) := by
  intro a g
  dsimp only
  split <;> rfl

theorem connected_follows (host : Host) : (connectedRoutine host).Follows Pc.held Mutex.rank (.connected host) := by
  intro a g
  dsimp only
  split <;> rfl

theorem main_follows (pc : MainPc) : (mainRoutine cfg pc).Follows Pc.held Mutex.rank (.main pc) := by
  cases pc with
  | spinLock | readersLock | awaitLock | clearLock q => exact ⟨rfl, nofun⟩
  | readersWait i | awaitWait => exact ⟨rfl, rfl⟩
  | readersUnlock | awaitUnlock => exact ⟨rfl, List.not_mem_nil⟩
  | spinUnlock initialized => cases initialized <;> exact ⟨rfl, List.not_mem_nil⟩
  | clearUnlock q => cases q <;> exact ⟨rfl, List.not_mem_nil⟩
  | createDispatchers i | createWriters i | createReaders i =>
    intro a g
    dsimp only
    split <;> rfl
  | spinTest i =>
    intro a g
    dsimp only
    split
    · split <;> rfl
    · rfl
  | setFlag k => exact fun _ _ => by cases k <;> rfl
  | finish | clearTest q | shutdownContexts | shutdownAvailable => exact fun _ _ => rfl
  | clear q left => exact fun _ _ => by cases left <;> rfl
  | destroy m =>
    cases m with
    | queue q => cases q <;> exact fun _ _ => rfl
    | _ => exact fun _ _ => rfl
  | join k i =>
    unfold mainRoutine
    dsimp only
    split
    · exact ⟨rfl, rfl⟩
    · cases k <;> exact fun _ _ => rfl

theorem routine_follows {users : Nat} (name : Name cfg users) (pc : Pc) :
    (routine cfg signalMain name pc).Follows Pc.held Mutex.rank pc := by
  cases pc with
  | enter site => exact ⟨rfl, rank_under site⟩
  | inside site todo message => exact inside_follows signalMain site todo message
  | unborn k => exact ⟨rfl, by cases k <;> rfl⟩
  | dispatch pc => exact dispatch_follows signalMain name.index pc
  | write pc => exact write_follows name.index pc
  | read pc assigned => exact read_follows name.index assigned pc
  | main pc => exact main_follows cfg pc
  | application host => exact application_follows signalMain host
  | connecting host => exact connecting_follows host
  | appending host => exact appending_follows host
  | connected host => exact connected_follows host
  | done k => exact rfl

/-! ## Every critical section comes to its end -/

theorem inside_shrinks (site : Site) (todo : List Op) (message : Bool) :
    (insideRoutine signalMain site message todo).Shrinks (Pc.work cfg) (.inside site todo message) := by
  cases todo with
  | nil => exact work_resume_lt cfg signalMain message site
  | cons op todo =>
    have hless (m : Bool) : (Pc.inside site todo m).work cfg < (Pc.inside site (op :: todo) message).work cfg :=
      WithTop.coe_lt_coe.mpr (by simp)
    cases op with
    | enqueue q | dequeue q | setCode value => exact fun _ _ => hless _
    | signal c | broadcast c => exact hless _

theorem dispatch_shrinks (i : Nat) (pc : DispatchPc) (hheld : (Pc.dispatch pc).held ≠ []) :
    (dispatchRoutine signalMain i pc).Shrinks (Pc.work cfg) (.dispatch pc) := by
  cases pc with
  | waitTest message =>
    intro a g
    dsimp only
    split <;> exact WithTop.coe_lt_coe.mpr (by decide)
  | wait => trivial
  | wokenUnlock | unlock message => exact WithTop.coe_lt_coe.mpr (by decide)
  | _ => exact absurd rfl hheld

theorem write_shrinks (i : Nat) (pc : WritePc) (hheld : (Pc.write pc).held ≠ []) :
    (writeRoutine i pc).Shrinks (Pc.work cfg) (.write pc) := by
  cases pc with
  | waitTest message =>
    cases message with
    | true => exact fun _ _ => WithTop.coe_lt_coe.mpr (by decide)
    | false => trivial
  | wokenTest =>
    intro a g
    dsimp only
    split <;> exact WithTop.coe_lt_coe.mpr (by decide)
  | unlock | unlockExit => exact WithTop.coe_lt_coe.mpr (by decide)
  | _ => exact absurd rfl hheld

theorem read_shrinks (i assigned : Nat) (pc : ReadPc) (hheld : (Pc.read pc assigned).held ≠ []) :
    (readRoutine i assigned pc).Shrinks (Pc.work cfg) (.read pc assigned) := by
  cases pc with
  | waitTest | wokenTest =>
    intro a g
    dsimp only
    split <;> exact WithTop.coe_lt_coe.mpr (by decide)
  | wait => trivial
  | unlock => exact WithTop.coe_lt_coe.mpr (by decide)
  | _ => exact absurd rfl hheld

theorem main_shrinks (pc : MainPc) (hheld : (Pc.main pc).held ≠ []) :
    (mainRoutine cfg pc).Shrinks (Pc.work cfg) (.main pc) := by
  cases pc with
  | spinTest i =>
    intro a g
    dsimp only
    split
    · split
      · exact WithTop.coe_lt_coe.mpr (by omega)
      · exact WithTop.coe_lt_coe.mpr (by omega)
    · exact WithTop.coe_lt_coe.mpr (by omega)
  | spinUnlock initialized => cases initialized <;> exact WithTop.coe_lt_coe.mpr (by decide)
  | createReaders i =>
    intro a g
    dsimp only
    split <;> exact WithTop.coe_lt_coe.mpr (by decide)
  | readersWait i | awaitWait => trivial
  | readersUnlock | awaitUnlock => exact WithTop.coe_lt_coe.mpr (by decide)
  | clearTest q => exact fun _ _ => WithTop.coe_lt_top _
  | clear q left =>
    intro a g
    cases left with
    | zero => exact WithTop.coe_lt_coe.mpr (by decide)
    | succ left => exact WithTop.coe_lt_coe.mpr (by omega)
  | clearUnlock q => cases q <;> exact WithTop.coe_lt_coe.mpr (by decide)
  | _ => exact absurd rfl hheld

theorem routine_shrinks {users : Nat} (name : Name cfg users) (pc : Pc) (hheld : pc.held ≠ []) :
    (routine cfg signalMain name pc).Shrinks (Pc.work cfg) pc := by
  cases pc with
  | enter site =>
    cases site with
    | acquireWoken | notify assigned | awaitFlag => exact WithTop.coe_lt_coe.mpr (by simp [Site.function, Section.body])
    | _ => exact absurd rfl hheld
  | inside site todo message => exact inside_shrinks cfg signalMain site todo message
  | dispatch pc => exact dispatch_shrinks cfg signalMain name.index pc hheld
  | write pc => exact write_shrinks cfg name.index pc hheld
  | read pc assigned => exact read_shrinks cfg name.index assigned pc hheld
  | main pc => exact main_shrinks cfg pc hheld
  | unborn k | application host | connecting host | appending host | connected host | done k => exact absurd rfl hheld

/-! ## Which thread runs what -/

inductive Role where
  | main
  | dispatcher
  | writer
  | reader
  | user
  deriving DecidableEq

def Kind.role : Kind → Role
  | .dispatcher => .dispatcher
  | .writer => .writer
  | .reader => .reader

def Host.role : Host → Role
  | .dispatcher => .dispatcher
  | .reader _ | .leaver _ => .reader
  | .user => .user
  | .main => .main

def Site.role : Site → Role
  | .acquireFirst | .acquireSecond | .acquireNext | .signalIdle | .signalRound | .answerEnqueue | .answerFlag => .dispatcher
  | .acquireWoken | .acquireWritten => .writer
  | .notify _ | .acceptAppend _ | .acceptFlag _ | .readEnqueue _ | .readFlag _ => .reader
  | .writeEnqueue host | .writeFlag host | .connectFlag host => host.role
  | .awaitFlag | .stopWriters | .stopReaders | .stopDispatchers | .dispatchersStopped => .main

def Pc.role : Pc → Role
  | .enter site | .inside site _ _ => site.role
  | .unborn k => k.role
  | .dispatch _ => .dispatcher
  | .write _ => .writer
  | .read _ _ => .reader
  | .main _ => .main
  | .application host | .connecting host | .appending host | .connected host => host.role
  | .done k => k.elim .main Kind.role

def Name.role {users : Nat} : Name cfg users → Role
  | .main => .main
  | .dispatcher _ => .dispatcher
  | .writer _ => .writer
  | .reader _ => .reader
  | .user _ => .user

theorem role_resume (message : Bool) (site : Site) : (resume signalMain message site).role = site.role := by
  cases site with
  | acquireSecond =>
    unfold resume
    dsimp only
    split
    · rfl
    · rfl
  | _ => rfl

theorem role_returned (host : Host) : (returned host).role = host.role := by
  cases host <;> rfl

theorem dispatch_role (i : Nat) (pc : DispatchPc) :
    (dispatchRoutine signalMain i pc).Keeps fun k => k.role = .dispatcher := by
  cases pc with
  | loopTest | wokenTest | handleTest message | roundEnd | waitTest message =>
    intro a g
    dsimp only
    split <;> rfl
  | handle kind =>
    intro a g
    cases kind <;> rfl
  | exit => exact fun _ _ => rfl
  | _ => exact rfl

theorem write_role (i : Nat) (pc : WritePc) : (writeRoutine i pc).Keeps fun k => k.role = .writer := by
  cases pc with
  | waitTest message =>
    cases message with
    | true => exact fun _ _ => rfl
    | false => exact rfl
  | loopTest | wokenTest | write message =>
    intro a g
    dsimp only
    split <;> rfl
  | exit => exact fun _ _ => rfl
  | _ => exact rfl

theorem read_role (i assigned : Nat) (pc : ReadPc) :
    (readRoutine i assigned pc).Keeps fun k => k.role = .reader := by
  cases pc with
  | loopTest | waitTest | wokenTest | exitTest | exit =>
    intro a g
    dsimp only
    split <;> rfl
  | poll =>
    intro a g
    dsimp only
    split
    · rfl
    · cases a with
      | exit =>
        dsimp only
        split <;> rfl
      | _ => rfl
  | accepted => exact fun _ _ => rfl
  | _ => exact rfl

theorem application_role (host : Host) : (applicationRoutine signalMain host).Keeps fun k => k.role = host.role := by
  intro a g
  cases a with
  | write | connect =>
    dsimp only
    split <;> rfl
  | await | shutdown =>
    dsimp only
    split
    case isTrue h => exact h.1 ▸ rfl
    case isFalse => rfl
  | _ => exact role_returned host

theorem connecting_role (host : Host) : (connectingRoutine host).Keeps fun k => k.role = host.role := by
  intro a g
  dsimp only
  split <;> rfl

theorem appending_role (host : Host) : (appendingRoutine host).Keeps fun k => k.role = host.role := by
  intro a g
  dsimp only
  split <;> rfl

theorem connected_role (host : Host) : (connectedRoutine host).Keeps fun k => k.role = host.role := by
  intro a g
  dsimp only
  split <;> rfl

theorem main_role (pc : MainPc) : (mainRoutine cfg pc).Keeps fun k => k.role = .main := by
  cases pc with
  | createDispatchers i | createWriters i | createReaders i =>
    intro a g
    dsimp only
    split <;> rfl
  | spinTest i =>
    intro a g
    dsimp only
    split
    · split <;> rfl
    · rfl
  | setFlag k => exact fun _ _ => by cases k <;> rfl
  | finish | clearTest q | shutdownContexts | shutdownAvailable => exact fun _ _ => rfl
  | clear q left => exact fun _ _ => by cases left <;> rfl
  | destroy m =>
    cases m with
    | queue q => cases q <;> exact fun _ _ => rfl
    | _ => exact fun _ _ => rfl
  | join k i =>
    unfold mainRoutine
    dsimp only
    split
    · exact rfl
    · cases k <;> exact fun _ _ => rfl
  | clearUnlock q => cases q <;> exact rfl
  | _ => exact rfl

theorem routine_role {users : Nat} (name : Name cfg users) (pc : Pc) :
    (routine cfg signalMain name pc).Keeps fun k => k.role = pc.role := by
  cases pc with
  | enter site => exact rfl
  | inside site todo message =>
    cases todo with
    | nil => exact role_resume signalMain message site
    | cons op todo =>
      cases op with
      | enqueue q | dequeue q | setCode value => exact fun _ _ => rfl
      | signal c | broadcast c => exact rfl
  | unborn k => cases k <;> exact rfl
  | dispatch pc => exact dispatch_role signalMain name.index pc
  | write pc => exact write_role name.index pc
  | read pc assigned => exact read_role name.index assigned pc
  | main pc => exact main_role cfg pc
  | application host => exact application_role signalMain host
  | connecting host => exact connecting_role host
  | appending host => exact appending_role host
  | connected host => exact connected_role host
  | done k => trivial

theorem under_dispatcher {site : Site} (hrole : site.role = .dispatcher) : site.under = [] := by
  cases site with
  | acquireWoken | notify assigned | awaitFlag => cases hrole
  | _ => rfl

/-- A dispatch thread has at most one mutex at any time, as the comment in `dispatch_routine` wants it. -/
theorem held_dispatcher {pc : Pc} (hrole : pc.role = .dispatcher) {m m' : Mutex} (hm : m ∈ pc.held)
    (hm' : m' ∈ pc.held) : m = m' := by
  cases pc with
  | enter site =>
    rw [Pc.held, under_dispatcher hrole] at hm
    cases hm
  | inside site todo message =>
    rw [Pc.held, under_dispatcher hrole, List.mem_singleton] at hm hm'
    rw [hm, hm']
  | dispatch pc =>
    cases pc with
    | waitTest message | wait | wokenUnlock | unlock message =>
      rw [List.mem_singleton.mp hm, List.mem_singleton.mp hm']
    | _ => cases hm
  | unborn k | application host | connecting host | appending host | connected host | done k => cases hm
  | write pc | read pc assigned | main pc => cases hrole

end routines

/-! ## Whole runs -/

section system
variable {cfg : BuildConfig} {signalMain : Bool} {users : Nat} {s : State cfg users}

theorem owned_of_reachable (h : (system cfg signalMain users).Reachable s) : Owned Pc.held s := by
  induction h with
  | init h =>
    subst h
    exact LockOrder.owned_start (fun name => ⟨name.start, rfl, by cases name <;> rfl⟩) fun _ => rfl
  | step _ h ih => exact LockOrder.owned_next (routine_follows cfg signalMain) ih h

theorem role_of_reachable (h : (system cfg signalMain users).Reachable s) (name : Name cfg users) :
    (s.threads name).locals.role = name.role cfg := by
  induction h generalizing name with
  | init h =>
    subst h
    cases name <;> rfl
  | step _ h ih =>
    exact LockOrder.locals_next (P := fun name pc => pc.role = name.role cfg)
      (fun name pc hpc => hpc ▸ routine_role cfg signalMain name pc) ih h name

/-- No dispatch thread has two mutexes. -/
theorem dispatcher_mutex (h : (system cfg signalMain users).Reachable s) {i : Fin cfg.dispatchCount} {m m' : Mutex}
    (hm : s.holder m = some (.dispatcher i)) (hm' : s.holder m' = some (.dispatcher i)) : m = m' := by
  have howned := owned_of_reachable h
  obtain ⟨pc, hat, hheld⟩ := howned.running hm
  obtain ⟨pc', hat', hheld'⟩ := howned.running hm'
  cases hat.symm.trans hat'
  have hrole := role_of_reachable h (.dispatcher i)
  rw [hat] at hrole
  exact held_dispatcher hrole hheld hheld'

end system

end SubstanceConnector.CoreThreads
