import SubstanceConnector.Library.SoloRun
import SubstanceConnector.Threads.Shutdown

/-!
# What the shutdown has destroyed

`substance_connector_shutdown` destroys the queue of the free contexts before it joins a thread, and each mutex at a stage of
its own (`Gone`). In the runs in which no thread uses what has been destroyed, no thread has a mutex that is destroyed
(`Unheld`), and a thread that has a mutex uses nothing destroyed until it gives it up; so the locks cannot deadlock
(`mutexes_obtained`).
-/

namespace SubstanceConnector.CoreThreads

open LockOrder (Instr Moves Status Wants next)

/-- The stage of the shutdown from which on a mutex is destroyed; `dispatch_main_lock` never is. -/
def Mutex.destroyedAt : Mutex → Nat
  | outbound => 3
  | inbound => 5
  | readMain => 6
  | dispatch => 10
  | queue .inbound => 12
  | queue .outbound => 13
  | dispatchMain => 14

theorem destroyedAt_mem (m : Mutex) : m.destroyedAt ∈ [3, 5, 6, 10, 12, 13, 14] := by
  cases m with
  | queue q => cases q <;> decide
  | _ => decide

theorem destroyedAt_injective {m m' : Mutex} (h : m.destroyedAt = m'.destroyedAt) : m = m' := by
  cases m with
  | queue q =>
    cases m' with
    | queue q' => cases q <;> cases q' <;> first | rfl | cases h
    | _ => cases q <;> cases h
  | _ =>
    cases m' with
    | queue q' => cases q' <;> cases h
    | _ => first | rfl | cases h

/-- The stage in which the shutdown joins a pool. -/
def Kind.stage : Kind → Nat
  | .writer => 1
  | .reader => 3
  | .dispatcher => 7

/-- What is destroyed, by where the shutdown is. -/
structure Gone (pc : Pc) (g : Shared) : Prop where
  contexts : g.freeContexts = decide (pc.stage = 0)
  available : g.availableQueue = decide (pc.stage ≤ 6)
  mutexes : ∀ m, g.destroyed m = decide (m.destroyedAt ≤ pc.stage)

/-- Nothing is destroyed between the two. -/
def Spared (g g' : Shared) : Prop :=
  g'.freeContexts = g.freeContexts ∧ g'.availableQueue = g.availableQueue ∧ g'.destroyed = g.destroyed

namespace Pc

/-- Where the shutdown destroys something. -/
def destroying : Pc → Bool
  | main .shutdownContexts | main .shutdownAvailable | main (.destroy _) => true
  | _ => false

/-- The shutdown stays in its stage, or goes on to the next one from a stage that ends with nothing destroyed. -/
def Onward (pc pc' : Pc) : Prop := pc'.stage = pc.stage ∨ ∃ n ∈ [1, 3, 7, 8, 10], pc.stage = n ∧ pc'.stage = n + 1

end Pc

section routines
variable (cfg : BuildConfig) (signalMain : Bool)

/-! ## What is destroyed in which stage -/

theorem Spared.refl (g : Shared) : Spared g g := ⟨rfl, rfl, rfl⟩

theorem spared_setLength (g : Shared) (n : Nat) (q : Queue) : Spared g (g.setLength n q) := by
  cases q <;> exact ⟨rfl, rfl, rfl⟩

theorem spared_setFlag (g : Shared) (value : Bool) (k : Kind) : Spared g (g.setFlag value k) := by
  cases k <;> exact ⟨rfl, rfl, rfl⟩

theorem spared_tryAcquire (a : Answer) (g : Shared) (assigned : Nat) : Spared g (tryAcquire a g assigned).1 := by
  unfold tryAcquire
  split <;> exact ⟨rfl, rfl, rfl⟩

/-- Only the shutdown destroys anything, and only there. -/
theorem routine_spared {users : Nat} (name : Name cfg users) {pc : Pc} (hpc : pc.destroying = false) :
    (routine cfg signalMain name pc).Acts fun g r => Spared g r.1 := by
  cases pc with
  | enter site | unborn k | done k => trivial
  | inside site todo message =>
    cases todo with
    | nil => trivial
    | cons op todo =>
      cases op with
      | enqueue q | dequeue q => exact fun _ g => spared_setLength g _ q
      | setCode value => exact fun _ g => spared_setFlag g value .dispatcher
      | signal c | broadcast c => trivial
  | dispatch pc =>
    cases pc with
    | waitTest message =>
      intro a g
      dsimp only
      split <;> exact ⟨rfl, rfl, rfl⟩
    | loopTest | wokenTest | handleTest message | roundEnd | handle kind | exit => exact fun _ _ => ⟨rfl, rfl, rfl⟩
    | _ => trivial
  | write pc =>
    cases pc with
    | waitTest message =>
      cases message with
      | true => exact fun _ _ => ⟨rfl, rfl, rfl⟩
      | false => trivial
    | loopTest | wokenTest | write message | exit => exact fun _ _ => ⟨rfl, rfl, rfl⟩
    | _ => trivial
  | read pc assigned =>
    cases pc with
    | loopTest | waitTest | accepted => exact fun _ _ => ⟨rfl, rfl, rfl⟩
    | wokenTest | exitTest =>
      intro a g
      dsimp only
      split
      · exact ⟨rfl, rfl, rfl⟩
      · exact spared_tryAcquire a g assigned
    | poll =>
      intro a g
      dsimp only
      split
      · exact ⟨rfl, rfl, rfl⟩
      · cases a <;> exact ⟨rfl, rfl, rfl⟩
    | exit =>
      intro a g
      dsimp only
      split <;> exact ⟨rfl, rfl, rfl⟩
    | _ => trivial
  | main pc =>
    cases pc with
    | createDispatchers i | createWriters i | createReaders i =>
      intro a g
      dsimp only
      split <;> exact ⟨rfl, rfl, rfl⟩
    | spinTest i | finish | clearTest q => exact fun _ _ => ⟨rfl, rfl, rfl⟩
    | setFlag k => exact fun _ g => spared_setFlag g true k
    | join k i =>
      unfold routine mainRoutine
      dsimp only
      split
      · trivial
      · cases k <;> exact fun _ _ => ⟨rfl, rfl, rfl⟩
    | clear q left =>
      intro a g
      cases left with
      | zero => exact ⟨rfl, rfl, rfl⟩
      | succ left => exact spared_setLength g left q
    | shutdownContexts | shutdownAvailable | destroy m => cases hpc
    | _ => trivial
  | application host =>
    intro a g
    cases a with
    | shutdown =>
      dsimp only
      split <;> exact ⟨rfl, rfl, rfl⟩
    | _ => exact ⟨rfl, rfl, rfl⟩
  | connecting host => exact fun _ _ => ⟨rfl, rfl, rfl⟩
  | appending host =>
    intro a g
    dsimp only [routine, appendingRoutine]
    split <;> exact ⟨rfl, rfl, rfl⟩
  | connected host => exact fun _ _ => ⟨rfl, rfl, rfl⟩

theorem stage_keeps {users : Nat} {pc : Pc} (hrole : pc.role = .main) (hvalid : pc.Valid) (hpc : pc.destroying = false) :
    (routine cfg signalMain (Name.main : Name cfg users) pc).Keeps pc.Onward := by
  cases pc with
  | enter site => exact .inl (by cases site <;> rfl)
  | inside site todo message =>
    cases todo with
    | nil =>
      cases site with
      | dispatchersStopped => exact .inr ⟨8, by decide, rfl, rfl⟩
      | acquireSecond => cases hrole
      | _ => exact .inl rfl
    | cons op todo =>
      have hsame (message' : Bool) : (Pc.inside site todo message').stage = (Pc.inside site (op :: todo) message).stage := by
        cases site <;> rfl
      cases op with
      | enqueue q | dequeue q | setCode value => exact fun _ _ => .inl (hsame _)
      | signal c | broadcast c => exact .inl (hsame _)
  | unborn k => cases k <;> cases hrole
  | dispatch pc | write pc | read pc assigned => cases hrole
  | main pc =>
    cases pc with
    | createDispatchers i | createWriters i | createReaders i =>
      intro a g
      dsimp only
      split <;> exact .inl rfl
    | spinTest i =>
      intro a g
      dsimp only
      split
      · split <;> exact .inl rfl
      · exact .inl rfl
    | spinUnlock initialized => cases initialized <;> exact .inl rfl
    | setFlag k =>
      cases k with
      | dispatcher => exact hvalid.elim
      | writer | reader => exact fun _ _ => .inl rfl
    | finish | clearTest q => exact fun _ _ => .inl rfl
    | join k i =>
      unfold routine mainRoutine
      dsimp only
      split
      · exact .inl (by cases k <;> rfl)
      · cases k with
        | writer => exact fun _ _ => .inr ⟨1, by decide, rfl, rfl⟩
        | reader => exact fun _ _ => .inr ⟨3, by decide, rfl, rfl⟩
        | dispatcher => exact fun _ _ => .inr ⟨7, by decide, rfl, rfl⟩
    | clear q left => exact fun _ _ => by cases left <;> exact .inl rfl
    | clearUnlock q =>
      cases q with
      | inbound => exact .inl rfl
      | outbound => exact .inr ⟨10, by decide, rfl, rfl⟩
    | shutdownContexts | shutdownAvailable | destroy m => cases hpc
    | _ => exact .inl rfl
  | application host =>
    intro a g
    cases a with
    | write | connect | await | shutdown =>
      dsimp only
      split <;> exact .inl rfl
    | _ => cases host <;> exact .inl rfl
  | connecting host =>
    intro a g
    dsimp only [routine, connectingRoutine]
    split <;> exact .inl rfl
  | appending host =>
    intro a g
    dsimp only [routine, appendingRoutine]
    split <;> exact .inl rfl
  | connected host =>
    intro a g
    dsimp only [routine, connectedRoutine]
    split <;> exact .inl rfl
  | done k => trivial

theorem Gone.spared {pc pc' : Pc} {g g' : Shared} (h : Gone pc g) (hspared : Spared g g') (honward : pc.Onward pc') :
    Gone pc' g' := by
  obtain hsame | ⟨n, hn, hstage, hstage'⟩ := honward
  · exact ⟨by rw [hspared.1, h.contexts, hsame], by rw [hspared.2.1, h.available, hsame],
      fun m => by rw [hspared.2.2, h.mutexes, hsame]⟩
  · simp only [List.mem_cons, List.not_mem_nil, or_false] at hn
    refine ⟨?_, ?_, fun m => ?_⟩
    · rw [hspared.1, h.contexts, hstage, hstage']
      exact decide_eq_decide.mpr (by omega)
    · rw [hspared.2.1, h.available, hstage, hstage']
      exact decide_eq_decide.mpr (by omega)
    · have hne : m.destroyedAt ≠ n + 1 := by
        intro heq
        have hmem := destroyedAt_mem m
        rw [heq] at hmem
        simp only [List.mem_cons, List.not_mem_nil, or_false] at hmem
        omega
      rw [hspared.2.2, h.mutexes, hstage, hstage']
      exact decide_eq_decide.mpr (by omega)

/-- The destruction of a mutex is the end of its stage. -/
theorem Gone.destroy {pc pc' : Pc} {g : Shared} {m : Mutex} (h : Gone pc g) (hpos : 0 < pc.stage)
    (hstage : pc'.stage = pc.stage + 1) (hat : m.destroyedAt = pc'.stage) : Gone pc' (g.destroy m) where
  contexts := by
    rw [Shared.destroy, h.contexts]
    exact decide_eq_decide.mpr (by omega)
  available := by
    have hmem := destroyedAt_mem m
    simp only [List.mem_cons, List.not_mem_nil, or_false] at hmem
    rw [Shared.destroy, h.available]
    exact decide_eq_decide.mpr (by omega)
  mutexes m' := by
    show Function.update g.destroyed m true m' = _
    by_cases heq : m' = m
    · subst heq
      rw [Function.update_self]
      exact (decide_eq_true hat.le).symm
    · have hne : m'.destroyedAt ≠ pc'.stage := fun h => heq (destroyedAt_injective (h.trans hat.symm))
      rw [Function.update_of_ne heq, h.mutexes]
      exact decide_eq_decide.mpr (by omega)

theorem routine_gone {users : Nat} {pc : Pc} (hrole : pc.role = .main) (hvalid : pc.Valid) :
    (routine cfg signalMain (Name.main : Name cfg users) pc).KeepsWith Gone pc := by
  cases hpc : pc.destroying with
  | false =>
    exact (routine_spared cfg signalMain .main hpc).keepsWith (stage_keeps cfg signalMain hrole hvalid hpc) Spared.refl
      fun g g' pc' hstage hspared h => h.spared hspared hstage
  | true =>
    cases pc with
    | main pc =>
      cases pc with
      | shutdownContexts =>
        refine fun a g h => ⟨rfl, h.available, fun m => ?_⟩
        have hmem := destroyedAt_mem m
        refine (h.mutexes m).trans (decide_eq_decide.mpr ?_)
        simp only [List.mem_cons, List.not_mem_nil, or_false] at hmem
        show m.destroyedAt ≤ 0 ↔ m.destroyedAt ≤ 1
        omega
      | shutdownAvailable =>
        refine fun a g h => ⟨h.contexts, rfl, fun m => ?_⟩
        have hmem := destroyedAt_mem m
        refine (h.mutexes m).trans (decide_eq_decide.mpr ?_)
        simp only [List.mem_cons, List.not_mem_nil, or_false] at hmem
        show m.destroyedAt ≤ 6 ↔ m.destroyedAt ≤ 7
        omega
      | destroy m =>
        intro a g h
        cases m with
        | dispatchMain => exact hvalid.elim
        | queue q => cases q <;> exact h.destroy (by decide) rfl rfl
        | _ => exact h.destroy (by decide) rfl rfl
      | _ => cases hpc
    | _ => cases hpc

/-! ## What the shutdown may destroy before it joins a thread -/

/-- What it destroys: the two queues of contexts and the mutexes. -/
inductive Object where
  | freeContexts
  | availableQueue
  | mutex (m : Mutex)
  deriving DecidableEq

/-- Who appends to the queue of the available contexts tests whether it is still there. -/
def Shared.gone (g : Shared) : Object → Bool
  | .freeContexts => !g.freeContexts
  | .availableQueue => false
  | .mutex m => g.destroyed m

def Site.needs : Site → Option Object
  | answerEnqueue | answerFlag | writeEnqueue _ | writeFlag _ => some (.mutex .outbound)
  | connectFlag _ => some (.mutex .inbound)
  | _ => none

/-- What a thread of a pool cannot end without using, though its pool may be joined after that is destroyed. -/
def Pc.needs : Pc → Option Object
  | enter site => site.needs
  | inside .answerEnqueue _ _ | inside (.writeEnqueue _) _ _ | dispatch (.handle .handshake) => some (.mutex .outbound)
  | read .accepted _ | connecting _ => some .freeContexts
  | appending _ => some .availableQueue
  | _ => none

/-- A mutex that the next step of a thread of a pool uses is one that it has, or that is destroyed only after the pool has been
joined, or what it needs. -/
theorem pool_mutex {users : Nat} {name : Name cfg users} {k : Kind} {i : Nat} (hslot : name.slot = some (k, i)) {pc : Pc}
    (hrole : pc.role = name.role cfg) {m : Mutex} (h : (routine cfg signalMain name pc).mutex = some m) :
    m ∈ pc.held ∨ k.stage < m.destroyedAt ∨ pc.needs = some (.mutex m) ∧ pc.held = [] := by
  cases pc with
  | enter site =>
    cases name with
    | main | user j => cases hslot
    | dispatcher j | writer j | reader j =>
      cases hslot
      cases h
      cases site with
      | answerFlag | writeFlag host | connectFlag host => exact .inr (.inr ⟨rfl, rfl⟩)
      | _ => first | exact .inr (.inl (Nat.le_of_ble_eq_true rfl)) | cases hrole
  | inside site todo message =>
    cases todo with
    | nil =>
      cases h
      exact .inl List.mem_cons_self
    | cons op todo => cases op <;> cases h
  | dispatch pc =>
    cases name with
    | dispatcher j =>
      cases hslot
      cases pc with
      | lock message =>
        cases h
        exact .inr (.inl (by decide))
      | wait | wokenUnlock | unlock message =>
        cases h
        exact .inl (List.mem_singleton_self _)
      | _ => cases h
    | _ => cases hrole
  | write pc =>
    cases name with
    | writer j =>
      cases hslot
      cases pc with
      | lock =>
        cases h
        exact .inr (.inl (by decide))
      | waitTest message =>
        cases message <;> cases h
        exact .inl (List.mem_singleton_self _)
      | unlock | unlockExit =>
        cases h
        exact .inl (List.mem_singleton_self _)
      | _ => cases h
    | _ => cases hrole
  | read pc assigned =>
    cases name with
    | reader j =>
      cases hslot
      cases pc with
      | lock =>
        cases h
        exact .inr (.inl (by decide))
      | wait | unlock =>
        cases h
        exact .inl (List.mem_singleton_self _)
      | _ => cases h
    | _ => cases hrole
  | main pc => cases name <;> first | (cases hslot; done) | cases hrole
  | unborn k | application host | connecting host | appending host | connected host | done k => cases h

/-- The shutdown, and who has called it before, uses no mutex that it has destroyed. -/
theorem main_mutex {users : Nat} {pc : Pc} (hrole : pc.role = .main) {m : Mutex}
    (h : (routine cfg signalMain (Name.main : Name cfg users) pc).mutex = some m) : pc.stage < m.destroyedAt := by
  cases pc with
  | enter site =>
    cases h
    cases site <;> exact Nat.le_of_ble_eq_true rfl
  | inside site todo message =>
    cases todo with
    | nil =>
      cases h
      cases site <;> exact Nat.le_of_ble_eq_true rfl
    | cons op todo => cases op <;> cases h
  | main pc =>
    cases pc with
    | clearLock q | clearUnlock q =>
      cases h
      cases q <;> decide
    | join k i =>
      unfold routine mainRoutine at h
      dsimp only at h
      split at h
      · cases h
      · cases k <;> cases h
    | spinLock | spinUnlock initialized | readersLock | readersWait i | readersUnlock | awaitLock | awaitWait | awaitUnlock =>
      cases h
      exact Nat.le_of_ble_eq_true rfl
    | _ => cases h
  | dispatch pc | write pc | read pc assigned => cases hrole
  | unborn k | application host | connecting host | appending host | connected host | done k => cases h

/-- A thread of the application that has a mutex goes on to its unlock. -/
theorem user_mutex {users : Nat} {j : Fin users} {pc : Pc} (hrole : pc.role = .user) (hheld : pc.held ≠ []) {m : Mutex}
    (h : (routine cfg signalMain (Name.user j : Name cfg users) pc).mutex = some m) : m ∈ pc.held := by
  cases pc with
  | enter site => cases site <;> first | exact absurd rfl hheld | cases hrole
  | inside site todo message =>
    cases todo with
    | nil =>
      cases h
      exact List.mem_cons_self
    | cons op todo => cases op <;> cases h
  | dispatch pc | write pc | read pc assigned | main pc => cases hrole
  | unborn k | application host | connecting host | appending host | connected host | done k => cases h

theorem held_destroying {pc : Pc} (h : pc.destroying = true) : pc.held = [] := by
  cases pc with
  | main pc => cases pc <;> first | rfl | cases h
  | _ => cases h

end routines

/-! ## The runs that use nothing destroyed -/

section system
variable {cfg : BuildConfig} {signalMain : Bool} {users : Nat} {s s' : State cfg users}

theorem gone_of_reachable (h : (system cfg signalMain users).Reachable s) : Gone (s.threads .main).locals s.shared := by
  induction h with
  | init h =>
    subst h
    refine ⟨rfl, rfl, fun m => (decide_eq_false fun hle => ?_).symm⟩
    have hmem := destroyedAt_mem m
    rw [Nat.le_zero.mp hle] at hmem
    exact absurd hmem (by decide)
  | step hreach h ih =>
    refine LockOrder.thread_next (P := Runs) (fun pc hpc => routine_gone cfg signalMain hpc.1 hpc.2)
      (fun name pc pc₀ hname hpc => ?_) (runs_of_reachable hreach) h ih
    have hpc : pc.destroying = false := by
      cases pc with
      | main pc => cases name <;> first | exact absurd rfl hname | cases hpc.1
      | _ => rfl
    exact (routine_spared cfg signalMain name hpc).mono fun g r hspared hgone => hgone.spared hspared (.inl rfl)

/-- While a thread of a pool has not ended, the shutdown is not past the join of the pool. -/
theorem stage_le (h : (system cfg signalMain users).Reachable s) {name : Name cfg users} {k : Kind} {i : Nat}
    (hslot : name.slot = some (k, i)) (hnot : (s.threads name).locals ≠ .done (some k)) :
    (s.threads .main).locals.stage ≤ k.stage := by
  by_contra hpast
  have hpast := Nat.not_le.mp hpast
  refine hnot (congrArg Status.locals (done_of_joined h hslot ?_))
  cases name with
  | main | user j => cases hslot
  | dispatcher j =>
    cases hslot
    rw [joined_dispatchers (decide_eq_true hpast)]
    exact j.isLt
  | writer j =>
    cases hslot
    rw [joined_writers (decide_eq_true hpast)]
    exact j.isLt
  | reader j =>
    cases hslot
    rw [joined_readers (decide_eq_true hpast)]
    exact j.isLt

theorem destroyed_of_stage (h : (system cfg signalMain users).Reachable s) {m : Mutex}
    (hlt : (s.threads .main).locals.stage < m.destroyedAt) : s.shared.destroyed m = false := by
  rw [(gone_of_reachable h).mutexes]
  exact decide_eq_false hlt.not_ge

theorem intact_running {name : Name cfg users} {pc : Pc} (hat : s.threads name = .running pc) {answer : Answer}
    {chosen : Option (Name cfg users)} :
    Intact signalMain s (.step name answer chosen) ↔
      pc.sound s = true ∧ ∀ m, (routine cfg signalMain name pc).mutex = some m → s.shared.destroyed m = false := by
  simp only [Intact, intact, hat, Bool.and_eq_true]
  cases (routine cfg signalMain name pc).mutex <;> simp

theorem intact_woken {name : Name cfg users} {m : Mutex} {pc : Pc} (hat : s.threads name = .woken m pc) {answer : Answer}
    {chosen : Option (Name cfg users)} :
    Intact signalMain s (.step name answer chosen) ↔ s.shared.destroyed m = false := by
  simp [Intact, intact, hat]

/-- Nobody has a mutex that is destroyed. -/
def Unheld (s : State cfg users) : Prop := ∀ m, s.shared.destroyed m = true → s.holder m = none

theorem Unheld.alive (hs : Unheld s) {m : Mutex} {name : Name cfg users} (h : s.holder m = some name) :
    s.shared.destroyed m = false := by
  by_contra hnot
  rw [hs m (Bool.eq_true_of_not_eq_false hnot)] at h
  cases h

theorem Unheld.step (hs : Unheld s) {a : LockOrder.Label (Name cfg users) Answer} (ha : Intact signalMain s a)
    (h : next (routine cfg signalMain) s a = some s') : Unheld s' := by
  -- a mutex that is taken is not destroyed
  have htake {name : Name cfg users} {m : Mutex} (hm : s.shared.destroyed m = false) (m' : Mutex)
      (hm' : s.shared.destroyed m' = true) : Function.update s.holder m (some name) m' = none := by
    have hne : m' ≠ m := by
      rintro rfl
      cases hm.symm.trans hm'
    rw [Function.update_of_ne hne]
    exact hs m' hm'
  have hgive {m : Mutex} (m' : Mutex) (hm' : s.shared.destroyed m' = true) : Function.update s.holder m none m' = none := by
    by_cases hne : m' = m
    · subst hne
      rw [Function.update_self]
    · rw [Function.update_of_ne hne]
      exact hs m' hm'
  cases LockOrder.next_effect h with
  | reacquire name _ _ m pc hat hfree => exact htake ((intact_woken hat).mp ha)
  | lock name _ _ m pc k hat hinstr hfree => exact htake (((intact_running hat).mp ha).2 m (by rw [hinstr]; rfl))
  | unlock name _ _ m pc k hat hinstr hheld => exact hgive
  | wait name _ _ c m pc k hat hinstr hheld => exact hgive
  | act name answer _ pc f hat hinstr =>
    intro m (hm : (f answer s.shared).1.destroyed m = true)
    cases hpc : pc.destroying with
    | false =>
      have hspared := routine_spared cfg signalMain name hpc
      rw [hinstr] at hspared
      exact hs m (by rwa [(hspared answer s.shared).2.2] at hm)
    | true =>
      cases pc with
      | main pc =>
        cases pc with
        | shutdownContexts | shutdownAvailable =>
          cases hinstr
          exact hs m hm
        | destroy m' =>
          cases hinstr
          by_cases heq : m = m'
          · subst heq
            exact Option.isNone_iff_eq_none.mp ((intact_running hat).mp ha).1
          · exact hs m ((Function.update_of_ne heq _ _).symm.trans hm)
        | _ => cases hpc
      | _ => cases hpc
  | spurious | signal | broadcast | await => exact hs

theorem unheld_of_reachable (h : ((system cfg signalMain users).guarded (Intact signalMain)).Reachable s) : Unheld s := by
  refine h.guarded_invariant (P := Unheld) (fun s hs => ?_) (fun s a s' hs ha hstep => hs.step ha hstep)
  rw [show s = start cfg users from hs]
  exact fun _ _ => rfl

theorem sound_of_held {pc : Pc} (h : pc.held ≠ []) : pc.sound s = true := by
  cases pc with
  | read pc assigned => cases pc <;> first | rfl | exact absurd rfl h
  | main pc => cases pc <;> first | rfl | exact absurd rfl h
  | connecting host => exact absurd rfl h
  | _ => rfl

/-- A thread that has a mutex uses nothing destroyed. -/
theorem holder_intact (h : (system cfg signalMain users).Reachable s) (hs : Unheld s) {name : Name cfg users} {m : Mutex}
    (hheld : s.holder m = some name) (answer : Answer) (chosen : Option (Name cfg users)) :
    Intact signalMain s (.step name answer chosen) := by
  have howned := owned_of_reachable h
  obtain ⟨pc, hat, hm⟩ := howned.running hheld
  have hne := List.ne_nil_of_mem hm
  have hrole := role_of_reachable h name
  have hi := howned name
  rw [hat] at hrole hi
  have halive {m' : Mutex} (hm' : m' ∈ pc.held) : s.shared.destroyed m' = false := hs.alive ((hi m').mp hm')
  refine (intact_running hat).mpr ⟨sound_of_held hne, fun m' hm' => ?_⟩
  -- what it uses next is a mutex that it has, or one that is destroyed after it has ended
  have hpool {k : Kind} {i : Nat} (hslot : name.slot = some (k, i)) : s.shared.destroyed m' = false := by
    obtain hmem | hlt | ⟨-, hnone⟩ := pool_mutex cfg signalMain hslot hrole hm'
    · exact halive hmem
    · refine destroyed_of_stage h ((stage_le h hslot fun hdone => ?_).trans_lt hlt)
      rw [hat] at hdone
      rw [show pc = .done (some k) from hdone] at hne
      exact hne rfl
    · exact absurd hnone hne
  cases name with
  | main =>
    refine destroyed_of_stage h ?_
    rw [hat]
    exact main_mutex cfg signalMain hrole hm'
  | user j => exact halive (user_mutex cfg signalMain hrole hne hm')
  | dispatcher j | writer j | reader j => exact hpool rfl

/-- A step of a thread that has a mutex destroys nothing. -/
theorem holder_spared (h : (system cfg signalMain users).Reachable s) {name : Name cfg users} {m : Mutex}
    (hheld : s.holder m = some name) {answer : Answer} {chosen : Option (Name cfg users)}
    (hstep : next (routine cfg signalMain) s (.step name answer chosen) = some s') : Spared s.shared s'.shared := by
  refine LockOrder.Instr.Acts.step (R := Spared) (fun pc hat => ?_) Spared.refl hstep
  refine routine_spared cfg signalMain name (Bool.eq_false_of_not_eq_true fun hpc => ?_)
  have hi := owned_of_reachable h name
  rw [hat] at hi
  have hm := (hi m).mpr hheld
  rw [held_destroying hpc] at hm
  cases hm

/-! ## The locks cannot deadlock -/

/-- Steps of the other threads that use nothing destroyed and wake nobody for no reason. -/
def Others (signalMain : Bool) (name : Name cfg users) (s : State cfg users)
    (a : LockOrder.Label (Name cfg users) Answer) : Prop :=
  Intact signalMain s a ∧ ∃ j answer chosen, a = .step j answer chosen ∧ j ≠ name

/-- In the runs that use nothing destroyed, a thread that wants a mutex which is not destroyed can take it after some steps of
other threads, which use nothing destroyed either; and no dispatch thread has two mutexes. -/
theorem mutexes_obtained (h : ((system cfg signalMain users).guarded (Intact signalMain)).Reachable s) :
    (∀ name m, Wants (routine cfg signalMain) s name m → s.shared.destroyed m = false →
      ∃ s' answer s'', Moves (routine cfg signalMain) (Others signalMain name) s s' ∧
        Intact signalMain s' (.step name answer none) ∧
        next (routine cfg signalMain) s' (.step name answer none) = some s'' ∧ s''.holder m = some name) ∧
    ∀ i m m', s.holder m = some (.dispatcher i) → s.holder m' = some (.dispatcher i) → m = m' := by
  have hreach := StepSystem.Reachable.of_guarded h
  refine ⟨fun name m hwants halive => ?_, fun i m m' hm hm' => dispatcher_mutex hreach hm hm'⟩
  obtain ⟨s', answer, s'', hrun, hstep, hholder⟩ := LockOrder.obtained Mutex.rank_le (routine_follows cfg signalMain)
    (routine_shrinks cfg signalMain) (owned_of_reachable hreach) hwants
  let P (t : State cfg users) : Prop :=
    (system cfg signalMain users).Reachable t ∧ Unheld t ∧ t.shared.destroyed m = false
  have hmoves : Moves (routine cfg signalMain) (Others signalMain name) s s' ∧ P s' :=
    hrun.moves (fun t j m' answer chosen t' ht hj hheld hstep => by
      obtain ⟨ht, hunheld, hm⟩ := ht
      have hintact := holder_intact ht hunheld hheld answer chosen
      refine ⟨⟨hintact, j, answer, chosen, rfl, hj⟩, .step ht hstep, hunheld.step hintact hstep, ?_⟩
      rw [(holder_spared ht hheld hstep).2.2, hm])
      ⟨hreach, unheld_of_reachable h, halive⟩
  obtain ⟨hmoves, -, -, halive'⟩ := hmoves
  refine ⟨s', answer, s'', hmoves, ?_, hstep, hholder⟩
  obtain ⟨pc, hat⟩ | ⟨pc, k, hat, hinstr⟩ := hwants.congr (hrun.threads rfl hwants.awake)
  · exact (intact_woken hat).mpr halive'
  · refine (intact_running hat).mpr ⟨?_, fun m' hm' => ?_⟩
    · cases pc with
      | main pc => cases pc <;> first | rfl | cases hinstr
      | read pc assigned => cases pc <;> first | rfl | cases hinstr
      | connecting host => cases hinstr
      | _ => rfl
    · rw [hinstr] at hm'
      cases hm'
      exact halive'

end system

/-- The initialization tests the dispatch threads while the first of them is about to wait. -/
def spinRun : List (LockOrder.Label (Name .default 0) Answer) :=
  let main := .step .main .nothing none
  let dispatcher := .step (.dispatcher ⟨0, Nat.zero_lt_two⟩) .nothing none
  [main, main, main, dispatcher, dispatcher, dispatcher, dispatcher, dispatcher, main]

theorem dispatch_lock_obtained :
    ∃ s : State .default 0, s.holder .dispatch = some .main ∧
      ∃ s' answer s'',
        Moves (routine .default false) (Others false (.dispatcher ⟨0, Nat.zero_lt_two⟩)) s s' ∧
        Intact false s' (.step (.dispatcher ⟨0, Nat.zero_lt_two⟩) answer none) ∧
        next (routine .default false) s' (.step (.dispatcher ⟨0, Nat.zero_lt_two⟩) answer none) = some s'' ∧
        s''.holder .dispatch = some (.dispatcher ⟨0, Nat.zero_lt_two⟩) := by
  have hrun : (StepSystem.runList (StepSystem.gate (Intact false) (next (routine .default false))) (start .default 0)
      spinRun).map (fun s => (s.holder .dispatch, s.threads (.dispatcher ⟨0, Nat.zero_lt_two⟩), s.shared.destroyed .dispatch)) =
        some (some .main, .running (.dispatch (.lock false)), false) := by
    decide +kernel
  obtain ⟨s, hs, hat⟩ := Option.map_eq_some_iff.mp hrun
  simp only [Prod.mk.injEq] at hat
  obtain ⟨hholder, hat, halive⟩ := hat
  have hreach : ((system .default false 0).guarded (Intact false)).Reachable s :=
    StepSystem.guarded_reachable_runList (.init rfl) hs
  exact ⟨s, hholder, (mutexes_obtained hreach).1 _ _ (.inr ⟨_, _, hat, rfl⟩) halive⟩

end SubstanceConnector.CoreThreads
