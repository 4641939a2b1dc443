import SubstanceConnector.Threads.Startup

/-!
# The order in which the threads stop

`substance_connector_shutdown` raises the flag of the write threads, joins them and lowers it, then does the same with the read
threads, then with the dispatch threads, and clears the queues. In every run each flag is up only while its pool is being stopped
(`flagUp`), so a pool is told to stop only when those before it have ended, and when the shutdown is over, so are all the threads.
-/

namespace SubstanceConnector.CoreThreads

open LockOrder (Owned Status)

def Shared.flag (g : Shared) : Kind → Bool
  | .dispatcher => g.dispatchCode
  | .writer => g.writeFlag
  | .reader => g.readFlag

namespace Pc

/-- Inside a function there is a part of its body left to do; the flag of the dispatch threads is set inside one, and
`dispatch_main_lock` is not destroyed. -/
def Valid : Pc → Prop
  | inside site todo _ => todo <:+ site.function.body
  | main (.setFlag .dispatcher) | main (.destroy .dispatchMain) => False
  | _ => True

/-- Whether the flag of a pool is up, by where the shutdown is. -/
def flagUp : Kind → Pc → Bool
  | .writer, enter .stopWriters | .writer, inside .stopWriters _ _ | .writer, main (.join .writer _) => true
  | .reader, enter .stopReaders | .reader, inside .stopReaders _ _ | .reader, main (.join .reader _) => true
  | .dispatcher, inside .stopDispatchers todo _ => decide (todo.length < 2)
  | .dispatcher, main (.join .dispatcher _) | .dispatcher, enter .dispatchersStopped => true
  | .dispatcher, inside .dispatchersStopped todo _ => decide (todo.length = 1)
  | _, _ => false

/-- How far the shutdown is, by the pools it has stopped and what it has destroyed. -/
def stage : Pc → Nat
  | main (.setFlag .writer) | enter .stopWriters | inside .stopWriters _ _ | main (.join .writer _) => 1
  | main (.destroy .outbound) => 2
  | main (.setFlag .reader) | enter .stopReaders | inside .stopReaders _ _ | main (.join .reader _) => 3
  | main (.destroy .inbound) => 4
  | main (.destroy .readMain) => 5
  | main .shutdownAvailable => 6
  | enter .stopDispatchers | inside .stopDispatchers _ _ | main (.join .dispatcher _) => 7
  | enter .dispatchersStopped | inside .dispatchersStopped _ _ => 8
  | main (.destroy .dispatch) => 9
  | main (.clearLock _) | main (.clearTest _) | main (.clear _ _) | main (.clearUnlock _) => 10
  | main (.destroy (.queue .inbound)) => 11
  | main (.destroy (.queue .outbound)) => 12
  | done none => 13
  | _ => 0

/-- The shutdown is past the pools before this one. -/
def pastReaders (pc : Pc) : Bool := decide (4 ≤ pc.stage)

def pastWriters (pc : Pc) : Bool := decide (2 ≤ pc.stage)

def pastDispatchers (pc : Pc) : Bool := decide (8 ≤ pc.stage)

/-- How many threads of a pool the shutdown has joined. -/
def joined (cfg : BuildConfig) (k : Kind) (pc : Pc) : Nat :=
  match k, pc with
  | .writer, main (.join .writer i) | .reader, main (.join .reader i) | .dispatcher, main (.join .dispatcher i) => i
  | .writer, pc => if pc.pastWriters then cfg.outboundCount else 0
  | .reader, pc => if pc.pastReaders then cfg.inboundCount else 0
  | .dispatcher, pc => if pc.pastDispatchers then cfg.dispatchCount else 0

end Pc

/-- Past the write threads, all of them have been joined; the same for the other two pools. -/
theorem joined_writers {cfg : BuildConfig} {pc : Pc} (h : pc.pastWriters = true) :
    pc.joined cfg .writer = cfg.outboundCount := by
  unfold Pc.joined
  split
  case h_1 => cases h
  case h_4 => exact if_pos h
  all_goals contradiction

theorem joined_readers {cfg : BuildConfig} {pc : Pc} (h : pc.pastReaders = true) :
    pc.joined cfg .reader = cfg.inboundCount := by
  unfold Pc.joined
  split
  case h_2 => cases h
  case h_5 => exact if_pos h
  all_goals contradiction

theorem joined_dispatchers {cfg : BuildConfig} {pc : Pc} (h : pc.pastDispatchers = true) :
    pc.joined cfg .dispatcher = cfg.dispatchCount := by
  unfold Pc.joined
  split
  case h_3 => cases h
  case h_6 => exact if_pos h
  all_goals contradiction

theorem pastWriters_of_flagUp {pc : Pc} (h : pc.flagUp .reader = true) : pc.pastWriters = true := by
  cases pc with
  | enter site | inside site todo message => cases site <;> first | rfl | cases h
  | main pc =>
    cases pc with
    | setFlag k | join k i => cases k <;> first | rfl | cases h
    | _ => cases h
  | _ => cases h

theorem pastReaders_of_flagUp {pc : Pc} (h : pc.flagUp .dispatcher = true) : pc.pastReaders = true := by
  cases pc with
  | enter site | inside site todo message => cases site <;> first | rfl | cases h
  | main pc =>
    cases pc with
    | setFlag k | join k i => cases k <;> first | rfl | cases h
    | _ => cases h
  | _ => cases h

theorem pastWriters_of_pastReaders {pc : Pc} (h : pc.pastReaders = true) : pc.pastWriters = true :=
  decide_eq_true ((by decide : 2 ≤ 4).trans (of_decide_eq_true h))

section routines
variable (cfg : BuildConfig) (signalMain : Bool)

/-- What the shutdown knows: which flags are up, and that the threads it has joined have ended. -/
structure Told (pc : Pc) (g : Shared) : Prop where
  flag : ∀ k, g.flag k = pc.flagUp k
  ended : ∀ k, ∀ i < pc.joined cfg k, g.ended k i = true

/-- The number of a thread and its pool. -/
def Name.slot {users : Nat} : Name cfg users → Option (Kind × Nat)
  | .dispatcher i => some (.dispatcher, i)
  | .writer i => some (.writer, i)
  | .reader i => some (.reader, i)
  | .main | .user _ => none

theorem resume_valid (message : Bool) (site : Site) : (resume signalMain message site).Valid := by
  cases site with
  | acquireSecond =>
    unfold resume
    dsimp only
    split <;> trivial
  | _ => trivial

theorem routine_valid {users : Nat} (name : Name cfg users) {pc : Pc} (hvalid : pc.Valid) :
    (routine cfg signalMain name pc).Keeps Pc.Valid := by
  cases pc with
  | enter site => exact List.suffix_refl _
  | inside site todo message =>
    cases todo with
    | nil => exact resume_valid signalMain message site
    | cons op todo =>
      have htail : todo <:+ site.function.body := (List.suffix_cons op todo).trans hvalid
      cases op with
      | enqueue q | dequeue q | setCode value => exact fun _ _ => htail
      | signal c | broadcast c => exact htail
  | unborn k => cases k <;> trivial
  | dispatch pc =>
    cases pc with
    | loopTest | wokenTest | handleTest message | roundEnd | waitTest message =>
      intro a g
      dsimp only
      split <;> trivial
    | handle kind => exact fun _ _ => by cases kind <;> trivial
    | exit => exact fun _ _ => trivial
    | _ => trivial
  | write pc =>
    cases pc with
    | waitTest message =>
      cases message with
      | true => exact fun _ _ => trivial
      | false => trivial
    | loopTest | wokenTest | write message =>
      intro a g
      dsimp only
      split <;> trivial
    | exit => exact fun _ _ => trivial
    | _ => trivial
  | read pc assigned =>
    cases pc with
    | loopTest | waitTest | wokenTest | exitTest | exit =>
      intro a g
      dsimp only
      split <;> trivial
    | poll =>
      intro a g
      dsimp only
      split
      · trivial
      · cases a with
        | exit =>
          dsimp only
          split <;> trivial
        | _ => trivial
    | accepted => exact fun _ _ => trivial
    | _ => trivial
  | main pc =>
    cases pc with
    | createDispatchers i | createWriters i | createReaders i =>
      intro a g
      dsimp only
      split <;> trivial
    | spinTest i =>
      intro a g
      dsimp only
      split
      · split <;> trivial
      · trivial
    | spinUnlock initialized => cases initialized <;> trivial
    | setFlag k =>
      cases k with
      | dispatcher => exact hvalid.elim
      | writer | reader => exact fun _ _ => trivial
    | finish | clearTest q | shutdownContexts | shutdownAvailable => exact fun _ _ => trivial
    | clear q left => exact fun _ _ => by cases left <;> trivial
    | destroy m =>
      cases m with
      | queue q => cases q <;> exact fun _ _ => trivial
      | _ => exact fun _ _ => trivial
    | join k i =>
      unfold routine mainRoutine
      dsimp only
      split
      · trivial
      · cases k <;> exact fun _ _ => trivial
    | clearUnlock q => cases q <;> trivial
    | _ => trivial
  | application host =>
    intro a g
    cases a with
    | write | connect | await | shutdown =>
      dsimp only
      split <;> trivial
    | _ => cases host <;> trivial
  | connecting host =>
    intro a g
    dsimp only [routine, connectingRoutine]
    split <;> trivial
  | appending host =>
    intro a g
    dsimp only [routine, appendingRoutine]
    split <;> trivial
  | connected host =>
    intro a g
    dsimp only [routine, connectedRoutine]
    split <;> trivial
  | done k => trivial

/-! ## What the threads of the pools and the other users do to the flags -/

/-- The flags stay, no thread is created, and at most the thread with this number ends, and stops there. -/
structure Frame (slot : Option (Kind × Nat)) (g : Shared) (r : Shared × Pc) : Prop where
  flag : ∀ k, r.1.flag k = g.flag k
  created : r.1.created = g.created
  kept : ∀ k i, g.ended k i = true → r.1.ended k i = true
  own : ∀ k i, r.1.ended k i = true → g.ended k i = true ∨ slot = some (k, i) ∧ r.2 = .done (some k)

theorem Frame.same {slot : Option (Kind × Nat)} {g g' : Shared} {pc : Pc} (hflag : ∀ k, g'.flag k = g.flag k)
    (hended : g'.ended = g.ended) (hcreated : g'.created = g.created) : Frame slot g (g', pc) :=
  ⟨hflag, hcreated, fun _ _ h => hended ▸ h, fun _ _ h => .inl (hended ▸ h)⟩

theorem Frame.refl {slot : Option (Kind × Nat)} {g : Shared} {pc : Pc} : Frame slot g (g, pc) :=
  .same (fun _ => rfl) rfl rfl

theorem setLength_flag (g : Shared) (n : Nat) (q : Queue) (k : Kind) : (g.setLength n q).flag k = g.flag k := by
  cases q <;> cases k <;> rfl

theorem setLength_ended (g : Shared) (n : Nat) (q : Queue) : (g.setLength n q).ended = g.ended := by
  cases q <;> rfl

theorem setLength_created (g : Shared) (n : Nat) (q : Queue) : (g.setLength n q).created = g.created := by
  cases q <;> rfl

theorem ended_finished (g : Shared) (k k' : Kind) (i i' : Nat) :
    (g.finished k i).ended k' i' = true ↔ g.ended k' i' = true ∨ (k, i) = (k', i') := by
  unfold Shared.finished
  dsimp only
  by_cases hk : k' = k
  · subst hk
    rw [Function.update_self]
    by_cases hi : i' = i
    · subst hi
      simp
    · simp [Function.update_of_ne hi, Ne.symm hi]
  · simp [Function.update_of_ne hk, Ne.symm hk]

theorem Frame.finished (g : Shared) (k : Kind) (i : Nat) : Frame (some (k, i)) g (g.finished k i, .done (some k)) where
  flag k' := by cases k' <;> rfl
  created := rfl
  kept _ _ h := (ended_finished g k _ i _).mpr (.inl h)
  own _ _ h := by
    obtain h | h := (ended_finished g k _ i _).mp h
    · exact .inl h
    · cases h
      exact .inr ⟨rfl, rfl⟩

theorem Frame.tryAcquire (slot : Option (Kind × Nat)) (a : Answer) (g : Shared) (assigned : Nat) (pc : Pc) :
    Frame slot g ((CoreThreads.tryAcquire a g assigned).1, pc) := by
  unfold CoreThreads.tryAcquire
  split
  · exact .same (fun k => by cases k <;> rfl) rfl rfl
  · exact .refl

theorem setCode_notMem {site : Site} (hrole : site.role ≠ .main) (value : Bool) : .setCode value ∉ site.function.body := by
  cases site with
  | stopDispatchers | dispatchersStopped => exact absurd rfl hrole
  | _ => simp [Site.function, Section.body]

/-- Whatever a thread other than that of the shutdown does, it changes no flag and ends nobody else. -/
theorem routine_frame {users : Nat} {name : Name cfg users} (hname : name ≠ .main) {pc : Pc} (hrole : pc.role = name.role cfg)
    (hvalid : pc.Valid) : (routine cfg signalMain name pc).Acts (Frame name.slot) := by
  have hmain : name.role cfg ≠ .main := by
    cases name <;> simp_all [Name.role]
  cases pc with
  | enter site => trivial
  | inside site todo message =>
    cases todo with
    | nil => trivial
    | cons op todo =>
      cases op with
      | enqueue q | dequeue q => exact fun _ g => .same (setLength_flag g _ q) (setLength_ended g _ q) (setLength_created g _ q)
      | setCode value =>
        have hsite : site.role ≠ .main := fun h => hmain (hrole.symm.trans h)
        exact absurd (hvalid.subset List.mem_cons_self) (setCode_notMem hsite value)
      | signal c | broadcast c => trivial
  | unborn k => trivial
  | dispatch pc =>
    cases pc with
    | loopTest | wokenTest | handleTest message | roundEnd | handle kind => exact fun _ _ => .refl
    | waitTest message =>
      intro a g
      dsimp only
      split
      · exact .same (fun k => by cases k <;> rfl) rfl rfl
      · exact .refl
    | exit =>
      cases name with
      | dispatcher i => exact fun _ g => .finished g .dispatcher i
      | _ => cases hrole
    | _ => trivial
  | write pc =>
    cases pc with
    | waitTest message =>
      cases message with
      | true => exact fun _ _ => .refl
      | false => trivial
    | loopTest | wokenTest | write message => exact fun _ _ => .refl
    | exit =>
      cases name with
      | writer i => exact fun _ g => .finished g .writer i
      | _ => cases hrole
    | _ => trivial
  | read pc assigned =>
    cases pc with
    | loopTest | waitTest => exact fun _ _ => .refl
    | wokenTest | exitTest =>
      intro a g
      dsimp only
      split
      · exact .refl
      · exact .tryAcquire _ a g assigned _
    | poll =>
      intro a g
      dsimp only
      split
      · exact .refl
      · cases a <;> exact .refl
    | accepted => exact fun _ _ => .same (fun k => by cases k <;> rfl) rfl rfl
    | exit =>
      cases name with
      | reader i =>
        intro a g
        dsimp only
        split
        · exact .finished g .reader i
        · exact .refl
      | _ => cases hrole
    | _ => trivial
  | main pc => exact absurd hrole.symm hmain
  | application host =>
    intro a g
    cases a with
    | write | connect | await => exact .refl
    | shutdown =>
      have hhost : ¬ (host = .main ∧ g.ready = true) := by
        rintro ⟨rfl, -⟩
        exact hmain hrole.symm
      dsimp only
      rw [if_neg hhost]
      exact .refl
    | _ => exact .refl
  | connecting host => exact fun _ _ => .refl
  | appending host =>
    intro a g
    dsimp only [routine, appendingRoutine]
    split
    · exact .same (fun k => by cases k <;> rfl) rfl rfl
    · exact .refl
  | connected host => exact fun _ _ => .refl
  | done k => trivial

/-! ## What the shutdown does -/

/-- A step that changes no flag. -/
theorem Told.step {pc pc' : Pc} {g g' : Shared} (h : Told cfg pc g) (hflag : ∀ k, g'.flag k = g.flag k)
    (hended : g'.ended = g.ended) (hup : ∀ k, pc'.flagUp k = pc.flagUp k)
    (hjoined : ∀ k, pc'.joined cfg k = pc.joined cfg k) : Told cfg pc' g' where
  flag k := (hflag k).trans ((h.flag k).trans (hup k).symm)
  ended k i hi := by
    rw [hended]
    rw [hjoined k] at hi
    exact h.ended k i hi

theorem setFlag_flag (g : Shared) (value : Bool) (k k' : Kind) :
    (g.setFlag value k).flag k' = if k' = k then value else g.flag k' := by
  cases k <;> cases k' <;> rfl

theorem setFlag_ended (g : Shared) (value : Bool) (k : Kind) : (g.setFlag value k).ended = g.ended := by
  cases k <;> rfl

/-- Setting a flag is a step to where it is up or not. -/
theorem Told.setFlag {pc pc' : Pc} {g : Shared} (h : Told cfg pc g) (value : Bool) (k : Kind)
    (hup : ∀ k', pc'.flagUp k' = if k' = k then value else pc.flagUp k')
    (hjoined : ∀ k', pc'.joined cfg k' ≤ pc.joined cfg k') : Told cfg pc' (g.setFlag value k) where
  flag k' := by
    rw [setFlag_flag, hup, h.flag]
  ended k' i hi := by
    rw [setFlag_ended]
    exact h.ended k' i (lt_of_lt_of_le hi (hjoined k'))

/-- The last step of a call. -/
theorem resume_told (site : Site) (message : Bool) {g : Shared} (h : Told cfg (.inside site [] message) g) :
    Told cfg (resume signalMain message site) g := by
  cases site with
  | acquireSecond =>
    unfold resume
    dsimp only
    split <;> exact h.step cfg (fun _ => rfl) rfl (fun k => by cases k <;> rfl) (fun k => by cases k <;> rfl)
  | _ => exact h.step cfg (fun _ => rfl) rfl (fun k => by cases k <;> rfl) (fun k => by cases k <;> rfl)

/-- A step inside a function that is one critical section. -/
theorem inside_told {site : Site} {todo : List Op} {message : Bool} (hvalid : todo <:+ site.function.body) :
    (insideRoutine signalMain site message todo).KeepsWith (Told cfg) (.inside site todo message) := by
  cases todo with
  | nil => exact fun _ h => resume_told cfg signalMain site message h
  | cons op todo =>
    -- only the two functions that set the code of the dispatch threads have a flag that depends on what is left to do
    have hplain (m : Bool) : site ≠ .stopDispatchers → site ≠ .dispatchersStopped →
        ∀ k, (Pc.inside site todo m).flagUp k = (Pc.inside site (op :: todo) message).flagUp k := by
      intro hstop hstopped k
      cases site with
      | stopDispatchers => exact absurd rfl hstop
      | dispatchersStopped => exact absurd rfl hstopped
      | _ => cases k <;> rfl
    have hjoined (m : Bool) : ∀ k, (Pc.inside site todo m).joined cfg k = (Pc.inside site (op :: todo) message).joined cfg k := by
      intro k
      cases site <;> cases k <;> rfl
    by_cases hstop : site = .stopDispatchers
    · subst hstop
      obtain h | h := List.suffix_cons_iff.mp hvalid
      · cases h
        exact fun _ _ h => h.setFlag cfg true .dispatcher (fun k => by cases k <;> rfl) fun k => (hjoined message k).le
      · obtain h | h := List.suffix_cons_iff.mp h
        · cases h
          exact fun _ h => h.step cfg (fun _ => rfl) rfl (fun k => by cases k <;> rfl) (hjoined message)
        · simp at h
    · by_cases hstopped : site = .dispatchersStopped
      · subst hstopped
        obtain h | h := List.suffix_cons_iff.mp hvalid
        · cases h
          exact fun _ _ h => h.setFlag cfg false .dispatcher (fun k => by cases k <;> rfl) fun k => (hjoined message k).le
        · simp at h
      · cases op with
        | enqueue q | dequeue q =>
          exact fun _ g h => h.step cfg (setLength_flag g _ q) (setLength_ended g _ q) (hplain _ hstop hstopped) (hjoined _)
        | signal c | broadcast c =>
          exact fun _ h => h.step cfg (fun _ => rfl) rfl (hplain _ hstop hstopped) (hjoined _)
        | setCode value =>
          have hmem := hvalid.subset List.mem_cons_self
          cases site with
          | stopDispatchers => exact absurd rfl hstop
          | dispatchersStopped => exact absurd rfl hstopped
          | _ => simp [Site.function, Section.body] at hmem

/-- A join waits for one thread more, and past the last one the flag is lowered. -/
theorem join_told (k : Kind) (i : Nat) : (mainRoutine cfg (.join k i)).KeepsWith (Told cfg) (.main (.join k i)) := by
  unfold mainRoutine
  dsimp only
  split
  case isTrue hlt =>
    intro g hready h
    refine ⟨fun k' => (h.flag k').trans (by cases k <;> cases k' <;> rfl), fun k' j hj => ?_⟩
    by_cases hlast : k' = k ∧ j = i
    · obtain ⟨rfl, rfl⟩ := hlast
      exact hready
    · refine h.ended k' j ?_
      cases k <;> cases k' <;> first | exact hj | exact Nat.lt_of_le_of_ne (Nat.lt_succ_iff.mp hj) fun heq => hlast ⟨rfl, heq⟩
  case isFalse hnot =>
    have hcount := Nat.not_lt.mp hnot
    cases k with
    | writer =>
      refine fun _ _ h => h.setFlag cfg false .writer (fun k => by cases k <;> rfl) fun k => ?_
      cases k <;> first | exact hcount | exact le_rfl
    | reader =>
      refine fun _ g h => h.setFlag cfg false .reader (fun k => by cases k <;> rfl) fun k => ?_
      cases k <;> first | exact hcount | exact le_rfl
    | dispatcher =>
      refine fun _ g h => ⟨fun k => (h.flag k).trans (by cases k <;> rfl), fun k j hj => h.ended k j (lt_of_lt_of_le hj ?_)⟩
      cases k <;> first | exact hcount | exact le_rfl

theorem main_told {pc : MainPc} (hvalid : (Pc.main pc).Valid) :
    (mainRoutine cfg pc).KeepsWith (Told cfg) (.main pc) := by
  cases pc with
  | createDispatchers i | createWriters i | createReaders i =>
    intro a g h
    dsimp only
    split <;> exact h.step cfg (fun k => by cases k <;> rfl) rfl (fun k => by cases k <;> rfl) (fun k => by cases k <;> rfl)
  | spinTest i =>
    intro a g h
    dsimp only
    split
    · split <;> exact h.step cfg (fun _ => rfl) rfl (fun k => by cases k <;> rfl) (fun k => by cases k <;> rfl)
    · exact h.step cfg (fun _ => rfl) rfl (fun k => by cases k <;> rfl) (fun k => by cases k <;> rfl)
  | spinUnlock initialized =>
    cases initialized <;>
      exact fun _ h => h.step cfg (fun _ => rfl) rfl (fun k => by cases k <;> rfl) (fun k => by cases k <;> rfl)
  | setFlag k =>
    cases k with
    | dispatcher => exact hvalid.elim
    | writer => exact fun _ _ h => h.setFlag cfg true .writer (fun k => by cases k <;> rfl) fun k => by cases k <;> exact le_rfl
    | reader => exact fun _ _ h => h.setFlag cfg true .reader (fun k => by cases k <;> rfl) fun k => by cases k <;> exact le_rfl
  | finish | shutdownContexts | shutdownAvailable =>
    exact fun _ g h => h.step cfg (fun k => by cases k <;> rfl) rfl (fun k => by cases k <;> rfl) (fun k => by cases k <;> rfl)
  | destroy m =>
    intro a g h
    cases m with
    | dispatchMain => exact hvalid.elim
    | queue q =>
      cases q <;>
        exact h.step cfg (fun k => by cases k <;> rfl) rfl (fun k => by cases k <;> rfl) (fun k => by cases k <;> rfl)
    | _ => exact h.step cfg (fun k => by cases k <;> rfl) rfl (fun k => by cases k <;> rfl) (fun k => by cases k <;> rfl)
  | clearTest q =>
    exact fun _ _ h => h.step cfg (fun _ => rfl) rfl (fun k => by cases k <;> rfl) (fun k => by cases k <;> rfl)
  | clear q left =>
    intro a g h
    cases left with
    | zero => exact h.step cfg (fun _ => rfl) rfl (fun k => by cases k <;> rfl) (fun k => by cases k <;> rfl)
    | succ left =>
      exact h.step cfg (setLength_flag g left q) (setLength_ended g left q) (fun k => by cases k <;> rfl)
        (fun k => by cases k <;> rfl)
  | clearUnlock q =>
    cases q <;>
      exact fun _ h => h.step cfg (fun _ => rfl) rfl (fun k => by cases k <;> rfl) (fun k => by cases k <;> rfl)
  | join k i => exact join_told cfg k i
  | _ => exact fun _ h => h.step cfg (fun _ => rfl) rfl (fun k => by cases k <;> rfl) (fun k => by cases k <;> rfl)

theorem routine_told {users : Nat} {pc : Pc} (hrole : pc.role = .main) (hvalid : pc.Valid) :
    (routine cfg signalMain (.main : Name cfg users) pc).KeepsWith (Told cfg) pc := by
  cases pc with
  | enter site =>
    exact fun _ h => h.step cfg (fun _ => rfl) rfl (fun k => by cases site <;> cases k <;> rfl)
      (fun k => by cases site <;> cases k <;> rfl)
  | inside site todo message => exact inside_told cfg signalMain hvalid
  | unborn k => cases k <;> cases hrole
  | dispatch pc | write pc | read pc assigned => cases hrole
  | main pc => exact main_told cfg hvalid
  | application host =>
    cases host with
    | main =>
      intro a g h
      cases a with
      | write | connect | await | shutdown =>
        dsimp only
        split <;>
          exact h.step cfg (fun k => by cases k <;> rfl) rfl (fun k => by cases k <;> rfl) (fun k => by cases k <;> rfl)
      | _ => exact h.step cfg (fun _ => rfl) rfl (fun k => by cases k <;> rfl) (fun k => by cases k <;> rfl)
    | _ => cases hrole
  | connecting host =>
    cases host with
    | main =>
      intro a g h
      dsimp only [routine, connectingRoutine]
      split <;> exact h.step cfg (fun _ => rfl) rfl (fun k => by cases k <;> rfl) (fun k => by cases k <;> rfl)
    | _ => cases hrole
  | appending host =>
    cases host with
    | main =>
      intro a g h
      dsimp only [routine, appendingRoutine]
      split <;>
        exact h.step cfg (fun k => by cases k <;> rfl) rfl (fun k => by cases k <;> rfl) (fun k => by cases k <;> rfl)
    | _ => cases hrole
  | connected host =>
    cases host with
    | main =>
      intro a g h
      dsimp only [routine, connectedRoutine]
      split <;> exact h.step cfg (fun _ => rfl) rfl (fun k => by cases k <;> rfl) (fun k => by cases k <;> rfl)
    | _ => cases hrole
  | done k => trivial

/-- The shutdown ends no thread itself. -/
theorem main_ended {users : Nat} {pc : Pc} (hrole : pc.role = .main) :
    (routine cfg signalMain (.main : Name cfg users) pc).Acts fun g r => r.1.ended = g.ended := by
  cases pc with
  | enter site => trivial
  | inside site todo message =>
    cases todo with
    | nil => trivial
    | cons op todo =>
      cases op with
      | enqueue q | dequeue q => exact fun _ g => setLength_ended g _ q
      | setCode value => exact fun _ g => setFlag_ended g value .dispatcher
      | signal c | broadcast c => trivial
  | unborn k => trivial
  | dispatch pc | write pc | read pc assigned => cases hrole
  | main pc =>
    cases pc with
    | createDispatchers i | createWriters i | createReaders i =>
      intro a g
      dsimp only
      split <;> rfl
    | spinTest i | finish | shutdownContexts | shutdownAvailable | destroy m | clearTest q => exact fun _ _ => rfl
    | setFlag k => exact fun _ g => setFlag_ended g true k
    | join k i =>
      unfold routine mainRoutine
      dsimp only
      split
      · trivial
      · cases k <;> exact fun _ _ => rfl
    | clear q left =>
      intro a g
      cases left with
      | zero => rfl
      | succ left => exact setLength_ended g left q
    | _ => trivial
  | application host =>
    intro a g
    cases a with
    | shutdown =>
      dsimp only
      split <;> rfl
    | _ => rfl
  | connecting host => exact fun _ _ => rfl
  | appending host =>
    intro a g
    dsimp only [routine, appendingRoutine]
    split <;> rfl
  | connected host => exact fun _ _ => rfl
  | done k => trivial

/-- A thread that has ended has reached the end of its routine. -/
def Ended (slot : Option (Kind × Nat)) (pc : Pc) (g : Shared) : Prop :=
  ∀ k i, slot = some (k, i) → g.ended k i = true → pc = .done (some k)

theorem routine_ended {users : Nat} {name : Name cfg users} (hname : name ≠ .main) {pc : Pc}
    (hrole : pc.role = name.role cfg) (hvalid : pc.Valid) :
    (routine cfg signalMain name pc).KeepsWith (Ended name.slot) pc := by
  have hframe := routine_frame cfg signalMain hname hrole hvalid
  by_cases hdone : ∃ k, pc = .done k
  · obtain ⟨k, rfl⟩ := hdone
    trivial
  · have hrunning {g : Shared} (h : Ended name.slot pc g) (k : Kind) (i : Nat) (hslot : name.slot = some (k, i)) :
        g.ended k i ≠ true := fun hended => hdone ⟨_, h k i hslot hended⟩
    cases hinstr : routine cfg signalMain name pc with
    | act f =>
      rw [hinstr] at hframe
      intro a g h k i hslot hended
      obtain hbefore | ⟨-, hstop⟩ := (hframe a g).own k i hended
      · exact absurd hbefore (hrunning h k i hslot)
      · exact hstop
    | await ready k => exact fun g _ h k i hslot hended => absurd hended (hrunning h k i hslot)
    | stop => trivial
    | _ => exact fun g h k i hslot hended => absurd hended (hrunning h k i hslot)

end routines

/-! ## Whole runs -/

section system
variable {cfg : BuildConfig} {signalMain : Bool} {users : Nat} {s : State cfg users}

theorem valid_of_reachable (h : (system cfg signalMain users).Reachable s) (name : Name cfg users) :
    (s.threads name).locals.Valid := by
  induction h generalizing name with
  | init h =>
    subst h
    cases name <;> trivial
  | step _ h ih =>
    exact LockOrder.locals_next (P := fun _ pc => pc.Valid) (fun name _ => routine_valid cfg signalMain name) ih h name

/-- What each thread runs and how. -/
def Runs (name : Name cfg users) (pc : Pc) : Prop := pc.role = name.role cfg ∧ pc.Valid

theorem runs_of_reachable (h : (system cfg signalMain users).Reachable s) (name : Name cfg users) :
    Runs name (s.threads name).locals := ⟨role_of_reachable h name, valid_of_reachable h name⟩

theorem slot_injective {name name' : Name cfg users} {slot : Kind × Nat} (h : name.slot = some slot)
    (h' : name'.slot = some slot) : name = name' := by
  cases name <;> cases h <;> cases name' <;> simp_all [Name.slot, Fin.ext_iff]

theorem told_of_reachable (h : (system cfg signalMain users).Reachable s) : Told cfg (s.threads .main).locals s.shared := by
  induction h with
  | init h =>
    subst h
    exact ⟨fun k => by cases k <;> rfl, fun k i hi => by cases k <;> cases hi⟩
  | step hreach h ih =>
    refine LockOrder.thread_next (P := Runs) (fun pc hpc => routine_told cfg signalMain hpc.1 hpc.2)
      (fun name pc pc₀ hname hpc => ?_) (runs_of_reachable hreach) h ih
    refine (routine_frame cfg signalMain hname hpc.1 hpc.2).mono fun g r hframe htold => ?_
    exact ⟨fun k => (hframe.flag k).trans (htold.flag k), fun k i hi => hframe.kept k i (htold.ended k i hi)⟩

theorem ended_of_reachable (h : (system cfg signalMain users).Reachable s) {name : Name cfg users} (hname : name ≠ .main) :
    Ended name.slot (s.threads name).locals s.shared := by
  induction h with
  | init h =>
    subst h
    exact fun _ _ _ hended => absurd hended Bool.false_ne_true
  | step hreach h ih =>
    refine LockOrder.thread_next (P := Runs) (fun pc hpc => routine_ended cfg signalMain hname hpc.1 hpc.2)
      (fun name' pc pc₀ hne hpc => ?_) (runs_of_reachable hreach) h ih
    by_cases hmain : name' = .main
    · subst hmain
      refine (main_ended cfg signalMain hpc.1).mono fun g r hsame hended => ?_
      unfold Ended
      rwa [hsame]
    · refine (routine_frame cfg signalMain hmain hpc.1 hpc.2).mono fun g r hframe hended k i hslot hdone => ?_
      obtain hbefore | ⟨hown, -⟩ := hframe.own k i hdone
      · exact hended k i hslot hbefore
      · exact absurd (slot_injective hown hslot) hne

/-- A thread at the end of its routine is not waiting for anything. -/
theorem running_of_done (h : (system cfg signalMain users).Reachable s) {name : Name cfg users} {k : Option Kind}
    (hdone : (s.threads name).locals = .done k) : s.threads name = .running (.done k) := by
  have howned := owned_of_reachable h name
  cases hat : s.threads name with
  | running pc =>
    rw [hat] at hdone
    exact congrArg Status.running hdone
  | blocked c m pc =>
    rw [hat] at howned hdone
    rw [show pc = .done k from hdone] at howned
    cases howned.1
  | woken m pc =>
    rw [hat] at howned hdone
    rw [show pc = .done k from hdone] at howned
    cases howned.1

/-- The threads of a pool that the shutdown has joined are at their ends. -/
theorem done_of_joined (h : (system cfg signalMain users).Reachable s) {name : Name cfg users} {k : Kind} {i : Nat}
    (hslot : name.slot = some (k, i)) (hlt : i < (s.threads .main).locals.joined cfg k) :
    s.threads name = .running (.done (some k)) := by
  have hname : name ≠ .main := by
    rintro rfl
    cases hslot
  have hended := (told_of_reachable h).ended k i hlt
  exact running_of_done h (ended_of_reachable h hname k i hslot hended)

/-- When the shutdown is over, all the threads of the pools are at their ends. -/
theorem all_done (h : (system cfg signalMain users).Reachable s) (hat : (s.threads .main).locals = .done none)
    {name : Name cfg users} {k : Kind} {i : Nat} (hslot : name.slot = some (k, i)) :
    s.threads name = .running (.done (some k)) := by
  refine done_of_joined h hslot ?_
  rw [hat]
  cases name with
  | main | user i => cases hslot
  | dispatcher i | writer i | reader i =>
    cases hslot
    exact i.isLt

/-- In every run, the flag of the read threads is up only when all the write threads have ended, and that of the dispatch threads
only when the read threads have as well; when the shutdown is over, all the threads of the pools have ended and no flag is up. -/
theorem stopped_in_order (h : (system cfg signalMain users).Reachable s) :
    (s.shared.readFlag = true → ∀ i, s.threads (.writer i) = .running (.done (some .writer))) ∧
    (s.shared.dispatchCode = true → (∀ i, s.threads (.writer i) = .running (.done (some .writer))) ∧
      ∀ i, s.threads (.reader i) = .running (.done (some .reader))) ∧
    (s.threads .main = .running (.done none) →
      (∀ (name : Name cfg users) k i, name.slot = some (k, i) → s.threads name = .running (.done (some k))) ∧
        ∀ k, s.shared.flag k = false) := by
  have htold := told_of_reachable h
  have hwriters (hpast : (s.threads .main).locals.pastWriters = true) (i : Fin cfg.outboundCount) :
      s.threads (.writer i) = .running (.done (some .writer)) :=
    done_of_joined h rfl (by rw [joined_writers hpast]; exact i.isLt)
  have hreaders (hpast : (s.threads .main).locals.pastReaders = true) (i : Fin cfg.inboundCount) :
      s.threads (.reader i) = .running (.done (some .reader)) :=
    done_of_joined h rfl (by rw [joined_readers hpast]; exact i.isLt)
  refine ⟨fun hflag => hwriters ?_, fun hflag => ?_, fun hat => ⟨fun name k i hslot => ?_, fun k => ?_⟩⟩
  · exact pastWriters_of_flagUp ((htold.flag .reader).symm.trans hflag)
  · have hpast := pastReaders_of_flagUp ((htold.flag .dispatcher).symm.trans hflag)
    exact ⟨hwriters (pastWriters_of_pastReaders hpast), hreaders hpast⟩
  · exact all_done h (by rw [hat]; rfl) hslot
  · rw [htold.flag k, hat]
    cases k <;> rfl

end system

/-- A life cycle in which the write threads start only when they are to stop. -/
def lifeRun : List (LockOrder.Label (Name .default 0) Answer) :=
  let turns (n : Nat) (name : Name .default 0) := List.replicate n (LockOrder.Label.step name Answer.nothing none)
  let pool (n : Nat) (name : Fin 2 → Name .default 0) :=
    turns n (name ⟨0, Nat.zero_lt_two⟩) ++ turns n (name ⟨1, Nat.one_lt_two⟩)
  startupRun ++ turns 1 .main ++ [.step .main .shutdown none] ++ turns 5 .main ++
    pool 3 (@Name.writer .default 0) ++ turns 8 .main ++ pool 5 (@Name.reader .default 0) ++ turns 10 .main ++
    pool 4 (@Name.dispatcher .default 0) ++ turns 17 .main

theorem default_stopped :
    ∃ s : State .default 0, s.threads .main = .running (.done none) ∧
      s.threads (.writer ⟨0, by decide⟩) = .running (.done (some .writer)) ∧ s.shared.flag .dispatcher = false := by
  have hrun : (StepSystem.runList (LockOrder.next (routine .default false)) (start .default 0) lifeRun).map
      (fun s => s.threads .main) = some (.running (.done none)) := by
    decide +kernel
  obtain ⟨s, hs, hat⟩ := Option.map_eq_some_iff.mp hrun
  have hreach : (system .default false 0).Reachable s := StepSystem.reachable_runList (.init rfl) hs
  obtain ⟨hdone, hflag⟩ := (stopped_in_order hreach).2.2 hat
  exact ⟨s, hat, hdone _ _ _ rfl, hflag .dispatcher⟩

end SubstanceConnector.CoreThreads
