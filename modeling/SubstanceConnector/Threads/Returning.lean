import SubstanceConnector.Threads.Destroyed

/-!
# When the shutdown can return

When `substance_connector_shutdown` runs, it can still come to its end exactly when no thread of a pool has come to what the
shutdown has destroyed already: no order of the steps before has led the core into a deadlock, but a thread that is about to
use what is destroyed cannot be joined any more. First each thread that needs something is let past its use (`Pc.relief`).
Then a thread of a pool whose flag is up gets to its end by itself once nobody else has a mutex (`Pc.distance`), and so does
the shutdown between two joins (`Pc.shutdownDistance`). A write thread tests its flag before it takes `outbound_lock`, and may
sleep through the broadcast; so it may have to be woken without a signal.
-/

namespace SubstanceConnector.CoreThreads

open LockOrder (Instr Owned Status Awake Moves Solo next)

namespace Pc

/-- How many threads there are still to join. -/
def ahead (cfg : BuildConfig) : Pc → Nat
  | main .shutdownContexts | main (.setFlag .writer) | enter .stopWriters | inside .stopWriters _ _ =>
    cfg.outboundCount + cfg.inboundCount + cfg.dispatchCount
  | main (.join .writer i) => cfg.outboundCount - i + cfg.inboundCount + cfg.dispatchCount
  | main (.destroy .outbound) | main (.setFlag .reader) | enter .stopReaders | inside .stopReaders _ _ =>
    cfg.inboundCount + cfg.dispatchCount
  | main (.join .reader i) => cfg.inboundCount - i + cfg.dispatchCount
  | main (.destroy .inbound) | main (.destroy .readMain) | main .shutdownAvailable | enter .stopDispatchers
  | inside .stopDispatchers _ _ =>
    cfg.dispatchCount
  | main (.join .dispatcher i) => cfg.dispatchCount - i
  | _ => 0

end Pc

/-- More than the steps from the end of a section of the shutdown to the next join. -/
def Site.shutdownDistance : Site → Nat
  | stopWriters => 30
  | stopReaders => 24
  | stopDispatchers => 16
  | dispatchersStopped => 12
  | _ => 0

namespace Pc

/-- More than the steps the shutdown makes by itself before its next join or its end. -/
def shutdownDistance (cfg : BuildConfig) (pc : Pc) (g : Shared) : Nat :=
  match pc with
  | enter site => g.inbound + g.outbound + (site.function.body.length + site.shutdownDistance + 1)
  | inside site todo _ => g.inbound + g.outbound + (todo.length + site.shutdownDistance)
  | main .shutdownContexts => g.inbound + g.outbound + 35
  | main (.setFlag k) => g.inbound + g.outbound + if k = .writer then 34 else 27
  | main (.join k i) =>
    if i < count cfg k then 0
    else g.inbound + g.outbound + match k with | .writer => 29 | .reader => 23 | .dispatcher => 15
  | main (.destroy .outbound) => g.inbound + g.outbound + 28
  | main (.destroy .inbound) => g.inbound + g.outbound + 22
  | main (.destroy .readMain) => g.inbound + g.outbound + 21
  | main .shutdownAvailable => g.inbound + g.outbound + 20
  | main (.destroy .dispatch) => g.inbound + g.outbound + 11
  | main (.clearLock .inbound) => g.inbound + g.outbound + 10
  | main (.clearTest .inbound) => g.inbound + g.outbound + 9
  | main (.clear .inbound left) => left + g.outbound + 8
  | main (.clearUnlock .inbound) => g.outbound + 7
  | main (.clearLock .outbound) => g.outbound + 6
  | main (.clearTest .outbound) => g.outbound + 5
  | main (.clear .outbound left) => left + 4
  | main (.clearUnlock .outbound) => 3
  | main (.destroy (.queue .inbound)) => 2
  | main (.destroy (.queue .outbound)) => 1
  | _ => 0

end Pc

section shutdown
variable (cfg : BuildConfig) (signalMain : Bool)

/-! ## The shutdown by itself -/

theorem join_keeps (k : Kind) (i : Nat) :
    (mainRoutine cfg (.join k i)).Keeps fun pc' =>
      pc'.stopping = true ∧ pc'.ahead cfg ≤ (Pc.main (.join k i)).ahead cfg := by
  unfold mainRoutine
  dsimp only
  split
  · refine ⟨rfl, ?_⟩
    cases k <;> simp only [Pc.ahead] <;> omega
  · cases k with
    | writer | reader => exact fun _ _ => ⟨rfl, by simp only [Pc.ahead]; omega⟩
    | dispatcher => exact fun _ _ => ⟨rfl, Nat.zero_le _⟩

/-- The shutdown does not go back. -/
theorem stopping_keeps {users : Nat} {pc : Pc} (hstop : pc.stopping = true) (hvalid : pc.Valid) :
    (routine cfg signalMain (Name.main : Name cfg users) pc).Keeps fun pc' =>
      pc'.stopping = true ∧ pc'.ahead cfg ≤ pc.ahead cfg := by
  cases pc with
  | enter site => cases site <;> first | exact ⟨rfl, le_rfl⟩ | cases hstop
  | inside site todo message =>
    cases todo with
    | nil => cases site <;> first | exact ⟨rfl, by simp only [resume, Pc.ahead]; omega⟩ | cases hstop
    | cons op todo =>
      cases op with
      | enqueue q | dequeue q | setCode value => cases site <;> first | exact fun _ _ => ⟨rfl, le_rfl⟩ | cases hstop
      | signal c | broadcast c => cases site <;> first | exact ⟨rfl, le_rfl⟩ | cases hstop
  | main pc =>
    cases pc with
    | setFlag k =>
      cases k with
      | dispatcher => exact hvalid.elim
      | writer | reader => exact fun _ _ => ⟨rfl, le_rfl⟩
    | join k i => exact join_keeps cfg k i
    | shutdownContexts | shutdownAvailable | clearTest q => exact fun _ _ => ⟨rfl, le_rfl⟩
    | destroy m =>
      cases m with
      | dispatchMain => exact hvalid.elim
      | queue q => cases q <;> exact fun _ _ => ⟨rfl, le_rfl⟩
      | _ => exact fun _ _ => ⟨rfl, le_rfl⟩
    | clear q left => exact fun _ _ => by cases left <;> exact ⟨rfl, le_rfl⟩
    | clearUnlock q => cases q <;> exact ⟨rfl, le_rfl⟩
    | clearLock q => exact ⟨rfl, le_rfl⟩
    | _ => cases hstop
  | done k => trivial
  | _ => cases hstop

/-- The sections of the shutdown set the code of the dispatch threads and wake threads. -/
theorem stopping_ops {site : Site} (hstop : (Pc.enter site).stopping = true) :
    ∀ op ∈ site.function.body, (∃ c, op = .broadcast c) ∨ ∃ value, op = .setCode value := by
  cases site <;> cases hstop <;> simp [Site.function, Section.body]

theorem join_distance_le (k : Kind) (g : Shared) :
    (Pc.main (.join k 0)).shutdownDistance cfg g ≤
      g.inbound + g.outbound + match k with | .writer => 29 | .reader => 23 | .dispatcher => 15 := by
  unfold Pc.shutdownDistance
  dsimp only
  split
  · exact Nat.zero_le _
  · exact le_rfl

theorem inside_nears {site : Site} {todo : List Op} {message : Bool} (g : Shared)
    (hstop : (Pc.enter site).stopping = true) (hvalid : todo <:+ site.function.body) :
    (insideRoutine signalMain site message todo).Nears (fun _ => True) (Pc.shutdownDistance cfg) False
      (.inside site todo message) g := by
  cases todo with
  | nil =>
    cases site with
    | stopWriters | stopReaders | stopDispatchers =>
      exact ⟨trivial, lt_of_le_of_lt (join_distance_le cfg _ g) (Nat.add_lt_add_left (by decide) _)⟩
    | dispatchersStopped => exact ⟨trivial, Nat.add_lt_add_left (by decide) _⟩
    | _ => cases hstop
  | cons op todo =>
    have hless (m : Bool) : (Pc.inside site todo m).shutdownDistance cfg g <
        (Pc.inside site (op :: todo) message).shutdownDistance cfg g :=
      Nat.add_lt_add_left (Nat.add_lt_add_right (Nat.lt_succ_self _) _) _
    obtain ⟨c, rfl⟩ | ⟨value, rfl⟩ := stopping_ops hstop op (hvalid.subset List.mem_cons_self)
    · exact ⟨trivial, hless message⟩
    · exact ⟨.nothing, trivial, hless message⟩

/-- Between two joins the shutdown gets to the next one, or to its end, by itself. -/
theorem stopping_nears {users : Nat} {pc : Pc} {g : Shared} (hstop : pc.stopping = true) (hvalid : pc.Valid)
    (hpos : 0 < pc.shutdownDistance cfg g) :
    (routine cfg signalMain (Name.main : Name cfg users) pc).Nears (fun _ => True) (Pc.shutdownDistance cfg) False pc g := by
  cases pc with
  | enter site => exact ⟨trivial, Nat.add_lt_add_left (Nat.lt_succ_self _) _⟩
  | inside site todo message => exact inside_nears cfg signalMain g (by cases site <;> exact hstop) hvalid
  | main pc =>
    cases pc with
    | shutdownContexts | shutdownAvailable => exact ⟨.nothing, trivial, Nat.add_lt_add_left (by decide) _⟩
    | setFlag k =>
      cases k with
      | dispatcher => exact hvalid.elim
      | writer | reader => exact ⟨.nothing, trivial, Nat.add_lt_add_left (by decide) _⟩
    | join k i =>
      unfold routine mainRoutine
      dsimp only
      split
      case isTrue hlt =>
        have hzero : (Pc.main (.join k i)).shutdownDistance cfg g = 0 := if_pos hlt
        exact absurd hpos hzero.not_gt
      case isFalse hle =>
        have hdistance : (Pc.main (.join k i)).shutdownDistance cfg g = _ := if_neg hle
        cases k with
        | writer | reader | dispatcher =>
          refine ⟨.nothing, trivial, ?_⟩
          rw [hdistance]
          exact Nat.add_lt_add_left (by decide) _
    | destroy m =>
      refine ⟨.nothing, trivial, ?_⟩
      cases m with
      | dispatchMain => exact hvalid.elim
      | queue q => cases q <;> exact Nat.lt_succ_self _
      | outbound | inbound | readMain | dispatch => exact Nat.add_lt_add_left (by decide) _
    | clearLock q => cases q <;> exact ⟨trivial, Nat.lt_succ_self _⟩
    | clearTest q =>
      refine ⟨.nothing, trivial, ?_⟩
      cases q <;> exact Nat.lt_succ_self _
    | clear q left =>
      refine ⟨.nothing, trivial, ?_⟩
      cases q <;> cases left <;> simp [Pc.shutdownDistance, Shared.setLength]
    | clearUnlock q => cases q <;> exact ⟨trivial, Nat.lt_succ_self _⟩
    | _ => cases hstop
  | _ => exact absurd hpos (lt_irrefl _)

end shutdown

/-! ## A thread by itself -/

/-- Steps from the code of the application on to the end of the thread. -/
def Host.distance : Host → Nat
  | dispatcher => 11
  | reader assigned => 2 * assigned + 4
  | leaver assigned => 2 * assigned + 2
  | user | main => 0

/-- Steps after a call, by what a dequeue has returned, if it has been done. A write thread sends all there is. -/
def Site.distance (g : Shared) (message : Option Bool) : Site → Nat
  | acquireFirst | signalIdle | answerFlag => 10
  | acquireSecond | answerEnqueue => 13
  | acquireNext => 7
  | signalRound => 2
  | acquireWoken => message.elim (10 * g.outbound + 4) fun message => if message then 10 * g.outbound + 12 else 4
  | acquireWritten => message.elim (10 * g.outbound + 3) fun message => if message then 10 * g.outbound + 10 else 3
  | notify assigned => 2 * assigned + 4
  | acceptAppend assigned | readEnqueue assigned => 2 * assigned + 6
  | acceptFlag assigned | readFlag assigned => 2 * assigned + 3
  | writeEnqueue host => host.distance + 3
  | writeFlag host => host.distance
  | connectFlag host => host.distance + 1
  | _ => 0

/-- More than the steps to the end of a thread whose flag is up, if it makes them alone and the application lets it. -/
def Pc.distance (pc : Pc) (g : Shared) : Nat :=
  match pc with
  | enter site => site.distance g none + 3
  | inside site [] message => site.distance g (some message) + 1
  | inside site (_ :: todo) _ => site.distance g none + (todo.length + 2)
  | unborn _ => 3
  | dispatch .loopTest => 2
  | dispatch (.lock _) => 10
  | dispatch (.waitTest _) => 9
  | dispatch .wait => 4
  | dispatch .wokenUnlock => 3
  | dispatch .wokenTest => 2
  | dispatch (.unlock _) => 8
  | dispatch (.handleTest _) => 7
  | dispatch (.handle _) => 12
  | dispatch .roundEnd => 6
  | dispatch .exit => 1
  | write .loopTest => 2
  | write .lock => 5
  | write (.waitTest message) => if message then 10 * g.outbound + 12 else 4
  | write .wokenTest => 3
  | write .unlock => 10 * g.outbound + 11
  | write .unlockExit => 2
  | write (.write message) => if message then 10 * g.outbound + 10 else 3
  | write .exit => 1
  | read .loopTest assigned => 2 * assigned + 2
  | read .lock assigned => 2 * assigned + 8
  | read .waitTest assigned => 2 * assigned + 4
  | read .wait assigned => 2 * assigned + 5
  | read .wokenTest assigned => 2 * assigned + 4
  | read .unlock assigned => 2 * assigned + 3
  | read .exitTest assigned => 2 * assigned + 2
  | read .poll assigned | read .accepted assigned => 2 * assigned + 3
  | read .exit assigned => 2 * assigned + 1
  | application host => host.distance
  | connecting host | appending host => host.distance + 2
  | connected host => host.distance + 1
  | main _ | done _ => 0

section routines
variable (cfg : BuildConfig) (signalMain : Bool)

theorem resume_needs {site : Site} {message : Bool} (hneeds : (Pc.inside site [] message).needs = none) :
    (resume signalMain message site).needs = none := by
  cases site with
  | acquireSecond =>
    unfold resume
    dsimp only
    split <;> rfl
  | answerEnqueue | writeEnqueue host => cases hneeds
  | _ => rfl

theorem resume_distance {site : Site} (hrole : site.role ≠ .main) (message : Bool) (g : Shared) :
    (resume signalMain message site).distance g ≤ site.distance g (some message) := by
  cases site with
  | acquireSecond =>
    unfold resume
    dsimp only
    split
    · exact le_rfl
    · exact (by decide : 10 ≤ 13)
  | awaitFlag | stopWriters | stopReaders | stopDispatchers | dispatchersStopped => exact absurd rfl hrole
  | _ => exact le_rfl

theorem eq_of_suffix_singleton {op op' : Op} {todo : List Op} (h : op :: todo <:+ [op']) : op = op' ∧ todo = [] := by
  obtain h | h := List.suffix_cons_iff.mp h
  · exact List.cons.inj h
  · cases List.suffix_nil.mp h

/-- A thread other than that of the shutdown gets through every critical section. -/
theorem section_nears {site : Site} {todo : List Op} {message : Bool} (g : Shared) (wakes : Prop) (hrole : site.role ≠ .main)
    (hvalid : todo <:+ site.function.body) (hneeds : (Pc.inside site todo message).needs = none) :
    (insideRoutine signalMain site message todo).Nears (·.needs = none) Pc.distance wakes (.inside site todo message) g := by
  cases todo with
  | nil => exact ⟨resume_needs signalMain hneeds, Nat.lt_succ_of_le (resume_distance signalMain hrole message g)⟩
  | cons op todo =>
    cases site with
    | stopWriters | stopReaders | stopDispatchers | dispatchersStopped | awaitFlag => exact absurd rfl hrole
    | answerEnqueue | writeEnqueue host => cases hneeds
    | acquireFirst | acquireSecond | acquireNext | readEnqueue assigned =>
      obtain ⟨rfl, rfl⟩ := eq_of_suffix_singleton hvalid
      exact ⟨.nothing, rfl, Nat.lt_succ_self _⟩
    | acquireWoken | acquireWritten =>
      obtain ⟨rfl, rfl⟩ := eq_of_suffix_singleton hvalid
      refine ⟨.nothing, rfl, ?_⟩
      by_cases hempty : 0 < g.outbound
      · simp [Pc.distance, Site.distance, Shared.setLength, Shared.length, hempty]
        omega
      · simp [Pc.distance, Site.distance, Shared.setLength, Shared.length, hempty]
    | signalIdle | signalRound | answerFlag | notify assigned | acceptAppend assigned | acceptFlag assigned
    | readFlag assigned | writeFlag host | connectFlag host =>
      obtain ⟨rfl, rfl⟩ := eq_of_suffix_singleton hvalid
      exact ⟨rfl, Nat.lt_succ_self _⟩

theorem application_nears {host : Host} (g : Shared) (wakes : Prop) (hhost : 0 < host.distance) :
    (applicationRoutine signalMain host).Nears (·.needs = none) Pc.distance wakes (.application host) g := by
  refine ⟨.nothing, ?_⟩
  cases host with
  | dispatcher | reader assigned | leaver assigned => exact ⟨rfl, Nat.lt_succ_self _⟩
  | user | main => exact absurd hhost (lt_irrefl _)

theorem dispatch_nears (i : Nat) {pc : DispatchPc} {g : Shared} (wakes : Prop) (hflag : g.dispatchCode = true)
    (hwaits : (Pc.dispatch pc).waits = false) (hneeds : (Pc.dispatch pc).needs = none) :
    (dispatchRoutine signalMain i pc).Nears (·.needs = none) Pc.distance wakes (.dispatch pc) g := by
  cases pc with
  | loopTest | wokenTest =>
    refine ⟨.nothing, ?_⟩
    dsimp only
    rw [if_pos hflag]
    exact ⟨rfl, Nat.lt_succ_self _⟩
  | waitTest message =>
    refine ⟨.nothing, ?_⟩
    dsimp only
    rw [hflag, Bool.not_true, Bool.and_false]
    exact ⟨rfl, Nat.lt_succ_self _⟩
  | handleTest message =>
    refine ⟨.nothing, ?_⟩
    dsimp only
    rw [hflag, Bool.not_true, Bool.and_false]
    exact ⟨rfl, Nat.lt_succ_self _⟩
  | handle kind =>
    refine ⟨.nothing, ?_⟩
    cases kind with
    | handshake => cases hneeds
    | callback => exact ⟨rfl, Nat.lt_succ_self _⟩
    | _ => exact ⟨rfl, (by decide : 10 < 12)⟩
  | roundEnd =>
    refine ⟨.nothing, ?_⟩
    dsimp only
    split
    · exact ⟨rfl, Nat.lt_succ_self _⟩
    · exact ⟨rfl, (by decide : 2 < 6)⟩
  | exit => exact ⟨.nothing, rfl, Nat.zero_lt_one⟩
  | wait => cases hwaits
  | lock message | wokenUnlock | unlock message => exact ⟨rfl, Nat.lt_succ_self _⟩

theorem write_nears (i : Nat) {pc : WritePc} {g : Shared} {wakes : Prop} (hwakes : wakes) (hflag : g.writeFlag = true) :
    (writeRoutine i pc).Nears (·.needs = none) Pc.distance wakes (.write pc) g := by
  cases pc with
  | loopTest | wokenTest =>
    refine ⟨.nothing, ?_⟩
    dsimp only
    rw [if_pos hflag]
    exact ⟨rfl, Nat.lt_succ_self _⟩
  | waitTest message =>
    cases message with
    | true => exact ⟨.nothing, rfl, Nat.lt_succ_self _⟩
    | false => exact ⟨hwakes, rfl, Nat.lt_succ_self _⟩
  | write message =>
    refine ⟨.nothing, ?_⟩
    cases message with
    | true => exact ⟨rfl, Nat.add_lt_add_left (by decide : 3 + 3 < 10) _⟩
    | false => exact ⟨rfl, Nat.lt_succ_self _⟩
  | exit => exact ⟨.nothing, rfl, Nat.zero_lt_one⟩
  | lock | unlock | unlockExit => exact ⟨rfl, Nat.lt_succ_self _⟩

theorem read_nears (i assigned : Nat) {pc : ReadPc} {g : Shared} (wakes : Prop) (hflag : g.readFlag = true)
    (hwaits : (Pc.read pc assigned).waits = false) (hneeds : (Pc.read pc assigned).needs = none) :
    (readRoutine i assigned pc).Nears (·.needs = none) Pc.distance wakes (.read pc assigned) g := by
  cases pc with
  | loopTest | exitTest =>
    refine ⟨.nothing, ?_⟩
    dsimp only
    rw [if_pos hflag]
    exact ⟨rfl, Nat.lt_succ_self _⟩
  | wokenTest =>
    refine ⟨.nothing, ?_⟩
    dsimp only
    rw [if_pos hflag]
    exact ⟨rfl, Nat.lt_succ_self _⟩
  | waitTest =>
    refine ⟨.nothing, ?_⟩
    dsimp only
    rw [hflag, if_neg fun h => Bool.noConfusion h.2]
    exact ⟨rfl, Nat.lt_succ_self _⟩
  | poll =>
    refine ⟨.exit, ?_⟩
    dsimp only
    split
    · exact ⟨rfl, Nat.lt_succ_self _⟩
    · exact ⟨rfl, Nat.add_lt_add_left (by decide) _⟩
  | accepted => cases hneeds
  | exit =>
    refine ⟨.nothing, ?_⟩
    dsimp only
    split
    · exact ⟨rfl, Nat.succ_pos _⟩
    · refine ⟨rfl, ?_⟩
      simp only [Pc.distance, Host.distance]
      omega
  | wait => cases hwaits
  | lock =>
    refine ⟨rfl, ?_⟩
    simp only [Pc.distance, Site.distance]
    omega
  | unlock => exact ⟨rfl, Nat.lt_succ_self _⟩

/-- A thread of a pool whose flag is up gets nearer to its end by itself; a write thread may have to be woken for it. -/
theorem pool_nears {users : Nat} {name : Name cfg users} {k : Kind} {i : Nat} (hslot : name.slot = some (k, i)) {pc : Pc}
    {g : Shared} (hrole : pc.role = name.role cfg) (hvalid : pc.Valid) (hflag : g.flag k = true)
    (hwaits : pc.waits = false) (hborn : i < g.created k) (hneeds : pc.needs = none) (hpos : 0 < pc.distance g) :
    (routine cfg signalMain name pc).Nears (·.needs = none) Pc.distance (k = .writer) pc g := by
  have hmain : name.role cfg ≠ .main := by
    cases name <;> simp_all [Name.role, Name.slot]
  have hindex : name.index = i := by
    cases name <;> cases hslot <;> rfl
  cases pc with
  | enter site =>
    have hbody : site.function.body.length = 1 := by
      cases site <;> first | rfl | exact absurd hrole.symm hmain
    obtain ⟨op, hop⟩ := List.length_eq_one_iff.mp hbody
    have hinside : (Pc.inside site site.function.body true).needs = none := by
      cases site <;> first | rfl | cases hneeds
    refine ⟨hinside, ?_⟩
    show (Pc.inside site site.function.body true).distance g < (Pc.enter site).distance g
    rw [hop]
    exact Nat.lt_succ_self _
  | inside site todo message =>
    exact section_nears signalMain g _ (fun h => hmain (hrole.symm.trans h)) hvalid hneeds
  | unborn k' =>
    have hk : k' = k := by
      cases name <;> cases hslot <;> cases k' <;> first | rfl | cases hrole
    subst hk
    refine ⟨decide_eq_true (by rwa [hindex]), ?_⟩
    cases k' <;> exact ⟨rfl, Nat.lt_succ_self _⟩
  | dispatch pc =>
    cases name with
    | dispatcher j =>
      cases hslot
      exact dispatch_nears signalMain _ _ hflag hwaits hneeds
    | _ => cases hrole
  | write pc =>
    cases name with
    | writer j =>
      cases hslot
      exact write_nears _ rfl hflag
    | _ => cases hrole
  | read pc assigned =>
    cases name with
    | reader j =>
      cases hslot
      exact read_nears _ assigned _ hflag hwaits hneeds
    | _ => cases hrole
  | main pc => exact absurd hrole.symm hmain
  | application host => exact application_nears signalMain g _ hpos
  | connecting host | appending host => cases hneeds
  | connected host => exact ⟨.nothing, rfl, Nat.lt_succ_self _⟩
  | done k' => exact absurd hpos (lt_irrefl _)

end routines


/-! ## What a thread needs -/

/-- Nothing that a thread needs is lost. -/
def Pc.safe (lost : Object → Bool) (pc : Pc) : Bool := pc.needs.all fun o => !lost o

theorem safe_iff {lost : Object → Bool} {pc : Pc} : pc.safe lost = true ↔ ∀ o, pc.needs = some o → lost o = false := by
  unfold Pc.safe
  cases pc.needs <;> simp

theorem safe_of_needs {pc : Pc} (h : pc.needs = none) (lost : Object → Bool) : pc.safe lost = true :=
  safe_iff.mpr fun o ho => by rw [h] at ho; cases ho

theorem needs_of_safe {pc : Pc} (h : pc.safe (fun _ => true) = true) : pc.needs = none := by
  cases hneeds : pc.needs with
  | none => rfl
  | some o => cases safe_iff.mp h o hneeds

theorem needs_ne_readMain {pc : Pc} : pc.needs ≠ some (.mutex .readMain) := by
  cases pc with
  | enter site | inside site todo message => cases site <;> nofun
  | dispatch pc =>
    cases pc with
    | handle kind => cases kind <;> nofun
    | _ => nofun
  | read pc assigned => cases pc <;> nofun
  | _ => nofun

/-- More than the steps to where a thread needs nothing any more, if it makes them alone. -/
def Pc.relief : Pc → Nat
  | dispatch (.handle .handshake) => 5
  | enter .answerEnqueue | enter (.writeEnqueue _) => 4
  | inside .answerEnqueue todo _ | inside (.writeEnqueue _) todo _ => todo.length + 2
  | appending _ => 2
  | enter .answerFlag | enter (.writeFlag _) | enter (.connectFlag _) | read .accepted _ | connecting _ => 1
  | _ => 0

theorem needs_of_relief {pc : Pc} (h : pc.relief = 0) : pc.needs = none := by
  cases pc with
  | enter site | inside site todo message => cases site <;> first | rfl | cases h
  | dispatch pc =>
    cases pc with
    | handle kind => cases kind <;> first | rfl | cases h
    | _ => rfl
  | read pc assigned => cases pc <;> first | rfl | cases h
  | connecting host | appending host => cases h
  | _ => rfl

section needs
variable (cfg : BuildConfig) (signalMain : Bool) {users : Nat} (name : Name cfg users)

/-- A thread comes to need something only where it has no mutex. -/
theorem held_needs {pc : Pc} (hheld : pc.held ≠ []) :
    (routine cfg signalMain name pc).Keeps fun pc' => pc'.needs = none ∨ pc'.needs = pc.needs := by
  cases pc with
  | enter site => cases site <;> first | exact .inl rfl | exact absurd rfl hheld
  | inside site todo message =>
    cases todo with
    | nil =>
      cases site with
      | acquireSecond => exact .inl (resume_needs signalMain rfl)
      | answerEnqueue | writeEnqueue host => exact .inr rfl
      | _ => exact .inl rfl
    | cons op todo =>
      have hsame (message' : Bool) : (Pc.inside site todo message').needs = (Pc.inside site (op :: todo) message).needs := by
        cases site <;> rfl
      cases op with
      | enqueue q | dequeue q | setCode value => exact fun _ _ => .inr (hsame _)
      | signal c | broadcast c => exact .inr (hsame _)
  | dispatch pc =>
    cases pc with
    | waitTest message =>
      intro a g
      dsimp only
      split <;> exact .inl rfl
    | wait | wokenUnlock | unlock message => exact .inl rfl
    | _ => exact absurd rfl hheld
  | write pc =>
    cases pc with
    | waitTest message =>
      cases message with
      | true => exact fun _ _ => .inl rfl
      | false => exact .inl rfl
    | wokenTest =>
      intro a g
      dsimp only
      split <;> exact .inl rfl
    | unlock | unlockExit => exact .inl rfl
    | _ => exact absurd rfl hheld
  | read pc assigned =>
    cases pc with
    | waitTest | wokenTest =>
      intro a g
      dsimp only
      split <;> exact .inl rfl
    | wait | unlock => exact .inl rfl
    | _ => exact absurd rfl hheld
  | main pc =>
    cases pc with
    | spinTest i =>
      intro a g
      dsimp only
      split
      · split <;> exact .inl rfl
      · exact .inl rfl
    | spinUnlock initialized => cases initialized <;> exact .inl rfl
    | createReaders i =>
      intro a g
      dsimp only
      split <;> exact .inl rfl
    | readersWait i | readersUnlock | awaitWait | awaitUnlock => exact .inl rfl
    | clearTest q => exact fun _ _ => .inl rfl
    | clear q left => exact fun _ _ => by cases left <;> exact .inl rfl
    | clearUnlock q => cases q <;> exact .inl rfl
    | _ => exact absurd rfl hheld
  | unborn k | application host | connecting host | appending host | connected host | done k => exact absurd rfl hheld

/-- A thread that needs something that can be missed uses it with its next step, or needs it also after that. -/
theorem needs_keeps {pc : Pc} {o : Object} (hneeds : pc.needs = some o) (hobject : o ≠ .availableQueue) :
    (routine cfg signalMain name pc).Keeps (·.needs = some o) ∨
      (o = .freeContexts ∧ ∀ s : State cfg users, pc.sound s = s.shared.freeContexts) ∨
      ∃ m, o = .mutex m ∧ (routine cfg signalMain name pc).mutex = some m := by
  cases pc with
  | enter site =>
    cases site with
    | answerEnqueue | writeEnqueue host => exact .inl hneeds
    | answerFlag | writeFlag host | connectFlag host =>
      cases hneeds
      exact .inr (.inr ⟨_, rfl, rfl⟩)
    | _ => cases hneeds
  | inside site todo message =>
    cases site with
    | answerEnqueue | writeEnqueue host =>
      cases todo with
      | nil => exact .inl hneeds
      | cons op todo =>
        cases op with
        | enqueue q | dequeue q | setCode value => exact .inl fun _ _ => hneeds
        | signal c | broadcast c => exact .inl hneeds
    | _ => cases hneeds
  | dispatch pc =>
    cases pc with
    | handle kind =>
      cases kind with
      | handshake => exact .inl fun _ _ => hneeds
      | _ => cases hneeds
    | _ => cases hneeds
  | read pc assigned =>
    cases pc with
    | accepted =>
      cases hneeds
      exact .inr (.inl ⟨rfl, fun _ => rfl⟩)
    | _ => cases hneeds
  | connecting host =>
    cases hneeds
    exact .inr (.inl ⟨rfl, fun _ => rfl⟩)
  | appending host =>
    cases hneeds
    exact absurd rfl hobject
  | _ => cases hneeds

/-- By itself a thread gets to where it needs nothing. If it has a context to append and there is the queue for it, it lets the
read threads know. -/
theorem relief_nears {pc : Pc} (lost : Object → Bool) (g : Shared) (hvalid : pc.Valid) (hsafe : pc.safe lost = true)
    (happends : lost .availableQueue = false → g.availableQueue = true → lost (.mutex .inbound) = false)
    (hpos : 0 < pc.relief) :
    (routine cfg signalMain name pc).Nears (·.safe lost = true) (fun pc _ => pc.relief) False pc g := by
  cases pc with
  | enter site =>
    cases site with
    | answerEnqueue | writeEnqueue host => exact ⟨hsafe, Nat.lt_succ_self _⟩
    | answerFlag | writeFlag host | connectFlag host => exact ⟨rfl, Nat.zero_lt_one⟩
    | _ => exact absurd hpos (lt_irrefl _)
  | inside site todo message =>
    cases site with
    | answerEnqueue | writeEnqueue host =>
      cases todo with
      | nil => exact ⟨hsafe, Nat.lt_succ_self _⟩
      | cons op todo =>
        obtain ⟨rfl, rfl⟩ := eq_of_suffix_singleton hvalid
        exact ⟨.nothing, hsafe, Nat.lt_succ_self _⟩
    | _ => exact absurd hpos (lt_irrefl _)
  | dispatch pc =>
    cases pc with
    | handle kind =>
      cases kind with
      | handshake => exact ⟨.nothing, hsafe, Nat.lt_succ_self _⟩
      | _ => exact absurd hpos (lt_irrefl _)
    | _ => exact absurd hpos (lt_irrefl _)
  | read pc assigned =>
    cases pc with
    | accepted => exact ⟨.nothing, rfl, Nat.zero_lt_one⟩
    | _ => exact absurd hpos (lt_irrefl _)
  | connecting host => exact ⟨.nothing, rfl, Nat.zero_lt_one⟩
  | appending host =>
    refine ⟨.nothing, ?_⟩
    dsimp only
    split
    case isTrue havailable =>
      refine ⟨safe_iff.mpr fun o ho => ?_, Nat.lt_succ_self _⟩
      cases ho
      exact happends (safe_iff.mp hsafe _ rfl) havailable
    case isFalse => exact ⟨rfl, Nat.zero_lt_two⟩
  | _ => exact absurd hpos (lt_irrefl _)

theorem relief_wait {pc : Pc} (hpos : 0 < pc.relief) (c : Condition) (m : Mutex) (pc' : Pc) :
    routine cfg signalMain name pc ≠ .wait c m pc' := by
  intro h
  cases pc with
  | inside site todo message =>
    cases todo with
    | nil => cases h
    | cons op todo => cases op <;> cases h
  | dispatch pc | read pc assigned =>
    cases pc with
    | wait => exact lt_irrefl _ hpos
    | _ => cases h
  | write pc | main pc => exact lt_irrefl _ hpos
  | enter site | unborn k | application host | connecting host | appending host | connected host | done k => cases h

theorem needs_of_parkedOn {pc : Pc} (h : pc.parkedOn.isSome = true) : pc.needs = none := by
  cases pc with
  | dispatch pc => cases pc <;> first | rfl | cases h
  | read pc assigned => cases pc <;> first | rfl | cases h
  | write pc | main pc => rfl
  | _ => cases h

end needs

/-! ## The shutdown under way -/

section system
variable {cfg : BuildConfig} {signalMain : Bool} {users : Nat} {s s' : State cfg users}

/-- Steps of threads outside `still`; nobody but a write thread is woken for no reason. -/
def Allowed (still : Name cfg users → Prop) : LockOrder.Label (Name cfg users) Answer → Prop
  | .step name _ _ => ¬ still name
  | .spurious name => ∃ i, name = .writer i

/-- Allowed steps that use nothing destroyed. -/
def Going (signalMain : Bool) (still : Name cfg users → Prop) (s : State cfg users)
    (a : LockOrder.Label (Name cfg users) Answer) : Prop := Allowed still a ∧ Intact signalMain s a

/-- The threads in `still` are threads of the application that are in no call. -/
def Apart (still : Name cfg users → Prop) (s : State cfg users) : Prop :=
  ∀ name, still name → (∃ i, name = .user i) ∧ s.threads name = .running (.application .user)

/-- The shutdown runs, and no thread of a pool needs what is `lost` for it, which may be more than what is destroyed. -/
structure Underway (signalMain : Bool) (lost : Name cfg users → Object → Bool) (still : Name cfg users → Prop)
    (s : State cfg users) : Prop where
  reachable : (system cfg signalMain users).Reachable s
  unheld : Unheld s
  apart : Apart still s
  stopping : (s.threads .main).locals.stopping = true
  gone : ∀ name o, s.shared.gone o = true → lost name o = true
  safe : ∀ name k i, name.slot = some (k, i) → (s.threads name).locals.safe (lost name) = true

theorem parkedOn_of_stopping {pc : Pc} (h : pc.stopping = true) : pc.parkedOn = none := by
  cases pc with
  | main pc => cases pc <;> first | rfl | cases h
  | dispatch pc | write pc | read pc assigned => cases h
  | _ => rfl

/-- The shutdown does not sleep on a condition. -/
theorem running_of_stopping (h : (system cfg signalMain users).Reachable s)
    (hstop : (s.threads .main).locals.stopping = true) : ∃ pc, s.threads .main = .running pc := by
  have hparked := parked_of_reachable h .main
  have hnone := parkedOn_of_stopping hstop
  cases hat : s.threads .main with
  | running pc => exact ⟨pc, rfl⟩
  | blocked c m pc =>
    rw [hat] at hparked hnone
    cases hnone.symm.trans hparked
  | woken m pc =>
    rw [hat] at hparked hnone
    rw [Parked, show pc.parkedOn = none from hnone] at hparked
    cases hparked

theorem ahead_next (h : (system cfg signalMain users).Reachable s) (hstop : (s.threads .main).locals.stopping = true)
    {a : LockOrder.Label (Name cfg users) Answer} (hstep : next (routine cfg signalMain) s a = some s') :
    (s'.threads .main).locals.stopping = true ∧
      (s'.threads .main).locals.ahead cfg ≤ (s.threads .main).locals.ahead cfg := by
  cases a with
  | spurious j =>
    rw [LockOrder.spurious_locals hstep .main]
    exact ⟨hstop, le_rfl⟩
  | step j answer chosen =>
    by_cases hj : .main = j
    · subst hj
      obtain ⟨pc, hat⟩ := running_of_stopping h hstop
      have hvalid := valid_of_reachable h .main
      rw [hat] at hstop hvalid ⊢
      exact (stopping_keeps cfg signalMain hstop hvalid).step hat hstep
    · rw [LockOrder.next_locals hstep hj]
      exact ⟨hstop, le_rfl⟩

theorem ahead_moves (h : (system cfg signalMain users).Reachable s) (hstop : (s.threads .main).locals.stopping = true)
    {allowed : State cfg users → LockOrder.Label (Name cfg users) Answer → Prop}
    (hrun : Moves (routine cfg signalMain) allowed s s') :
    (s'.threads .main).locals.ahead cfg ≤ (s.threads .main).locals.ahead cfg := by
  obtain ⟨-, -, hle⟩ := hrun.keeps (P := fun t => (system cfg signalMain users).Reachable t ∧
      (t.threads .main).locals.stopping = true ∧ (t.threads .main).locals.ahead cfg ≤ (s.threads .main).locals.ahead cfg)
    (fun t a t' ht _ hstep => by
      obtain ⟨hstop', hle⟩ := ahead_next ht.1 ht.2.1 hstep
      exact ⟨.step ht.1 hstep, hstop', hle.trans ht.2.2⟩) ⟨h, hstop, le_rfl⟩
  exact hle

section apart
variable {still : Name cfg users → Prop} {lost : Name cfg users → Object → Bool}

theorem Apart.step (hs : Apart still s) {a : LockOrder.Label (Name cfg users) Answer} (ha : ¬ still a.thread)
    (hstep : next (routine cfg signalMain) s a = some s') : Apart still s' := by
  intro name hname
  obtain ⟨huser, hat⟩ := hs name hname
  have hne : name ≠ a.thread := fun heq => ha (heq ▸ hname)
  refine ⟨huser, ?_⟩
  cases a with
  | step j answer chosen =>
    rw [LockOrder.next_threads hstep hne (fun c m pc => by rw [hat]; exact nofun), hat]
  | spurious j =>
    cases LockOrder.next_effect hstep with
    | spurious _ c m pc hat' => exact (Function.update_of_ne hne _ _).trans hat

theorem Apart.main (hs : Apart still s) : ¬ still .main := by
  intro hstill
  obtain ⟨⟨j, hj⟩, -⟩ := hs .main hstill
  cases hj

theorem Apart.pool (hs : Apart still s) {name : Name cfg users} {k : Kind} {i : Nat} (hslot : name.slot = some (k, i)) :
    ¬ still name := by
  intro hstill
  obtain ⟨⟨j, rfl⟩, -⟩ := hs name hstill
  cases hslot

theorem safe_mono {lost lost' : Object → Bool} (hless : ∀ o, lost o = true → lost' o = true) {pc : Pc}
    (h : pc.safe lost' = true) : pc.safe lost = true := by
  refine safe_iff.mpr fun o ho => ?_
  by_contra hnot
  cases (hless o (Bool.eq_true_of_not_eq_false hnot)).symm.trans (safe_iff.mp h o ho)

theorem gone_of_spared {g g' : Shared} (h : Spared g g') (o : Object) : g'.gone o = g.gone o := by
  cases o with
  | freeContexts => exact congrArg (!·) h.1
  | availableQueue => rfl
  | mutex m => exact congrFun h.2.2 m

/-! ## Steps that use nothing destroyed -/

/-- A thread of a pool goes on from its wait with the mutex of its pool. -/
theorem held_of_parkedOn {name : Name cfg users} {pc : Pc} (hrole : pc.role = name.role cfg) {k : Kind} {i : Nat}
    (hslot : name.slot = some (k, i)) (h : pc.parkedOn.isSome = true) : pc.held = [k.mutex] := by
  cases name with
  | main | user j => cases hslot
  | dispatcher j | writer j | reader j =>
    cases hslot
    cases pc with
    | dispatch pc | write pc | read pc assigned => cases pc <;> first | (cases h; first | rfl | cases hrole) | cases h
    | main pc => cases hrole
    | _ => cases h

theorem stage_lt (k : Kind) : k.stage < k.mutex.destroyedAt := by
  cases k <;> decide

/-- The steps of a thread of a pool that needs nothing destroyed use nothing destroyed. -/
theorem pool_intact (h : (system cfg signalMain users).Reachable s) (hs : Unheld s) {name : Name cfg users} {k : Kind} {i : Nat}
    (hslot : name.slot = some (k, i)) (hsafe : (s.threads name).locals.safe s.shared.gone = true) (answer : Answer)
    (chosen : Option (Name cfg users)) : Intact signalMain s (.step name answer chosen) := by
  have hruns := runs_of_reachable h name
  have howned := owned_of_reachable h name
  have hlive {m : Mutex} (hlt : k.stage < m.destroyedAt) (hnot : (s.threads name).locals ≠ .done (some k)) :
      s.shared.destroyed m = false := destroyed_of_stage h ((stage_le h hslot hnot).trans_lt hlt)
  cases hat : s.threads name with
  | blocked c m pc => simp [Intact, intact, hat]
  | woken m pc =>
    have hparked := parked_of_reachable h name
    rw [hat] at hruns howned hparked hlive
    have hheld := held_of_parkedOn hruns.1 hslot hparked
    obtain rfl : m = k.mutex := List.mem_singleton.mp (hheld ▸ howned.1 ▸ List.mem_singleton_self m)
    refine (intact_woken hat).mpr (hlive (stage_lt k) fun hdone => ?_)
    rw [show pc = .done (some k) from hdone] at hheld
    cases hheld
  | running pc =>
    rw [hat] at hruns howned hsafe hlive
    refine (intact_running hat).mpr ⟨?_, fun m hm => ?_⟩
    · have hcontexts (hneeds : pc.needs = some .freeContexts) : s.shared.freeContexts = true := by
        simpa [Shared.gone] using safe_iff.mp hsafe _ hneeds
      cases pc with
      | connecting host => exact hcontexts rfl
      | read pc assigned =>
        cases pc with
        | accepted => exact hcontexts rfl
        | _ => rfl
      | main pc => cases name <;> cases hslot <;> cases hruns.1
      | _ => rfl
    · obtain hmem | hlt | ⟨hneeds, -⟩ := pool_mutex cfg signalMain hslot hruns.1 hm
      · exact hs.alive ((howned m).mp hmem)
      · refine hlive hlt fun hdone => ?_
        rw [show pc = .done (some k) from hdone] at hm
        cases hm
      · exact safe_iff.mp hsafe _ hneeds

/-- While nobody else has a mutex, a step of the shutdown uses nothing destroyed. -/
theorem main_intact (h : (system cfg signalMain users).Reachable s) (hstop : (s.threads .main).locals.stopping = true)
    (hsolo : Solo s .main) (answer : Answer) (chosen : Option (Name cfg users)) :
    Intact signalMain s (.step .main answer chosen) := by
  obtain ⟨pc, hat⟩ := running_of_stopping h hstop
  have hrole := role_of_reachable h .main
  have howned := owned_of_reachable h .main
  rw [hat] at hrole howned hstop
  refine (intact_running hat).mpr ⟨?_, fun m hm => destroyed_of_stage h ?_⟩
  · cases pc with
    | main pc =>
      cases pc with
      | destroy m =>
        refine Option.isNone_iff_eq_none.mpr (hsolo.free fun hm => ?_)
        cases (howned m).mpr hm
      | _ => rfl
    | read pc assigned | connecting host => cases hstop
    | _ => rfl
  · rw [hat]
    exact main_mutex cfg signalMain hrole hm

/-- A thread that has a mutex makes a step. -/
theorem Underway.holder_step (hs : Underway signalMain lost still s) {name : Name cfg users} (hname : ¬ still name) {m : Mutex}
    (hheld : s.holder m = some name) {answer : Answer} {chosen : Option (Name cfg users)}
    (hstep : next (routine cfg signalMain) s (.step name answer chosen) = some s') :
    Going signalMain still s (.step name answer chosen) ∧ Underway signalMain lost still s' := by
  have hintact := holder_intact hs.reachable hs.unheld hheld answer chosen
  have hspared := holder_spared hs.reachable hheld hstep
  refine ⟨⟨hname, hintact⟩, .step hs.reachable hstep, hs.unheld.step hintact hstep,
    hs.apart.step (a := .step name answer chosen) hname hstep,
    (ahead_next hs.reachable hs.stopping hstep).1, fun name' o ho => hs.gone name' o ?_, fun name' k i hslot => ?_⟩
  · rwa [gone_of_spared hspared] at ho
  · have hsafe := hs.safe name' k i hslot
    by_cases hne : name' = name
    · subst hne
      obtain ⟨pc, hat, hm⟩ := (owned_of_reachable hs.reachable).running hheld
      rw [hat] at hsafe
      obtain hneeds | hneeds := (held_needs cfg signalMain name' (List.ne_nil_of_mem hm)).step hat hstep
      · exact safe_of_needs hneeds _
      · exact safe_iff.mpr fun o ho => safe_iff.mp hsafe o (hneeds ▸ ho)
    · rw [LockOrder.next_locals hstep hne]
      exact hsafe

/-- A thread of a pool makes a step, or is woken, and needs nothing lost after it. -/
theorem Underway.pool_step (hs : Underway signalMain lost still s) {name : Name cfg users} {k : Kind} {i : Nat}
    (hslot : name.slot = some (k, i)) {a : LockOrder.Label (Name cfg users) Answer} (hthread : a.thread = name)
    (hstep : next (routine cfg signalMain) s a = some s') (hsafe : (s'.threads name).locals.safe (lost name) = true) :
    Intact signalMain s a ∧ Underway signalMain lost still s' := by
  have hname : name ≠ .main := by
    rintro rfl
    cases hslot
  have hintact : Intact signalMain s a := by
    cases a with
    | spurious j => rfl
    | step j answer chosen =>
      obtain rfl : j = name := hthread
      exact pool_intact hs.reachable hs.unheld hslot (safe_mono (hs.gone j) (hs.safe j k i hslot)) answer chosen
  have hspared : Spared s.shared s'.shared := by
    cases a with
    | spurious j =>
      cases LockOrder.next_effect hstep with
      | spurious => exact Spared.refl _
    | step j answer chosen =>
      obtain rfl : j = name := hthread
      refine LockOrder.Instr.Acts.step (R := Spared) (fun pc hat => routine_spared cfg signalMain j ?_) Spared.refl hstep
      have hrole := role_of_reachable hs.reachable j
      rw [hat] at hrole
      cases pc with
      | main pc => cases j <;> first | exact absurd rfl hname | cases hrole
      | _ => rfl
  have hlocals (name' : Name cfg users) (hne : name' ≠ name) : (s'.threads name').locals = (s.threads name').locals := by
    cases a with
    | spurious j => exact LockOrder.spurious_locals hstep name'
    | step j answer chosen => exact LockOrder.next_locals hstep fun heq => hne (heq.trans hthread)
  refine ⟨hintact, .step hs.reachable hstep, hs.unheld.step hintact hstep, hs.apart.step (hthread ▸ hs.apart.pool hslot) hstep,
    (ahead_next hs.reachable hs.stopping hstep).1, fun name' o ho => hs.gone name' o ?_, fun name' k' i' hslot' => ?_⟩
  · rwa [gone_of_spared hspared] at ho
  · by_cases hne : name' = name
    · rw [hne]
      exact hsafe
    · rw [hlocals name' hne]
      exact hs.safe name' k' i' hslot'

def allMutexes : List Mutex :=
  [.dispatch, .dispatchMain, .outbound, .inbound, .readMain, .queue .inbound, .queue .outbound]

theorem mem_allMutexes (m : Mutex) : m ∈ allMutexes := by
  cases m with
  | queue q => cases q <;> decide
  | _ => decide

/-- All mutexes can become free without a step of threads that have none. -/
theorem Underway.freed (hs : Underway signalMain lost still s) (idle : Name cfg users → Prop)
    (hstill : ∀ name, still name → idle name)
    (hidle : ∀ name, idle name → ∃ pc, s.threads name = .running pc ∧ pc.held = []) :
    ∃ s', Moves (routine cfg signalMain) (Going signalMain still) s s' ∧ Underway signalMain lost still s' ∧
      (∀ m, s'.holder m = none) ∧ ∀ name, idle name → s'.threads name = s.threads name := by
  have howned := owned_of_reachable hs.reachable
  have hnone : ∀ name, idle name → Awake s name ∧ ∀ m, s.holder m ≠ some name := by
    intro name hname
    obtain ⟨pc, hat, hheld⟩ := hidle name hname
    have hi := howned name
    rw [hat] at hi
    refine ⟨fun c m pc' => by rw [hat]; exact nofun, fun m hm => ?_⟩
    have hmem := (hi m).mpr hm
    rw [hheld] at hmem
    cases hmem
  obtain ⟨s', hrun, hfree, -⟩ := LockOrder.all_released Mutex.rank_le (routine_follows cfg signalMain)
    (routine_shrinks cfg signalMain) howned idle hnone allMutexes
  obtain ⟨hmoves, hs'⟩ := hrun.moves (P := Underway signalMain lost still)
    (fun t name m answer chosen t' ht hname hheld => ht.holder_step (fun h => hname (hstill name h)) hheld) hs
  exact ⟨s', hmoves, hs', fun m => hfree m (mem_allMutexes m), fun name hname => hrun.threads hname (hnone name hname).1⟩

/-! ## Past what the threads need -/

/-- While there is the queue of the available contexts, who appends to it can let the read threads know. -/
def Appends (lost : Name cfg users → Object → Bool) (s : State cfg users) : Prop :=
  ∀ name, lost name .availableQueue = false → s.shared.availableQueue = true → lost name (.mutex .inbound) = false

theorem routine_available (name : Name cfg users) (pc : Pc) :
    (routine cfg signalMain name pc).Acts fun g r => r.1.availableQueue = true → g.availableQueue = true := by
  cases hpc : pc.destroying with
  | false => exact (routine_spared cfg signalMain name hpc).mono fun g r hspared h => hspared.2.1.symm.trans h
  | true =>
    cases pc with
    | main pc =>
      cases pc with
      | shutdownContexts | destroy m => exact fun _ _ h => h
      | shutdownAvailable => exact fun _ _ h => by cases h
      | _ => cases hpc
    | _ => cases hpc

theorem Appends.step (hs : Appends lost s) {a : LockOrder.Label (Name cfg users) Answer}
    (hstep : next (routine cfg signalMain) s a = some s') : Appends lost s' := by
  have havailable : s'.shared.availableQueue = true → s.shared.availableQueue = true := by
    cases a with
    | spurious j =>
      cases LockOrder.next_effect hstep with
      | spurious => exact id
    | step j answer chosen =>
      exact LockOrder.Instr.Acts.step (R := fun g g' => g'.availableQueue = true → g.availableQueue = true)
        (fun pc _ => routine_available j pc) (fun _ h => h) hstep
  exact fun name hlost h => hs name hlost (havailable h)

theorem Appends.moves (hs : Appends lost s) (hmoves : Moves (routine cfg signalMain) (Going signalMain still) s s') :
    Appends lost s' :=
  hmoves.keeps (fun _ _ _ ht _ hstep => ht.step hstep) hs

theorem Appends.relieved (hs : Appends lost s) (name : Name cfg users) :
    Appends (Function.update lost name fun _ => true) s := by
  intro name' hlost havailable
  by_cases hne : name' = name
  · subst hne
    rw [Function.update_self] at hlost
    cases hlost
  · rw [Function.update_of_ne hne] at hlost ⊢
    exact hs name' hlost havailable

/-- A thread that needs nothing is safe from everything. -/
theorem Underway.relieved (hs : Underway signalMain lost still s) {name : Name cfg users}
    (hneeds : name.slot.isSome = true → (s.threads name).locals.needs = none) :
    Underway signalMain (Function.update lost name fun _ => true) still s where
  reachable := hs.reachable
  unheld := hs.unheld
  apart := hs.apart
  stopping := hs.stopping
  gone name' o ho := by
    by_cases hne : name' = name
    · subst hne
      rw [Function.update_self]
    · rw [Function.update_of_ne hne]
      exact hs.gone name' o ho
  safe name' k i hslot := by
    by_cases hne : name' = name
    · subst hne
      exact safe_of_needs (hneeds (by rw [hslot]; rfl)) _
    · rw [Function.update_of_ne hne]
      exact hs.safe name' k i hslot

/-- A thread of a pool is let past what it needs. -/
theorem Underway.relieve (hs : Underway signalMain lost still s) (happends : Appends lost s) (name : Name cfg users) :
    ∃ s', Moves (routine cfg signalMain) (Going signalMain still) s s' ∧
      Underway signalMain (Function.update lost name fun _ => true) still s' := by
  cases hslot : name.slot with
  | none => exact ⟨s, .refl, hs.relieved fun h => by rw [hslot] at h; cases h⟩
  | some slot =>
    obtain ⟨k, i⟩ := slot
    -- first all threads give up their mutexes
    obtain ⟨s₁, hmoves₁, hs₁, hfree, -⟩ := hs.freed still (fun _ h => h) fun n hn => ⟨_, (hs.apart n hn).2, rfl⟩
    by_cases hneeds : (s₁.threads name).locals.needs = none
    · exact ⟨s₁, hmoves₁, hs₁.relieved fun _ => hneeds⟩
    have hawake : Awake s₁ name := by
      intro c m pc hat
      have hparked := parked_of_reachable hs₁.reachable name
      rw [hat] at hneeds hparked
      exact hneeds (needs_of_parkedOn (Option.isSome_iff_exists.mpr ⟨c, hparked⟩))
    -- then the thread goes on by itself
    obtain ⟨s₂, pc, hmoves₂, hs₂, hat, -, hzero⟩ := LockOrder.arrives (·.safe (lost name) = true) (fun pc _ => pc.relief)
      False (Going signalMain still) (i := name)
      (P := fun t => Underway signalMain lost still t ∧ Awake t name ∧ Appends lost t) (routine_follows cfg signalMain)
      (fun t a t' ht hfar hthread hwakes hstep hsafe => by
        obtain ⟨hintact, ht'⟩ := ht.1.pool_step hslot hthread hstep hsafe
        cases a with
        | spurious j => exact (hwakes (congrArg _ hthread)).elim
        | step j answer chosen =>
          obtain rfl : j = name := hthread
          exact ⟨⟨ht.1.apart.pool hslot, hintact⟩, ht',
            LockOrder.next_awake (fun pc hat => relief_wait cfg signalMain j (hfar pc hat)) hstep, ht.2.2.step hstep⟩)
      (fun t pc ht hsafe hat hpos => by
        have hvalid := valid_of_reachable ht.1.reachable name
        rw [hat] at hvalid
        exact relief_nears cfg signalMain name (lost name) t.shared hvalid hsafe (ht.2.2 name) hpos)
      (fun t c m pc ht hat => (ht.2.1 c m pc hat).elim) (fun t ht => owned_of_reachable ht.1.reachable)
      ⟨hs₁, hawake, happends.moves hmoves₁⟩
      (hs₁.safe name k i hslot) (fun m j hm => by rw [hfree m] at hm; cases hm)
    exact ⟨s₂, hmoves₁.trans hmoves₂, hs₂.1.relieved fun _ => by rw [hat]; exact needs_of_relief hzero⟩

/-- All threads of the pools are let past what they need. -/
theorem Underway.relieve_all (hs : Underway signalMain lost still s) (happends : Appends lost s) :
    ∃ s', Moves (routine cfg signalMain) (Going signalMain still) s s' ∧
      Underway signalMain (fun _ _ => true) still s' := by
  have hlist (names : List (Name cfg users)) : ∃ s' lost', Moves (routine cfg signalMain) (Going signalMain still) s s' ∧
      Underway signalMain lost' still s' ∧ Appends lost' s' ∧ ∀ name ∈ names, lost' name = fun _ => true := by
    induction names with
    | nil => exact ⟨s, lost, .refl, hs, happends, nofun⟩
    | cons name names ih =>
      obtain ⟨s₁, lost₁, hmoves₁, hs₁, happends₁, hlost⟩ := ih
      obtain ⟨s₂, hmoves₂, hs₂⟩ := hs₁.relieve happends₁ name
      refine ⟨s₂, _, hmoves₁.trans hmoves₂, hs₂, (happends₁.moves hmoves₂).relieved name, fun name' hname' => ?_⟩
      by_cases hne : name' = name
      · rw [hne, Function.update_self]
      · rw [Function.update_of_ne hne]
        exact hlost name' ((List.mem_cons.mp hname').resolve_left hne)
  obtain ⟨s', lost', hmoves, hs', -, hlost⟩ := hlist Finset.univ.toList
  obtain rfl : lost' = fun _ _ => true := funext fun name => hlost name (Finset.mem_toList.mpr (Finset.mem_univ name))
  exact ⟨s', hmoves, hs'⟩

end apart

/-! ## From one join to the next -/

theorem done_of_distance {name : Name cfg users} {k : Kind} {i : Nat} (hslot : name.slot = some (k, i)) {pc : Pc}
    {g : Shared} (hrole : pc.role = name.role cfg) (hzero : pc.distance g = 0) : pc = .done (some k) := by
  cases name with
  | main | user j => cases hslot
  | dispatcher j | writer j | reader j =>
    cases hslot
    cases pc with
    | enter site => cases hzero
    | inside site todo message => cases todo <;> cases hzero
    | unborn k' => cases hzero
    | dispatch pc => cases pc <;> cases hzero
    | write pc =>
      cases pc with
      | waitTest message | write message => cases message <;> cases hzero
      | _ => cases hzero
    | read pc assigned => cases pc <;> cases hzero
    | main pc => cases hrole
    | application host => cases host <;> cases hrole <;> cases hzero
    | connecting host | appending host | connected host => cases hzero
    | done k' =>
      cases k' with
      | none => cases hrole
      | some k' => cases k' <;> first | rfl | cases hrole

theorem roused_join {k : Kind} (i : Nat) (hk : k ≠ .writer) : (Pc.main (.join k i)).roused k = true := by
  cases k <;> first | rfl | exact absurd rfl hk

theorem waits_writer {j : Fin cfg.outboundCount} {pc : Pc} (hrole : pc.role = (Name.writer j : Name cfg users).role cfg) :
    pc.waits = false := by
  cases pc with
  | dispatch pc | read pc assigned => cases hrole
  | _ => rfl

section returns
variable {still : Name cfg users → Prop} {lost : Name cfg users → Object → Bool}

/-- The shutdown makes a step that uses nothing destroyed, and destroys nothing that a thread of a pool needs. -/
theorem Underway.main_step (hs : Underway signalMain lost still s) {answer : Answer}
    {chosen : Option (Name cfg users)} (hintact : Intact signalMain s (.step .main answer chosen))
    (hstep : next (routine cfg signalMain) s (.step .main answer chosen) = some s')
    (hgone : ∀ name o, s'.shared.gone o = true → lost name o = true) :
    Going signalMain still s (.step .main answer chosen) ∧ Underway signalMain lost still s' where
  left := ⟨hs.apart.main, hintact⟩
  right :=
    { reachable := .step hs.reachable hstep
      unheld := hs.unheld.step hintact hstep
      apart := hs.apart.step (a := .step .main answer chosen) hs.apart.main hstep
      stopping := (ahead_next hs.reachable hs.stopping hstep).1
      gone := hgone
      safe := fun name k i hslot => by
        have hname : name ≠ .main := by
          rintro rfl
          cases hslot
        rw [LockOrder.next_locals hstep hname]
        exact hs.safe name k i hslot }

/-- The shutdown does by itself what is no matter of the mutexes. -/
theorem Underway.main_act (hs : Underway signalMain lost still s) (hsolo : Solo s .main) {pc : Pc}
    {f : Answer → Shared → Shared × Pc} (hat : s.threads .main = .running pc)
    (hinstr : routine cfg signalMain (Name.main : Name cfg users) pc = .act f)
    (hgone : ∀ name o, (f .nothing s.shared).1.gone o = true → lost name o = true) :
    ∃ s', Moves (routine cfg signalMain) (Going signalMain still) s s' ∧ Underway signalMain lost still s' ∧ Solo s' .main ∧
      s'.threads .main = .running (f .nothing s.shared).2 ∧ s'.shared = (f .nothing s.shared).1 := by
  have hstep : next (routine cfg signalMain) s (.step .main .nothing none) =
      some ({ s with shared := (f .nothing s.shared).1 }.goto .main (f .nothing s.shared).2) := by
    simp only [next, hat, hinstr]
  have hintact := main_intact hs.reachable hs.stopping hsolo .nothing none
  obtain ⟨hgoing, hs'⟩ := hs.main_step hintact hstep hgone
  exact ⟨_, .single ⟨_, hgoing, hstep⟩, hs', hsolo.step hstep, Function.update_self Name.main _ s.threads, rfl⟩

theorem at_shutdownAvailable {pc : Pc} {n : Nat} (hstage : pc.stage = n) (hge : 5 ≤ n) (hle : n ≤ 6) :
    pc = .main (.destroy .readMain) ∨ pc = .main .shutdownAvailable := by
  unfold Pc.stage at hstage
  split at hstage <;> first | exact .inl rfl | exact .inr rfl | omega

/-- Between the destruction of `inbound_lock` and that of the queue of the available contexts the shutdown goes on first. -/
theorem Underway.appends (hs : Underway signalMain lost still s) (hmain : ∀ name, lost name (.mutex .readMain) = true)
    (hinbound : ∀ name, lost name (.mutex .inbound) = s.shared.destroyed .inbound) :
    ∃ s', Moves (routine cfg signalMain) (Going signalMain still) s s' ∧ Underway signalMain lost still s' ∧
      Appends lost s' := by
  by_cases hopen : s.shared.availableQueue = true → s.shared.destroyed .inbound = false
  · exact ⟨s, .refl, hs, fun name _ havailable => (hinbound name).trans (hopen havailable)⟩
  obtain ⟨havailable, hdestroyed⟩ := Classical.not_imp.mp hopen
  have hdestroyed : s.shared.destroyed .inbound = true := Bool.eq_true_of_not_eq_false hdestroyed
  obtain ⟨pc, hat⟩ := running_of_stopping hs.reachable hs.stopping
  have hgone := gone_of_reachable hs.reachable
  rw [hat] at hgone
  have hge : 5 ≤ pc.stage := of_decide_eq_true ((hgone.mutexes .inbound).symm.trans hdestroyed)
  have hpc := at_shutdownAvailable rfl hge (of_decide_eq_true (hgone.available.symm.trans havailable))
  have hheld : pc.held = [] := by obtain rfl | rfl := hpc <;> rfl
  obtain ⟨s₁, hmoves₁, hs₁, hfree, hsame⟩ := hs.freed (fun n => still n ∨ n = .main) (fun n hn => .inl hn) fun n hn => by
    obtain hn | rfl := hn
    · exact ⟨_, (hs.apart n hn).2, rfl⟩
    · exact ⟨pc, hat, hheld⟩
  have hat₁ : s₁.threads .main = .running pc := (hsame .main (.inr rfl)).trans hat
  have hsolo₁ : Solo s₁ .main := fun m j hm => by rw [hfree m] at hm; cases hm
  obtain ⟨s₂, hmoves₂, hs₂, hsolo₂, hat₂⟩ : ∃ s₂, Moves (routine cfg signalMain) (Going signalMain still) s₁ s₂ ∧
      Underway signalMain lost still s₂ ∧ Solo s₂ .main ∧ s₂.threads .main = .running (.main .shutdownAvailable) := by
    obtain rfl | rfl := hpc
    · obtain ⟨s₂, hmoves₂, hs₂, hsolo₂, hat₂, -⟩ := hs₁.main_act hsolo₁ hat₁ rfl fun name o ho => by
        by_cases heq : o = .mutex .readMain
        · rw [heq]
          exact hmain name
        · refine hs₁.gone name o ?_
          cases o with
          | freeContexts | availableQueue => exact ho
          | mutex m => exact (Function.update_of_ne (fun h => heq (congrArg _ h)) _ _).symm.trans ho
      exact ⟨s₂, hmoves₂, hs₂, hsolo₂, hat₂⟩
    · exact ⟨s₁, .refl, hs₁, hsolo₁, hat₁⟩
  obtain ⟨s₃, hmoves₃, hs₃, -, -, hshared⟩ := hs₂.main_act hsolo₂ hat₂ rfl fun name o ho =>
    hs₂.gone name o (by cases o <;> exact ho)
  refine ⟨s₃, (hmoves₁.trans hmoves₂).trans hmoves₃, hs₃, fun name _ hqueue => ?_⟩
  rw [hshared] at hqueue
  cases hqueue

/-- The thread that the shutdown joins comes to its end, and the shutdown goes on to the next one. -/
theorem joined_next (hs : Underway signalMain (fun _ _ => true) still s) {k : Kind} {i : Nat} (hlt : i < count cfg k)
    (hat : s.threads .main = .running (.main (.join k i))) :
    ∃ s', Moves (routine cfg signalMain) (Going signalMain still) s s' ∧ Underway signalMain (fun _ _ => true) still s' ∧
      s'.threads .main = .running (.main (.join k (i + 1))) := by
  obtain ⟨name, hslot⟩ : ∃ name : Name cfg users, name.slot = some (k, i) := by
    cases k with
    | dispatcher => exact ⟨.dispatcher ⟨i, hlt⟩, rfl⟩
    | writer => exact ⟨.writer ⟨i, hlt⟩, rfl⟩
    | reader => exact ⟨.reader ⟨i, hlt⟩, rfl⟩
  have hname : name ≠ .main := by
    rintro rfl
    cases hslot
  -- first the others give up their mutexes
  obtain ⟨s₁, hmoves₁, hs₁, hfree, hsame⟩ := hs.freed (fun n => still n ∨ n = .main) (fun n hn => .inl hn) fun n hn => by
    obtain hn | rfl := hn
    · exact ⟨_, (hs.apart n hn).2, rfl⟩
    · exact ⟨_, hat, rfl⟩
  have hat₁ : s₁.threads .main = .running (.main (.join k i)) := (hsame .main (.inr rfl)).trans hat
  -- then the thread goes to its end by itself
  let P (t : State cfg users) : Prop :=
    Underway signalMain (fun _ _ => true) still t ∧ t.threads .main = .running (.main (.join k i))
  have hmain {t t' : State cfg users} {a : LockOrder.Label (Name cfg users) Answer} (ht : P t) (ha : a.thread = name)
      (hstep : next (routine cfg signalMain) t a = some t') : t'.threads .main = .running (.main (.join k i)) := by
    have hne : .main ≠ a.thread := fun heq => hname (ha.symm.trans heq.symm)
    cases a with
    | step j answer chosen =>
      rw [LockOrder.next_threads hstep hne (fun c m pc => by rw [ht.2]; exact nofun), ht.2]
    | spurious j =>
      cases LockOrder.next_effect hstep with
      | spurious _ c m pc hat' => exact (Function.update_of_ne hne _ _).trans ht.2
  have hkind (t : State cfg users) (ht : P t) : t.shared.flag k = true := by
    rw [(told_of_reachable ht.1.reachable).flag k, ht.2]
    cases k <;> rfl
  have hwaits (t : State cfg users) (ht : P t) : (t.threads name).locals.waits = false := by
    by_cases hk : k = .writer
    · subst hk
      cases name with
      | writer j => exact waits_writer (runs_of_reachable ht.1.reachable _).1
      | _ => cases hslot
    · exact (roused_of_reachable ht.1.reachable name k i hslot (by rw [ht.2]; exact roused_join i hk)).2
  obtain ⟨s₂, pc, hmoves₂, hP₂, hat₂, -, hzero⟩ := LockOrder.arrives (·.needs = none) Pc.distance (k = .writer)
    (Going signalMain still) (i := name) (P := P) (routine_follows cfg signalMain)
    (fun t a t' ht _ hthread hwakes hstep hneeds => by
      obtain ⟨hintact, ht'⟩ := ht.1.pool_step hslot hthread hstep (safe_of_needs hneeds _)
      refine ⟨⟨?_, hintact⟩, ht', hmain ht hthread hstep⟩
      cases a with
      | step j answer chosen =>
        obtain rfl : j = name := hthread
        exact ht.1.apart.pool hslot
      | spurious j =>
        obtain rfl : j = name := hthread
        obtain rfl := hwakes rfl
        cases j with
        | writer j => exact ⟨j, rfl⟩
        | _ => cases hslot)
    (fun t pc ht hneeds hpc hpos => by
      have hruns := runs_of_reachable ht.1.reachable name
      have hwait := hwaits t ht
      have hborn := born_of_reachable ht.1.reachable k
      rw [hpc] at hruns hwait
      rw [ht.2, due_of_not_creating cfg rfl] at hborn
      exact pool_nears cfg signalMain hslot hruns.1 hruns.2 (hkind t ht) hwait (hlt.trans_le hborn) hneeds hpos)
    (fun t c m pc ht hpc => by
      by_contra hk
      exact (roused_of_reachable ht.1.reachable name k i hslot (by rw [ht.2]; exact roused_join i hk)).1 c m pc hpc)
    (fun t ht => owned_of_reachable ht.1.reachable) ⟨hs₁, hat₁⟩ (needs_of_safe (hs₁.safe name k i hslot))
    (fun m j hm => by rw [hfree m] at hm; cases hm)
  -- so the shutdown has joined it
  obtain ⟨hs₂, hmain₂⟩ := hP₂
  have hruns₂ := runs_of_reachable hs₂.reachable name
  rw [hat₂] at hruns₂
  have hended : s₂.shared.ended k i = true :=
    ended_of_done hs₂.reachable hslot (by rw [hat₂]; exact done_of_distance hslot hruns₂.1 hzero)
  have hjoin : routine cfg signalMain (Name.main : Name cfg users) (.main (.join k i)) =
      .await (fun g => g.ended k i) (.main (.join k (i + 1))) := if_pos hlt
  have hstep : next (routine cfg signalMain) s₂ (.step .main .nothing none) =
      some (s₂.goto .main (.main (.join k (i + 1)))) := by
    simp only [next, hmain₂, hjoin, if_pos hended]
  have hintact : Intact signalMain s₂ (.step .main .nothing none) := by
    refine (intact_running hmain₂).mpr ⟨rfl, fun m hm => ?_⟩
    rw [hjoin] at hm
    cases hm
  obtain ⟨hgoing, hs₃⟩ := hs₂.main_step hintact hstep fun _ _ _ => rfl
  exact ⟨_, (hmoves₁.trans hmoves₂).tail ⟨_, hgoing, hstep⟩, hs₃, Function.update_self Name.main _ s₂.threads⟩

/-! ## To the end of the shutdown -/

theorem done_or_join {pc : Pc} {g : Shared} (hstop : pc.stopping = true) (hvalid : pc.Valid) (hzero : pc.shutdownDistance cfg g = 0) :
    pc = .done none ∨ ∃ k i, pc = .main (.join k i) ∧ i < count cfg k := by
  cases pc with
  | enter site => cases hzero
  | inside site todo message =>
    cases site with
    | stopWriters | stopReaders | stopDispatchers | dispatchersStopped => cases hzero
    | _ => cases todo <;> cases hstop
  | main pc =>
    cases pc with
    | join k i =>
      by_cases hlt : i < count cfg k
      · exact .inr ⟨k, i, rfl, hlt⟩
      · simp only [Pc.shutdownDistance, if_neg hlt] at hzero
        cases k <;> cases hzero
    | setFlag k => cases k <;> cases hzero
    | shutdownContexts | shutdownAvailable => cases hzero
    | destroy m =>
      cases m with
      | dispatchMain => exact hvalid.elim
      | queue q => cases q <;> cases hzero
      | _ => cases hzero
    | clearLock q | clearTest q | clear q left | clearUnlock q => cases q <;> cases hzero
    | _ => cases hstop
  | done k =>
    cases k with
    | none => exact .inl rfl
    | some k => cases hstop
  | _ => cases hstop

/-- The shutdown gets to its next join, or to its end. -/
theorem shutdown_goes (hs : Underway signalMain (fun _ _ => true) still s) :
    ∃ s' pc, Moves (routine cfg signalMain) (Going signalMain still) s s' ∧
      Underway signalMain (fun _ _ => true) still s' ∧ s'.threads .main = .running pc ∧
      pc.ahead cfg ≤ (s.threads .main).locals.ahead cfg ∧
      (pc = .done none ∨ ∃ k i, pc = .main (.join k i) ∧ i < count cfg k) := by
  obtain ⟨s₁, hmoves₁, hs₁, hfree, -⟩ := hs.freed still (fun _ h => h) fun name hname => ⟨_, (hs.apart name hname).2, rfl⟩
  have hsolo₁ : Solo s₁ .main := fun m j hm => by rw [hfree m] at hm; cases hm
  let P (t : State cfg users) : Prop :=
    Underway signalMain (fun _ _ => true) still t ∧ Solo t .main ∧
      (t.threads .main).locals.ahead cfg ≤ (s.threads .main).locals.ahead cfg
  obtain ⟨s₂, pc, hmoves₂, hP₂, hat₂, -, hzero⟩ := LockOrder.arrives (fun _ => True) (Pc.shutdownDistance cfg) False
    (Going signalMain still) (i := .main) (P := P) (routine_follows cfg signalMain)
    (fun t a t' ht _ hthread hwakes hstep _ => by
      obtain ⟨ht, hsolo, hle⟩ := ht
      cases a with
      | spurious j => exact (hwakes (congrArg _ hthread)).elim
      | step j answer chosen =>
        obtain rfl : j = .main := hthread
        obtain ⟨hgoing, ht'⟩ :=
          ht.main_step (main_intact ht.reachable ht.stopping hsolo answer chosen) hstep fun _ _ _ => rfl
        exact ⟨hgoing, ht', hsolo.step hstep, (ahead_next ht.reachable ht.stopping hstep).2.trans hle⟩)
    (fun t pc ht _ hpc hpos => by
      have hvalid := valid_of_reachable ht.1.reachable .main
      have hstop := ht.1.stopping
      rw [hpc] at hvalid hstop
      exact stopping_nears cfg signalMain hstop hvalid hpos)
    (fun t c m pc ht hpc => by
      obtain ⟨pc', hat⟩ := running_of_stopping ht.1.reachable ht.1.stopping
      cases hpc.symm.trans hat)
    (fun t ht => owned_of_reachable ht.1.reachable) ⟨hs₁, hsolo₁, ahead_moves hs.reachable hs.stopping hmoves₁⟩
    trivial hsolo₁
  obtain ⟨hs₂, -, hle₂⟩ := hP₂
  have hvalid := valid_of_reachable hs₂.reachable .main
  have hstop := hs₂.stopping
  rw [hat₂] at hvalid hstop hle₂
  exact ⟨s₂, pc, hmoves₁.trans hmoves₂, hs₂, hat₂, hle₂, done_or_join hstop hvalid hzero⟩

theorem ahead_join {k : Kind} {i : Nat} (hlt : i < count cfg k) :
    (Pc.main (.join k (i + 1))).ahead cfg < (Pc.main (.join k i)).ahead cfg := by
  cases k <;> simp only [Pc.ahead, count] at * <;> omega

/-- It goes from join to join; the induction is on how many threads there are still to join. -/
theorem Underway.returns (hs : Underway signalMain (fun _ _ => true) still s) :
    ∃ s', Moves (routine cfg signalMain) (Going signalMain still) s s' ∧
      (system cfg signalMain users).Reachable s' ∧ s'.threads .main = .running (.done none) := by
  induction hn : (s.threads .main).locals.ahead cfg using Nat.strong_induction_on generalizing s with
  | _ n ih =>
    subst hn
    obtain ⟨s₁, pc, hmoves₁, hs₁, hat₁, hle, rfl | ⟨k, i, rfl, hlt⟩⟩ := shutdown_goes hs
    · exact ⟨s₁, hmoves₁, hs₁.reachable, hat₁⟩
    · obtain ⟨s₂, hmoves₂, hs₂, hat₂⟩ := joined_next hs₁ hlt hat₁
      have hless : (s₂.threads .main).locals.ahead cfg < (s.threads .main).locals.ahead cfg := by
        rw [hat₂]
        exact (ahead_join hlt).trans_le hle
      obtain ⟨s₃, hmoves₃, h₃, hat₃⟩ := ih _ hless hs₂ rfl
      exact ⟨s₃, (hmoves₁.trans hmoves₂).trans hmoves₃, h₃, hat₃⟩

end returns

/-! ## A thread that needs what is destroyed -/

theorem gone_of_gone (name : Name cfg users) (pc : Pc) (o : Object) :
    (routine cfg signalMain name pc).Acts fun g r => g.gone o = true → r.1.gone o = true := by
  cases hpc : pc.destroying with
  | false =>
    exact (routine_spared cfg signalMain name hpc).mono fun g r hspared ho => (gone_of_spared hspared o).trans ho
  | true =>
    cases pc with
    | main pc =>
      cases pc with
      | shutdownContexts =>
        intro a g ho
        cases o with
        | freeContexts => rfl
        | _ => exact ho
      | shutdownAvailable => exact fun _ _ ho => by cases o <;> exact ho
      | destroy m =>
        intro a g ho
        cases o with
        | freeContexts | availableQueue => exact ho
        | mutex m' =>
          by_cases heq : m' = m
          · subst heq
            exact Function.update_self ..
          · exact (Function.update_of_ne heq _ _).trans ho
      | _ => cases hpc
    | _ => cases hpc

/-- It still needs it after every step that uses nothing destroyed. -/
theorem unsafe_step {name : Name cfg users} {o : Object} (hneeds : (s.threads name).locals.needs = some o)
    (hgone : s.shared.gone o = true) {a : LockOrder.Label (Name cfg users) Answer} (ha : Intact signalMain s a)
    (hstep : next (routine cfg signalMain) s a = some s') :
    (s'.threads name).locals.needs = some o ∧ s'.shared.gone o = true := by
  cases a with
  | spurious j =>
    rw [LockOrder.spurious_locals hstep name]
    cases LockOrder.next_effect hstep with
    | spurious => exact ⟨hneeds, hgone⟩
  | step j answer chosen =>
    have hgone' : s'.shared.gone o = true :=
      LockOrder.Instr.Acts.step (R := fun g g' => g.gone o = true → g'.gone o = true)
        (fun pc _ => gone_of_gone j pc o) (fun _ h => h) hstep hgone
    refine ⟨?_, hgone'⟩
    by_cases hne : name = j
    · subst hne
      obtain ⟨m, pc, hat, hat', -⟩ | ⟨pc, hat⟩ := LockOrder.next_own hstep
      · rw [hat] at hneeds
        rw [hat']
        exact hneeds
      · have hneeds : pc.needs = some o := by
          rw [hat] at hneeds
          exact hneeds
        obtain ⟨hsound, hmutex⟩ := (intact_running hat).mp ha
        have hobject : o ≠ .availableQueue := by
          rintro rfl
          cases hgone
        obtain hkeeps | ⟨rfl, hcontexts⟩ | ⟨m, rfl, hm⟩ := needs_keeps cfg signalMain name hneeds hobject
        · exact hkeeps.step hat hstep
        · rw [hcontexts s] at hsound
          rw [Shared.gone, hsound] at hgone
          cases hgone
        · cases (hmutex m hm).symm.trans hgone
    · rw [LockOrder.next_locals hstep hne]
      exact hneeds

/-- When no thread of a pool needs what is destroyed already, the shutdown can return. -/
theorem returns {still : Name cfg users → Prop} (h : (system cfg signalMain users).Reachable s) (hunheld : Unheld s)
    (happart : Apart still s) (hstop : (s.threads .main).locals.stopping = true)
    (hsafe : ∀ name k i, name.slot = some (k, i) → (s.threads name).locals.safe s.shared.gone = true) :
    ∃ s', Moves (routine cfg signalMain) (Going signalMain still) s s' ∧
      (system cfg signalMain users).Reachable s' ∧ s'.threads .main = .running (.done none) := by
  -- nobody needs `read_main_lock`, which may be destroyed first
  let lost (_ : Name cfg users) (o : Object) : Bool := s.shared.gone o || decide (o = .mutex .readMain)
  have hs : Underway signalMain lost still s := by
    refine ⟨h, hunheld, happart, hstop, fun _ o ho => ?_, fun name k i hslot => safe_iff.mpr fun o ho => ?_⟩
    · simp [lost, ho]
    · have hne : o ≠ .mutex .readMain := fun heq => needs_ne_readMain (heq ▸ ho)
      simp [lost, hne, safe_iff.mp (hsafe name k i hslot) o ho]
  obtain ⟨s₁, hmoves₁, hs₁, happends⟩ := hs.appends (fun _ => by simp [lost]) fun _ => by simp [lost, Shared.gone]
  obtain ⟨s₂, hmoves₂, hs₂⟩ := hs₁.relieve_all happends
  obtain ⟨s₃, hmoves₃, h₃, hat⟩ := hs₂.returns
  exact ⟨s₃, (hmoves₁.trans hmoves₂).trans hmoves₃, h₃, hat⟩

end system

/-- A write thread passes the test of its loop just before its flag goes up, and falls asleep just after the broadcast. -/
def lostWakeupRun : List (LockOrder.Label (Name .default 1) Answer) :=
  let turns (n : Nat) (name : Name .default 1) := List.replicate n (LockOrder.Label.step name Answer.nothing none)
  startupRun ++ turns 1 .main ++ turns 2 (.writer ⟨0, Nat.zero_lt_two⟩) ++ [.step .main .shutdown none] ++ turns 5 .main ++
    turns 2 (.writer ⟨0, Nat.zero_lt_two⟩)

/-- A read thread has accepted a connection when the shutdown destroys the queue of the free contexts. -/
def acceptRun : List (LockOrder.Label (Name .default 1) Answer) :=
  let turn (answer : Answer) (name : Name .default 1) := LockOrder.Label.step name answer none
  let turns (n : Nat) (name : Name .default 1) := List.replicate n (turn .nothing name)
  let reader : Name .default 1 := .reader ⟨0, Nat.zero_lt_two⟩
  startupRun ++ turns 1 .main ++ [turn .connect .main, turn .connect .main] ++ turns 5 .main ++
    [turn .nothing reader, turn .acquire reader] ++ turns 3 reader ++ [turn .accept reader, turn .shutdown .main] ++
    turns 1 .main

end SubstanceConnector.CoreThreads
