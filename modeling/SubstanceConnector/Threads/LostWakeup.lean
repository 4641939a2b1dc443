import SubstanceConnector.Threads.Returning

/-!
# A lost wakeup

`write_thread_routine` tests the flag of the shutdown before it locks `outbound_lock`, and then waits without another
test. A write thread that is between the two when `connector_shutdown_write_threads` raises the flag and broadcasts falls
asleep after the broadcast. While no connection, message or call of the application is left that signals
`outbound_condition` (`Stranded`), nobody wakes it, and the shutdown waits in its join until the thread is woken for no
reason.
-/

namespace SubstanceConnector.CoreThreads

open LockOrder (Instr Moves next)

namespace Site

/-- The calls that are still made when there are no connections and no messages have come in. -/
def quiet : Site → Bool
  | acquireFirst | acquireSecond | acquireNext | signalIdle | signalRound => true
  | acquireWoken | acquireWritten | notify 0 => true
  | _ => false

/-- The calls that take a message from the inbound queue. -/
def incoming : Site → Bool
  | acquireFirst | acquireSecond | acquireNext => true
  | _ => false

end Site

namespace Pc

/-- A thread without a message that has come in and without contexts, and the application in no call. -/
def quiet : Pc → Bool
  | enter site => site.quiet
  | inside site todo message => site.quiet && !(site.incoming && todo.isEmpty && message)
  | dispatch (.lock message) | dispatch (.waitTest message) => !message
  | dispatch (.unlock message) | dispatch (.handleTest message) => !message
  | dispatch (.handle _) | read .accepted _ | connecting _ | appending _ | connected _ => false
  | read _ assigned | application (.reader assigned) | application (.leaver assigned) => assigned == 0
  | main _ | application .main => false
  | _ => true

/-- The thread is quiet, and there is nothing for it: no contexts, no messages, and the module is not initialized. -/
def Idles (pc : Pc) (g : Shared) : Prop := pc.quiet = true ∧ g.ready = false ∧ g.inbound = 0 ∧ g.available = 0

end Pc

section routines
variable (cfg : BuildConfig) (signalMain : Bool)

theorem inside_idles {site : Site} {todo : List Op} {message : Bool} (hvalid : todo <:+ site.function.body) :
    (insideRoutine signalMain site message todo).KeepsWith Pc.Idles (.inside site todo message) := by
  cases todo with
  | nil =>
    intro g h
    refine ⟨?_, h.2⟩
    have hquiet := h.1
    cases site with
    | acquireFirst | acquireNext =>
      cases message with
      | true => cases hquiet
      | false => rfl
    | acquireSecond =>
      cases message with
      | true => cases hquiet
      | false => cases signalMain <;> rfl
    | notify assigned =>
      cases assigned with
      | zero => rfl
      | succ assigned => cases hquiet
    | signalIdle | signalRound | acquireWoken | acquireWritten => rfl
    | _ => cases hquiet
  | cons op todo =>
    cases site with
    | acquireFirst | acquireSecond | acquireNext =>
      obtain ⟨rfl, rfl⟩ := eq_of_suffix_singleton hvalid
      rintro a g ⟨-, hready, hinbound, havailable⟩
      refine ⟨?_, hready, ?_, havailable⟩
      · -- there is no message
        show (true && !(true && true && decide (0 < g.inbound))) = true
        rw [hinbound]
        rfl
      · show g.inbound - 1 = 0
        rw [hinbound]
    | acquireWoken | acquireWritten =>
      obtain ⟨rfl, rfl⟩ := eq_of_suffix_singleton hvalid
      exact fun a g h => ⟨rfl, h.2⟩
    | signalIdle | signalRound =>
      obtain ⟨rfl, rfl⟩ := eq_of_suffix_singleton hvalid
      exact fun g h => ⟨rfl, h.2⟩
    | notify assigned =>
      obtain ⟨rfl, rfl⟩ := eq_of_suffix_singleton hvalid
      intro g h
      cases assigned with
      | zero => exact ⟨rfl, h.2⟩
      | succ assigned => cases h.1
    | _ => exact .of_not (fun g h => by cases h.1) _

theorem dispatch_idles (i : Nat) (pc : DispatchPc) :
    (dispatchRoutine signalMain i pc).KeepsWith Pc.Idles (.dispatch pc) := by
  cases pc with
  | loopTest | wokenTest | roundEnd =>
    intro a g h
    dsimp only
    split <;> exact ⟨rfl, h.2⟩
  | lock message | unlock message => exact fun g h => h
  | waitTest message =>
    intro a g h
    dsimp only
    split
    · exact ⟨rfl, h.2⟩
    · exact h
  | handleTest message =>
    intro a g h
    cases message with
    | true => cases h.1
    | false => exact ⟨rfl, h.2⟩
  | handle kind => exact fun a g h => by cases h.1
  | wait | wokenUnlock => exact fun g h => ⟨rfl, h.2⟩
  | exit => exact fun a g h => ⟨rfl, h.2⟩

theorem write_idles (i : Nat) (pc : WritePc) : (writeRoutine i pc).KeepsWith Pc.Idles (.write pc) := by
  cases pc with
  | loopTest | wokenTest | write message =>
    intro a g h
    dsimp only
    split <;> exact ⟨rfl, h.2⟩
  | waitTest message =>
    cases message with
    | true => exact fun a g h => ⟨rfl, h.2⟩
    | false => exact fun g h => ⟨rfl, h.2⟩
  | lock | unlock | unlockExit => exact fun g h => ⟨rfl, h.2⟩
  | exit => exact fun a g h => ⟨rfl, h.2⟩

/-- There is nothing to acquire. -/
theorem tryAcquire_idles (a : Answer) {g : Shared} (h : g.available = 0) : tryAcquire a g 0 = (g, 0) :=
  if_neg fun hpop => hpop.2.ne' h

theorem read_idles (i : Nat) (pc : ReadPc) (assigned : Nat) :
    (readRoutine i assigned pc).KeepsWith Pc.Idles (.read pc assigned) := by
  cases assigned with
  | succ assigned => exact .of_not (fun g h => by cases pc <;> cases h.1) _
  | zero =>
    cases pc with
    | loopTest | waitTest =>
      intro a g h
      dsimp only
      split <;> exact ⟨rfl, h.2⟩
    | wokenTest | exitTest =>
      intro a g h
      dsimp only
      split
      · exact ⟨rfl, h.2⟩
      · rw [tryAcquire_idles a h.2.2.2]
        exact ⟨rfl, h.2⟩
    | lock | wait | unlock => exact fun g h => ⟨rfl, h.2⟩
    | poll | exit => exact fun a g h => ⟨rfl, h.2⟩
    | accepted => exact fun a g h => by cases h.1

theorem application_idles (host : Host) : (applicationRoutine signalMain host).KeepsWith Pc.Idles (.application host) := by
  intro a g h
  have hready : ¬ g.ready = true := by rw [h.2.1]; exact Bool.false_ne_true
  cases a with
  | write | connect =>
    dsimp only
    rw [if_neg hready]
    exact h
  | shutdown =>
    dsimp only
    rw [if_neg fun hshutdown => hready hshutdown.2]
    exact h
  | await =>
    cases host with
    | main => cases h.1
    | _ => exact h
  | _ =>
    cases host with
    | main => cases h.1
    | dispatcher => exact ⟨rfl, h.2⟩
    | user | reader assigned | leaver assigned => exact h

/-- A quiet thread stays quiet, and what there is stays empty. -/
theorem routine_idles {users : Nat} (name : Name cfg users) {pc : Pc} (hvalid : pc.Valid) :
    (routine cfg signalMain name pc).KeepsWith Pc.Idles pc := by
  cases pc with
  | enter site =>
    refine fun g h => ⟨?_, h.2⟩
    have hquiet := h.1
    cases site with
    | notify assigned =>
      cases assigned with
      | zero => rfl
      | succ assigned => cases hquiet
    | _ => first | rfl | cases hquiet
  | inside site todo message => exact inside_idles signalMain hvalid
  | unborn k => exact fun g _ h => ⟨by cases k <;> rfl, h.2⟩
  | dispatch pc => exact dispatch_idles signalMain _ pc
  | write pc => exact write_idles _ pc
  | read pc assigned => exact read_idles _ pc assigned
  | main pc => exact .of_not (fun g h => by cases h.1) _
  | application host => exact application_idles signalMain host
  | connecting host | appending host | connected host => exact .of_not (fun g h => by cases h.1) _
  | done k => trivial

/-- A quiet thread does not signal the write threads. -/
theorem silent_of_quiet {users : Nat} (name : Name cfg users) {pc : Pc} (hquiet : pc.quiet = true) (hvalid : pc.Valid) :
    (routine cfg signalMain name pc).Silent .outbound := by
  cases pc with
  | inside site todo message =>
    cases todo with
    | nil => trivial
    | cons op todo =>
      cases site with
      | acquireFirst | acquireSecond | acquireNext | acquireWoken | acquireWritten =>
        obtain ⟨rfl, rfl⟩ := eq_of_suffix_singleton hvalid
        trivial
      | signalIdle | signalRound | notify assigned =>
        obtain ⟨rfl, rfl⟩ := eq_of_suffix_singleton hvalid
        intro h
        cases h
      | _ => cases hquiet
  | dispatch pc => cases pc <;> trivial
  | write pc =>
    cases pc with
    | waitTest message => cases message <;> trivial
    | _ => trivial
  | read pc assigned => cases pc <;> trivial
  | main pc => cases hquiet
  | _ => trivial

end routines

section system
variable {cfg : BuildConfig} {signalMain : Bool} {users : Nat} {s s' : State cfg users} {i : Fin cfg.outboundCount}

/-- The shutdown has a write thread to join that sleeps, and all else is quiet. -/
structure Stranded (i : Fin cfg.outboundCount) (s : State cfg users) : Prop where
  joining : ∃ j ≤ i.val, s.threads .main = .running (.main (.join .writer j))
  asleep : ∃ m pc, s.threads (.writer i) = .blocked .outbound m pc
  quiet : ∀ name ≠ .main, (s.threads name).locals.quiet = true
  inbound : s.shared.inbound = 0
  available : s.shared.available = 0

theorem Stranded.idles (h : (system cfg signalMain users).Reachable s) (hs : Stranded i s) {name : Name cfg users}
    (hname : name ≠ .main) : (s.threads name).locals.Idles s.shared := by
  obtain ⟨j, -, hmain⟩ := hs.joining
  exact ⟨hs.quiet name hname, shut_of_stopping h (by rw [hmain]; rfl), hs.inbound, hs.available⟩

/-- A thread that sleeps has not ended. -/
theorem not_ended (h : (system cfg signalMain users).Reachable s) (hs : Stranded i s) :
    s.shared.ended .writer i = false := by
  obtain ⟨m, pc, hat⟩ := hs.asleep
  have hname : (Name.writer i : Name cfg users) ≠ .main := fun h => by cases h
  by_contra hended
  have hdone := running_of_done h (ended_of_reachable h hname .writer i rfl (Bool.eq_true_of_not_eq_false hended))
  cases hat.symm.trans hdone

theorem routine_join {j : Nat} (hj : j ≤ i.val) :
    routine cfg signalMain (Name.main : Name cfg users) (.main (.join .writer j)) =
      .await (fun g => g.ended .writer j) (.main (.join .writer (j + 1))) :=
  if_pos (hj.trans_lt i.isLt)

/-- Nobody signals the write threads. -/
theorem Stranded.silent (h : (system cfg signalMain users).Reachable s) (hs : Stranded i s) (name : Name cfg users)
    (pc : Pc) (hat : s.threads name = .running pc) : (routine cfg signalMain name pc).Silent .outbound := by
  by_cases hname : name = .main
  · subst hname
    obtain ⟨j, hj, hmain⟩ := hs.joining
    cases hmain.symm.trans hat
    rw [routine_join hj]
    trivial
  · have hquiet := hs.quiet name hname
    have hvalid := valid_of_reachable h name
    rw [hat] at hquiet hvalid
    exact silent_of_quiet cfg signalMain name hquiet hvalid

/-- What a thread finds quiet, it leaves quiet. -/
theorem idles_step (h : (system cfg signalMain users).Reachable s) {name : Name cfg users} {answer : Answer}
    {chosen : Option (Name cfg users)} (hidles : (s.threads name).locals.Idles s.shared)
    (hstep : next (routine cfg signalMain) s (.step name answer chosen) = some s') :
    (s'.threads name).locals.Idles s'.shared := by
  obtain ⟨m, pc, hat, hat', hshared⟩ | ⟨pc, hat⟩ := LockOrder.next_own hstep
  · rw [hat] at hidles
    rw [hat', hshared]
    exact hidles
  · have hvalid := valid_of_reachable h name
    rw [hat] at hidles hvalid
    exact LockOrder.step_keepsWith hat hstep (routine_idles cfg signalMain name hvalid) hidles

theorem Stranded.step (h : (system cfg signalMain users).Reachable s) (hs : Stranded i s)
    {a : LockOrder.Label (Name cfg users) Answer} (ha : a ≠ .spurious (.writer i))
    (hstep : next (routine cfg signalMain) s a = some s') : Stranded i s' := by
  obtain ⟨j, hj, hmain⟩ := hs.joining
  have hasleep : ∃ m pc, s'.threads (.writer i) = .blocked .outbound m pc := by
    obtain ⟨m, pc, hat⟩ := hs.asleep
    exact ⟨m, pc, (LockOrder.next_asleep hat ha (hs.silent h) hstep).trans hat⟩
  cases a with
  | spurious name =>
    have hquiet : ∀ name ≠ .main, (s'.threads name).locals.quiet = true := fun name' hname' => by
      rw [LockOrder.spurious_locals hstep name']
      exact hs.quiet name' hname'
    cases LockOrder.next_effect hstep with
    | spurious _ c m pc hat =>
      have hne : .main ≠ name := by
        rintro rfl
        cases hmain.symm.trans hat
      exact ⟨⟨j, hj, (Function.update_of_ne hne _ _).trans hmain⟩, hasleep, hquiet, hs.inbound, hs.available⟩
  | step name answer chosen =>
    by_cases hname : name = .main
    · -- the shutdown joins the threads before the one that sleeps
      subst hname
      obtain ⟨hended, rfl⟩ := LockOrder.next_await hmain (routine_join hj) hstep
      have hlt : j < i.val := by
        refine Nat.lt_of_le_of_ne hj fun heq => ?_
        have hnot := not_ended h hs
        rw [← heq] at hnot
        cases hnot.symm.trans hended
      refine ⟨⟨j + 1, hlt, Function.update_self Name.main _ s.threads⟩, hasleep, fun name' hname' => ?_, hs.inbound,
        hs.available⟩
      rw [LockOrder.next_locals hstep hname']
      exact hs.quiet name' hname'
    · obtain ⟨hquiet, -, hinbound, havailable⟩ := idles_step h (hs.idles h hname) hstep
      have hmain' : s'.threads .main = s.threads .main :=
        LockOrder.next_threads hstep (Ne.symm hname) fun c m pc hat => by cases hmain.symm.trans hat
      refine ⟨⟨j, hj, hmain'.trans hmain⟩, hasleep, fun name' hname' => ?_, hinbound, havailable⟩
      by_cases heq : name' = name
      · rw [heq]
        exact hquiet
      · rw [LockOrder.next_locals hstep heq]
        exact hs.quiet name' hname'

theorem needs_of_quiet {pc : Pc} (h : pc.quiet = true) : pc.needs = none := by
  cases pc with
  | enter site | inside site todo message => cases site <;> first | rfl | cases h
  | dispatch pc => cases pc <;> first | rfl | cases h
  | read pc assigned => cases pc <;> first | rfl | cases h
  | connecting host | appending host => cases h
  | _ => rfl

/-- No mutex has been destroyed, and no thread needs anything. -/
theorem Stranded.underway (h : (system cfg signalMain users).Reachable s) (hs : Stranded i s) :
    Underway signalMain (fun _ _ => true) (fun _ => False) s := by
  obtain ⟨j, -, hmain⟩ := hs.joining
  refine ⟨h, fun m hm => ?_, fun _ hstill => hstill.elim, by rw [hmain]; rfl, fun _ _ _ => rfl, fun name k i hslot => ?_⟩
  · have hlive : s.shared.destroyed m = false := by
      refine destroyed_of_stage h ?_
      rw [hmain]
      exact Nat.lt_of_not_le fun hle => absurd (destroyedAt_mem m) (by
        obtain hat | hat := Nat.le_one_iff_eq_zero_or_eq_one.mp hle <;> rw [hat] <;> decide)
    cases hlive.symm.trans hm
  · refine safe_of_needs (needs_of_quiet (hs.quiet name ?_)) _
    rintro rfl
    cases hslot

/-- When a write thread has lost its wakeup and all else is quiet, the shutdown stays in its join in every run in which this
thread is not woken for no reason; by such wakeups of write threads it can still return. -/
theorem lost_wakeup (h : (system cfg signalMain users).Reachable s) (hs : Stranded i s) :
    (∀ s', Moves (routine cfg signalMain) (fun _ a => a ≠ .spurious (.writer i)) s s' →
      ∃ j ≤ i.val, s'.threads .main = .running (.main (.join .writer j))) ∧
    ∃ s', Moves (routine cfg signalMain) (Going signalMain fun _ => False) s s' ∧
      s'.threads .main = .running (.done none) := by
  constructor
  · intro s' hrun
    obtain ⟨-, hs'⟩ := hrun.keeps (P := fun t => (system cfg signalMain users).Reachable t ∧ Stranded i t)
      (fun t a t' ht ha hstep => ⟨.step ht.1 hstep, ht.2.step ht.1 ha hstep⟩) ⟨h, hs⟩
    exact hs'.joining
  · obtain ⟨s', hrun, -, hdone⟩ := (hs.underway h).returns
    exact ⟨s', hrun, hdone⟩

end system

theorem default_lost_wakeup :
    ∃ s : State .default 1, (system .default false 1).Reachable s ∧ Stranded ⟨0, Nat.zero_lt_two⟩ s ∧
      ∀ s', Moves (routine .default false) (fun _ a => a ≠ .spurious (.writer ⟨0, Nat.zero_lt_two⟩)) s s' →
        s'.threads .main ≠ .running (.done none) := by
  have hrun : (StepSystem.runList (next (routine .default false)) (start .default 1) lostWakeupRun).map
      (fun s => (s.threads .main, s.threads (.writer ⟨0, Nat.zero_lt_two⟩),
        decide (∀ name ≠ .main, (s.threads name).locals.quiet = true), s.shared.inbound, s.shared.available)) =
      some (.running (.main (.join .writer 0)), .blocked .outbound .outbound (.write .wokenTest), true, 0, 0) := by
    decide +kernel
  obtain ⟨s, hs, hat⟩ := Option.map_eq_some_iff.mp hrun
  simp only [Prod.mk.injEq, decide_eq_true_eq] at hat
  obtain ⟨hmain, hwriter, hquiet, hinbound, havailable⟩ := hat
  have hreach : (system .default false 1).Reachable s := StepSystem.reachable_runList (.init rfl) hs
  have hstranded : Stranded ⟨0, Nat.zero_lt_two⟩ s :=
    ⟨⟨0, le_rfl, hmain⟩, ⟨_, _, hwriter⟩, hquiet, hinbound, havailable⟩
  refine ⟨s, hreach, hstranded, fun s' hmoves hdone => ?_⟩
  obtain ⟨j, -, hjoining⟩ := (lost_wakeup hreach hstranded).1 s' hmoves
  cases hjoining.symm.trans hdone

end SubstanceConnector.CoreThreads
