import SubstanceConnector.Context.System

/-!
# Running out of contexts

With no free context left, `connector_context_open` reports the error of its pop.
`connector_context_connect` and `connector_context_accept` do not look at it: they go on with
identifier 0, whoever uses that context. So with all contexts in use the two refuse only what they
refuse before they take a context (`refused_iff`).
-/

namespace SubstanceConnector.ContextSystem

/-- A call that takes a context, with the outcomes of the system calls it makes. -/
inductive Request where
  | openContext (o : OpenOutcome) (desc : Option ContextDesc) (identifier : Option UInt32)
  | connect (o : ConnectOutcome) (desc : Option ContextDesc) (identifier : Option UInt32)
  | accept (accepted : Option Nat) (context : UInt32) (identifier : Option UInt32)

namespace Request

def run (cfg : BuildConfig) (t : ContextTable) : Request → Except Fault (Retcode × Option UInt32 × ContextTable)
  | openContext o desc identifier => connectorContextOpen cfg o t desc identifier
  | connect o desc identifier => connectorContextConnect cfg o t desc identifier
  | accept accepted context identifier => connectorContextAccept cfg accepted t context identifier

def identifier : Request → Option UInt32
  | openContext _ _ identifier => identifier
  | connect _ _ identifier => identifier
  | accept _ _ identifier => identifier

/-- The call returns an error code, with the table and `*identifier` as they were. -/
def Refused (cfg : BuildConfig) (t : ContextTable) (request : Request) : Prop :=
  ∃ r, r ≠ .success ∧ request.run cfg t = .ok (r, request.identifier, t)

/-- The call tests what its pop returned, or ends before it pops: a connect without a descriptor or
a place for the identifier, an accept without such a place, on a context that is not open, or without
an incoming connection. -/
def StopsBeforePop (cfg : BuildConfig) (t : ContextTable) : Request → Prop
  | openContext _ _ _ => True
  | connect _ desc identifier => desc = none ∨ identifier = none
  | accept accepted context identifier =>
    identifier = none ∨ ¬ (context.toNat < cfg.contextCount ∧ (t.slot context).state = connOpen) ∨
      connectorAcceptConnection accepted (t.slot context) = none

end Request

theorem exists_of_freeEmpty {t : ContextTable} (h : freeEmpty t = true) :
    ∃ q, t.freeContexts = .live q ∧ q.looksEmpty q.readIndex q.maxIndex = true := by
  unfold freeEmpty at h
  split at h
  · exact ⟨_, ‹_›, h⟩
  · exact absurd h (by decide)

/-! ## What every run keeps of the free queue -/

/-- The queue is live, has its size, and nobody is between a reservation and a commit. -/
def Sane (cfg : BuildConfig) (p : QueuePtr) : Prop :=
  ∃ q, p = .live q ∧ q.size = ring cfg ∧ q.maxIndex = q.writeIndex

theorem ring_ne_zero (cfg : BuildConfig) : ring cfg ≠ 0 := by
  intro hzero
  have hring := toNat_ring cfg
  have hpos := cfg.contextCount_pos
  rw [hzero] at hring
  have h0 : (0 : UInt32).toNat = 0 := rfl
  omega

theorem sane_pop {cfg : BuildConfig} {p : QueuePtr} {v : UInt32} {r : Retcode × UInt32 × QueuePtr} (h : Sane cfg p)
    (hpop : connectorUintQueuePop p v = .ok r) : Sane cfg r.2.2 := by
  obtain ⟨q, rfl, hsize, hsettled⟩ := h
  cases uintQueuePop_cases hpop with
  | empty => exact ⟨q, rfl, hsize, hsettled⟩
  | taken => exact ⟨_, rfl, hsize, hsettled⟩

theorem sane_push {cfg : BuildConfig} {p : QueuePtr} {v : UInt32} {r : Retcode × QueuePtr} (h : Sane cfg p)
    (hpush : connectorUintQueuePush p v = .ok r) : Sane cfg r.2 := by
  obtain ⟨q, rfl, hsize, hsettled⟩ := h
  cases uintQueuePush_cases hpush with
  | full => exact ⟨q, rfl, hsize, hsettled⟩
  | stored => exact ⟨_, rfl, hsize, rfl⟩

theorem sane_of_reachable {cfg : BuildConfig} {n : Nat} {s : State} (h : (system cfg n).Reachable s) :
    Sane cfg s.table.freeContexts := by
  refine h.invariant (P := fun s => Sane cfg s.table.freeContexts) ?_ ?_
  · rintro s ⟨hstart, -, -, -⟩
    obtain ⟨t, ht, -, ⟨q, hq, hsize, hrep⟩, -⟩ := startTable_rep cfg
    obtain rfl : t = s.table := Except.ok.inj (ht.symm.trans hstart)
    exact ⟨q, hq, hsize, hrep.settled⟩
  · intro s a s' _ hs hstep
    exact (evolves_next hstep).freeContexts (fun _ _ _ => sane_pop) (fun _ _ _ => sane_push) hs

/-! ## The calls on an exhausted table -/

section exhausted
variable {cfg : BuildConfig} {t : ContextTable}

/-- The ring has an even size, so a push on an empty one succeeds even when the counter wraps. -/
theorem not_looksFull_of_looksEmpty {q : UintQueue} (hsize : q.size = ring cfg) (hsettled : q.maxIndex = q.writeIndex)
    (h : q.looksEmpty q.readIndex q.maxIndex = true) : q.looksFull q.writeIndex q.readIndex ≠ true := by
  have hring := toNat_ring cfg
  have hpos := cfg.contextCount_pos
  have hlt := q.writeIndex.toNat_lt
  rw [UintQueue.looksEmpty_iff, hsettled, hsize] at h
  intro hfull
  rw [UintQueue.looksFull_iff, hsize, h, UInt32.toNat_add] at hfull
  have hone : (1 : UInt32).toNat = 1 := rfl
  rw [hone] at hfull
  by_cases hwrap : q.writeIndex.toNat + 1 < 2 ^ 32
  · rw [Nat.mod_eq_of_lt hwrap] at hfull
    exact RingIndex.mod_ne_of_lt (Nat.lt_succ_self _) (by omega) hfull.symm
  · -- the next position is 0, the current one is odd
    have hlast : q.writeIndex.toNat = 2 ^ 32 - 1 := by omega
    have heven : 2 ∣ (ring cfg).toNat := by omega
    rw [hlast] at hfull
    have hparity := Nat.mod_mod_of_dvd (2 ^ 32 - 1) heven
    have hzero : (2 ^ 32 - 1 + 1) % 2 ^ 32 % (ring cfg).toNat = 0 := by
      rw [show (2 ^ 32 - 1 + 1) % 2 ^ 32 = 0 by decide, Nat.zero_mod]
    rw [hzero] at hfull
    rw [← hfull] at hparity
    exact absurd hparity (by decide)

theorem popFree_exhausted (hs : Sane cfg t.freeContexts) (h : freeEmpty t = true) (v : UInt32) :
    t.popFree v = .ok (.error, v, t) := by
  obtain ⟨q, hq, hempty⟩ := exists_of_freeEmpty h
  obtain ⟨contextList, freeContexts, connectionQueue⟩ := t
  obtain rfl : freeContexts = .live q := hq
  obtain ⟨q', hq', hsize, -⟩ := hs
  obtain rfl : q = q' := QueuePtr.live.inj hq'
  have hpop : q.pop = (none, q) := by
    unfold UintQueue.pop
    rw [if_pos hempty]
  simp only [ContextTable.popFree, connectorUintQueuePop, if_neg (hsize ▸ ring_ne_zero cfg), hpop]
  rfl

/-- Returning an identifier to an exhausted table is not lost. -/
theorem pushFree_exhausted (hs : Sane cfg t.freeContexts) (h : freeEmpty t = true) (context v : UInt32) (c : ConnectorContext)
    {r : Retcode × ContextTable} (hpush : (t.setSlot context c).pushFree v = .ok r) : r.2 ≠ t := by
  obtain ⟨q, hq, hempty⟩ := exists_of_freeEmpty h
  obtain ⟨contextList, freeContexts, connectionQueue⟩ := t
  obtain rfl : freeContexts = .live q := hq
  obtain ⟨q', hq', hsize, hsettled⟩ := hs
  obtain rfl : q = q' := QueuePtr.live.inj hq'
  obtain ⟨p, hp, hr⟩ := bind_eq_ok.mp hpush
  obtain rfl := Except.ok.inj hr
  intro hsame
  have hfree := congrArg ContextTable.freeContexts hsame
  cases uintQueuePush_cases hp with
  | full _ _ hfull => exact absurd hfull (not_looksFull_of_looksEmpty hsize hsettled hempty)
  | stored =>
    have hwrite : q.writeIndex + 1 = q.writeIndex := congrArg UintQueue.writeIndex (QueuePtr.live.inj hfree)
    exact absurd hwrite (by simp)

theorem refused_open (hs : Sane cfg t.freeContexts) (h : freeEmpty t = true) (o : OpenOutcome) (desc : Option ContextDesc)
    (identifier : Option UInt32) : Request.Refused cfg t (.openContext o desc identifier) := by
  refine ⟨.error, by decide, ?_⟩
  show connectorContextOpen cfg o t desc identifier = .ok (.error, identifier, t)
  unfold connectorContextOpen
  split
  · rw [popFree_exhausted hs h]
    rfl
  · rfl

theorem refused_connect_iff (hs : Sane cfg t.freeContexts) (h : freeEmpty t = true) (o : ConnectOutcome)
    (desc : Option ContextDesc) (identifier : Option UInt32) :
    Request.Refused cfg t (.connect o desc identifier) ↔ desc = none ∨ identifier = none := by
  have hzero : (0 : UInt32).toNat < cfg.contextCount := cfg.contextCount_pos
  refine ⟨?_, ?_⟩
  · rintro ⟨r, hr, hrun⟩
    by_contra hsome
    rw [not_or, ← ne_eq, ← ne_eq, Option.ne_none_iff_exists', Option.ne_none_iff_exists'] at hsome
    obtain ⟨⟨d, rfl⟩, v, rfl⟩ := hsome
    simp only [Request.run, connectorContextConnect, popFree_exhausted hs h, Request.identifier] at hrun
    obtain ⟨popped, hpopped, hrun⟩ := bind_eq_ok.mp hrun
    obtain rfl := Except.ok.inj hpopped
    rw [if_pos hzero] at hrun
    split at hrun
    · -- a connection that succeeds is given the identifier 0
      obtain ⟨u, -, hrun⟩ := bind_eq_ok.mp hrun
      have hret := congrArg Prod.fst (Except.ok.inj hrun)
      exact hr hret.symm
    · -- one that fails puts 0 on the free queue
      obtain ⟨pushed, hpush, hrun⟩ := bind_eq_ok.mp hrun
      have htable := congrArg (fun x => x.2.2) (Except.ok.inj hrun)
      exact pushFree_exhausted hs h _ _ _ hpush htable
  · rintro (rfl | rfl)
    · exact ⟨.error, by decide, rfl⟩
    · refine ⟨.error, by decide, ?_⟩
      cases desc <;> rfl

theorem refused_accept_iff (hs : Sane cfg t.freeContexts) (h : freeEmpty t = true) (accepted : Option Nat) (context : UInt32)
    (identifier : Option UInt32) :
    Request.Refused cfg t (.accept accepted context identifier) ↔
      identifier = none ∨ ¬ (context.toNat < cfg.contextCount ∧ (t.slot context).state = connOpen) ∨
        connectorAcceptConnection accepted (t.slot context) = none := by
  have hzero : (0 : UInt32).toNat < cfg.contextCount := cfg.contextCount_pos
  refine ⟨?_, ?_⟩
  · rintro ⟨r, hr, hrun⟩
    by_contra hall
    rw [not_or, not_or, not_not, ← ne_eq, ← ne_eq, Option.ne_none_iff_exists', Option.ne_none_iff_exists'] at hall
    obtain ⟨⟨v, rfl⟩, hopen, fd, hfd⟩ := hall
    simp only [Request.run, connectorContextAccept, if_pos hopen, hfd, popFree_exhausted hs h, Request.identifier] at hrun
    obtain ⟨popped, hpopped, hrun⟩ := bind_eq_ok.mp hrun
    obtain rfl := Except.ok.inj hpopped
    rw [if_pos hzero] at hrun
    obtain ⟨u, -, hrun⟩ := bind_eq_ok.mp hrun
    have hret := congrArg Prod.fst (Except.ok.inj hrun)
    exact hr hret.symm
  · intro hstops
    cases identifier with
    | none => exact ⟨.invalid, by decide, rfl⟩
    | some v =>
      by_cases hopen : context.toNat < cfg.contextCount ∧ (t.slot context).state = connOpen
      · obtain hnone | hclosed | hfd := hstops
        · exact absurd hnone (by simp)
        · exact absurd hopen hclosed
        · exact ⟨.openFail, by decide, by simp [Request.run, connectorContextAccept, hopen, hfd, Request.identifier]⟩
      · exact ⟨.invalid, by decide, by simp [Request.run, connectorContextAccept, hopen, Request.identifier]⟩

end exhausted

/-- **Exhaustion is refused exactly by the calls that notice it.** In every reachable state without a
free context, whatever the system calls return, a call returns an error and changes nothing if and
only if it is an open, or ends before it takes a context. -/
theorem refused_iff (cfg : BuildConfig) (n : Nat) {s : State} (h : (system cfg n).Reachable s)
    (hempty : freeEmpty s.table = true) (request : Request) :
    request.Refused cfg s.table ↔ request.StopsBeforePop cfg s.table := by
  have hs := sane_of_reachable h
  cases request with
  | openContext o desc identifier => exact ⟨fun _ => trivial, fun _ => refused_open hs hempty o desc identifier⟩
  | connect o desc identifier => exact refused_connect_iff hs hempty o desc identifier
  | accept accepted context identifier => exact refused_accept_iff hs hempty accepted context identifier

/-- As many listening sockets as there are contexts. -/
def openAll (cfg : BuildConfig) : List Label :=
  (List.range cfg.contextCount).map fun i =>
    .openContext ⟨none, true, none, some (3 + i), true, 5000, true⟩ (some ⟨commTcp, none, 0⟩) (some 0)

theorem openAll_exhausts :
    ∃ s, StepSystem.runList (next .default) (.start .default 2) (openAll .default) = some s ∧
      freeEmpty s.table = true := by
  have hrun : ((StepSystem.runList (next .default) (.start .default 2) (openAll .default)).map fun s =>
      freeEmpty s.table) = some true := by
    decide +kernel
  obtain ⟨s, hs, hempty⟩ := Option.map_eq_some_iff.mp hrun
  exact ⟨s, hs, hempty⟩

theorem connect_not_refused :
    ¬ ∀ (cfg : BuildConfig) (n : Nat) (s : State), (system cfg n).Reachable s → freeEmpty s.table = true →
      ∀ request : Request, request.Refused cfg s.table := by
  intro h
  obtain ⟨s, hs, hempty⟩ := openAll_exhausts
  have hreach : (system .default 2).Reachable s :=
    StepSystem.reachable_runList (.init (starts_start .default 2)) hs
  have hrefused := h .default 2 s hreach hempty (.connect ⟨some 40, true⟩ (some ⟨commTcp, none, 6000⟩) (some 0))
  rw [refused_connect_iff (sane_of_reachable hreach) hempty] at hrefused
  exact absurd hrefused (by simp)

theorem open_refused :
    ∃ s, (system .default 2).Reachable s ∧ freeEmpty s.table = true ∧
      Request.Refused .default s.table
        (.openContext ⟨none, true, none, some 40, true, 5000, true⟩ (some ⟨commTcp, none, 0⟩) (some 0)) := by
  obtain ⟨s, hs, hempty⟩ := openAll_exhausts
  have hreach : (system .default 2).Reachable s :=
    StepSystem.reachable_runList (.init (starts_start .default 2)) hs
  exact ⟨s, hreach, hempty, (refused_iff .default 2 hreach hempty _).mpr trivial⟩

end SubstanceConnector.ContextSystem
