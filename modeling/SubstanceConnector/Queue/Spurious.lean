import SubstanceConnector.Queue.Concurrent

/-!
# Failures that are not failures

A push reports a full queue and a pop an empty one by comparing two counters that it loads one after
the other. When the first one has moved in between, the old value beside the new one can look full
or empty although the queue never was (`push_fails_on_queue_never_full`).

This is the only way: if every test that matches is made on a first counter that is still current
(`Current`), a push fails only in a call during which the ring was full at some instant, and a pop
only in one during which nothing committed was left (`failures_honest`).
-/

namespace SubstanceConnector.QueueMachine

variable {ι : Type}

-- all but one of the cells reserved and unread
def Full (s : State ι) : Prop := (s.queue.writeIndex - s.queue.readIndex).toNat = s.queue.size.toNat - 1

def Drained (s : State ι) : Prop := s.queue.readIndex = s.queue.maxIndex

instance (s : State ι) : Decidable (Full s) := inferInstanceAs (Decidable (_ = _))

section property
variable {S : StepSystem (State ι) (Label ι)} {len : Nat}

/-- From the step after `a` to `b` the thread is inside one call. -/
def InCall (x : S.Trace len) (i : ι) (a b : Nat) : Prop :=
  a < b ∧ b ≤ len ∧ (x.state a).pool i = .idle ∧ ∀ k, a < k → k ≤ b → (x.state k).pool i ≠ .idle

/-- A call that is about to return an error has seen the instant that justifies it. -/
def Honest (x : S.Trace len) : Prop :=
  ∀ i a b, InCall x i a b →
    ((x.state b).pool i = .pushDone .error → ∃ k, a < k ∧ k < b ∧ Full (x.state k)) ∧
      ((x.state b).pool i = .popDone .error none → ∃ k, a < k ∧ k < b ∧ Drained (x.state k))

end property

/-! ## A full queue that is empty -/

/-- Thread `true` loads `write_index`; thread `false` pushes and pops; thread `true` then loads
`read_index`. -/
def staleRun : List (Label Bool) :=
  [.push true 5, .advance true, .push false 6] ++ List.replicate 6 (.advance false) ++
    [.pop false] ++ List.replicate 5 (.advance false) ++ [.advance true]

theorem push_fails_on_queue_never_full :
    ¬ ∀ (len : Nat) (x : (system Bool 2).Trace len), (x.state len).pushCalls < 2 ^ 32 → Honest x := by
  intro h
  have hsome : (StepSystem.runList next (State.start Bool 2) staleRun).isSome = true := by decide +kernel
  obtain ⟨s, hs⟩ := Option.isSome_iff_exists.mp hsome
  let x : (system Bool 2).Trace staleRun.length :=
    @StepSystem.Trace.ofRunList _ _ (· = State.start Bool 2) _ _ _ _ (.pop true) rfl hs
  have hcalls : (StepSystem.stateAt next (State.start Bool 2) staleRun 16).pushCalls < 2 ^ 32 := by decide +kernel
  have hbusy : ∀ k < 17, 0 < k → (StepSystem.stateAt next (State.start Bool 2) staleRun k).pool true ≠ .idle := by
    decide +kernel
  have herror : (StepSystem.stateAt next (State.start Bool 2) staleRun 16).pool true = .pushDone .error := by
    decide +kernel
  have hfull : ∀ k < 17, ¬ Full (StepSystem.stateAt next (State.start Bool 2) staleRun k) := by decide +kernel
  have hcall : InCall x true 0 16 := ⟨by decide, le_refl _, rfl, fun k hk hk' => hbusy k (by omega) hk⟩
  obtain ⟨k, -, hk, hkfull⟩ := (h _ x hcalls true 0 16 hcall).1 herror
  exact hfull k (by omega) hkfull

/-! ## How a call fails -/

variable [DecidableEq ι]

theorem pushCalls_le_next {s s' : State ι} {a : Label ι} (h : next s a = some s') : s.pushCalls ≤ s'.pushCalls := by
  cases a with
  | push i elem =>
    obtain ⟨-, rfl⟩ := next_push h
    exact Nat.le_succ _
  | pop i =>
    obtain ⟨-, rfl⟩ := next_pop h
    exact le_refl _
  | advance i =>
    obtain ⟨-, rfl⟩ := next_advance h
    exact le_refl _

/-- A thread that moves into the error return of a push has just seen its test match. -/
theorem advance_pushDone_error {q : UintQueue} {pc : Pc} (h : (pc.advance q).2 = .pushDone .error) :
    ∃ elem w, pc = .pushLoadRead elem w ∧ q.looksFull w q.readIndex = true := by
  cases pc with
  | pushLoadRead elem w =>
    simp only [Pc.advance] at h
    split at h
    · exact ⟨elem, w, rfl, ‹_›⟩
    · exact absurd h (by simp)
  | pushReserve elem w => simp only [Pc.advance] at h; split at h <;> exact absurd h (by simp)
  | pushCommit elem w => simp only [Pc.advance] at h; split at h <;> exact absurd h (by simp)
  | popLoadMax r => simp only [Pc.advance] at h; split at h <;> exact absurd h (by simp)
  | popExchange r data => simp only [Pc.advance] at h; split at h <;> exact absurd h (by simp)
  | _ => exact absurd h (by simp [Pc.advance])

theorem advance_popDone_error {q : UintQueue} {pc : Pc} (h : (pc.advance q).2 = .popDone .error none) :
    ∃ r, pc = .popLoadMax r ∧ q.looksEmpty r q.maxIndex = true := by
  cases pc with
  | popLoadMax r =>
    simp only [Pc.advance] at h
    split at h
    · exact ⟨r, rfl, ‹_›⟩
    · exact absurd h (by simp)
  | pushLoadRead elem w => simp only [Pc.advance] at h; split at h <;> exact absurd h (by simp)
  | pushReserve elem w => simp only [Pc.advance] at h; split at h <;> exact absurd h (by simp)
  | pushCommit elem w => simp only [Pc.advance] at h; split at h <;> exact absurd h (by simp)
  | popExchange r data => simp only [Pc.advance] at h; split at h <;> exact absurd h (by simp)
  | _ => exact absurd h (by simp [Pc.advance])

/-- A thread found at `pc` after a step was there before, moved there by itself, or was just called. -/
theorem pool_next {s s' : State ι} {a : Label ι} (h : next s a = some s') (i : ι) :
    s'.pool i = s.pool i ∨ (a = .advance i ∧ s'.pool i = ((s.pool i).advance s.queue).2) ∨
      (∃ elem, s'.pool i = .pushLoadWrite elem) ∨ s'.pool i = .popLoadRead := by
  cases a with
  | push j elem =>
    obtain ⟨-, rfl⟩ := next_push h
    by_cases hij : i = j
    · subst hij
      exact .inr (.inr (.inl ⟨elem, Function.update_self _ _ _⟩))
    · exact .inl (Function.update_of_ne hij _ _)
  | pop j =>
    obtain ⟨-, rfl⟩ := next_pop h
    by_cases hij : i = j
    · subst hij
      exact .inr (.inr (.inr (Function.update_self _ _ _)))
    · exact .inl (Function.update_of_ne hij _ _)
  | advance j =>
    obtain ⟨-, rfl⟩ := next_advance h
    by_cases hij : i = j
    · subst hij
      exact .inr (.inl ⟨rfl, Function.update_self _ _ _⟩)
    · exact .inl (Function.update_of_ne hij _ _)

/-- The test a thread makes at its next access does not match, or is made on a first counter nobody
has moved since it was loaded. -/
def currentTest (q : UintQueue) : Pc → Bool
  | .pushLoadRead _ w => !q.looksFull w q.readIndex || q.writeIndex == w
  | .popLoadMax r => !q.looksEmpty r q.maxIndex || q.readIndex == r
  | _ => true

def Current (s : State ι) : Label ι → Prop
  | .advance i => currentTest s.queue (s.pool i) = true
  | _ => True

instance (s : State ι) : (a : Label ι) → Decidable (Current s a)
  | .push _ _ => .isTrue trivial
  | .pop _ => .isTrue trivial
  | .advance i => inferInstanceAs (Decidable (currentTest s.queue (s.pool i) = true))

section traces
variable {n : UInt32} {len : Nat} (x : ((system ι n).guarded Current).Trace len)

theorem pushCalls_lt (hcalls : (x.state len).pushCalls < 2 ^ 32) {k : Nat} (hk : k ≤ len) :
    (x.state k).pushCalls < 2 ^ 32 := by
  have hmono : ∀ d, k + d ≤ len → (x.state k).pushCalls ≤ (x.state (k + d)).pushCalls := by
    intro d
    induction d with
    | zero => exact fun _ => le_refl _
    | succ d ih =>
      intro hd
      exact (ih (by omega)).trans (pushCalls_le_next (x.follows (k + d) (by omega)).2)
  have hle := hmono (len - k) (by omega)
  rw [Nat.add_sub_cancel' hk] at hle
  omega

/-- Going back through a call, its thread is where it is now until the step that brought it there. -/
theorem exists_entry {i : ι} {target : Pc} {P : State ι → Prop} (hidle : target ≠ .idle)
    (hpush : ∀ elem, target ≠ .pushLoadWrite elem) (hpop : target ≠ .popLoadRead)
    (hentry : ∀ k < len, Current (x.state k) (.advance i) →
      (((x.state k).pool i).advance (x.state k).queue).2 = target → P (x.state k))
    {a b : Nat} (hcall : InCall x i a b) (hb : (x.state b).pool i = target) : ∃ k, a < k ∧ k < b ∧ P (x.state k) := by
  induction b with
  | zero => exact absurd hcall.1 (Nat.not_lt_zero a)
  | succ b ih =>
    obtain ⟨hab, hlen, hstart, hbusy⟩ := hcall
    obtain ⟨hcurrent, hstep⟩ := x.follows b (by omega)
    have hlt : (x.state b).pool i ≠ .idle → a < b := by
      intro hne
      rcases Nat.lt_or_ge a b with hlt | hge
      · exact hlt
      · obtain rfl : a = b := by omega
        exact absurd hstart hne
    rcases pool_next hstep i with hsame | ⟨hlabel, hmoved⟩ | ⟨elem, hcalled⟩ | hcalled
    · rw [hsame] at hb
      have hinside : InCall x i a b :=
        ⟨hlt (hb ▸ hidle), by omega, hstart, fun k hk hk' => hbusy k hk (by omega)⟩
      obtain ⟨k, hak, hkb, hk⟩ := ih hinside hb
      exact ⟨k, hak, by omega, hk⟩
    · rw [hmoved] at hb
      have hne : (x.state b).pool i ≠ .idle := by
        intro hpc
        rw [hpc] at hb
        exact hidle hb.symm
      exact ⟨b, hlt hne, Nat.lt_succ_self b, hentry b (by omega) (hlabel ▸ hcurrent) hb⟩
    · exact absurd (hb.symm.trans hcalled) (hpush elem)
    · exact absurd (hb.symm.trans hcalled) hpop

end traces

/-! ## Counting the calls -/

/-- The calls of `connector_uint_queue_push` that may still reserve a position. -/
def pending : Pc → Nat
  | .pushLoadWrite _ => 1
  | .pushLoadRead _ _ => 1
  | .pushReserve _ _ => 1
  | _ => 0

/-- An access that pushes a value ends the pending part of its call. -/
theorem pending_advance (q : UintQueue) (pc : Pc) :
    pending (pc.advance q).2 + (pushedBy q pc).length ≤ pending pc := by
  cases pc with
  | pushLoadRead elem w =>
    simp only [Pc.advance, pushedBy]
    split <;> simp [pending]
  | pushReserve elem w =>
    simp only [Pc.advance, pushedBy]
    split <;> simp [pending]
  | pushCommit elem w =>
    simp only [Pc.advance, pushedBy]
    split <;> simp [pending]
  | popLoadMax r =>
    simp only [Pc.advance, pushedBy]
    split <;> simp [pending]
  | popExchange r data =>
    simp only [Pc.advance, pushedBy]
    split <;> simp [pending]
  | _ => simp [Pc.advance, pushedBy, pending]

variable [Fintype ι]

def Counted (s : State ι) : Prop := s.pushed.length + ThreadPool.total pending s.pool ≤ s.pushCalls

theorem counted_next {s s' : State ι} {a : Label ι} (h : next s a = some s') (hc : Counted s) : Counted s' := by
  unfold Counted at hc ⊢
  cases a with
  | push i elem =>
    obtain ⟨hidle, rfl⟩ := next_push h
    have htotal := ThreadPool.total_update pending s.pool i (.pushLoadWrite elem)
    simp only [hidle, pending] at htotal
    show s.pushed.length + ThreadPool.total pending (Function.update s.pool i (.pushLoadWrite elem)) ≤ s.pushCalls + 1
    omega
  | pop i =>
    obtain ⟨hidle, rfl⟩ := next_pop h
    have htotal := ThreadPool.total_update pending s.pool i .popLoadRead
    simp only [hidle, pending] at htotal
    show s.pushed.length + ThreadPool.total pending (Function.update s.pool i .popLoadRead) ≤ s.pushCalls
    omega
  | advance i =>
    obtain ⟨-, rfl⟩ := next_advance h
    have htotal := ThreadPool.total_update pending s.pool i ((s.pool i).advance s.queue).2
    have hadvance := pending_advance s.queue (s.pool i)
    show (s.pushed ++ pushedBy s.queue (s.pool i)).length +
      ThreadPool.total pending (Function.update s.pool i ((s.pool i).advance s.queue).2) ≤ s.pushCalls
    rw [List.length_append]
    omega

theorem counted_of_reachable {n : UInt32} {s : State ι} (h : (system ι n).Reachable s) : Counted s := by
  refine h.invariant (P := Counted) ?_ fun s a s' _ hc hstep => counted_next hstep hc
  rintro s rfl
  simp [Counted, State.start, ThreadPool.total, pending]

section instants
variable {n : UInt32} {s : State ι}

/-- A matching test on the counters of one instant means a full ring. -/
theorem full_of_looksFull (hn : 0 < n.toNat) (hle : n.toNat ≤ 2 ^ 32 - 3) (h : (system ι n).Reachable s)
    (hcalls : s.pushCalls < 2 ^ 32) {i : ι} (hpending : pending (s.pool i) = 1)
    (hfull : s.queue.looksFull s.queue.writeIndex s.queue.readIndex = true) : Full s := by
  have hcount : s.pushed.length + ThreadPool.total pending s.pool ≤ s.pushCalls := counted_of_reachable h
  have hweight := ThreadPool.weight_le_total pending s.pool i
  have hi := inv_of_reachable hn hle h (by omega)
  have hwindow := hi.window
  have hread := hi.read_le_max
  have hmax := hi.max_le_write
  rw [UintQueue.looksFull_iff, toNat_succ (by rw [hi.write]; omega), hi.write, hi.read] at hfull
  have hlast : s.popped.length + s.queue.size.toNat = s.pushed.length + 1 := by
    by_contra hne
    exact RingIndex.mod_ne_of_lt (by omega) (by omega) hfull.symm
  unfold Full
  rw [UInt32.toNat_sub_of_le _ _ (by rw [UInt32.le_iff_toNat_le, hi.read, hi.write]; omega), hi.write, hi.read]
  omega

theorem drained_of_looksEmpty (hn : 0 < n.toNat) (hle : n.toNat ≤ 2 ^ 32 - 3) (h : (system ι n).Reachable s)
    (hcalls : s.pushCalls < 2 ^ 32) (hempty : s.queue.looksEmpty s.queue.readIndex s.queue.maxIndex = true) :
    Drained s := by
  have hcount : s.pushed.length + ThreadPool.total pending s.pool ≤ s.pushCalls := counted_of_reachable h
  have hi := inv_of_reachable hn hle h (by omega)
  have hwindow := hi.window
  have hread := hi.read_le_max
  have hmax := hi.max_le_write
  rw [UintQueue.looksEmpty_iff, hi.read] at hempty
  unfold Drained
  rw [← UInt32.toNat_inj, hi.read]
  exact RingIndex.eq_of_mod_eq hread (by omega) hempty

end instants

section traces
variable {n : UInt32} {len : Nat} (x : ((system ι n).guarded Current).Trace len)

theorem exists_full (hn : 0 < n.toNat) (hle : n.toNat ≤ 2 ^ 32 - 3) (hcalls : (x.state len).pushCalls < 2 ^ 32)
    {i : ι} {a b : Nat} (hcall : InCall x i a b) (herror : (x.state b).pool i = .pushDone .error) :
    ∃ k, a < k ∧ k < b ∧ Full (x.state k) := by
  refine exists_entry x (by simp) (by simp) (by simp) (fun k hk hcurrent hmoved => ?_) hcall herror
  obtain ⟨elem, w, hpc, hfull⟩ := advance_pushDone_error hmoved
  have hw : (x.state k).queue.writeIndex = w := by
    simpa [Current, currentTest, hpc, hfull] using hcurrent
  have hpending : pending ((x.state k).pool i) = 1 := by rw [hpc, pending]
  exact full_of_looksFull hn hle (x.reachable hk.le).of_guarded (pushCalls_lt x hcalls hk.le) hpending (hw ▸ hfull)

theorem exists_drained (hn : 0 < n.toNat) (hle : n.toNat ≤ 2 ^ 32 - 3) (hcalls : (x.state len).pushCalls < 2 ^ 32)
    {i : ι} {a b : Nat} (hcall : InCall x i a b) (herror : (x.state b).pool i = .popDone .error none) :
    ∃ k, a < k ∧ k < b ∧ Drained (x.state k) := by
  refine exists_entry x (by simp) (by simp) (by simp) (fun k hk hcurrent hmoved => ?_) hcall herror
  obtain ⟨r, hpc, hempty⟩ := advance_popDone_error hmoved
  have hr : (x.state k).queue.readIndex = r := by
    simpa [Current, currentTest, hpc, hempty] using hcurrent
  exact drained_of_looksEmpty hn hle (x.reachable hk.le).of_guarded (pushCalls_lt x hcalls hk.le) (hr ▸ hempty)

/-- **Failures are honest when the counters are current.** In every run of any number of threads,
with fewer than 2^32 calls of push, in which every matching test is made on a current first counter:
a push that returns an error has seen the ring full during its call, and a pop that returns an error
has seen it without a committed element. -/
theorem failures_honest (hn : 0 < n.toNat) (hle : n.toNat ≤ 2 ^ 32 - 3)
    (hcalls : (x.state len).pushCalls < 2 ^ 32) : Honest x := by
  intro i a b hcall
  exact ⟨exists_full x hn hle hcalls hcall, exists_drained x hn hle hcalls hcall⟩

end traces

/-- The first thread fills a ring of two cells, but does not commit; meanwhile a push of the second finds it full. -/
def fullRun : List (Label Bool) :=
  [.push false 5, .advance false, .advance false, .advance false, .push true 6, .advance true, .advance false, .advance true]

theorem push_fails_on_full_queue :
    ∃ x : ((system Bool 1).guarded Current).Trace 8,
      (x.state 8).pool false = .pushCommit 5 0 ∧ (x.state 8).pool true = .pushDone .error ∧
        (x.state 8).pushCalls < 2 ^ 32 ∧ Honest x := by
  have hsome : (StepSystem.runList (StepSystem.gate Current next) (State.start Bool 1) fullRun).isSome = true := by
    decide +kernel
  obtain ⟨s, hs⟩ := Option.isSome_iff_exists.mp hsome
  let x : ((system Bool 1).guarded Current).Trace 8 :=
    @StepSystem.Trace.ofGuardedRunList _ _ (· = State.start Bool 1) _ _ _ _ _ _ (.pop false) rfl hs
  have hlast : ((StepSystem.stateAt (StepSystem.gate Current next) (State.start Bool 1) fullRun 8).pool false,
      (StepSystem.stateAt (StepSystem.gate Current next) (State.start Bool 1) fullRun 8).pool true) =
      (.pushCommit 5 0, .pushDone .error) := by
    decide +kernel
  obtain ⟨hcommit, herror⟩ := Prod.mk.inj hlast
  have hcalls : (StepSystem.stateAt (StepSystem.gate Current next) (State.start Bool 1) fullRun 8).pushCalls <
      2 ^ 32 := by
    decide +kernel
  exact ⟨x, hcommit, herror, hcalls, failures_honest x (by decide) (by decide) hcalls⟩

end SubstanceConnector.QueueMachine
