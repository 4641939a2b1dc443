import SubstanceConnector.Library.ThreadPool
import SubstanceConnector.Lifecycle.Descriptors

/-!
# The ledger of a run

The keys of the ledger are the contexts in use, in the available queue or with a thread, and a key denotes the
descriptor in its slot. Every step of the run is a step of the ledger (`Move.steps`). What makes it so is that a
context is in one place only, that the slot of a context in use can be shut down and closed, and that a thread that
leaves has flagged all its contexts before it cleans them up (`Inv`).
-/

namespace SubstanceConnector.Descriptors

open ReadThreads RingIndex
open ContextSystem (ring ids freeEmpty pushesSince Proper)

/-! ## The ledger of a run -/

section books
variable {cfg : BuildConfig} {s s' : ReadThreads.State cfg} {i : Fin cfg.inboundCount}

/-- What the threads have of one kind. -/
def pool {β : Type} (f : Thread → List β) (s : ReadThreads.State cfg) : Multiset β := ∑ i, (f (s.threads i) : Multiset β)

/-- The contexts in use. -/
def engaged (s : ReadThreads.State cfg) : Multiset UInt32 :=
  (s.table.connectionQueue.contents : Multiset UInt32) + pool Thread.engaged s

/-- Every identifier that is somewhere. -/
def places (s : ReadThreads.State cfg) : Multiset UInt32 :=
  (s.table.freeContexts.contents : Multiset UInt32) + pool (·.pc.releasing) s + engaged s

def books (x : State cfg) : Ledger UInt32 Nat Nat where
  engaged := engaged x.run
  value context := (x.run.table.slot context).fd
  entry context := (x.run.table.slot context).portFile
  pending := pool (·.pc.accepted) x.run
  obtained := x.obtained
  released := x.closed
  listed := { port | port ∈ x.portFiles }

theorem coe_concat {α : Type} (l : List α) (a : α) : ((l ++ [a] : List α) : Multiset α) = a ::ₘ (l : Multiset α) :=
  Multiset.coe_eq_coe.mpr (List.perm_append_singleton a l)

/-- A thread moves, and others may wake. -/
theorem pool_turn {β : Type} {f : Thread → List β} (hf : ∀ thread : Thread, f thread.wake = f thread)
    (hturn : Turn s i s') :
    pool f s' + (f (s.threads i) : Multiset β) = pool f s + (f (s'.threads i) : Multiset β) := by
  refine ThreadPool.sum_others (f := fun j => (f (s.threads j) : Multiset β))
    (g := fun j => (f (s'.threads j) : Multiset β)) fun j hj => ?_
  obtain hsame | hwoken := hturn.others j hj
  · rw [hsame]
  · rw [hwoken, hf]

theorem engaged_wake (thread : Thread) : thread.wake.engaged = thread.engaged := by
  unfold Thread.wake
  split
  · rename_i hpc
    rw [Thread.engaged, Thread.engaged, hpc]
    rfl
  · rfl

theorem releasing_wake (thread : Thread) : thread.wake.pc.releasing = thread.pc.releasing := by
  unfold Thread.wake
  split
  · rename_i hpc
    rw [hpc]
    rfl
  · rfl

theorem accepted_wake (thread : Thread) : thread.wake.pc.accepted = thread.pc.accepted := by
  unfold Thread.wake
  split
  · rename_i hpc
    rw [hpc]
    rfl
  · rfl

theorem le_pool {β : Type} (f : Thread → List β) (s : ReadThreads.State cfg) (i : Fin cfg.inboundCount) :
    (f (s.threads i) : Multiset β) ≤ pool f s :=
  Finset.single_le_sum (f := fun j => (f (s.threads j) : Multiset β)) (fun _ _ => Multiset.zero_le _) (Finset.mem_univ i)

/-- What one step does to the contexts in use. -/
inductive Move (x x' : State cfg) : Prop
  | stay (hengaged : engaged x'.run = engaged x.run) (hpending : pool (·.pc.accepted) x'.run = pool (·.pc.accepted) x.run)
      (hobtained : x'.obtained = x.obtained) (hclosed : x'.closed = x.closed) (hports : x'.portFiles = x.portFiles)
      (hkeeps : ∀ c ∈ engaged x.run, Keeps (x.run.table.slot c) (x'.run.table.slot c))
  | accept (fd : Nat) (hengaged : engaged x'.run = engaged x.run)
      (hpending : pool (·.pc.accepted) x'.run = fd ::ₘ pool (·.pc.accepted) x.run)
      (hobtained : x'.obtained = x.obtained ++ [fd]) (hclosed : x'.closed = x.closed) (hports : x'.portFiles = x.portFiles)
      (hkeeps : ∀ c ∈ engaged x.run, Keeps (x.run.table.slot c) (x'.run.table.slot c))
  | assign (context : UInt32) (hengaged : engaged x'.run = context ::ₘ engaged x.run)
      (hnew : Engaged (x'.run.table.slot context))
      (hpending : pool (·.pc.accepted) x.run = (x'.run.table.slot context).fd ::ₘ pool (·.pc.accepted) x'.run)
      (hobtained : x'.obtained = x.obtained) (hclosed : x'.closed = x.closed) (hports : x'.portFiles = x.portFiles)
      (hkeeps : ∀ c ∈ engaged x.run, Keeps (x.run.table.slot c) (x'.run.table.slot c))
  | request (context : UInt32) (hengaged : engaged x'.run = context ::ₘ engaged x.run)
      (hnew : Engaged (x'.run.table.slot context))
      (hpending : pool (·.pc.accepted) x'.run = pool (·.pc.accepted) x.run)
      (hobtained : x'.obtained = x.obtained ++ [(x'.run.table.slot context).fd]) (hclosed : x'.closed = x.closed)
      (hports : ∀ port ∈ x'.portFiles, port ∈ x.portFiles ∨ (x'.run.table.slot context).portFile = some port)
      (hkeeps : ∀ c ∈ engaged x.run, Keeps (x.run.table.slot c) (x'.run.table.slot c))
  | release (context : UInt32) (hengaged : engaged x.run = context ::ₘ engaged x'.run)
      (hpending : pool (·.pc.accepted) x'.run = pool (·.pc.accepted) x.run) (hobtained : x'.obtained = x.obtained)
      (hclosed : x'.closed = x.closed ++ [(x.run.table.slot context).fd])
      (hports : ∀ port ∈ x'.portFiles, port ∈ x.portFiles ∧ (x.run.table.slot context).portFile ≠ some port)
      (hkeeps : ∀ c ∈ engaged x'.run, Keeps (x.run.table.slot c) (x'.run.table.slot c))

namespace Move

variable {x x' : State cfg}

theorem agree {ks : Multiset UInt32} (h : ∀ c ∈ ks, Keeps (x.run.table.slot c) (x'.run.table.slot c)) :
    (books x).Agree (books x') ks := fun c hc => ⟨(h c hc).fd, (h c hc).portFile⟩

/-- **A step of the run is a step of its ledger.** -/
theorem steps (h : Move x x') : (books x).Steps (books x') := by
  cases h with
  | stay hengaged hpending hobtained hclosed hports hkeeps =>
    exact .single (.relabel hengaged hpending (congrArg Multiset.ofList hobtained) (congrArg Multiset.ofList hclosed)
      (fun port hport => (hports ▸ hport : port ∈ x.portFiles)) (agree hkeeps))
  | accept fd hengaged hpending hobtained hclosed hports hkeeps =>
    exact .single (.obtain fd hengaged hpending ((congrArg Multiset.ofList hobtained).trans (coe_concat _ _))
      (congrArg Multiset.ofList hclosed) (fun port hport => (hports ▸ hport : port ∈ x.portFiles)) (agree hkeeps))
  | assign context hengaged hnew hpending hobtained hclosed hports hkeeps =>
    exact .single (.engage context hengaged hpending (congrArg Multiset.ofList hobtained) (congrArg Multiset.ofList hclosed)
      (fun port hport => .inl (hports ▸ hport : port ∈ x.portFiles)) (agree hkeeps))
  | request context hengaged hnew hpending hobtained hclosed hports hkeeps =>
    exact .acquire context hengaged hpending ((congrArg Multiset.ofList hobtained).trans (coe_concat _ _))
      (congrArg Multiset.ofList hclosed) hports (agree hkeeps)
  | release context hengaged hpending hobtained hclosed hports hkeeps =>
    exact .single (.release context hengaged hpending (congrArg Multiset.ofList hobtained)
      ((congrArg Multiset.ofList hclosed).trans (coe_concat _ _)) hports (agree hkeeps))

/-- A context in use before and after keeps its descriptor. -/
theorem keeps (h : Move x x') {c : UInt32} (hc : c ∈ engaged x.run) (hc' : c ∈ engaged x'.run) :
    Keeps (x.run.table.slot c) (x'.run.table.slot c) := by
  cases h with
  | stay _ _ _ _ _ hkeeps => exact hkeeps c hc
  | accept _ _ _ _ _ _ hkeeps => exact hkeeps c hc
  | assign _ _ _ _ _ _ _ hkeeps => exact hkeeps c hc
  | request _ _ _ _ _ _ _ hkeeps => exact hkeeps c hc
  | release _ _ _ _ _ _ hkeeps => exact hkeeps c hc'

theorem engaged (h : Move x x') (hs : ∀ c ∈ Descriptors.engaged x.run, Engaged (x.run.table.slot c)) :
    ∀ c ∈ Descriptors.engaged x'.run, Engaged (x'.run.table.slot c) := by
  intro c hc
  by_cases hold : c ∈ Descriptors.engaged x.run
  · exact (hs c hold).keeps (h.keeps hold hc)
  · cases h with
    | stay hengaged => exact absurd (hengaged ▸ hc) hold
    | accept _ hengaged => exact absurd (hengaged ▸ hc) hold
    | assign context hengaged hnew =>
      rw [hengaged] at hc
      rcases Multiset.mem_cons.mp hc with rfl | hc
      · exact hnew
      · exact absurd hc hold
    | request context hengaged hnew =>
      rw [hengaged] at hc
      rcases Multiset.mem_cons.mp hc with rfl | hc
      · exact hnew
      · exact absurd hc hold
    | release context hengaged => exact absurd (hengaged ▸ Multiset.mem_cons_of_mem hc) hold

end Move

end books

/-! ## The invariant -/

section invariant
variable {cfg : BuildConfig} {x x' : State cfg} {s s' : ReadThreads.State cfg} {i : Fin cfg.inboundCount}

def Closing (c : ConnectorContext) : Prop := c.configuration &&& connShutdown ≠ 0

/-- A thread that leaves flags its contexts one after another and then cleans them up from the last one down. -/
def Stage (t : ContextTable) (thread : Thread) : Prop :=
  match thread.pc with
  | .acceptPop listener _ _ => listener ∈ thread.data.held
  | .exitClose k => ∀ j, j < k → j < thread.data.assignedContexts → Closing (t.slot (thread.data.contextIds.getD j 0))
  | .cleanup k .exit => thread.data.assignedContexts = k ∧ ∀ c ∈ thread.data.held, Closing (t.slot c)
  | .release _ k .exit => thread.data.assignedContexts = k ∧ ∀ c ∈ thread.data.held, Closing (t.slot c)
  | .done => thread.data.assignedContexts = 0
  | _ => True

structure Inv (x : State cfg) : Prop where
  quiet : Quiet x.run
  length : x.run.table.contextList.length = cfg.contextCount
  free : Kept cfg x.run.table.freeContexts x.freePushes
  available : x.run.caller ≠ .finished → Stands cfg x.run.table.connectionQueue x.availablePushes
  left : x.run.caller = .finished → x.run.table.connectionQueue.contents = []
  places : places x.run ≤ (ids cfg : Multiset UInt32)
  proper : ∀ i, Proper cfg (x.run.threads i).data
  engaged : ∀ c ∈ engaged x.run, Engaged (x.run.table.slot c)
  stage : ∀ i, Stage x.run.table (x.run.threads i)
  sound : (books x).Sound

theorem Inv.nodup (hs : Inv x) : (Descriptors.places x.run).Nodup :=
  Multiset.nodup_of_le hs.places (Multiset.coe_nodup.mpr (ContextSystem.nodup_ids cfg))

theorem Inv.range (hs : Inv x) {c : UInt32} (hc : c ∈ Descriptors.places x.run) : c.toNat < cfg.contextCount :=
  ContextSystem.mem_ids.mp (Multiset.mem_coe.mp (Multiset.mem_of_le hs.places hc))

theorem Inv.card_le (hs : Inv x) : (Descriptors.places x.run).card ≤ cfg.contextCount := by
  have hcount : (ids cfg).length = cfg.contextCount := by simp [ids]
  have hle := Multiset.card_le_card hs.places
  rwa [Multiset.coe_card, hcount] at hle

theorem mem_places_of_engaged {c : UInt32} (h : c ∈ engaged s) : c ∈ places s := Multiset.mem_add.mpr (.inr h)

theorem mem_engaged_of_thread {c : UInt32} (h : c ∈ (s.threads i).engaged) : c ∈ engaged s :=
  Multiset.mem_add.mpr (.inr (Multiset.mem_of_le (le_pool Thread.engaged s i) (Multiset.mem_coe.mpr h)))

theorem mem_engaged_of_held {c : UInt32} (h : c ∈ (s.threads i).data.held) : c ∈ engaged s :=
  mem_engaged_of_thread (List.mem_append_left _ h)

/-- A free identifier is not in use. -/
theorem Inv.not_engaged_of_free (hs : Inv x) {c : UInt32} (hc : c ∈ x.run.table.freeContexts.contents) :
    c ∉ Descriptors.engaged x.run := by
  have hdisjoint := (Multiset.nodup_add.mp hs.nodup).2.2
  exact fun hengaged => Multiset.disjoint_left.mp hdisjoint (Multiset.mem_add.mpr (.inl hc)) hengaged

/-- What one step keeps, with what it does to the contexts in use. -/
structure Advance (x x' : State cfg) : Prop where
  length : x'.run.table.contextList.length = x.run.table.contextList.length
  free : Kept cfg x'.run.table.freeContexts x'.freePushes
  available : x'.run.caller ≠ .finished → Stands cfg x'.run.table.connectionQueue x'.availablePushes
  places : Descriptors.places x'.run ≤ Descriptors.places x.run
  move : Move x x'

/-! ## The steps of a thread -/

theorem Pc.lists_eq_nil {pc : Pc} (h : pc.usesQueue = false) :
    pc.accepted = [] ∧ pc.appending = [] ∧ pc.releasing = [] := by
  cases pc with
  | release | acceptPop | acceptAppend => cases h
  | _ => exact ⟨rfl, rfl, rfl⟩

theorem Thread.engaged_of_free {thread : Thread} (h : thread.pc.usesQueue = false) : thread.engaged = thread.data.held := by
  rw [Thread.engaged, (Pc.lists_eq_nil h).2.1, List.append_nil]

/-- The thread gains items of a kind. -/
theorem pool_gain {β : Type} {f : Thread → List β} (hf : ∀ thread : Thread, f thread.wake = f thread)
    (hturn : Turn s i s') {d : Multiset β} (h : (f (s'.threads i) : Multiset β) = d + (f (s.threads i) : Multiset β)) :
    pool f s' = d + pool f s := by
  have hsum := pool_turn hf hturn
  rw [h, ← add_assoc] at hsum
  rw [add_right_cancel hsum, add_comm]

theorem pool_lose {β : Type} {f : Thread → List β} (hf : ∀ thread : Thread, f thread.wake = f thread)
    (hturn : Turn s i s') {d : Multiset β} (h : (f (s.threads i) : Multiset β) = d + (f (s'.threads i) : Multiset β)) :
    pool f s = d + pool f s' := by
  have hsum := pool_turn hf hturn
  rw [h, ← add_assoc] at hsum
  rw [← add_right_cancel hsum, add_comm]

theorem pool_same {β : Type} {f : Thread → List β} (hf : ∀ thread : Thread, f thread.wake = f thread)
    (hturn : Turn s i s') (h : f (s'.threads i) = f (s.threads i)) : pool f s' = pool f s := by
  rw [pool_gain hf hturn (d := 0) (by rw [h, zero_add]), zero_add]

/-- The thread gains one item. -/
theorem pool_cons {β : Type} {f : Thread → List β} {b : β} (hf : ∀ thread : Thread, f thread.wake = f thread)
    (hturn : Turn s i s') (h : (b :: f (s.threads i)).Perm (f (s'.threads i))) : pool f s' = b ::ₘ pool f s := by
  rw [← Multiset.singleton_add]
  refine pool_gain hf hturn ?_
  rw [← Multiset.coe_eq_coe.mpr h, ← Multiset.cons_coe, Multiset.singleton_add]

/-- The thread gives one item away. -/
theorem pool_uncons {β : Type} {f : Thread → List β} {b : β} (hf : ∀ thread : Thread, f thread.wake = f thread)
    (hturn : Turn s i s') (h : (b :: f (s'.threads i)).Perm (f (s.threads i))) : pool f s = b ::ₘ pool f s' := by
  rw [← Multiset.singleton_add]
  refine pool_lose hf hturn ?_
  rw [← Multiset.coe_eq_coe.mpr h, ← Multiset.cons_coe, Multiset.singleton_add]

/-- Nothing is obtained, closed or removed by a step to such a point. -/
theorem after_free {a : Answer} (h : (s'.threads i).pc.usesQueue = false) :
    (x.after s' (.thread i a)).obtained = x.obtained ∧ (x.after s' (.thread i a)).closed = x.closed ∧
      (x.after s' (.thread i a)).portFiles = x.portFiles := by
  obtain ⟨haccepted, -, hreleasing⟩ := Pc.lists_eq_nil h
  refine ⟨?_, ?_, ?_⟩
  · simp [State.after, obtainedBy, haccepted]
  · simp [State.after, closedBy, cleared, hreleasing]
  · simp [State.after, committed, cleared, hreleasing, remove]

/-- A queue that is left alone stands for what it did. -/
theorem Inv.kept_same (hs : Inv x) {t : ContextTable} (htable : s'.table = t)
    (hqueue : t.freeContexts = x.run.table.freeContexts) :
    Kept cfg s'.table.freeContexts (x.freePushes + pushesSince x.run.table.freeContexts s'.table.freeContexts) := by
  rw [htable, hqueue]
  exact hs.free.same

theorem Inv.stands_same (hs : Inv x) (hlive : x.run.caller ≠ .finished) {t : ContextTable} (htable : s'.table = t)
    (hqueue : t.connectionQueue = x.run.table.connectionQueue) :
    Stands cfg s'.table.connectionQueue
      (x.availablePushes + pushesSince x.run.table.connectionQueue s'.table.connectionQueue) := by
  rw [htable, hqueue]
  exact (hs.available hlive).same

/-- A step that moves no context: it leaves the queues alone, or destroys them. -/
theorem advance_plain {a : Label cfg} (hs : Inv x) (hengaged : engaged s' = engaged x.run)
    (hreleasing : pool (·.pc.releasing) s' = pool (·.pc.releasing) x.run)
    (hpending : pool (·.pc.accepted) s' = pool (·.pc.accepted) x.run)
    (hlength : s'.table.contextList.length = x.run.table.contextList.length)
    (hkeeps : ∀ c, Keeps (x.run.table.slot c) (s'.table.slot c))
    (hfree : s'.table.freeContexts = x.run.table.freeContexts ∨ ¬ IsLive s'.table.freeContexts)
    (havailable : s'.caller ≠ .finished →
      x.run.caller ≠ .finished ∧ s'.table.connectionQueue = x.run.table.connectionQueue)
    (hobtained : obtainedBy x.run s' a = []) (hcleared : cleared x.run s' a = none) (hcommitted : committed x.run a = []) :
    Advance x (x.after s' a) := by
  have hplaces : places s' ≤ places x.run := by
    rw [places, places, hengaged, hreleasing]
    refine add_le_add_left (add_le_add_left ?_ _) _
    rcases hfree with hsame | hgone
    · rw [hsame]
    · have hnil : s'.table.freeContexts.contents = [] := by
        cases hp : s'.table.freeContexts with
        | live q => exact absurd ⟨q, hp⟩ hgone
        | _ => rfl
      rw [hnil]
      exact Multiset.zero_le _
  refine ⟨hlength, ?_, fun hrunning => ?_, hplaces, .stay hengaged hpending ?_ ?_ ?_ fun c _ => hkeeps c⟩
  · rcases hfree with hsame | hgone
    · exact hs.kept_same rfl hsame
    · exact fun hlive => absurd hlive hgone
  · obtain ⟨hlive, hqueue⟩ := havailable hrunning
    exact hs.stands_same hlive rfl hqueue
  · simp [State.after, hobtained]
  · simp [State.after, closedBy, hcleared]
  · simp [State.after, hcommitted, hcleared, remove]

/-- A step of a thread that leaves the queues alone and moves no context. -/
theorem advance_stay {a : Answer} (hs : Inv x) (hlive : x.run.caller ≠ .finished) (hturn : Turn x.run i s')
    (hpoint : (x.run.threads i).pc.usesQueue = false) (hpc : (s'.threads i).pc.usesQueue = false)
    (hheld : (s'.threads i).data.held = (x.run.threads i).data.held)
    (htable : ∃ list, list.length = x.run.table.contextList.length ∧ s'.table = { x.run.table with contextList := list })
    (hkeeps : ∀ c, Keeps (x.run.table.slot c) (s'.table.slot c)) : Advance x (x.after s' (.thread i a)) := by
  obtain ⟨list, hlength, htable⟩ := htable
  obtain ⟨haccepted, -, hreleasing⟩ := Pc.lists_eq_nil hpoint
  obtain ⟨haccepted', -, hreleasing'⟩ := Pc.lists_eq_nil hpc
  have hengaged : engaged s' = engaged x.run := by
    have hpool := pool_same engaged_wake hturn
      (by rw [Thread.engaged_of_free hpc, Thread.engaged_of_free hpoint, hheld])
    rw [engaged, engaged, htable, hpool]
  refine advance_plain hs hengaged ?_ ?_ ?_ hkeeps (.inl (by rw [htable])) (fun _ => ⟨hlive, by rw [htable]⟩) haccepted'
    ?_ rfl
  · exact pool_same releasing_wake hturn (by rw [hreleasing, hreleasing'])
  · exact pool_same accepted_wake hturn (by rw [haccepted, haccepted'])
  · rw [htable]
    exact hlength
  · simp [cleared, hreleasing']

/-- Acquiring moves an identifier from the available queue to the thread. -/
theorem advance_acquire {a : Answer} {r : Retcode × ReadThread × ContextTable} {pc : Pc} (hs : Inv x)
    (hturn : Turn x.run i s') (hpoint : (x.run.threads i).pc.usesQueue = false) (hpc : pc.usesQueue = false)
    (hthread : s'.threads i = ⟨pc, r.2.1⟩) (htable : s'.table = r.2.2)
    (h : Acquired cfg x.run.table x.availablePushes (x.run.threads i).data r) :
    Advance x (x.after s' (.thread i a)) := by
  have hpc' : (s'.threads i).pc.usesQueue = false := by
    rw [hthread]
    exact hpc
  obtain ⟨hobtained, hclosed, hports⟩ := after_free (x := x) (a := a) hpc'
  obtain ⟨haccepted, -, hreleasing⟩ := Pc.lists_eq_nil hpoint
  obtain ⟨haccepted', -, hreleasing'⟩ := Pc.lists_eq_nil hpc'
  obtain ⟨taken, hcontents, hheld⟩ := h.taken
  have hengaged : engaged s' = engaged x.run := by
    have hpool := pool_gain (d := (taken : Multiset UInt32)) engaged_wake hturn (by
      rw [Thread.engaged_of_free hpc', Thread.engaged_of_free hpoint, hthread, add_comm, Multiset.coe_add]
      exact congrArg Multiset.ofList hheld)
    rw [engaged, engaged, hcontents, hpool, htable, ← Multiset.coe_add, add_left_comm, add_assoc]
  have hpending : pool (·.pc.accepted) s' = pool (·.pc.accepted) x.run :=
    pool_same accepted_wake hturn (by rw [haccepted, haccepted'])
  have hplaces : places s' = places x.run := by
    rw [places, places, hengaged, pool_same releasing_wake hturn (by rw [hreleasing, hreleasing']), htable, h.free]
  refine ⟨?_, ?_, ?_, hplaces.le, .stay hengaged hpending hobtained hclosed hports fun c _ => ?_⟩
  · show s'.table.contextList.length = _
    rw [htable]
    exact h.length
  · exact hs.kept_same htable h.free
  · intro _
    show Stands cfg s'.table.connectionQueue
      (x.availablePushes + pushesSince x.run.table.connectionQueue s'.table.connectionQueue)
    rw [htable]
    exact h.available
  · show Keeps _ (s'.table.slot c)
    rw [htable]
    exact h.keeps c

/-- A cleanup that removes a context closes and clears it. -/
theorem advance_cleanup {a : Answer} {k : Nat} {after : After} {context : UInt32} {data : ReadThread} (hs : Inv x)
    (hlive : x.run.caller ≠ .finished) (hturn : Turn x.run i s') (hpoint : (x.run.threads i).pc.usesQueue = false)
    (hthread : s'.threads i = ⟨.release context k after, data⟩) (htable : s'.table = x.run.table.setSlot context .zero)
    (hheld : (context :: data.held).Perm (x.run.threads i).data.held) : Advance x (x.after s' (.thread i a)) := by
  obtain ⟨haccepted, -, hreleasing⟩ := Pc.lists_eq_nil hpoint
  have hmem : context ∈ engaged x.run := mem_engaged_of_held (hheld.subset List.mem_cons_self)
  have hsupported := (hs.engaged context hmem).supported
  have hengaged : engaged x.run = context ::ₘ engaged s' := by
    have hthreads : (s'.threads i).engaged = data.held := by
      rw [hthread]
      exact List.append_nil _
    have hpool := pool_uncons engaged_wake hturn (by rwa [Thread.engaged_of_free hpoint, hthreads])
    rw [engaged, hpool, engaged, htable, Multiset.add_cons]
    rfl
  have hpending : pool (·.pc.accepted) s' = pool (·.pc.accepted) x.run :=
    pool_same accepted_wake hturn (by rw [haccepted, hthread]; rfl)
  have hplaces : places s' = places x.run := by
    have hpool := pool_cons (f := (·.pc.releasing)) (b := context) releasing_wake hturn (by rw [hreleasing, hthread]; rfl)
    rw [places, places, hengaged, hpool, htable, Multiset.add_cons, Multiset.cons_add, Multiset.add_cons]
    rfl
  have hother : ∀ c ∈ engaged s', c ≠ context := by
    rintro c hc rfl
    have hnodup := (Multiset.nodup_add.mp hs.nodup).2.1
    rw [hengaged] at hnodup
    exact (Multiset.nodup_cons.mp hnodup).1 hc
  refine ⟨?_, ?_, ?_, hplaces.le, .release context hengaged hpending ?_ ?_ ?_ ?_⟩
  · show s'.table.contextList.length = _
    rw [htable]
    exact List.length_set
  · exact hs.kept_same htable rfl
  · exact fun _ => hs.stands_same hlive htable rfl
  · simp [State.after, obtainedBy, hthread, Pc.accepted]
  · simp [State.after, closedBy, cleared, hthread, Pc.releasing, hsupported]
  · intro port hport
    simpa [State.after, cleared, hthread, Pc.releasing, committed, remove] using hport
  · intro c hc
    show Keeps _ (s'.table.slot c)
    rw [htable, slot_setSlot_of_ne _ _ (hother c hc)]
    exact .refl _

/-- The cleared context goes back to the free queue, or nowhere once that is gone. -/
theorem advance_release {a : Answer} {context : UInt32} {k : Nat} {after : After} {data : ReadThread}
    {r : Retcode × ContextTable} (hs : Inv x) (hlive : x.run.caller ≠ .finished) (hturn : Turn x.run i s')
    (hf : Faithful (2 ^ 32) (ring cfg).toNat (x.freePushes + 1))
    (hpoint : (x.run.threads i) = ⟨.release context k after, data⟩) (hthread : s'.threads i = ⟨.cleanup k after, data⟩)
    (hpush : x.run.table.pushFree context = .ok r) (htable : s'.table = r.2) :
    Advance x (x.after s' (.thread i a)) := by
  have hpc : (s'.threads i).pc.usesQueue = false := by
    rw [hthread]
    rfl
  obtain ⟨hobtained, hclosed, hports⟩ := after_free (x := x) (a := a) hpc
  obtain ⟨p, hp, hr⟩ := bind_eq_ok.mp hpush
  obtain rfl := Except.ok.inj hr
  have hreleased : pool (·.pc.releasing) x.run = context ::ₘ pool (·.pc.releasing) s' :=
    pool_uncons releasing_wake hturn (by rw [hpoint, hthread]; rfl)
  have hengaged : engaged s' = engaged x.run := by
    rw [engaged, engaged, pool_same engaged_wake hturn (by rw [hpoint, hthread]; rfl), htable]
  have hpending : pool (·.pc.accepted) s' = pool (·.pc.accepted) x.run :=
    pool_same accepted_wake hturn (by rw [hpoint, hthread]; rfl)
  have hroom : x.run.table.freeContexts.contents.length < cfg.contextCount := by
    have hcard := hs.card_le
    rw [places, hreleased, Multiset.card_add, Multiset.card_add, Multiset.coe_card, Multiset.card_cons] at hcard
    omega
  obtain ⟨hkept, hcontents⟩ := kept_push hs.free hf hroom hp
  have hplaces : places s' ≤ places x.run := by
    rw [places, places, hengaged, hreleased, htable]
    refine add_le_add_left ?_ _
    rw [Multiset.add_cons]
    rcases hcontents with hgone | hcontents
    · show (p.2.contents : Multiset UInt32) + _ ≤ _
      rw [hgone]
      exact Multiset.le_cons_self _ _
    · show (p.2.contents : Multiset UInt32) + _ ≤ _
      rw [hcontents, coe_concat, Multiset.cons_add]
  refine ⟨?_, ?_, ?_, hplaces, .stay hengaged hpending hobtained hclosed hports fun c _ => ?_⟩
  · show s'.table.contextList.length = _
    rw [htable]
  · show Kept cfg s'.table.freeContexts (x.freePushes + pushesSince x.run.table.freeContexts s'.table.freeContexts)
    rw [htable]
    exact hkept
  · exact fun _ => hs.stands_same hlive htable rfl
  · show Keeps _ (s'.table.slot c)
    rw [htable]
    exact .refl _

/-- A connection is accepted: its descriptor waits for a context. -/
theorem advance_handle {a : Answer} {listener : UInt32} {fd k : Nat} (hs : Inv x) (hlive : x.run.caller ≠ .finished)
    (hturn : Turn x.run i s') (hpoint : (x.run.threads i).pc.usesQueue = false)
    (hthread : s'.threads i = ⟨.acceptPop listener fd k, (x.run.threads i).data⟩) (htable : s'.table = x.run.table) :
    Advance x (x.after s' (.thread i a)) := by
  obtain ⟨haccepted, -, hreleasing⟩ := Pc.lists_eq_nil hpoint
  have hengaged : engaged s' = engaged x.run := by
    have hsame : (s'.threads i).engaged = (x.run.threads i).engaged := by
      rw [Thread.engaged_of_free hpoint, hthread]
      exact List.append_nil _
    rw [engaged, engaged, htable, pool_same engaged_wake hturn hsame]
  have hpending : pool (·.pc.accepted) s' = fd ::ₘ pool (·.pc.accepted) x.run :=
    pool_cons (f := (·.pc.accepted)) accepted_wake hturn (by rw [haccepted, hthread]; rfl)
  have hplaces : places s' = places x.run := by
    rw [places, places, hengaged, htable, pool_same releasing_wake hturn (by rw [hreleasing, hthread]; rfl)]
  refine ⟨?_, ?_, ?_, hplaces.le, .accept fd hengaged hpending ?_ ?_ ?_ fun c _ => ?_⟩
  · show s'.table.contextList.length = _
    rw [htable]
  · exact hs.kept_same htable rfl
  · exact fun _ => hs.stands_same hlive htable rfl
  · simp [State.after, obtainedBy, hthread, Pc.accepted]
  · simp [State.after, closedBy, cleared, hthread, Pc.releasing]
  · simp [State.after, committed, cleared, hthread, Pc.releasing, remove]
  · show Keeps _ (s'.table.slot c)
    rw [htable]
    exact .refl _

/-- The context an accept fills with the type of its listener. -/
theorem engaged_accepted {listener c : ConnectorContext} (h : listener.supported = true) (fd : Nat) :
    Engaged { c with configuration := listener.type ||| connConnected, fd := fd } := by
  have hmask : commMask &&& commMask = commMask := by decide
  have hzero : connConnected &&& commMask = 0 := by decide
  refine ⟨supported_of_type ?_ h, .inr ?_⟩
  · show (listener.type ||| connConnected) &&& commMask = listener.type
    rw [or_and_distrib, ConnectorContext.type, UInt64.and_assoc, hmask, hzero, UInt64.or_zero]
  · show (listener.type ||| connConnected) &&& connConnected ≠ 0
    rw [or_and_distrib]
    exact fun hall => absurd (UInt64.or_eq_zero_iff.mp hall).2 (by decide)

/-- The accepted connection gets a free context. -/
theorem advance_pop {a : Answer} {listener context : UInt32} {fd k : Nat} {data : ReadThread} {popped : ContextTable}
    (hs : Inv x) (hlive : x.run.caller ≠ .finished) (hturn : Turn x.run i s')
    (hpoint : x.run.threads i = ⟨.acceptPop listener fd k, data⟩)
    (hthread : s'.threads i = ⟨.acceptAppend context k, data⟩)
    (hpop : x.run.table.popFree 0 = .ok (.success, context, popped))
    (htable : s'.table = popped.setSlot context { popped.slot context with
      configuration := (popped.slot listener).type ||| connConnected
      fd := fd }) : Advance x (x.after s' (.thread i a)) := by
  obtain ⟨p, hp, rfl⟩ := ContextTable.popFree_eq_ok hpop
  obtain ⟨hkept, ⟨hfailed, -⟩ | ⟨-, hcontents⟩⟩ := kept_pop hs.free hp
  · cases hfailed
  have hfresh : context ∉ engaged x.run := hs.not_engaged_of_free (by rw [hcontents]; exact List.mem_cons_self)
  have hrange : context.toNat < cfg.contextCount :=
    hs.range (Multiset.mem_add.mpr (.inl (Multiset.mem_add.mpr (.inl (by
      rw [hcontents]
      exact Multiset.mem_coe.mpr List.mem_cons_self)))))
  have hslot : s'.table.slot context = { x.run.table.slot context with
      configuration := (x.run.table.slot listener).type ||| connConnected
      fd := fd } := by
    rw [htable]
    refine slot_setSlot_self _ ?_
    show context.toNat < x.run.table.contextList.length
    rw [hs.length]
    exact hrange
  have hlistener : (x.run.table.slot listener).supported = true := by
    have hstage := hs.stage i
    rw [hpoint] at hstage
    refine (hs.engaged listener (mem_engaged_of_held (i := i) ?_)).supported
    rw [hpoint]
    exact hstage
  have hengaged : engaged s' = context ::ₘ engaged x.run := by
    have hpool := pool_cons (b := context) engaged_wake hturn (by
      rw [hpoint, hthread, Thread.engaged, Thread.engaged]
      show (context :: (data.held ++ [])).Perm (data.held ++ [context])
      rw [List.append_nil]
      exact (List.perm_append_singleton _ _).symm)
    rw [engaged, hpool, htable, Multiset.add_cons]
    rfl
  have hpending : pool (·.pc.accepted) x.run = (s'.table.slot context).fd ::ₘ pool (·.pc.accepted) s' := by
    rw [hslot]
    exact pool_uncons (f := (·.pc.accepted)) accepted_wake hturn (by rw [hpoint, hthread]; rfl)
  have hplaces : places s' = places x.run := by
    rw [places, places, hengaged, hcontents, htable,
      pool_same releasing_wake hturn (by rw [hpoint, hthread]; rfl), ← Multiset.cons_coe, Multiset.cons_add,
      Multiset.cons_add, Multiset.add_cons]
    rfl
  refine ⟨?_, ?_, ?_, hplaces.le, .assign context hengaged ?_ hpending ?_ ?_ ?_ fun c hc => ?_⟩
  · show s'.table.contextList.length = _
    rw [htable]
    exact List.length_set
  · show Kept cfg s'.table.freeContexts (x.freePushes + pushesSince x.run.table.freeContexts s'.table.freeContexts)
    rw [htable]
    exact hkept
  · exact fun _ => hs.stands_same hlive htable rfl
  · show Engaged (s'.table.slot context)
    rw [hslot]
    exact engaged_accepted hlistener fd
  · simp [State.after, obtainedBy, hthread, Pc.accepted]
  · simp [State.after, closedBy, cleared, hthread, Pc.releasing]
  · simp [State.after, committed, cleared, hthread, Pc.releasing, remove]
  · show Keeps _ (s'.table.slot c)
    rw [htable, slot_setSlot_of_ne _ _ fun heq : c = context => hfresh (heq ▸ hc)]
    exact .refl _

/-- The context waits for a read thread. -/
theorem advance_append {a : Answer} {context : UInt32} {k n : Nat} {data : ReadThread} {r : Retcode × ContextTable}
    (hs : Inv x) (hlive : x.run.caller ≠ .finished) (hturn : Turn x.run i s')
    (hf : Faithful (2 ^ 32) (ring cfg).toNat (x.availablePushes + 1))
    (hpoint : x.run.threads i = ⟨.acceptAppend context k, data⟩) (hthread : s'.threads i = ⟨.acceptSignal n k, data⟩)
    (hpush : connectorAvailableQueuePush x.run.table context = .ok r) (htable : s'.table = r.2) :
    Advance x (x.after s' (.thread i a)) := by
  have hpc : (s'.threads i).pc.usesQueue = false := by
    rw [hthread]
    rfl
  obtain ⟨hobtained, hclosed, hports⟩ := after_free (x := x) (a := a) hpc
  have hstands := hs.available hlive
  rw [connectorAvailableQueuePush, if_neg hstands.ne_null] at hpush
  obtain ⟨p, hp, hr⟩ := bind_eq_ok.mp hpush
  obtain rfl := Except.ok.inj hr
  have hpool : pool Thread.engaged x.run = context ::ₘ pool Thread.engaged s' :=
    pool_uncons engaged_wake hturn (by
      rw [hpoint, hthread, Thread.engaged, Thread.engaged]
      show (context :: (data.held ++ [])).Perm (data.held ++ [context])
      rw [List.append_nil]
      exact (List.perm_append_singleton _ _).symm)
  have hroom : x.run.table.connectionQueue.contents.length < cfg.contextCount := by
    have hcard := hs.card_le
    rw [places, engaged, hpool, Multiset.card_add, Multiset.card_add, Multiset.card_add, Multiset.card_cons,
      Multiset.coe_card, Multiset.coe_card] at hcard
    omega
  obtain ⟨hpushed, -, hcontents⟩ := hstands.push hf hroom hp
  have hengaged : engaged s' = engaged x.run := by
    rw [engaged, engaged, hpool, htable, Multiset.add_cons]
    show (p.2.contents : Multiset UInt32) + _ = _
    rw [hcontents, coe_concat, Multiset.cons_add]
  have hpending : pool (·.pc.accepted) s' = pool (·.pc.accepted) x.run :=
    pool_same accepted_wake hturn (by rw [hpoint, hthread]; rfl)
  have hplaces : places s' = places x.run := by
    rw [places, places, hengaged, htable, pool_same releasing_wake hturn (by rw [hpoint, hthread]; rfl)]
  refine ⟨?_, ?_, ?_, hplaces.le, .stay hengaged hpending hobtained hclosed hports fun c _ => ?_⟩
  · show s'.table.contextList.length = _
    rw [htable]
  · exact hs.kept_same htable rfl
  · intro _
    show Stands cfg s'.table.connectionQueue
      (x.availablePushes + pushesSince x.run.table.connectionQueue s'.table.connectionQueue)
    rw [htable]
    exact hpushed
  · show Keeps _ (s'.table.slot c)
    rw [htable]
    exact .refl _

end invariant

end SubstanceConnector.Descriptors
