import SubstanceConnector.Context.Exhaustion
import SubstanceConnector.Context.Ownership

/-!
# Identifiers that exist

What the free queue yields indexes the context array. The reason is local: every identifier that is pushed was
compared with the number of contexts in the same call, and a cell that was never written holds zero. So it holds in
every run, also past a wrap of the counters and after contexts have been taken that were not there
(`free_in_range`).
-/

namespace SubstanceConnector.ContextSystem

/-- The queue can be used, and its cells hold identifiers of contexts. -/
def CellsInRange (cfg : BuildConfig) (p : QueuePtr) : Prop :=
  ∃ q, p = .live q ∧ q.size ≠ 0 ∧ ∀ x ∈ q.array, x.toNat < cfg.contextCount

section range
variable {cfg : BuildConfig} {p : QueuePtr} {t u : ContextTable} {v context : UInt32}

theorem load_in_range {q : UintQueue} (hcells : ∀ x ∈ q.array, x.toNat < cfg.contextCount) (position : UInt32) :
    (q.load position).toNat < cfg.contextCount := by
  rw [UintQueue.load, List.getD_eq_getElem?_getD]
  cases hcell : q.array[q.cell position]? with
  | none => exact cfg.contextCount_pos
  | some x => exact hcells x (List.mem_of_getElem? hcell)

theorem CellsInRange.pop (h : CellsInRange cfg p) (hv : v.toNat < cfg.contextCount)
    {r : Retcode × UInt32 × QueuePtr} (hpop : connectorUintQueuePop p v = .ok r) :
    r.2.1.toNat < cfg.contextCount ∧ CellsInRange cfg r.2.2 := by
  obtain ⟨q, rfl, hsize, hcells⟩ := h
  cases uintQueuePop_cases hpop with
  | empty => exact ⟨hv, q, rfl, hsize, hcells⟩
  | taken => exact ⟨load_in_range hcells _, _, rfl, hsize, hcells⟩

theorem CellsInRange.push (h : CellsInRange cfg p) (hv : v.toNat < cfg.contextCount) {r : Retcode × QueuePtr}
    (hpush : connectorUintQueuePush p v = .ok r) : CellsInRange cfg r.2 := by
  obtain ⟨q, rfl, hsize, hcells⟩ := h
  cases uintQueuePush_cases hpush with
  | full => exact ⟨q, rfl, hsize, hcells⟩
  | stored =>
    refine ⟨_, rfl, hsize, fun x hx => ?_⟩
    rcases List.mem_or_eq_of_mem_set hx with hmem | rfl
    · exact hcells x hmem
    · exact hv

theorem CellsInRange.popFree (h : CellsInRange cfg t.freeContexts) {r : Retcode × UInt32 × ContextTable}
    (hpop : t.popFree 0 = .ok r) : r.2.1.toNat < cfg.contextCount ∧ CellsInRange cfg r.2.2.freeContexts := by
  obtain ⟨q, hq, hr⟩ := bind_eq_ok.mp hpop
  obtain rfl := Except.ok.inj hr
  exact h.pop (v := 0) cfg.contextCount_pos hq

theorem CellsInRange.pushFree (h : CellsInRange cfg t.freeContexts) (hrange : context.toNat < cfg.contextCount)
    {r : Retcode × ContextTable} (hpush : t.pushFree context = .ok r) : CellsInRange cfg r.2.freeContexts := by
  obtain ⟨q, hq, hr⟩ := bind_eq_ok.mp hpush
  obtain rfl := Except.ok.inj hr
  exact h.push hrange hq

theorem freeContexts_appendAvailable (h : appendAvailable t context = .ok u) : u.freeContexts = t.freeContexts := by
  obtain ⟨r, hr, hu⟩ := bind_eq_ok.mp h
  obtain rfl := Except.ok.inj hu
  unfold connectorAvailableQueuePush at hr
  split at hr
  · obtain rfl := Except.ok.inj hr
    rfl
  · obtain ⟨q, -, hr⟩ := bind_eq_ok.mp hr
    obtain rfl := Except.ok.inj hr
    rfl

theorem CellsInRange.appendAvailable (h : CellsInRange cfg t.freeContexts)
    (happend : appendAvailable t context = .ok u) : CellsInRange cfg u.freeContexts := by
  rw [freeContexts_appendAvailable happend]
  exact h

end range

/-! ## Every run -/

section runs
variable {cfg : BuildConfig} {s s' : State} {t : ContextTable}

theorem cellsInRange_cleanupLoop {closed : UInt32 → Bool} {i : Nat} {retcode : Retcode} {thread : ReadThread}
    {r : Retcode × ReadThread × ContextTable} (h : CellsInRange cfg t.freeContexts)
    (hr : cleanupLoop cfg closed i retcode thread t = .ok r) : CellsInRange cfg r.2.2.freeContexts := by
  refine cleanupLoop_keeps (P := fun t => CellsInRange cfg t.freeContexts) (fun {t _ context _} ht hshut => ?_) h hr
  obtain ⟨hrange, pushed, hpush, rfl⟩ | ⟨-, rfl⟩ := contextShutdown_cases hshut
  · have hset : CellsInRange cfg (t.setSlot context .zero).freeContexts := ht
    exact hset.pushFree hrange hpush
  · exact ht

theorem cellsInRange_next {a : Label} (h : CellsInRange cfg s.table.freeContexts) (hstep : next cfg s a = some s') :
    CellsInRange cfg s'.table.freeContexts := by
  cases next_cases hstep with
  | @openContext o desc identifier r hr =>
    show CellsInRange cfg r.2.2.freeContexts
    cases contextOpen_cases hr with
    | invalid => exact h
    | exhausted hpop => exact (h.popFree hpop).2
    | @opened desc v context copy c u w hpop hrange hcopy hopen happend =>
      have hset : CellsInRange cfg (u.setSlot context c).freeContexts := (h.popFree hpop).2
      exact hset.appendAvailable happend
    | @failed desc v context retcode u pushed hpop hrange hretcode hpush =>
      have hset : CellsInRange cfg (u.setSlot context .zero).freeContexts := (h.popFree hpop).2
      exact hset.pushFree hrange hpush
  | @connect o desc identifier r hr =>
    show CellsInRange cfg r.2.2.freeContexts
    cases contextConnect_cases hr with
    | invalid => exact h
    | @connected desc v context popped c u w hpop hrange hbridge happend =>
      have hset : CellsInRange cfg (u.setSlot context (bridged c)).freeContexts := (h.popFree hpop).2
      exact hset.appendAvailable happend
    | @failed desc v context popped retcode c u pushed hpop hrange hbridge hretcode hpush =>
      have hset : CellsInRange cfg (u.setSlot context c).freeContexts := (h.popFree hpop).2
      exact hset.pushFree hrange hpush
  | @accept accepted listener identifier r hr =>
    show CellsInRange cfg r.2.2.freeContexts
    cases contextAccept_cases hr with
    | refused => exact h
    | @accepted v context popped fd u w hlistener haccept hpop hrange happend =>
      have hset : CellsInRange cfg (u.setSlot context { u.slot context with
          configuration := (u.slot listener).type ||| connConnected
          fd := fd }).freeContexts := (h.popFree hpop).2
      exact hset.appendAvailable happend
  | close context =>
    show CellsInRange cfg (connectorContextClose cfg s.table context).2.freeContexts
    obtain hsame | ⟨-, -, hset⟩ := contextClose_cases cfg s.table context
    · rw [hsame]
      exact h
    · rw [hset]
      exact h
  | @acquire i o thread r hi hr =>
    show CellsInRange cfg r.2.2.freeContexts
    obtain ⟨u, hpop, rfl⟩ | ⟨context, u, hpop, -, rfl⟩ := readThreadTryAcquire_cases hr
    · rw [freeContexts_availableQueuePop hpop]
      exact h
    · have hfree : CellsInRange cfg u.freeContexts := by
        rw [freeContexts_availableQueuePop hpop]
        exact h
      obtain hsame | ⟨-, -, hset⟩ := contextWriteHandshake_cases cfg u o context
      · rw [hsame]
        exact hfree
      · rw [hset]
        exact hfree
  | cleanup hi hr => exact cellsInRange_cleanupLoop h hr

theorem cellsInRange_pushAll {xs : List UInt32} {t u : ContextTable} (hxs : ∀ x ∈ xs, x.toNat < cfg.contextCount)
    (h : CellsInRange cfg t.freeContexts) (hall : pushAll xs t = .ok u) : CellsInRange cfg u.freeContexts := by
  induction xs generalizing t with
  | nil =>
    obtain rfl := Except.ok.inj hall
    exact h
  | cons x xs ih =>
    obtain ⟨pushed, hpush, hall⟩ := bind_eq_ok.mp hall
    exact ih (fun y hy => hxs y (List.mem_cons_of_mem _ hy)) (h.pushFree (hxs x List.mem_cons_self) hpush) hall

theorem cellsInRange_starts {n : Nat} (h : Starts cfg n s) : CellsInRange cfg s.table.freeContexts := by
  obtain ⟨htable, -, -, -⟩ := h
  obtain ⟨a, ha, htable⟩ := bind_eq_ok.mp htable
  obtain ⟨b, hb, htable⟩ := bind_eq_ok.mp htable
  -- the second queue is created beside the first
  have hfirst : s.table.freeContexts = a.2.freeContexts := by
    have hlast : b.2 = s.table := Except.ok.inj htable
    rw [← hlast]
    unfold connectorAvailableQueueInit at hb
    split at hb
    · obtain ⟨queue, -, hb⟩ := bind_eq_ok.mp hb
      obtain rfl := Except.ok.inj hb
      rfl
    · obtain rfl := Except.ok.inj hb
      rfl
  have hcount : UInt32.ofNat cfg.contextCount ≠ 0 := by
    intro hzero
    have hnat := toNat_contextCount cfg
    rw [hzero] at hnat
    exact absurd hnat.symm cfg.contextCount_pos.ne'
  have hempty : CellsInRange cfg (.live (.empty (ring cfg))) := by
    refine ⟨_, rfl, ring_ne_zero cfg, fun x hx => ?_⟩
    obtain rfl := List.eq_of_mem_replicate hx
    exact cfg.contextCount_pos
  obtain ⟨queue, hcreate, ha⟩ := bind_eq_ok.mp ha
  rw [connectorUintQueueCreate, if_pos rfl, if_neg hcount, if_pos rfl] at hcreate
  obtain rfl := Except.ok.inj hcreate
  obtain ⟨u, hall, ha⟩ := bind_eq_ok.mp ha
  obtain rfl := Except.ok.inj ha
  rw [hfirst]
  exact cellsInRange_pushAll (fun x hx => mem_ids.mp hx) hempty hall

/-- The next identifier of the free queue is that of a context, and so is what a call goes on with when there is
none. -/
theorem free_in_range {n : Nat} (h : (system cfg n).Reachable s) : CellsInRange cfg s.table.freeContexts :=
  h.invariant (P := fun s => CellsInRange cfg s.table.freeContexts) (fun _ hs => cellsInRange_starts hs)
    fun _ _ _ _ hs hstep => cellsInRange_next hs hstep

end runs

/-! ## A connect always returns -/

/-- Pushes and pops are defined. -/
def LiveQueue (p : QueuePtr) : Prop := ∃ q, p = .live q ∧ q.size ≠ 0

section returns
variable {cfg : BuildConfig} {p : QueuePtr} {t u : ContextTable} {v context : UInt32}

theorem LiveQueue.pop (h : LiveQueue p) {r : Retcode × UInt32 × QueuePtr} (hpop : connectorUintQueuePop p v = .ok r) :
    LiveQueue r.2.2 := by
  obtain ⟨q, rfl, hsize⟩ := h
  cases uintQueuePop_cases hpop with
  | empty => exact ⟨q, rfl, hsize⟩
  | taken => exact ⟨_, rfl, hsize⟩

theorem LiveQueue.push (h : LiveQueue p) {r : Retcode × QueuePtr} (hpush : connectorUintQueuePush p v = .ok r) :
    LiveQueue r.2 := by
  obtain ⟨q, rfl, hsize⟩ := h
  cases uintQueuePush_cases hpush with
  | full => exact ⟨q, rfl, hsize⟩
  | stored => exact ⟨_, rfl, hsize⟩

theorem LiveQueue.push_returns (h : LiveQueue p) (v : UInt32) : ∃ r, connectorUintQueuePush p v = .ok r := by
  obtain ⟨q, rfl, hsize⟩ := h
  exact ⟨_, if_neg hsize⟩

/-- The available queue stays usable. -/
theorem LiveQueue.evolves (h : Evolves t u) (ht : LiveQueue t.connectionQueue) : LiveQueue u.connectionQueue := by
  induction h with
  | refl t => exact ht
  | popFree _ _ ih => exact ih ht
  | pushFree _ _ ih => exact ih ht
  | popAvailable hpop _ ih => exact ih (ht.pop hpop)
  | pushAvailable hpush _ ih => exact ih (ht.push hpush)
  | setSlot _ _ _ ih => exact ih ht

theorem available_live {n : Nat} {s : State} (h : (system cfg n).Reachable s) : LiveQueue s.table.connectionQueue := by
  refine h.invariant (P := fun s => LiveQueue s.table.connectionQueue) ?_ fun _ _ _ _ hs hstep =>
    hs.evolves (evolves_next hstep)
  rintro s ⟨hstart, -, -, -⟩
  obtain ⟨t, ht, -, -, ⟨q, hq, -, hrep⟩⟩ := startTable_rep cfg
  obtain rfl : t = s.table := Except.ok.inj (ht.symm.trans hstart)
  exact ⟨q, hq, QueuePtr.Rep.size_ne_zero hrep⟩

theorem CellsInRange.liveQueue (h : CellsInRange cfg p) : LiveQueue p := by
  obtain ⟨q, hq, hsize, -⟩ := h
  exact ⟨q, hq, hsize⟩

theorem popFree_returns (h : LiveQueue t.freeContexts) :
    ∃ r, t.popFree 0 = .ok r ∧ r.2.2.connectionQueue = t.connectionQueue := by
  obtain ⟨q, hq, hsize⟩ := h
  have hpop : ∃ r, connectorUintQueuePop t.freeContexts 0 = .ok r := by
    rw [hq, connectorUintQueuePop, if_neg hsize]
    cases hpop : q.pop with
    | mk first q' =>
      cases first with
      | none => exact ⟨_, rfl⟩
      | some x => exact ⟨_, rfl⟩
  obtain ⟨r, hr⟩ := hpop
  refine ⟨(r.1, r.2.1, { t with freeContexts := r.2.2 }), ?_, rfl⟩
  rw [ContextTable.popFree, hr]
  rfl

theorem appendAvailable_returns (h : LiveQueue t.connectionQueue) (context : UInt32) :
    ∃ u, appendAvailable t context = .ok u := by
  obtain ⟨r, hr⟩ := h.push_returns context
  have hlive : t.connectionQueue ≠ .null := by
    obtain ⟨q, hq, -⟩ := h
    rw [hq]
    exact nofun
  refine ⟨{ t with connectionQueue := r.2 }, ?_⟩
  rw [SubstanceConnector.appendAvailable, connectorAvailableQueuePush, if_neg hlive, hr]
  rfl

/-- A connect on the context it took. -/
theorem contextConnect_popped {o : ConnectOutcome} {desc : ContextDesc} {identifier : UInt32}
    {popped : Retcode × UInt32 × ContextTable} (hpop : t.popFree 0 = .ok popped)
    (hrange : popped.2.1.toNat < cfg.contextCount) {retcode : Retcode} {c : ConnectorContext}
    (hbridge : connectorBridgeConnection cfg o (described desc (desc.connectionData.map .borrowed)) = (retcode, c)) :
    connectorContextConnect cfg o t (some desc) (some identifier) =
      if retcode = .success then do
        let t ← appendAvailable (popped.2.2.setSlot popped.2.1 (bridged c)) popped.2.1
        return (.success, some popped.2.1, t)
      else do
        let pushed ← (popped.2.2.setSlot popped.2.1 c).pushFree popped.2.1
        return (retcode, some identifier, pushed.2) := by
  have hretcode := congrArg Prod.fst hbridge
  have hc := congrArg Prod.snd hbridge
  dsimp only at hretcode hc
  rw [connectorContextConnect, hpop, ← hretcode, ← hc]
  exact if_pos hrange

/-- Whatever the system answers and whether or not there is a free context, a connect comes to an end. -/
theorem contextConnect_returns (hcells : CellsInRange cfg t.freeContexts) (havailable : LiveQueue t.connectionQueue)
    (o : ConnectOutcome) (desc : ContextDesc) (identifier : UInt32) :
    ∃ r, connectorContextConnect cfg o t (some desc) (some identifier) = .ok r := by
  obtain ⟨popped, hpop, hqueue⟩ := popFree_returns hcells.liveQueue
  obtain ⟨hrange, hcells'⟩ := hcells.popFree hpop
  cases hbridge : connectorBridgeConnection cfg o (described desc (desc.connectionData.map .borrowed)) with
  | mk retcode c =>
    rw [contextConnect_popped hpop hrange hbridge]
    by_cases hsuccess : retcode = .success
    · have hlast : LiveQueue (popped.2.2.setSlot popped.2.1 (bridged c)).connectionQueue := by
        show LiveQueue popped.2.2.connectionQueue
        rw [hqueue]
        exact havailable
      obtain ⟨u, hu⟩ := appendAvailable_returns hlast popped.2.1
      rw [if_pos hsuccess, hu]
      exact ⟨_, rfl⟩
    · obtain ⟨r, hr⟩ := hcells'.liveQueue.push_returns popped.2.1
      have hpushed : (popped.2.2.setSlot popped.2.1 c).pushFree popped.2.1 =
          .ok (r.1, { popped.2.2.setSlot popped.2.1 c with freeContexts := r.2 }) := by
        show (connectorUintQueuePush popped.2.2.freeContexts popped.2.1 >>= _) = _
        rw [hr]
        rfl
      rw [if_neg hsuccess, hpushed]
      exact ⟨_, rfl⟩

end returns

/-! ## A context to take -/

section taking
variable {cfg : BuildConfig} {t : ContextTable} {items : List UInt32} {k : Nat}

/-- A free context is taken, and can be put back whatever its slot holds by then. -/
theorem popFree_of_rep (hrep : t.freeContexts.Rep (ring cfg) items k) (hcells : CellsInRange cfg t.freeContexts)
    (hfree : freeEmpty t = false) (hf : RingIndex.Faithful (2 ^ 32) (ring cfg).toNat (k + 1)) :
    ∃ context u, t.popFree 0 = .ok (.success, context, u) ∧ context.toNat < cfg.contextCount ∧
      ∀ c, ∃ pushed, (u.setSlot context c).pushFree context = .ok pushed := by
  obtain ⟨context, rest, rfl⟩ := List.exists_cons_of_ne_nil (ne_nil_of_rep hrep hfree)
  obtain ⟨p, hp, hrep'⟩ := hrep.pop_cons 0
  have hpop : t.popFree 0 = .ok (.success, context, { t with freeContexts := p }) := by
    rw [ContextTable.popFree, hp]
    rfl
  have hroom : rest.length + 1 < (ring cfg).toNat := by
    obtain ⟨q, -, hsize, hq⟩ := hrep
    have hlt := hq.room
    rw [List.length_cons, hsize] at hlt
    exact hlt
  obtain ⟨p', hp', -⟩ := hrep'.push hf hroom context
  refine ⟨context, _, hpop, (hcells.popFree hpop).1, fun c => ⟨(.success, { t with
    contextList := t.contextList.set context.toNat c
    freeContexts := p' }), ?_⟩⟩
  show (connectorUintQueuePush p context >>= _) = _
  rw [hp']
  rfl

end taking

end SubstanceConnector.ContextSystem
