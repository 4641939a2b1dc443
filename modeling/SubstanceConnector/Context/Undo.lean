import SubstanceConnector.Context.Calls
import SubstanceConnector.Context.Ownership

/-!
# Calls that fail

Opening and connecting take a context and fill its slot before they know whether the system agrees.
`connector_context_open` clears the slot again and returns the context; `connector_context_connect` returns the
context as it was filled (`undone_iff`). What the free queue holds is a list throughout, in every run that stops
short of a wrap, also when contexts are taken that are not there (`Pushes`).
-/

namespace SubstanceConnector.ContextSystem

open RingIndex

/-! ## The free queue in any run -/

/-- At most `n` pushes are made on the free queue. -/
def Pushes (cfg : BuildConfig) (n : Nat) (t u : ContextTable) : Prop :=
  ∀ items k, t.freeContexts.Rep (ring cfg) items k → Faithful (2 ^ 32) (ring cfg).toNat (k + n) →
    ∃ items' d, d ≤ n ∧ u.freeContexts.Rep (ring cfg) items' (k + d)

namespace Pushes

variable {cfg : BuildConfig} {t u v : ContextTable} {m n : Nat}

theorem of_same (h : u.freeContexts = t.freeContexts) : Pushes cfg 0 t u := by
  intro items k hrep _
  rw [h]
  exact ⟨items, 0, le_refl 0, hrep⟩

theorem trans (h : Pushes cfg m t u) (h' : Pushes cfg n u v) : Pushes cfg (m + n) t v := by
  intro items k hrep hf
  obtain ⟨items', d, hd, hrep'⟩ := h items k hrep (hf.mono (by omega))
  obtain ⟨items'', e, he, hrep''⟩ := h' items' (k + d) hrep' (hf.mono (by omega))
  exact ⟨items'', d + e, by omega, by rwa [← Nat.add_assoc]⟩

theorem mono (h : Pushes cfg m t u) (hmn : m ≤ n) : Pushes cfg n t u := by
  intro items k hrep hf
  obtain ⟨items', d, hd, hrep'⟩ := h items k hrep (hf.mono (by omega))
  exact ⟨items', d, by omega, hrep'⟩

theorem of_popFree {w : UInt32} {r : Retcode × UInt32 × ContextTable} (h : t.popFree w = .ok r) :
    Pushes cfg 0 t r.2.2 := by
  intro items k hrep _
  obtain ⟨p, hp, hr⟩ := bind_eq_ok.mp h
  obtain rfl := Except.ok.inj hr
  cases items with
  | nil =>
    obtain rfl := Except.ok.inj (hp.symm.trans (hrep.pop_nil w))
    exact ⟨[], 0, le_refl 0, hrep⟩
  | cons x rest =>
    obtain ⟨p', hp', hrep'⟩ := hrep.pop_cons w
    obtain rfl := Except.ok.inj (hp.symm.trans hp')
    exact ⟨rest, 0, le_refl 0, hrep'⟩

/-- A push that finds the ring full leaves it. -/
theorem of_pushFree {context : UInt32} {r : Retcode × ContextTable} (h : t.pushFree context = .ok r) :
    Pushes cfg 1 t r.2 := by
  intro items k hrep hf
  obtain ⟨p, hp, hr⟩ := bind_eq_ok.mp h
  obtain rfl := Except.ok.inj hr
  by_cases hroom : items.length + 1 < (ring cfg).toNat
  · obtain ⟨p', hp', hrep'⟩ := hrep.push hf hroom context
    obtain rfl := Except.ok.inj (hp.symm.trans hp')
    exact ⟨_, 1, le_refl 1, hrep'⟩
  · obtain ⟨q, hq, hsize, hrepq⟩ := hrep
    have hfull : items.length + 1 = q.size.toNat := by
      have := hrepq.room
      rw [hsize] at this ⊢
      omega
    rw [hq, connectorUintQueuePush, if_neg (QueuePtr.Rep.size_ne_zero hrepq),
      hrepq.push_full (by rw [hsize]; exact hf) hfull] at hp
    obtain rfl := Except.ok.inj hp
    exact ⟨items, 0, Nat.zero_le 1, q, rfl, hsize, hrepq⟩

theorem of_appendAvailable {context : UInt32} (h : appendAvailable t context = .ok u) : Pushes cfg 0 t u := by
  obtain ⟨p, hp, hu⟩ := bind_eq_ok.mp h
  obtain rfl := Except.ok.inj hu
  unfold connectorAvailableQueuePush at hp
  split at hp
  · obtain rfl := Except.ok.inj hp
    exact .of_same rfl
  · obtain ⟨r, -, hr⟩ := bind_eq_ok.mp hp
    obtain rfl := Except.ok.inj hr
    exact .of_same rfl

theorem of_open {o : OpenOutcome} {desc : Option ContextDesc} {identifier : Option UInt32}
    {r : Retcode × Option UInt32 × ContextTable} (h : connectorContextOpen cfg o t desc identifier = .ok r) :
    Pushes cfg 1 t r.2.2 := by
  cases contextOpen_cases h with
  | invalid => exact (of_same rfl).mono (by omega)
  | exhausted hpop => exact (of_popFree hpop).mono (by omega)
  | @opened desc v context copy c u w hpop hrange hcopy hopen happend =>
    have hset : Pushes cfg 0 u (u.setSlot context c) := .of_same rfl
    exact ((of_popFree hpop).trans (hset.trans (of_appendAvailable happend))).mono (by omega)
  | @failed desc v context retcode u pushed hpop hrange hretcode hpush =>
    have hset : Pushes cfg 0 u (u.setSlot context .zero) := .of_same rfl
    exact ((of_popFree hpop).trans (hset.trans (of_pushFree hpush))).mono (by omega)

theorem of_connect {o : ConnectOutcome} {desc : Option ContextDesc} {identifier : Option UInt32}
    {r : Retcode × Option UInt32 × ContextTable} (h : connectorContextConnect cfg o t desc identifier = .ok r) :
    Pushes cfg 1 t r.2.2 := by
  cases contextConnect_cases h with
  | invalid => exact (of_same rfl).mono (by omega)
  | @connected desc v context popped c u w hpop hrange hbridge happend =>
    have hset : Pushes cfg 0 u (u.setSlot context (bridged c)) := .of_same rfl
    exact ((of_popFree hpop).trans (hset.trans (of_appendAvailable happend))).mono (by omega)
  | @failed desc v context popped retcode c u pushed hpop hrange hbridge hretcode hpush =>
    have hset : Pushes cfg 0 u (u.setSlot context c) := .of_same rfl
    exact ((of_popFree hpop).trans (hset.trans (of_pushFree hpush))).mono (by omega)

theorem of_accept {incoming : Option Nat} {listener : UInt32} {identifier : Option UInt32}
    {r : Retcode × Option UInt32 × ContextTable} (h : connectorContextAccept cfg incoming t listener identifier = .ok r) :
    Pushes cfg 0 t r.2.2 := by
  cases contextAccept_cases h with
  | refused => exact .of_same rfl
  | @accepted v context popped fd u w hlistener haccept hpop hrange happend =>
    have hset : Pushes cfg 0 u (u.setSlot context { u.slot context with
        configuration := (u.slot listener).type ||| connConnected
        fd := fd }) := .of_same rfl
    exact (of_popFree hpop).trans (hset.trans (of_appendAvailable happend))

theorem of_close (context : UInt32) : Pushes cfg 0 t (connectorContextClose cfg t context).2 := by
  refine .of_same ?_
  obtain h | ⟨-, -, h⟩ := contextClose_cases cfg t context <;> rw [h]
  rfl

theorem of_writeHandshake (o : HandshakeOutcome) (context : UInt32) :
    Pushes cfg 0 t (connectorContextWriteHandshake cfg o t context).2 := by
  refine .of_same ?_
  obtain h | ⟨-, -, h⟩ := contextWriteHandshake_cases cfg t o context <;> rw [h]
  rfl

theorem of_tryAcquire {o : HandshakeOutcome} {thread : ReadThread} {r : Retcode × ReadThread × ContextTable}
    (h : connectorReadThreadTryAcquire cfg o thread t = .ok r) : Pushes cfg 0 t r.2.2 := by
  obtain ⟨u, hpop, rfl⟩ | ⟨context, u, hpop, -, rfl⟩ := readThreadTryAcquire_cases h
  · exact of_same (freeContexts_availableQueuePop hpop)
  · exact (of_same (freeContexts_availableQueuePop hpop)).trans (of_writeHandshake _ _)

theorem of_shutdown {closed : Bool} {context : UInt32} {r : ShutdownResult}
    (h : connectorContextShutdownFromReadThread cfg closed t context = .ok r) : Pushes cfg 1 t r.table := by
  obtain ⟨-, pushed, hpush, rfl⟩ | ⟨-, rfl⟩ := contextShutdown_cases h
  · have hset : Pushes cfg 0 t (t.setSlot context .zero) := .of_same rfl
    exact (hset.trans (of_pushFree hpush)).mono (by omega)
  · exact (of_same rfl).mono (by omega)

theorem of_cleanupLoop {closed : UInt32 → Bool} {i : Nat} {retcode : Retcode} {thread : ReadThread}
    {r : Retcode × ReadThread × ContextTable} (h : cleanupLoop cfg closed i retcode thread t = .ok r) :
    Pushes cfg i t r.2.2 ∧ r.2.1.assignedContexts ≤ thread.assignedContexts := by
  induction i generalizing retcode thread t with
  | zero =>
    obtain rfl := Except.ok.inj h
    exact ⟨.of_same rfl, le_refl _⟩
  | succ i ih =>
    have hremoved : (connectorReadThreadRemoveContext thread i).2.assignedContexts ≤ thread.assignedContexts := by
      unfold connectorReadThreadRemoveContext
      dsimp only
      split_ifs
      · exact Nat.sub_le _ _
      · exact Nat.sub_le _ _
      · exact le_refl _
    obtain ⟨context, shut, hshut, h⟩ | h | h := cleanupLoop_cases h
    · obtain ⟨hrest, hle⟩ := ih h
      exact ⟨((of_shutdown hshut).trans hrest).mono (by omega), hle.trans hremoved⟩
    · obtain ⟨hrest, hle⟩ := ih h
      exact ⟨hrest.mono (by omega), hle.trans hremoved⟩
    · obtain ⟨hrest, hle⟩ := ih h
      exact ⟨hrest.mono (by omega), hle⟩

end Pushes

/-- What every run keeps: the free queue stands for a list, and the arrays have their size. -/
structure Tracked (cfg : BuildConfig) (s : State) : Prop where
  free : ∃ items, s.table.freeContexts.Rep (ring cfg) items s.freePushes
  slots : s.table.contextList.length = cfg.contextCount
  load : ∀ thread ∈ s.threads, thread.assignedContexts ≤ cfg.readContexts

theorem length_of_evolves {t u : ContextTable} (h : Evolves t u) : u.contextList.length = t.contextList.length := by
  induction h with
  | refl t => rfl
  | popFree _ _ ih => exact ih
  | pushFree _ _ ih => exact ih
  | popAvailable _ _ ih => exact ih
  | pushAvailable _ _ ih => exact ih
  | setSlot context c _ ih =>
    rw [ih, ContextTable.setSlot]
    exact List.length_set

section tracked
variable {cfg : BuildConfig} {s : State}

theorem tracked_starts {n : Nat} (h : Starts cfg n s) : Tracked cfg s := by
  obtain ⟨htable, hthreads, hfree, -⟩ := h
  obtain ⟨t, ht, hlist, hrep, -⟩ := startTable_rep cfg
  obtain rfl : t = s.table := Except.ok.inj (ht.symm.trans htable)
  refine ⟨⟨ids cfg, hfree ▸ hrep⟩, by rw [hlist, List.length_replicate], fun thread hmem => ?_⟩
  rw [hthreads] at hmem
  rw [List.eq_of_mem_replicate hmem]
  exact Nat.zero_le _

theorem Tracked.moveTo {t : ContextTable} {threads : List ReadThread} {n : Nat} (h : Tracked cfg s)
    (hpushes : Pushes cfg n s.table t) (hf : Faithful (2 ^ 32) (ring cfg).toNat (s.freePushes + n)) (hn : n < 2 ^ 32)
    (hevolves : Evolves s.table t) (hload : ∀ thread ∈ threads, thread.assignedContexts ≤ cfg.readContexts) :
    Tracked cfg (s.moveTo t threads) := by
  obtain ⟨items, hrep⟩ := h.free
  obtain ⟨items', d, hd, hrep'⟩ := hpushes items _ hrep hf
  refine ⟨⟨items', ?_⟩, (length_of_evolves hevolves).trans h.slots, hload⟩
  show t.freeContexts.Rep (ring cfg) items' (s.freePushes + pushesSince s.table.freeContexts t.freeContexts)
  rw [pushesSince_eq hrep hrep' (by omega)]
  exact hrep'

theorem readContexts_lt (cfg : BuildConfig) : cfg.readContexts < 2 ^ 32 := by
  have hle := cfg.contextCount_le
  have hdiv := Nat.div_le_self cfg.contextCount cfg.inboundCount
  unfold BuildConfig.readContexts
  omega

theorem load_tryAcquire {o : HandshakeOutcome} {thread : ReadThread} {t : ContextTable}
    {r : Retcode × ReadThread × ContextTable} (h : connectorReadThreadTryAcquire cfg o thread t = .ok r)
    (hload : thread.assignedContexts ≤ cfg.readContexts) : r.2.1.assignedContexts ≤ cfg.readContexts := by
  obtain ⟨u, -, rfl⟩ | ⟨context, u, -, hroom, rfl⟩ := readThreadTryAcquire_cases h
  · exact hload
  · exact hroom

theorem tracked_next {a : Label} {s' : State} (hs : Tracked cfg s) (hunwrapped : Unwrapped cfg s a)
    (hstep : next cfg s a = some s') : Tracked cfg s' := by
  have hevolves := evolves_next hstep
  have hlt := readContexts_lt cfg
  obtain ⟨hf, -⟩ := hunwrapped
  cases next_cases hstep with
  | openContext hr => exact hs.moveTo (.of_open hr) hf (by decide) hevolves hs.load
  | connect hr => exact hs.moveTo (.of_connect hr) hf (by decide) hevolves hs.load
  | accept hr => exact hs.moveTo (.of_accept hr) hf (by decide) hevolves hs.load
  | close context => exact hs.moveTo (.of_close context) hf (by decide) hevolves hs.load
  | @acquire i o thread r hi hr =>
    refine hs.moveTo (.of_tryAcquire hr) hf (by decide) hevolves fun x hx => ?_
    rcases List.mem_or_eq_of_mem_set hx with hmem | rfl
    · exact hs.load x hmem
    · exact load_tryAcquire hr (hs.load thread (List.mem_of_getElem? hi))
  | @cleanup i closed thread r hi hr =>
    have hload := hs.load thread (List.mem_of_getElem? hi)
    obtain ⟨hpushes, hle⟩ := Pushes.of_cleanupLoop hr
    simp only [freeCost, hi, Option.map_some, Option.getD_some] at hf
    refine hs.moveTo hpushes hf (by omega) hevolves fun x hx => ?_
    rcases List.mem_or_eq_of_mem_set hx with hmem | rfl
    · exact hs.load x hmem
    · exact hle.trans hload

theorem tracked_of_reachable {n : Nat} (h : ((system cfg n).guarded (Unwrapped cfg)).Reachable s) : Tracked cfg s :=
  h.guarded_invariant (fun _ hs => tracked_starts hs) fun _ _ _ hs hunwrapped hstep => tracked_next hs hunwrapped hstep

end tracked

/-! ## A call that returns an error -/

namespace Request

/-- Opening and connecting; an accept asks the system before it takes a context. -/
def fills : Request → Bool
  | openContext _ _ _ | connect _ _ _ => true
  | accept _ _ _ => false

/-- Neither argument of an open or a connect is a null pointer. -/
def takes : Request → Bool
  | openContext _ desc identifier | connect _ desc identifier => desc.isSome && identifier.isSome
  | accept _ _ _ => false

/-- An open undoes what it did if the slot it took was clear; a connect only if it did nothing. -/
def Undoes (t : ContextTable) : Request → Prop
  | openContext _ (some _) (some _) => ∀ context ∈ taken t, t.slot context = .zero
  | connect _ (some _) (some _) => False
  | _ => True

end Request

/-- The slot reads CLOSED, with no port and no connection data. -/
structure Clear (c : ConnectorContext) : Prop where
  state : c.state = connClosed
  port : c.port = 0
  connectionData : c.connectionData = none

/-- What a call that failed has to leave. -/
structure Undone (request : Request) (t u : ContextTable) : Prop where
  slots : u.contextList = t.contextList
  clear : request.takes = true → ∀ context ∈ taken t, Clear (u.slot context)
  available : u.connectionQueue = t.connectionQueue
  free : ∀ id, id ∈ u.freeContexts.contents ↔ id ∈ t.freeContexts.contents

/-- A context was taken, its slot written, and the context returned. -/
structure Recycled (cfg : BuildConfig) (t u : ContextTable) (context : UInt32) (c : ConnectorContext) : Prop where
  taken : taken t = some context
  wrote : Wrote cfg t u context c
  available : u.connectionQueue = t.connectionQueue
  free : ∀ id, id ∈ u.freeContexts.contents ↔ id ∈ t.freeContexts.contents

section undone
variable {cfg : BuildConfig} {t : ContextTable} {items : List UInt32} {k : Nat}

theorem recycled_of_push (hrep : t.freeContexts.Rep (ring cfg) items k) (hne : items ≠ [])
    (hf : Faithful (2 ^ 32) (ring cfg).toNat (k + 1)) {popped : Retcode × UInt32 × ContextTable}
    (hpop : t.popFree 0 = .ok popped) {context : UInt32} (hcontext : context = popped.2.1)
    (hrange : context.toNat < cfg.contextCount) {c : ConnectorContext} {pushed : Retcode × ContextTable}
    (hpush : (popped.2.2.setSlot context c).pushFree context = .ok pushed) : Recycled cfg t pushed.2 context c := by
  obtain ⟨x, rest, rfl⟩ := List.exists_cons_of_ne_nil hne
  have hcontents := hrep.contents_eq
  have htaken := taken_of_popFree hpop
  have hlist := contextList_popFree hpop
  -- the first identifier of the queue
  obtain ⟨p, hp, hr⟩ := bind_eq_ok.mp hpop
  obtain ⟨p', hp', hrep'⟩ := hrep.pop_cons 0
  obtain rfl := Except.ok.inj (hp.symm.trans hp')
  obtain rfl := Except.ok.inj hr
  obtain rfl : context = x := hcontext
  -- goes to its end
  have hroom : rest.length + 1 < (ring cfg).toNat := by
    obtain ⟨q, -, hsize, hq⟩ := hrep
    have hlt := hq.room
    rw [List.length_cons, hsize] at hlt
    exact hlt
  obtain ⟨p'', hp'', hrep''⟩ := hrep'.push hf hroom context
  have hback := contextList_pushFree hpush
  obtain ⟨q, hq, hr⟩ := bind_eq_ok.mp hpush
  obtain rfl := Except.ok.inj hr
  obtain rfl := Except.ok.inj (hq.symm.trans hp'')
  refine ⟨htaken, .of_setSlot hrange hlist hback, rfl, fun id => ?_⟩
  show id ∈ p''.contents ↔ _
  rw [hrep''.contents_eq, hcontents]
  simp [or_comm]

theorem taken_cons (hrep : t.freeContexts.Rep (ring cfg) items k) (hne : items ≠ [])
    {popped : Retcode × UInt32 × ContextTable} (hpop : t.popFree 0 = .ok popped) : popped.1 = .success := by
  obtain ⟨x, rest, rfl⟩ := List.exists_cons_of_ne_nil hne
  obtain ⟨p, hp, hr⟩ := bind_eq_ok.mp hpop
  obtain ⟨p', hp', -⟩ := hrep.pop_cons 0
  obtain rfl := Except.ok.inj (hp.symm.trans hp')
  obtain rfl := Except.ok.inj hr
  rfl

/-- An open that fails clears the slot and returns the context. -/
theorem recycled_open (hrep : t.freeContexts.Rep (ring cfg) items k) (hne : items ≠ [])
    (hf : Faithful (2 ^ 32) (ring cfg).toNat (k + 1)) {o : OpenOutcome} {desc : ContextDesc} {identifier : UInt32}
    {r : Retcode × Option UInt32 × ContextTable} (h : connectorContextOpen cfg o t (some desc) (some identifier) = .ok r)
    (hfailed : r.1 ≠ .success) : ∃ context, Recycled cfg t r.2.2 context .zero := by
  cases contextOpen_cases h with
  | invalid hnone => simp at hnone
  | exhausted hpop hretcode => exact absurd (taken_cons hrep hne hpop) hretcode
  | opened => exact absurd rfl hfailed
  | failed hpop hrange hretcode hpush => exact ⟨_, recycled_of_push hrep hne hf hpop rfl hrange hpush⟩

/-- A connect that fails returns the context with its slot filled. -/
theorem recycled_connect (hrep : t.freeContexts.Rep (ring cfg) items k) (hne : items ≠ [])
    (hf : Faithful (2 ^ 32) (ring cfg).toNat (k + 1)) {o : ConnectOutcome} {desc : ContextDesc} {identifier : UInt32}
    {r : Retcode × Option UInt32 × ContextTable}
    (h : connectorContextConnect cfg o t (some desc) (some identifier) = .ok r) (hfailed : r.1 ≠ .success) :
    ∃ context c, Recycled cfg t r.2.2 context c ∧ c.configuration = (desc.configuration &&& commMask) ||| connOpen := by
  cases contextConnect_cases h with
  | invalid hnone => simp at hnone
  | connected => exact absurd rfl hfailed
  | @failed _ _ context popped retcode c _ _ hpop hrange hbridge hretcode hpush =>
    have hfilled := @configuration_bridgeConnection cfg o (described desc (desc.connectionData.map .borrowed))
    rw [hbridge] at hfilled
    exact ⟨context, c, recycled_of_push hrep hne hf hpop rfl hrange hpush, hfilled⟩

end undone

theorem clear_zero : Clear .zero := ⟨rfl, rfl, rfl⟩

theorem state_filled (type : UInt64) : ((type &&& commMask) ||| connOpen) &&& connMask = connOpen := by
  rw [or_and_distrib, UInt64.and_assoc]
  have hcomm : commMask &&& connMask = 0 := by decide
  rw [hcomm, UInt64.and_zero, UInt64.zero_or]
  rfl

namespace Recycled
variable {cfg : BuildConfig} {t u : ContextTable} {context : UInt32} {c : ConnectorContext}

theorem slots_iff (h : Recycled cfg t u context c) (hlength : t.contextList.length = cfg.contextCount) :
    u.contextList = t.contextList ↔ t.slot context = c := by
  refine ⟨fun hsame => ?_, fun hslot => ?_⟩
  · rw [← slot_of_contextList hsame, h.wrote.slot_self hlength]
  · have hlt : context.toNat < t.contextList.length := hlength ▸ h.wrote.1
    have hget : t.contextList[context.toNat] = c := by
      rw [← hslot, ContextTable.slot]
      simp [List.getD_eq_getElem?_getD, hlt]
    rw [h.wrote.2, ← hget, List.set_getElem_self]

/-- The call undid what it did if it wrote what was there, and that was clear. -/
theorem undone_iff_clear (h : Recycled cfg t u context c) (hlength : t.contextList.length = cfg.contextCount)
    {request : Request} (htakes : request.takes = true) : Undone request t u ↔ t.slot context = c ∧ Clear c := by
  have hself := h.wrote.slot_self hlength
  refine ⟨fun hundone => ⟨(h.slots_iff hlength).mp hundone.slots, ?_⟩, ?_⟩
  · have hclear := hundone.clear htakes context h.taken
    rwa [hself] at hclear
  · rintro ⟨hslot, hclear⟩
    refine ⟨(h.slots_iff hlength).mpr hslot, fun _ d hd => ?_, h.available, h.free⟩
    obtain rfl : context = d := Option.some.inj (h.taken.symm.trans hd)
    rwa [hself]

end Recycled

/-- A call without its arguments does nothing. -/
theorem undone_of_same {request : Request} {t : ContextTable} (htakes : request.takes = false) : Undone request t t :=
  ⟨rfl, fun h => absurd (htakes.symm.trans h) (by decide), rfl, fun _ => Iff.rfl⟩

/-- **Failures that leave no trace.** In every reachable state with a free context, an open or a connect that returns
an error leaves the slots and the queues as they were if and only if it is an open that took a clear slot, or one of
its arguments is a null pointer. -/
theorem undone_iff (cfg : BuildConfig) (n : Nat) {s : State} (h : ((system cfg n).guarded (Unwrapped cfg)).Reachable s)
    (hfree : freeEmpty s.table = false) (hpush : Faithful (2 ^ 32) (ring cfg).toNat (s.freePushes + 1))
    (request : Request) (hfills : request.fills = true) {r : Retcode × Option UInt32 × ContextTable}
    (hrun : request.run cfg s.table = .ok r) (hfailed : r.1 ≠ .success) :
    Undone request s.table r.2.2 ↔ request.Undoes s.table := by
  have hs := tracked_of_reachable h
  obtain ⟨items, hrep⟩ := hs.free
  have hne := ne_nil_of_rep hrep hfree
  cases request with
  | openContext o desc identifier =>
    cases desc with
    | none =>
      obtain rfl := Except.ok.inj hrun
      exact ⟨fun _ => trivial, fun _ => undone_of_same rfl⟩
    | some desc =>
      cases identifier with
      | none =>
        obtain rfl := Except.ok.inj hrun
        exact ⟨fun _ => trivial, fun _ => undone_of_same rfl⟩
      | some identifier =>
        obtain ⟨context, hrecycled⟩ := recycled_open hrep hne hpush hrun hfailed
        rw [hrecycled.undone_iff_clear hs.slots rfl]
        refine ⟨?_, fun hundoes => ⟨hundoes context hrecycled.taken, clear_zero⟩⟩
        rintro ⟨hslot, -⟩ d hd
        obtain rfl : context = d := Option.some.inj (hrecycled.taken.symm.trans hd)
        exact hslot
  | connect o desc identifier =>
    cases desc with
    | none =>
      obtain rfl := Except.ok.inj hrun
      exact ⟨fun _ => trivial, fun _ => undone_of_same rfl⟩
    | some desc =>
      cases identifier with
      | none =>
        obtain rfl := Except.ok.inj hrun
        exact ⟨fun _ => trivial, fun _ => undone_of_same rfl⟩
      | some identifier =>
        obtain ⟨context, c, hrecycled, hfilled⟩ := recycled_connect hrep hne hpush hrun hfailed
        rw [hrecycled.undone_iff_clear hs.slots rfl]
        refine ⟨?_, False.elim⟩
        rintro ⟨-, hclear⟩
        have hstate := hclear.state
        rw [ConnectorContext.state, hfilled, state_filled] at hstate
        exact absurd hstate (by decide)
  | accept accepted context identifier => cases hfills

/-- An open that gets no socket. -/
def openWithoutSocket : Request := .openContext ⟨none, true, none, none, false, 0, false⟩ (some ⟨commTcp, none, 8080⟩) (some 0)

/-- A connect that is refused. -/
def connectRefused : Request := .connect ⟨some 3, false⟩ (some ⟨commTcp, none, 8080⟩) (some 0)

theorem undone_iff_openWithoutSocket :
    ∃ s r, ((system .default 2).guarded (Unwrapped .default)).Reachable s ∧
      openWithoutSocket.run .default s.table = .ok r ∧ r.1 ≠ .success ∧ Undone openWithoutSocket s.table r.2.2 := by
  have hrun : ((openWithoutSocket.run .default (State.start .default 2).table).toOption.map (·.1)) = some .openFail := by
    decide +kernel
  obtain ⟨r, hr, hcode⟩ := toOption_map_eq_some.mp hrun
  have hreach : ((system .default 2).guarded (Unwrapped .default)).Reachable (.start .default 2) :=
    .init (starts_start .default 2)
  have hfailed : r.1 ≠ .success := by
    rw [hcode]
    decide
  have htaken : taken (State.start .default 2).table = some 0 := by decide +kernel
  have hclear : openWithoutSocket.Undoes (State.start .default 2).table := by
    intro context hcontext
    obtain rfl : 0 = context := Option.some.inj (htaken.symm.trans hcontext)
    decide +kernel
  exact ⟨_, r, hreach, hr, hfailed,
    (undone_iff .default 2 hreach (by decide +kernel) (.inl (by decide)) openWithoutSocket rfl hr hfailed).mpr hclear⟩

theorem connectRefused_not_undone :
    ¬ ∀ (cfg : BuildConfig) (n : Nat) (s : State), (system cfg n).Reachable s → freeEmpty s.table = false →
      ∀ request : Request, request.fills = true → ∀ r, request.run cfg s.table = .ok r → r.1 ≠ .success →
        Undone request s.table r.2.2 := by
  intro hall
  have hrun : (connectRefused.run .default (State.start .default 2).table).toOption.map
      (fun r => (r.1, (r.2.2.slot 0).state)) = some (.openFail, connOpen) := by
    decide +kernel
  obtain ⟨r, hr, hend⟩ := toOption_map_eq_some.mp hrun
  obtain ⟨hcode, hstate⟩ := Prod.mk.inj hend
  have hundone := hall .default 2 _ (.init (starts_start .default 2)) (by decide +kernel) connectRefused rfl r hr (by
    rw [hcode]
    decide)
  have htaken : taken (State.start .default 2).table = some 0 := by decide +kernel
  have hclear := (hundone.clear rfl 0 htaken).state
  rw [hstate] at hclear
  exact absurd hclear (by decide)

end SubstanceConnector.ContextSystem
