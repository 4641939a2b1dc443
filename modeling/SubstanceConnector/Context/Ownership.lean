import SubstanceConnector.Context.System

/-!
# Every identifier has one place

An identifier is in the free queue, in the available queue or with one read thread. The operations
move it between the three; two of them fail midway and put it back. `Holds` says which lists the two
queues stand for; each operation has one lemma that says how it moves them, and from these the
identifiers of all places together stay a permutation of `0, …, COUNT - 1`.

The rings keep their counters modulo 2^32 while their size need not divide it, so the queues stand
for lists only until a counter wraps; after that two positions of one queue can share a cell
(`id_twice_after_wrap`). The result is about the runs that stop short of it (`Unwrapped`).
-/

namespace SubstanceConnector.ContextSystem

open RingIndex

/-- The lists the two queues of the table stand for, and the pushes each has taken. -/
structure Holds (cfg : BuildConfig) (t : ContextTable) (free available : List UInt32) (freePushes availablePushes : Nat) :
    Prop where
  free : t.freeContexts.Rep (ring cfg) free freePushes
  available : t.connectionQueue.Rep (ring cfg) available availablePushes

/-- Everything that is somewhere: the two queues and what the read threads hold. -/
def owned (s : State) : List UInt32 :=
  s.table.freeContexts.contents ++ s.table.connectionQueue.contents ++ s.threads.flatMap (·.held)

section table
variable {cfg : BuildConfig} {t : ContextTable} {free available : List UInt32} {kf ka : Nat}

theorem Holds.setSlot (h : Holds cfg t free available kf ka) (context : UInt32) (c : ConnectorContext) :
    Holds cfg (t.setSlot context c) free available kf ka := ⟨h.free, h.available⟩

theorem Holds.popFree_nil (h : Holds cfg t [] available kf ka) (v : UInt32) : t.popFree v = .ok (.error, v, t) := by
  rw [ContextTable.popFree, h.free.pop_nil v]
  rfl

theorem Holds.popFree_cons {x : UInt32} (h : Holds cfg t (x :: free) available kf ka) (v : UInt32) :
    ∃ u, t.popFree v = .ok (.success, x, u) ∧ Holds cfg u free available kf ka := by
  obtain ⟨p, hpop, hp⟩ := h.free.pop_cons v
  refine ⟨{ t with freeContexts := p }, ?_, hp, h.available⟩
  rw [ContextTable.popFree, hpop]
  rfl

/-- A free queue that does not look empty stands for some identifiers. -/
theorem ne_nil_of_rep {size : UInt32} (h : t.freeContexts.Rep size free kf) (hfree : freeEmpty t = false) : free ≠ [] := by
  obtain ⟨q, hq, -, hrep⟩ := h
  simp only [freeEmpty, hq] at hfree
  intro hnil
  rw [hrep.looksEmpty_iff.mpr hnil] at hfree
  exact absurd hfree (by decide)

/-- What was popped is the first free identifier, or there was none. -/
theorem Holds.popped (h : Holds cfg t free available kf ka) {v context : UInt32} {retcode : Retcode} {u : ContextTable}
    (hpop : t.popFree v = .ok (retcode, context, u)) :
    free = [] ∧ retcode ≠ .success ∧ u = t ∨
      ∃ rest, free = context :: rest ∧ retcode = .success ∧ Holds cfg u rest available kf ka := by
  cases free with
  | nil =>
    have heq := Except.ok.inj ((h.popFree_nil v).symm.trans hpop)
    simp only [Prod.mk.injEq] at heq
    obtain ⟨rfl, -, rfl⟩ := heq
    exact .inl ⟨rfl, by simp, rfl⟩
  | cons x rest =>
    obtain ⟨u', hpop', hu⟩ := h.popFree_cons v
    have heq := Except.ok.inj (hpop'.symm.trans hpop)
    simp only [Prod.mk.injEq] at heq
    obtain ⟨rfl, rfl, rfl⟩ := heq
    exact .inr ⟨rest, rfl, rfl, hu⟩

/-- A queue that does not hold all identifiers has room for one more. -/
theorem room_of_lt (cfg : BuildConfig) {items : List UInt32} (h : items.length < cfg.contextCount) :
    items.length + 1 < (ring cfg).toNat := by
  rw [toNat_ring]
  omega

theorem Holds.pushFree (h : Holds cfg t free available kf ka) (hf : Faithful (2 ^ 32) (ring cfg).toNat (kf + 1))
    (hlt : free.length < cfg.contextCount) (x : UInt32) :
    ∃ u, t.pushFree x = .ok (.success, u) ∧ Holds cfg u (free ++ [x]) available (kf + 1) ka := by
  obtain ⟨p, hpush, hp⟩ := h.free.push hf (room_of_lt cfg hlt) x
  refine ⟨{ t with freeContexts := p }, ?_, hp, h.available⟩
  rw [ContextTable.pushFree, hpush]
  rfl

theorem Holds.appendAvailable (h : Holds cfg t free available kf ka)
    (hf : Faithful (2 ^ 32) (ring cfg).toNat (ka + 1)) (hlt : available.length < cfg.contextCount) (x : UInt32) :
    ∃ u, appendAvailable t x = .ok u ∧ Holds cfg u free (available ++ [x]) kf (ka + 1) := by
  obtain ⟨p, hpush, hp⟩ := h.available.push hf (room_of_lt cfg hlt) x
  refine ⟨{ t with connectionQueue := p }, ?_, h.free, hp⟩
  rw [SubstanceConnector.appendAvailable, connectorAvailableQueuePush, if_neg h.available.ne_null, hpush]
  rfl

theorem availablePopLoop_nil {size : UInt32} (h : t.connectionQueue.Rep size [] ka) (n : Nat) :
    availablePopLoop t n = .ok (none, t) := by
  induction n with
  | zero => rfl
  | succ n ih =>
    rw [availablePopLoop, h.pop_nil 0]
    exact ih

theorem availablePop_nil {size : UInt32} (h : t.connectionQueue.Rep size [] ka) :
    connectorAvailableQueuePop t = .ok (none, t) := by
  rw [connectorAvailableQueuePop, if_neg h.ne_null]
  exact availablePopLoop_nil h _

theorem availablePop_cons {size x : UInt32} (h : t.connectionQueue.Rep size (x :: available) ka) :
    ∃ p, connectorAvailableQueuePop t = .ok (some x, { t with connectionQueue := p }) ∧ p.Rep size available ka := by
  obtain ⟨p, hpop, hp⟩ := h.pop_cons 0
  refine ⟨p, ?_, hp⟩
  rw [connectorAvailableQueuePop, if_neg h.ne_null, availableRetries, availablePopLoop, hpop]
  rfl

/-- The first available identifier is popped, if there is one. -/
theorem Holds.availablePopped (h : Holds cfg t free available kf ka) {first : Option UInt32} {u : ContextTable}
    (hpop : connectorAvailableQueuePop t = .ok (first, u)) :
    ∃ rest, available = first.toList ++ rest ∧ Holds cfg u free rest kf ka := by
  cases available with
  | nil =>
    obtain ⟨rfl, rfl⟩ := Prod.mk.inj (Except.ok.inj ((availablePop_nil h.available).symm.trans hpop))
    exact ⟨[], rfl, h⟩
  | cons x rest =>
    obtain ⟨p, hpop', hp⟩ := availablePop_cons h.available
    obtain ⟨rfl, rfl⟩ := Prod.mk.inj (Except.ok.inj (hpop'.symm.trans hpop))
    exact ⟨rest, rfl, h.free, hp⟩

/-! ## One operation at a time -/

/-- How an operation of a caller moves the two lists: not at all, an identifier taken and put back, or
an identifier handed to the read threads. -/
inductive Moved (cfg : BuildConfig) (t' : ContextTable) (free available : List UInt32) (kf ka : Nat) : Prop
  | kept (h : Holds cfg t' free available kf ka)
  | returned (x : UInt32) (rest : List UInt32) (hfree : free = x :: rest)
      (h : Holds cfg t' (rest ++ [x]) available (kf + 1) ka)
  | published (x : UInt32) (rest : List UInt32) (hfree : free = x :: rest)
      (h : Holds cfg t' rest (available ++ [x]) kf (ka + 1))

/-- The lists fit the two rings. -/
def Fits (cfg : BuildConfig) (free available : List UInt32) : Prop :=
  free.length + available.length ≤ cfg.contextCount ∧ ∀ x ∈ free, x.toNat < cfg.contextCount

/-- The identifier taken is handed to the read threads. -/
theorem Moved.of_append {context : UInt32} {rest : List UInt32} {c : ConnectorContext} {u w : ContextTable}
    (hfits : Fits cfg (context :: rest) available) (hu : Holds cfg u rest available kf ka)
    (ha : Faithful (2 ^ 32) (ring cfg).toNat (ka + 1)) (happend : appendAvailable (u.setSlot context c) context = .ok w) :
    Moved cfg w (context :: rest) available kf ka := by
  have hlen := hfits.1
  rw [List.length_cons] at hlen
  obtain ⟨w', happend', hw⟩ := (hu.setSlot context c).appendAvailable ha (by omega) context
  obtain rfl : w' = w := Except.ok.inj (happend'.symm.trans happend)
  exact .published context rest rfl hw

/-- The identifier taken is put back. -/
theorem Moved.of_push {context : UInt32} {rest : List UInt32} {c : ConnectorContext} {u : ContextTable}
    {pushed : Retcode × ContextTable} (hfits : Fits cfg (context :: rest) available) (hu : Holds cfg u rest available kf ka)
    (hf : Faithful (2 ^ 32) (ring cfg).toNat (kf + 1)) (hpush : (u.setSlot context c).pushFree context = .ok pushed) :
    Moved cfg pushed.2 (context :: rest) available kf ka := by
  have hlen := hfits.1
  rw [List.length_cons] at hlen
  obtain ⟨w, hpush', hw⟩ := (hu.setSlot context c).pushFree hf (by omega) context
  obtain rfl : (.success, w) = pushed := Except.ok.inj (hpush'.symm.trans hpush)
  exact .returned context rest rfl hw

variable (hfits : Fits cfg free available)
include hfits

theorem moved_open (h : Holds cfg t free available kf ka) (hf : Faithful (2 ^ 32) (ring cfg).toNat (kf + 1))
    (ha : Faithful (2 ^ 32) (ring cfg).toNat (ka + 1)) {o : OpenOutcome} {desc : Option ContextDesc}
    {identifier : Option UInt32} {r : Retcode × Option UInt32 × ContextTable}
    (hr : connectorContextOpen cfg o t desc identifier = .ok r) : Moved cfg r.2.2 free available kf ka := by
  cases contextOpen_cases hr with
  | invalid => exact .kept h
  | exhausted hpop hretcode =>
    obtain ⟨-, -, rfl⟩ | ⟨rest, -, hsuccess, -⟩ := h.popped hpop
    · exact .kept h
    · exact absurd hsuccess hretcode
  | opened hpop hrange hcopy hopen happend =>
    obtain ⟨-, hfailed, -⟩ | ⟨rest, rfl, -, hu⟩ := h.popped hpop
    · exact absurd rfl hfailed
    · exact .of_append hfits hu ha happend
  | failed hpop hrange hretcode hpush =>
    obtain ⟨-, hfailed, -⟩ | ⟨rest, rfl, -, hu⟩ := h.popped hpop
    · exact absurd rfl hfailed
    · exact .of_push hfits hu hf hpush

theorem moved_connect (h : Holds cfg t free available kf ka) (hne : free ≠ [])
    (hf : Faithful (2 ^ 32) (ring cfg).toNat (kf + 1)) (ha : Faithful (2 ^ 32) (ring cfg).toNat (ka + 1))
    {o : ConnectOutcome} {desc : Option ContextDesc} {identifier : Option UInt32}
    {r : Retcode × Option UInt32 × ContextTable} (hr : connectorContextConnect cfg o t desc identifier = .ok r) :
    Moved cfg r.2.2 free available kf ka := by
  cases contextConnect_cases hr with
  | invalid => exact .kept h
  | connected hpop hrange hbridge happend =>
    obtain ⟨hnone, -⟩ | ⟨rest, rfl, -, hu⟩ := h.popped hpop
    · exact absurd hnone hne
    · exact .of_append hfits hu ha happend
  | failed hpop hrange hbridge hretcode hpush =>
    obtain ⟨hnone, -⟩ | ⟨rest, rfl, -, hu⟩ := h.popped hpop
    · exact absurd hnone hne
    · exact .of_push hfits hu hf hpush

theorem moved_accept (h : Holds cfg t free available kf ka) (hne : free ≠ [])
    (ha : Faithful (2 ^ 32) (ring cfg).toNat (ka + 1)) {accepted : Option Nat} {context : UInt32}
    {identifier : Option UInt32} {r : Retcode × Option UInt32 × ContextTable}
    (hr : connectorContextAccept cfg accepted t context identifier = .ok r) : Moved cfg r.2.2 free available kf ka := by
  cases contextAccept_cases hr with
  | refused => exact .kept h
  | accepted hlistener haccept hpop hrange happend =>
    obtain ⟨hnone, -⟩ | ⟨rest, rfl, -, hu⟩ := h.popped hpop
    · exact absurd hnone hne
    · exact .of_append hfits hu ha happend

end table

theorem Holds.close {cfg : BuildConfig} {t : ContextTable} {free available : List UInt32} {kf ka : Nat}
    (h : Holds cfg t free available kf ka) (context : UInt32) :
    Holds cfg (connectorContextClose cfg t context).2 free available kf ka := by
  obtain hsame | ⟨-, -, hset⟩ := contextClose_cases cfg t context
  · rw [hsame]
    exact h
  · rw [hset]
    exact h.setSlot _ _

theorem Holds.writeHandshake {cfg : BuildConfig} {t : ContextTable} {free available : List UInt32} {kf ka : Nat}
    (h : Holds cfg t free available kf ka) (o : HandshakeOutcome) (context : UInt32) :
    Holds cfg (connectorContextWriteHandshake cfg o t context).2 free available kf ka := by
  obtain hsame | ⟨-, -, hset⟩ := contextWriteHandshake_cases cfg t o context
  · rw [hsame]
    exact h
  · rw [hset]
    exact h.setSlot _ _

/-! ## The read threads -/

/-- The array is as long as it is declared, and the entries in use are inside it. -/
structure Proper (cfg : BuildConfig) (thread : ReadThread) : Prop where
  length : thread.contextIds.length = cfg.readContexts
  assigned : thread.assignedContexts ≤ cfg.readContexts

theorem proper_zero (cfg : BuildConfig) : Proper cfg (.zero cfg) := ⟨by simp [ReadThread.zero], Nat.zero_le _⟩

/-- Replacing an element and appending the replacement removes nothing else. -/
theorem perm_set_append {xs : List UInt32} {i : Nat} {y : UInt32} (hi : i ≤ xs.length) :
    ((xs ++ [y]).getD i 0 :: xs.set i y).Perm (xs ++ [y]) := by
  induction xs generalizing i with
  | nil =>
    obtain rfl : i = 0 := Nat.le_zero.mp hi
    exact List.Perm.refl _
  | cons x xs ih =>
    cases i with
    | zero =>
      show (x :: y :: xs).Perm (x :: (xs ++ [y]))
      exact (List.perm_append_singleton y xs).symm.cons x
    | succ i =>
      have hrest := ih (Nat.le_of_succ_le_succ hi)
      show ((xs ++ [y]).getD i 0 :: x :: xs.set i y).Perm (x :: (xs ++ [y]))
      exact (List.Perm.swap _ _ _).trans (hrest.cons x)

section threads
variable {cfg : BuildConfig} {thread : ReadThread}

/-- Swap-removal takes one identifier out of the entries in use. -/
theorem removeContext_held (hp : Proper cfg thread) {i : Nat} (hi : i < thread.assignedContexts) :
    (connectorReadThreadRemoveContext thread i).1 = .success ∧
      (thread.contextIds.getD i 0 :: (connectorReadThreadRemoveContext thread i).2.held).Perm thread.held ∧
      Proper cfg (connectorReadThreadRemoveContext thread i).2 ∧
      (connectorReadThreadRemoveContext thread i).2.assignedContexts = thread.assignedContexts - 1 := by
  obtain ⟨hlength, hassigned⟩ := hp
  obtain ⟨contexts, ids, assigned⟩ := thread
  simp only at hlength hassigned hi
  obtain ⟨last, rfl⟩ : ∃ last, assigned = last + 1 := ⟨assigned - 1, by omega⟩
  have hin : last < ids.length := by omega
  have hwhole : ids.take (last + 1) = ids.take last ++ [ids.getD last 0] := by
    rw [List.take_succ_eq_append_getElem hin, List.getD_eq_getElem?_getD, List.getElem?_eq_getElem hin]
    rfl
  have hget : (ids.take last ++ [ids.getD last 0]).getD i 0 = ids.getD i 0 := by
    rw [← hwhole, List.getD_eq_getElem?_getD, List.getD_eq_getElem?_getD, List.getElem?_take_of_lt hi]
  have hperm := @perm_set_append (ids.take last) i (ids.getD last 0) (by rw [List.length_take]; omega)
  rw [hget, ← hwhole] at hperm
  unfold connectorReadThreadRemoveContext
  rw [if_pos hi]
  dsimp only
  rw [Nat.add_sub_cancel]
  by_cases hlast : 0 < last
  · rw [if_pos hlast]
    refine ⟨rfl, ?_, ⟨by rw [List.length_set]; exact hlength, ?_⟩, rfl⟩
    · simp only [ReadThread.held, List.take_set]
      exact hperm
    · show last ≤ cfg.readContexts
      omega
  · rw [if_neg hlast]
    obtain rfl : last = 0 := by omega
    obtain rfl : i = 0 := by omega
    exact ⟨rfl, hperm, ⟨hlength, Nat.zero_le _⟩, rfl⟩

theorem Proper.acquired (hp : Proper cfg thread) (hroom : thread.assignedContexts < cfg.readContexts) (u : ContextTable)
    (context : UInt32) : Proper cfg (thread.acquired u context) := by
  refine ⟨?_, hroom⟩
  rw [ReadThread.acquired, List.length_set, hp.length]

theorem Proper.held_acquired (hp : Proper cfg thread) (hroom : thread.assignedContexts < cfg.readContexts)
    (u : ContextTable) (context : UInt32) : (thread.acquired u context).held = thread.held ++ [context] := by
  have hin : thread.assignedContexts < (thread.contextIds.set thread.assignedContexts context).length := by
    rw [List.length_set, hp.length]
    exact hroom
  rw [ReadThread.held, ReadThread.acquired, List.take_succ_eq_append_getElem hin, List.getElem_set_self,
    List.take_set_of_le (le_refl _)]
  rfl

variable {t : ContextTable} {free available : List UInt32} {kf ka : Nat}

/-- Acquiring moves the first available identifier to the thread, if there is one. -/
theorem tryAcquire_held (h : Holds cfg t free available kf ka) (hp : Proper cfg thread) {o : HandshakeOutcome}
    {r : Retcode × ReadThread × ContextTable} (hr : connectorReadThreadTryAcquire cfg o thread t = .ok r) :
    ∃ taken rest, available = taken ++ rest ∧ Holds cfg r.2.2 free rest kf ka ∧ r.2.1.held = thread.held ++ taken ∧
      Proper cfg r.2.1 := by
  obtain ⟨u, hpop, rfl⟩ | ⟨context, u, hpop, hroom, rfl⟩ := readThreadTryAcquire_cases hr
  · obtain ⟨rest, hrest, hu⟩ := h.availablePopped hpop
    exact ⟨[], rest, hrest, hu, (List.append_nil _).symm, hp⟩
  · obtain ⟨rest, hrest, hu⟩ := h.availablePopped hpop
    exact ⟨[context], rest, hrest, hu.writeHandshake o context, hp.held_acquired hroom u context, hp.acquired hroom u context⟩

/-- The entries from `i` down have been looked at: those shut down are back in the free queue. -/
theorem cleanupLoop_held {closed : UInt32 → Bool} {i : Nat} {retcode : Retcode}
    {r : Retcode × ReadThread × ContextTable} (h : Holds cfg t free available kf ka) (hp : Proper cfg thread)
    (hi : i ≤ thread.assignedContexts) (hlen : free.length + thread.held.length ≤ cfg.contextCount)
    (hids : ∀ x ∈ thread.held, x.toNat < cfg.contextCount) (hf : Faithful (2 ^ 32) (ring cfg).toNat (kf + i))
    (hr : cleanupLoop cfg closed i retcode thread t = .ok r) :
    ∃ gone, Holds cfg r.2.2 (free ++ gone) available (kf + gone.length) ka ∧ (r.2.1.held ++ gone).Perm thread.held ∧
      Proper cfg r.2.1 ∧ gone.length ≤ i := by
  induction i generalizing retcode thread t free kf with
  | zero =>
    obtain rfl := Except.ok.inj hr
    exact ⟨[], by simpa using h, by simp, hp, le_refl _⟩
  | succ i ih =>
    unfold cleanupLoop at hr
    dsimp only at hr
    split at hr
    · obtain ⟨hremoved, hperm, hp', hassigned⟩ := removeContext_held hp (i := i) (by omega)
      have hmem : thread.contextIds.getD i 0 ∈ thread.held := hperm.subset List.mem_cons_self
      have hlength := hperm.length_eq
      rw [List.length_cons] at hlength
      rw [if_pos hremoved, connectorContextShutdownFromReadThread, if_pos (hids _ hmem)] at hr
      obtain ⟨u, hpush, hu⟩ := (h.setSlot (thread.contextIds.getD i 0) .zero).pushFree (hf.mono (by omega))
        (by omega) (thread.contextIds.getD i 0)
      rw [hpush] at hr
      have hsum : kf + 1 + i = kf + (i + 1) := by omega
      obtain ⟨gone, hholds, hrest, hproper, hle⟩ := ih hu hp' (by omega)
        (by rw [List.length_append, List.length_singleton]; omega)
        (fun x hx => hids x (hperm.subset (List.mem_cons_of_mem _ hx))) (by rw [hsum]; exact hf) hr
      refine ⟨thread.contextIds.getD i 0 :: gone, ?_, ?_, hproper, by rw [List.length_cons]; omega⟩
      · rw [List.append_assoc, Nat.add_right_comm] at hholds
        exact hholds
      · exact List.perm_middle.trans ((hrest.cons _).trans hperm)
    · obtain ⟨gone, hholds, hrest, hproper, hle⟩ := ih h hp (by omega) hlen hids (hf.mono (by omega)) hr
      exact ⟨gone, hholds, hrest, hproper, by omega⟩

end threads

/-! ## Runs that stop short of a wrap -/

-- the most pushes a step makes on each queue
def freeCost (s : State) : Label → Nat
  | .openContext _ _ _ => 1
  | .connect _ _ _ => 1
  | .cleanup i _ => ((s.threads[i]?).map (·.assignedContexts)).getD 0
  | _ => 0

def availableCost : Label → Nat
  | .openContext _ _ _ => 1
  | .connect _ _ _ => 1
  | .accept _ _ _ => 1
  | _ => 0

/-- The step brings no counter to 2^32, or the ring size divides 2^32. -/
def Unwrapped (cfg : BuildConfig) (s : State) (a : Label) : Prop :=
  Faithful (2 ^ 32) (ring cfg).toNat (s.freePushes + freeCost s a) ∧
    Faithful (2 ^ 32) (ring cfg).toNat (s.availablePushes + availableCost a)

/-- Connect and accept are not called without a free context. -/
def NotExhausted (s : State) : Label → Prop
  | .connect _ _ _ => freeEmpty s.table = false
  | .accept _ _ _ => freeEmpty s.table = false
  | _ => True

structure Inv (cfg : BuildConfig) (s : State) (free available : List UInt32) : Prop where
  holds : Holds cfg s.table free available s.freePushes s.availablePushes
  perm : (free ++ available ++ s.threads.flatMap (·.held)).Perm (ids cfg)
  proper : ∀ thread ∈ s.threads, Proper cfg thread

theorem mem_ids {cfg : BuildConfig} {x : UInt32} : x ∈ ids cfg ↔ x.toNat < cfg.contextCount := by
  have hle := cfg.contextCount_le
  simp only [ids, List.mem_map, List.mem_range]
  refine ⟨?_, fun h => ⟨x.toNat, h, by simp⟩⟩
  rintro ⟨k, hk, rfl⟩
  rw [UInt32.toNat_ofNat_of_lt' (by show k < 2 ^ 32; omega)]
  exact hk

theorem nodup_ids (cfg : BuildConfig) : (ids cfg).Nodup := by
  have hle := cfg.contextCount_le
  refine List.nodup_range.map_on fun a ha b hb hab => ?_
  rw [List.mem_range] at ha hb
  have h := congrArg UInt32.toNat hab
  rwa [UInt32.toNat_ofNat_of_lt' (by show a < 2 ^ 32; omega),
    UInt32.toNat_ofNat_of_lt' (by show b < 2 ^ 32; omega)] at h

section invariant
variable {cfg : BuildConfig} {s : State} {free available : List UInt32}

theorem Inv.fits (h : Inv cfg s free available) : Fits cfg free available := by
  have hlength := h.perm.length_eq
  have hids : (ids cfg).length = cfg.contextCount := by simp [ids]
  simp only [List.length_append] at hlength
  refine ⟨by omega, fun x hx => mem_ids.mp (h.perm.subset ?_)⟩
  exact List.mem_append_left _ (List.mem_append_left _ hx)

/-- What the write index has advanced by is what the lists say. -/
theorem pushesSince_eq {p p' : QueuePtr} {size size' : UInt32} {items items' : List UInt32} {k d : Nat}
    (h : p.Rep size items k) (h' : p'.Rep size' items' (k + d)) (hd : d < 2 ^ 32) : pushesSince p p' = d := by
  obtain ⟨q, rfl, -, hq⟩ := h
  obtain ⟨q', rfl, -, hq'⟩ := h'
  rw [pushesSince, UInt32.toNat_sub, hq.write, hq'.write]
  omega

theorem Inv.moveTo {t : ContextTable} {threads : List ReadThread} {free' available' : List UInt32} {d e : Nat}
    (h : Inv cfg s free available)
    (ht : Holds cfg t free' available' (s.freePushes + d) (s.availablePushes + e)) (hd : d < 2 ^ 32)
    (he : e < 2 ^ 32) (hperm : (free' ++ available' ++ threads.flatMap (·.held)).Perm (ids cfg))
    (hproper : ∀ thread ∈ threads, Proper cfg thread) : Inv cfg (s.moveTo t threads) free' available' := by
  refine ⟨?_, hperm, hproper⟩
  show Holds cfg t free' available' (s.freePushes + pushesSince _ _) (s.availablePushes + pushesSince _ _)
  rw [pushesSince_eq h.holds.free ht.free hd, pushesSince_eq h.holds.available ht.available he]
  exact ht

/-- The calls that leave the read threads alone. -/
theorem Inv.moved (h : Inv cfg s free available) {t : ContextTable}
    (hm : Moved cfg t free available s.freePushes s.availablePushes) :
    ∃ free' available', Inv cfg (s.moveTo t s.threads) free' available' := by
  rcases hm with ht | ⟨x, rest, rfl, ht⟩ | ⟨x, rest, rfl, ht⟩
  · exact ⟨_, _, h.moveTo (d := 0) (e := 0) ht (by decide) (by decide) h.perm h.proper⟩
  · refine ⟨_, _, h.moveTo (d := 1) (e := 0) ht (by decide) (by decide) ?_ h.proper⟩
    refine List.Perm.trans ?_ h.perm
    exact ((List.perm_append_singleton x rest).append_right _).append_right _
  · refine ⟨_, _, h.moveTo (d := 0) (e := 1) ht (by decide) (by decide) ?_ h.proper⟩
    refine List.Perm.trans ?_ h.perm
    refine List.Perm.append_right _ ?_
    rw [← List.append_assoc]
    exact List.perm_append_singleton x (rest ++ available)

/-- One thread's identifiers among those of all threads. -/
theorem flatMap_set_perm {threads : List ReadThread} {i : Nat} {thread : ReadThread}
    (hi : threads[i]? = some thread) (thread' : ReadThread) :
    ∃ others, (threads.flatMap (·.held)).Perm (thread.held ++ others) ∧
      ((threads.set i thread').flatMap (·.held)).Perm (thread'.held ++ others) := by
  induction threads generalizing i with
  | nil => exact absurd hi (by simp)
  | cons first threads ih =>
    cases i with
    | zero =>
      obtain rfl : first = thread := by simpa using hi
      exact ⟨threads.flatMap (·.held), List.Perm.refl _, List.Perm.refl _⟩
    | succ i =>
      obtain ⟨others, hold, hnew⟩ := ih (by simpa using hi)
      refine ⟨first.held ++ others, ?_, ?_⟩
      · exact (hold.append_left first.held).trans (List.perm_append_comm_assoc _ _ _)
      · exact (hnew.append_left first.held).trans (List.perm_append_comm_assoc _ _ _)

theorem Inv.proper_set (h : Inv cfg s free available) {i : Nat} {thread : ReadThread} (hp : Proper cfg thread) :
    ∀ x ∈ s.threads.set i thread, Proper cfg x := by
  intro x hx
  rcases List.mem_or_eq_of_mem_set hx with hold | rfl
  · exact h.proper x hold
  · exact hp

theorem Inv.acquire (h : Inv cfg s free available) {i : Nat} {thread : ReadThread} (hi : s.threads[i]? = some thread)
    {o : HandshakeOutcome} {r : Retcode × ReadThread × ContextTable}
    (hr : connectorReadThreadTryAcquire cfg o thread s.table = .ok r) :
    ∃ free' available', Inv cfg (s.moveTo r.2.2 (s.threads.set i r.2.1)) free' available' := by
  have hp := h.proper thread (List.mem_of_getElem? hi)
  obtain ⟨taken, rest, rfl, hholds, hheld, hproper⟩ := tryAcquire_held h.holds hp hr
  obtain ⟨others, hold, hnew⟩ := flatMap_set_perm hi r.2.1
  refine ⟨free, rest, h.moveTo (d := 0) (e := 0) hholds (by decide) (by decide) ?_ (h.proper_set hproper)⟩
  refine List.Perm.trans ?_ h.perm
  rw [hheld] at hnew
  -- the identifiers taken cross from the queue to the thread
  have hleft : (free ++ rest ++ (s.threads.set i r.2.1).flatMap (·.held)).Perm
      (free ++ rest ++ (thread.held ++ taken ++ others)) := hnew.append_left _
  have hright : (free ++ (taken ++ rest) ++ (thread.held ++ others)).Perm
      (free ++ (taken ++ rest) ++ s.threads.flatMap (·.held)) := hold.symm.append_left _
  refine hleft.trans (List.Perm.trans ?_ hright)
  rw [List.perm_iff_count]
  intro x
  simp only [List.count_append]
  omega

theorem Inv.cleanup (h : Inv cfg s free available) {i : Nat} {thread : ReadThread} (hi : s.threads[i]? = some thread)
    (hf : Faithful (2 ^ 32) (ring cfg).toNat (s.freePushes + thread.assignedContexts)) {closed : UInt32 → Bool}
    {r : Retcode × ReadThread × ContextTable}
    (hr : connectorReadThreadCleanupConnections cfg closed thread s.table = .ok r) :
    ∃ free' available', Inv cfg (s.moveTo r.2.2 (s.threads.set i r.2.1)) free' available' := by
  have hp := h.proper thread (List.mem_of_getElem? hi)
  obtain ⟨others, hold, hnew⟩ := flatMap_set_perm hi r.2.1
  have hlength := h.perm.length_eq
  have hheld := hold.length_eq
  have hids : (ids cfg).length = cfg.contextCount := by simp [ids]
  simp only [List.length_append] at hlength hheld
  have hinside : ∀ x ∈ thread.held, x.toNat < cfg.contextCount := by
    intro x hx
    refine mem_ids.mp (h.perm.subset (List.mem_append_right _ ?_))
    exact hold.symm.subset (List.mem_append_left _ hx)
  obtain ⟨gone, hholds, hrest, hproper, hle⟩ :=
    cleanupLoop_held h.holds hp (le_refl _) (by omega) hinside hf hr
  have hsmall : gone.length < 2 ^ 32 := by
    have hgone := hrest.length_eq
    have hcount := cfg.contextCount_le
    rw [List.length_append] at hgone
    omega
  refine ⟨free ++ gone, available, h.moveTo (e := 0) hholds hsmall (by decide) ?_ (h.proper_set hproper)⟩
  refine List.Perm.trans ?_ h.perm
  have hleft : (free ++ gone ++ available ++ (s.threads.set i r.2.1).flatMap (·.held)).Perm
      (free ++ gone ++ available ++ (r.2.1.held ++ others)) := hnew.append_left _
  have hright : (free ++ available ++ (r.2.1.held ++ gone ++ others)).Perm
      (free ++ available ++ s.threads.flatMap (·.held)) :=
    ((hrest.append_right _).trans hold.symm).append_left _
  refine hleft.trans (List.Perm.trans ?_ hright)
  rw [List.perm_iff_count]
  intro x
  simp only [List.count_append]
  omega

theorem inv_next (h : Inv cfg s free available) {a : Label} {s' : State} (hpermitted : NotExhausted s a)
    (hunwrapped : Unwrapped cfg s a) (hstep : next cfg s a = some s') : ∃ free' available', Inv cfg s' free' available' := by
  obtain ⟨hf, ha⟩ := hunwrapped
  cases next_cases hstep with
  | openContext hr => exact h.moved (moved_open h.fits h.holds hf ha hr)
  | connect hr => exact h.moved (moved_connect h.fits h.holds (ne_nil_of_rep h.holds.free hpermitted) hf ha hr)
  | accept hr => exact h.moved (moved_accept h.fits h.holds (ne_nil_of_rep h.holds.free hpermitted) ha hr)
  | close context => exact h.moved (.kept (h.holds.close context))
  | acquire hi hr => exact h.acquire hi hr
  | cleanup hi hr =>
    simp only [freeCost, hi, Option.map_some, Option.getD_some] at hf
    exact h.cleanup hi hf hr

theorem inv_starts {n : Nat} (h : Starts cfg n s) : Inv cfg s (ids cfg) [] := by
  obtain ⟨htable, hthreads, hfree, havailable⟩ := h
  obtain ⟨t, ht, -, hf, ha⟩ := startTable_rep cfg
  obtain rfl : t = s.table := Except.ok.inj (ht.symm.trans htable)
  refine ⟨⟨hfree ▸ hf, havailable ▸ ha⟩, ?_, ?_⟩
  · have hnone : (List.replicate n (ReadThread.zero cfg)).flatMap (·.held) = [] := by
      rw [List.flatMap_eq_nil_iff]
      intro thread hmem
      rw [List.eq_of_mem_replicate hmem, ReadThread.held]
      exact List.take_zero
    rw [hthreads, hnone]
    simp
  · intro thread hmem
    rw [hthreads] at hmem
    rw [List.eq_of_mem_replicate hmem]
    exact proper_zero cfg

theorem Inv.owned_perm (h : Inv cfg s free available) : (owned s).Perm (ids cfg) := by
  unfold owned
  rw [h.holds.free.contents_eq, h.holds.available.contents_eq]
  exact h.perm

/-- A queue that lacks an identifier has room for it. -/
theorem room_of_not_mem {items : List UInt32} (hnodup : items.Nodup) (hids : ∀ y ∈ items, y.toNat < cfg.contextCount)
    {x : UInt32} (hx : x.toNat < cfg.contextCount) (hnot : x ∉ items) : items.length + 1 < (ring cfg).toNat := by
  have hsub : (x :: items) ⊆ ids cfg := by
    intro y hy
    rcases List.mem_cons.mp hy with rfl | hy
    · exact mem_ids.mpr hx
    · exact mem_ids.mpr (hids y hy)
  have hlen := ((List.nodup_cons.mpr ⟨hnot, hnodup⟩).subperm hsub).length_le
  have hcount : (ids cfg).length = cfg.contextCount := by simp [ids]
  rw [List.length_cons] at hlen
  exact room_of_lt cfg (by omega)

theorem Inv.push_free (h : Inv cfg s free available) {x : UInt32} (hx : x.toNat < cfg.contextCount)
    (hnot : x ∉ free) (hf : Faithful (2 ^ 32) (ring cfg).toNat (s.freePushes + 1)) :
    ∃ p, connectorUintQueuePush s.table.freeContexts x = .ok (.success, p) := by
  have hall := h.perm.nodup_iff.mpr (nodup_ids cfg)
  have hnodup : free.Nodup := hall.of_append_left.of_append_left
  obtain ⟨p, hpush, -⟩ := h.holds.free.push hf (room_of_not_mem hnodup h.fits.2 hx hnot) x
  exact ⟨p, hpush⟩

theorem Inv.push_available (h : Inv cfg s free available) {x : UInt32} (hx : x.toNat < cfg.contextCount)
    (hnot : x ∉ available) (hf : Faithful (2 ^ 32) (ring cfg).toNat (s.availablePushes + 1)) :
    ∃ p, connectorUintQueuePush s.table.connectionQueue x = .ok (.success, p) := by
  have hall := h.perm.nodup_iff.mpr (nodup_ids cfg)
  have hnodup : available.Nodup := hall.of_append_left.of_append_right
  have hids : ∀ y ∈ available, y.toNat < cfg.contextCount := by
    intro y hy
    exact mem_ids.mp (h.perm.subset (List.mem_append_left _ (List.mem_append_right _ hy)))
  obtain ⟨p, hpush, -⟩ := h.holds.available.push hf (room_of_not_mem hnodup hids hx hnot) x
  exact ⟨p, hpush⟩

end invariant

/-- The runs in which connect and accept are only called with a context to take. -/
def supplied (cfg : BuildConfig) (n : Nat) : StepSystem State Label := (system cfg n).guarded NotExhausted

theorem inv_of_reachable {cfg : BuildConfig} {n : Nat} {s : State}
    (h : ((supplied cfg n).guarded (Unwrapped cfg)).Reachable s) : ∃ free available, Inv cfg s free available := by
  refine h.guarded_invariant (P := fun s => ∃ free available, Inv cfg s free available) ?_ ?_
  · intro s hs
    exact ⟨_, _, inv_starts hs⟩
  · rintro s a s' ⟨free, available, hi⟩ hunwrapped ⟨hpermitted, hstep⟩
    exact inv_next hi hpermitted hunwrapped hstep

/-- Each identifier occurs once over the two queues and the read threads together, and nothing else
occurs. -/
def OnceEach (cfg : BuildConfig) (s : State) : Prop :=
  ∀ id : UInt32, (owned s).count id = if id.toNat < cfg.contextCount then 1 else 0

/-- **Every identifier has exactly one place.** In every run that stops short of a wrap: each
identifier is in one queue or with one thread and occurs there once; either queue takes an identifier
it does not hold; and no context is polled by two threads, or twice by one. -/
theorem owned_exactly_once (cfg : BuildConfig) (n : Nat) {s : State}
    (h : ((supplied cfg n).guarded (Unwrapped cfg)).Reachable s) :
    OnceEach cfg s ∧
      (∀ x : UInt32, x.toNat < cfg.contextCount → x ∉ s.table.freeContexts.contents →
        Faithful (2 ^ 32) (ring cfg).toNat (s.freePushes + 1) →
        ∃ p, connectorUintQueuePush s.table.freeContexts x = .ok (.success, p)) ∧
      (∀ x : UInt32, x.toNat < cfg.contextCount → x ∉ s.table.connectionQueue.contents →
        Faithful (2 ^ 32) (ring cfg).toNat (s.availablePushes + 1) →
        ∃ p, connectorUintQueuePush s.table.connectionQueue x = .ok (.success, p)) ∧
      (∀ thread ∈ s.threads, thread.held.Nodup) ∧
      s.threads.Pairwise fun a b => a.held.Disjoint b.held := by
  obtain ⟨free, available, hi⟩ := inv_of_reachable h
  have hperm := hi.owned_perm
  have hnodup : (owned s).Nodup := hperm.nodup_iff.mpr (nodup_ids cfg)
  have hthreads : (s.threads.flatMap (·.held)).Nodup := hnodup.of_append_right
  rw [List.nodup_flatMap] at hthreads
  refine ⟨fun id => ?_, ?_, ?_, hthreads.1, hthreads.2⟩
  · rw [hperm.count_eq]
    by_cases hid : id.toNat < cfg.contextCount
    · rw [if_pos hid, List.count_eq_one_of_mem (nodup_ids cfg) (mem_ids.mpr hid)]
    · rw [if_neg hid, List.count_eq_zero_of_not_mem fun hmem => hid (mem_ids.mp hmem)]
  · intro x hx hnot hf
    rw [hi.holds.free.contents_eq] at hnot
    exact hi.push_free hx hnot hf
  · intro x hx hnot hf
    rw [hi.holds.available.contents_eq] at hnot
    exact hi.push_available hx hnot hf

theorem owned_after_open :
    ∃ s, ((supplied .default 2).guarded (Unwrapped .default)).Reachable s ∧
      s.table.connectionQueue.contents = [0] ∧ OnceEach .default s := by
  let a : Label := .openContext ⟨none, true, none, some 3, true, 5000, true⟩ (some ⟨commTcp, none, 0⟩) (some 0)
  have hrun : ((next .default (.start .default 2) a).map fun s => s.table.connectionQueue.contents) = some [0] := by
    decide +kernel
  obtain ⟨s, hs, hcontents⟩ := Option.map_eq_some_iff.mp hrun
  have hunwrapped : Unwrapped .default (.start .default 2) a := ⟨.inl (by decide), .inl (by decide)⟩
  have hreach : ((supplied .default 2).guarded (Unwrapped .default)).Reachable s :=
    .step (.init (starts_start .default 2)) ⟨hunwrapped, trivial, hs⟩
  exact ⟨s, hreach, hcontents, (owned_exactly_once .default 2 hreach).1⟩

/-! ## What a wrap does -/

/-- An open that fails because the directory for port files cannot be made. -/
def failingOpen : Label :=
  .openContext ⟨none, false, none, none, false, 0, false⟩ (some ⟨commTcp, none, 0⟩) (some 0)

/-- The free queue of the default build, with all 32 identifiers, after `k` failing opens. -/
def Spun (q : UintQueue) (k : Nat) : Prop :=
  q.size = 34 ∧ q.readIndex = UInt32.ofNat k ∧ q.writeIndex = UInt32.ofNat (k + 32) ∧
    q.maxIndex = UInt32.ofNat (k + 32) ∧ ∀ x ∈ q.array, x.toNat < 32

theorem Spun.load_lt {q : UintQueue} {k : Nat} (h : Spun q k) (p : UInt32) : (q.load p).toNat < 32 := by
  unfold UintQueue.load
  rw [List.getD_eq_getElem?_getD]
  cases hget : q.array[q.cell p]? with
  | none => decide
  | some x => exact h.2.2.2.2 x (List.mem_of_getElem? hget)

/-- The two positions a turn compares, on either side of the wrap. -/
theorem turn_cells_ne {k : Nat} (hk : k ≤ 2 ^ 32 - 32) :
    ((k + 32) % 2 ^ 32 + 1) % 2 ^ 32 % 34 ≠ (k % 2 ^ 32 + 1) % 2 ^ 32 % 34 := by
  rcases Nat.lt_or_ge k (2 ^ 32 - 33) with hbefore | hafter
  · rw [Nat.mod_eq_of_lt (a := k + 32) (by omega), Nat.mod_eq_of_lt (a := k) (by omega),
      Nat.mod_eq_of_lt (a := k + 32 + 1) (by omega), Nat.mod_eq_of_lt (a := k + 1) (by omega)]
    omega
  · obtain rfl | rfl : k = 2 ^ 32 - 33 ∨ k = 2 ^ 32 - 32 := by omega
    · decide
    · decide

/-- A failing open takes the first identifier and puts it back at the end, across the wrap too. -/
theorem Spun.turn {q : UintQueue} {k : Nat} (h : Spun q k) (hk : k ≤ 2 ^ 32 - 32) :
    q.pop.1 = some (q.load q.readIndex) ∧ Spun (q.pop.2.push (q.load q.readIndex)).2 (k + 1) := by
  have hlt := h.load_lt q.readIndex
  obtain ⟨hsize, hread, hwrite, hmax, harray⟩ := h
  have h34 : q.size.toNat = 34 := by rw [hsize]; rfl
  have hrnat : q.readIndex.toNat = k % 2 ^ 32 := by rw [hread, UInt32.toNat_ofNat']
  have hwnat : q.writeIndex.toNat = (k + 32) % 2 ^ 32 := by rw [hwrite, UInt32.toNat_ofNat']
  have hone : (1 : UInt32).toNat = 1 := rfl
  have hnotEmpty : ¬ q.looksEmpty q.readIndex q.maxIndex = true := by
    rw [UintQueue.looksEmpty_iff, hmax, ← hwrite, hrnat, hwnat, h34]
    omega
  have hpop : q.pop = (some (q.load q.readIndex), { q with readIndex := q.readIndex + 1 }) := by
    rw [UintQueue.pop, if_neg hnotEmpty]
  have hnotFull : ¬ ({ q with readIndex := q.readIndex + 1 } : UintQueue).looksFull q.writeIndex (q.readIndex + 1) =
      true := by
    intro hfull
    rw [UintQueue.looksFull_iff] at hfull
    simp only [UInt32.toNat_add, hrnat, hwnat, h34, hone] at hfull
    exact turn_cells_ne hk hfull
  have hnextRead : q.readIndex + 1 = UInt32.ofNat (k + 1) := by rw [hread, UInt32.ofNat_add]; rfl
  have hnextWrite : q.writeIndex + 1 = UInt32.ofNat (k + 1 + 32) := by
    rw [hwrite, show k + 1 + 32 = k + 32 + 1 by omega, UInt32.ofNat_add (k + 32) 1]
    rfl
  rw [hpop, UintQueue.push, if_neg hnotFull]
  refine ⟨rfl, hsize, hnextRead, hnextWrite, hnextWrite, fun x hx => ?_⟩
  rcases List.mem_or_eq_of_mem_set hx with hold | rfl
  · exact harray x hold
  · exact hlt

theorem next_failingOpen {s : State} {q : UintQueue} {k : Nat} (hq : s.table.freeContexts = .live q) (h : Spun q k)
    (hk : k ≤ 2 ^ 32 - 32) :
    ∃ s' q', next .default s failingOpen = some s' ∧ s'.table.freeContexts = .live q' ∧ Spun q' (k + 1) := by
  obtain ⟨hfirst, hturn⟩ := h.turn hk
  have hsize : q.size ≠ 0 := by rw [h.1]; decide
  have hid : (q.load q.readIndex).toNat < BuildConfig.default.contextCount := h.load_lt _
  have hpop : s.table.popFree 0 =
      .ok (.success, q.load q.readIndex, { s.table with freeContexts := .live q.pop.2 }) := by
    have heq : q.pop = (some (q.load q.readIndex), q.pop.2) := Prod.ext hfirst rfl
    rw [ContextTable.popFree, hq, connectorUintQueuePop, if_neg hsize, heq]
    rfl
  have hsize' : q.pop.2.size ≠ 0 := by
    unfold UintQueue.pop
    split
    · exact hsize
    · exact hsize
  have hpush : (ContextTable.setSlot { s.table with freeContexts := .live q.pop.2 } (q.load q.readIndex) .zero).pushFree
      (q.load q.readIndex) = .ok ((q.pop.2.push (q.load q.readIndex)).1,
        { s.table.setSlot (q.load q.readIndex) .zero with
          freeContexts := .live (q.pop.2.push (q.load q.readIndex)).2 }) := by
    rw [ContextTable.pushFree]
    simp only [ContextTable.setSlot, connectorUintQueuePush, if_neg hsize']
    rfl
  refine ⟨s.moveTo { s.table.setSlot (q.load q.readIndex) .zero with
      freeContexts := .live (q.pop.2.push (q.load q.readIndex)).2 } s.threads, _, ?_, rfl, hturn⟩
  refine toOption_map_eq_some.mpr ⟨(.error, some 0, _), ?_, rfl⟩
  rw [connectorContextOpen, hpop]
  simp only [bind, Except.bind, if_pos hid, connectorStrdup]
  rw [if_pos trivial]
  have hopen : ∀ c : ConnectorContext, c.configuration = (commTcp &&& commMask) ||| connOpen →
      connectorOpenConnection .default ⟨none, false, none, none, false, 0, false⟩ c = .ok (.error, c) := by
    intro c hc
    have htcp : c.connection = commTcp := by
      rw [ConnectorContext.connection, ConnectorContext.type, hc]
      decide
    rw [connectorOpenConnection, if_pos htcp]
    rfl
  rw [hopen _ rfl]
  simp only [hpush]
  rfl

/-- The free queue of the default build when nothing has been taken from it. -/
def freshQueue : QueuePtr → Bool
  | .live q => decide (q.size = 34) && decide (q.readIndex = 0) && decide (q.writeIndex = 32) &&
      decide (q.maxIndex = 32) && q.array.all fun x => decide (x.toNat < 32)
  | _ => false

theorem spun_start : ∃ q, (State.start .default 0).table.freeContexts = .live q ∧ Spun q 0 := by
  have hlive : freshQueue (State.start .default 0).table.freeContexts = true := by
    decide +kernel
  unfold freshQueue at hlive
  split at hlive
  · rename_i q hq
    simp only [Bool.and_eq_true, decide_eq_true_eq, List.all_eq_true] at hlive
    obtain ⟨⟨⟨⟨hsize, hread⟩, hwrite⟩, hmax⟩, harray⟩ := hlive
    exact ⟨q, hq, hsize, hread, hwrite, hmax, harray⟩
  · exact absurd hlive (by decide)

theorem reachable_spun (k : Nat) (hk : k ≤ 2 ^ 32 - 31) :
    ∃ s q, (supplied .default 0).Reachable s ∧ s.table.freeContexts = .live q ∧ Spun q k := by
  induction k with
  | zero =>
    obtain ⟨q, hq, h⟩ := spun_start
    exact ⟨_, q, .init (starts_start .default 0), hq, h⟩
  | succ k ih =>
    obtain ⟨s, q, hreach, hq, h⟩ := ih (by omega)
    obtain ⟨s', q', hstep, hq', h'⟩ := next_failingOpen hq h (by omega)
    have hpermitted : NotExhausted s failingOpen := trivial
    exact ⟨s', q', .step hreach ⟨hpermitted, hstep⟩, hq', h'⟩

theorem id_twice_after_wrap :
    ¬ ∀ (cfg : BuildConfig) (n : Nat) (s : State), (supplied cfg n).Reachable s → OnceEach cfg s := by
  intro h
  obtain ⟨s, q, hreach, hq, hsize, hread, hwrite, hmax, -⟩ := reachable_spun (2 ^ 32 - 31) (by decide)
  have honce := h .default 0 s hreach
  have hnodup : (owned s).Nodup := by
    rw [List.nodup_iff_count_le_one]
    intro x
    rw [honce x]
    split <;> omega
  have hcontents : q.contents.Nodup := by
    have hfree := hnodup.of_append_left.of_append_left
    rw [hq] at hfree
    exact hfree
  -- the positions 2^32 - 18 and 2^32, which is kept as 0, are both in cell 0
  have hcount : (q.maxIndex - q.readIndex).toNat = 32 := by
    rw [hmax, hread]
    decide
  have hsame : q.load (q.readIndex + UInt32.ofNat 13) = q.load (q.readIndex + UInt32.ofNat 31) := by
    unfold UintQueue.load UintQueue.cell
    rw [hread, hsize]
    rfl
  unfold UintQueue.contents at hcontents
  rw [hcount] at hcontents
  have hne := List.inj_on_of_nodup_map hcontents (List.mem_range.mpr (by decide : 13 < 32))
    (List.mem_range.mpr (by decide : 31 < 32)) hsame
  exact absurd hne (by decide)

end SubstanceConnector.ContextSystem
