import SubstanceConnector.Library.SwapRemove
import SubstanceConnector.Context.Calls
import SubstanceConnector.Context.Ownership

/-!
# The cleanup of a read thread

`connector_read_thread_cleanup_connections` removes the contexts that are shut down from the two arrays of a thread,
each by swapping with the last one, while it goes backwards over them. On the pairs of an identifier and its poll entry
it is a sweep (`SwapRemove.sweep`): it keeps the pairs of the contexts that are not shut down and shuts down every other
context once (`cleaned_up`). Each shutdown clears a slot, so this needs the identifiers to be distinct.
-/

namespace SubstanceConnector.ContextSystem

open SwapRemove

section model
variable (cfg : BuildConfig)

/-- `connector_context_state`; the `UINT_MAX` of an identifier out of range has all bits set. -/
def connectorContextState (t : ContextTable) (context : UInt32) : UInt32 :=
  if context.toNat < cfg.contextCount then (t.slot context).state.toUInt32 else 0xffffffff

def shutDown (t : ContextTable) (context : UInt32) : Bool :=
  connectorContextState cfg t context &&& connShutdown.toUInt32 ≠ 0

/-- What a cleanup leaves, and the contexts it passed to `connector_context_shutdown_from_read_thread`. -/
structure Cleanup where
  retcode : Retcode
  thread : ReadThread
  table : ContextTable
  shut : List UInt32

/-- `cleanupLoop` with the calls it makes, for any identifiers. -/
def cleanupTrace (closed : UInt32 → Bool) : Nat → Retcode → ReadThread → ContextTable → Except Fault Cleanup
  | 0, retcode, thread, t => .ok ⟨retcode, thread, t, []⟩
  | i + 1, retcode, thread, t =>
    let context := thread.contextIds.getD i 0
    if shutDown cfg t context then
      let removed := connectorReadThreadRemoveContext thread i
      if removed.1 = .success then do
        let r ← connectorContextShutdownFromReadThread cfg (closed context) t context
        let rest ← cleanupTrace closed i r.retcode removed.2 r.table
        return { rest with shut := context :: rest.shut }
      else cleanupTrace closed i removed.1 removed.2 t
    else cleanupTrace closed i retcode thread t

end model

/-- The entries in use, each identifier with its `pollfd`. -/
def entries (thread : ReadThread) : List (UInt32 × PollEntry) :=
  (thread.contextIds.zip thread.contexts).take thread.assignedContexts

/-- The two arrays have their declared size, and the entries in use are inside. -/
structure Arrays (capacity : Nat) (thread : ReadThread) : Prop where
  ids : thread.contextIds.length = capacity
  contexts : thread.contexts.length = capacity
  assigned : thread.assignedContexts ≤ capacity

/-- The pairs that stay are those of the contexts that are not shut down, and every other context is shut down once. -/
structure CleanedUp (cfg : BuildConfig) (thread : ReadThread) (t : ContextTable) (r : Cleanup) : Prop where
  kept : (entries r.thread).Perm ((entries thread).filter fun e => !shutDown cfg t e.1)
  shut : ∀ context, r.shut.count context = if context ∈ thread.held ∧ shutDown cfg t context = true then 1 else 0

/-- A push on the queue of free contexts ends: the queue is there, or its pointer is NULL. -/
def Usable (t : ContextTable) : Prop := t.freeContexts = .null ∨ ∃ q, t.freeContexts = .live q ∧ q.size ≠ 0

section cleanup
variable {cfg : BuildConfig} {thread : ReadThread} {t : ContextTable} {closed : UInt32 → Bool}
  {context : UInt32} {capacity : Nat}

/-! ## The arrays as pairs -/

theorem Arrays.length_entries (h : Arrays capacity thread) : (entries thread).length = thread.assignedContexts := by
  rw [entries, List.length_take, List.length_zip, h.ids, h.contexts, Nat.min_self]
  exact Nat.min_eq_left h.assigned

theorem Arrays.map_fst (h : Arrays capacity thread) : (entries thread).map Prod.fst = thread.held := by
  rw [entries, List.map_take, List.map_fst_zip (by rw [h.ids, h.contexts])]
  rfl

theorem Arrays.getElem_entries (h : Arrays capacity thread) {i : Nat} (hi : i < (entries thread).length) :
    (entries thread)[i] = (thread.contextIds.getD i 0, thread.contexts.getD i ⟨0, 0, 0⟩) := by
  have hassigned := h.assigned
  have hlength := h.length_entries
  have hids : i < thread.contextIds.length := by
    rw [h.ids]
    omega
  have hcontexts : i < thread.contexts.length := by
    rw [h.contexts]
    omega
  simp [entries, List.getD_eq_getElem?_getD, hids, hcontexts]

theorem zip_set {α β : Type} (xs : List α) (ys : List β) (i : Nat) (a : α) (b : β) :
    (xs.set i a).zip (ys.set i b) = (xs.zip ys).set i (a, b) := by
  induction xs generalizing ys i with
  | nil => simp
  | cons x xs ih =>
    cases ys with
    | nil => simp
    | cons y ys =>
      cases i with
      | zero => rfl
      | succ i => simp [ih]

/-- Removing an entry removes its pair. -/
theorem entries_removeContext (h : Arrays capacity thread) {i : Nat} (hi : i < thread.assignedContexts) :
    (connectorReadThreadRemoveContext thread i).1 = .success ∧
      entries (connectorReadThreadRemoveContext thread i).2 = swapRemove i (entries thread) ∧
      Arrays capacity (connectorReadThreadRemoveContext thread i).2 := by
  obtain ⟨last, hlast⟩ : ∃ last, thread.assignedContexts = last + 1 := ⟨thread.assignedContexts - 1, by omega⟩
  have hlength := h.length_entries
  have hassigned := h.assigned
  have hin : last < (entries thread).length := by omega
  have hzip : last < (thread.contextIds.zip thread.contexts).length := by
    rw [List.length_zip, h.ids, h.contexts]
    omega
  -- the last pair in use, and those before it
  have hsplit : entries thread = (thread.contextIds.zip thread.contexts).take last ++
      [(thread.contextIds.getD last 0, thread.contexts.getD last ⟨0, 0, 0⟩)] := by
    have hpair : (thread.contextIds.zip thread.contexts)[last] = (entries thread)[last] := by simp [entries]
    rw [← h.getElem_entries hin, ← hpair, ← List.take_succ_eq_append_getElem hzip, ← hlast]
    rfl
  rw [hsplit, swapRemove_concat]
  unfold connectorReadThreadRemoveContext
  rw [if_pos hi, hlast, Nat.add_sub_cancel]
  dsimp only
  by_cases hpos : 0 < last
  · rw [if_pos hpos]
    refine ⟨rfl, ?_, ⟨by rw [List.length_set, h.ids], by rw [List.length_set, h.contexts], ?_⟩⟩
    · rw [entries, zip_set, List.take_set]
    · show last ≤ capacity
      omega
  · rw [if_neg hpos]
    obtain rfl : last = 0 := by omega
    exact ⟨rfl, rfl, ⟨h.ids, h.contexts, Nat.zero_le _⟩⟩

/-! ## The loop -/

theorem shutDown_of_ne {o : Bool} {r : ShutdownResult}
    (h : connectorContextShutdownFromReadThread cfg o t context = .ok r) {d : UInt32} (hd : d ≠ context) :
    shutDown cfg r.table d = shutDown cfg t d := by
  have hslot : r.table.slot d = t.slot d := by
    obtain ⟨hwrote, -⟩ | ⟨-, htable, -⟩ := shutdown_cases h
    · exact hwrote.slot_of_ne hd
    · rw [htable]
  rw [shutDown, shutDown, connectorContextState, connectorContextState, hslot]

/-- The loop is the sweep that removes what was shut down before it. -/
theorem cleanupTrace_sweep {i : Nat} {retcode : Retcode} {r : Cleanup} (h : Arrays capacity thread)
    (hi : i ≤ thread.assignedContexts) (hdistinct : (((entries thread).take i).map Prod.fst).Nodup)
    (hr : cleanupTrace cfg closed i retcode thread t = .ok r) :
    entries r.thread = (sweep (fun e => shutDown cfg t e.1) i (entries thread)).1 ∧
      r.shut = (sweep (fun e => shutDown cfg t e.1) i (entries thread)).2.map Prod.fst := by
  induction i generalizing retcode thread t r with
  | zero =>
    obtain rfl := Except.ok.inj hr
    exact ⟨rfl, rfl⟩
  | succ i ih =>
    have hlt : i < (entries thread).length := by
      rw [h.length_entries]
      exact hi
    have hcontext : (entries thread)[i].1 = thread.contextIds.getD i 0 := by rw [h.getElem_entries hlt]
    rw [List.take_succ_eq_append_getElem hlt, List.map_append, List.nodup_append] at hdistinct
    obtain ⟨hbefore, -, hother⟩ := hdistinct
    unfold cleanupTrace at hr
    dsimp only at hr
    cases hdown : shutDown cfg t (thread.contextIds.getD i 0) with
    | true =>
      obtain ⟨hremoved, hentries, harrays⟩ := entries_removeContext h (i := i) (by omega)
      rw [hdown, if_pos rfl, if_pos hremoved] at hr
      obtain ⟨shut, hshut, hr⟩ := bind_eq_ok.mp hr
      obtain ⟨rest, hrest, hr⟩ := bind_eq_ok.mp hr
      obtain rfl := Except.ok.inj hr
      obtain ⟨htake, -⟩ := swapRemove_split hlt
      have hbelow : i ≤ (connectorReadThreadRemoveContext thread i).2.assignedContexts := by
        rw [← harrays.length_entries, hentries, length_swapRemove hlt]
        omega
      obtain ⟨hkept, hgone⟩ := ih harrays hbelow (by rw [hentries, htake]; exact hbefore) hrest
      -- the entries below are about other contexts, whose states the shutdown leaves
      have hsame : sweep (fun e => shutDown cfg shut.table e.1) i (swapRemove i (entries thread)) =
          sweep (fun e => shutDown cfg t e.1) i (swapRemove i (entries thread)) := by
        refine sweep_congr (by rw [length_swapRemove hlt]; omega) fun e he => shutDown_of_ne hshut ?_
        rw [htake] at he
        rw [← hcontext]
        exact hother e.1 (List.mem_map_of_mem he) _ (List.mem_singleton.mpr rfl)
      rw [hentries, hsame] at hkept hgone
      rw [sweep_gone hlt (by rw [hcontext]; exact hdown)]
      refine ⟨hkept, ?_⟩
      show _ :: rest.shut = _
      rw [hgone, List.map_cons, hcontext]
    | false =>
      rw [hdown, if_neg (by decide)] at hr
      rw [sweep_stays hlt (by rw [hcontext]; exact hdown)]
      exact ih h (by omega) hbefore hr

theorem usable_pushFree (h : Usable t) : ∃ r, t.pushFree context = .ok r ∧ Usable r.2 := by
  obtain ⟨contextList, freeContexts, connectionQueue⟩ := t
  rcases h with hnull | ⟨q, hq, hsize⟩
  · obtain rfl : freeContexts = .null := hnull
    exact ⟨_, rfl, .inl rfl⟩
  · obtain rfl : freeContexts = .live q := hq
    have hkept : (q.push context).2.size = q.size := by
      unfold UintQueue.push
      split <;> rfl
    refine ⟨((q.push context).1, ⟨contextList, .live (q.push context).2, connectionQueue⟩), ?_,
      .inr ⟨(q.push context).2, rfl, hkept ▸ hsize⟩⟩
    rw [ContextTable.pushFree, connectorUintQueuePush, if_neg hsize]
    rfl

theorem usable_shutdown {o : Bool} (h : Usable t) :
    ∃ r, connectorContextShutdownFromReadThread cfg o t context = .ok r ∧ Usable r.table := by
  unfold connectorContextShutdownFromReadThread
  split
  · obtain ⟨pushed, hpush, hafter⟩ := @usable_pushFree (t.setSlot context .zero) context h
    rw [hpush]
    exact ⟨_, rfl, hafter⟩
  · exact ⟨_, rfl, h⟩

theorem cleanupTrace_ends {i : Nat} {retcode : Retcode} (h : Usable t) :
    ∃ r, cleanupTrace cfg closed i retcode thread t = .ok r := by
  induction i generalizing retcode thread t with
  | zero => exact ⟨_, rfl⟩
  | succ i ih =>
    unfold cleanupTrace
    dsimp only
    split
    · split
      · obtain ⟨shut, hshut, hafter⟩ := usable_shutdown h
        obtain ⟨rest, hrest⟩ := ih hafter
        exact ⟨_, bind_eq_ok.mpr ⟨shut, hshut, bind_eq_ok.mpr ⟨rest, hrest, rfl⟩⟩⟩
      · exact ih h
    · exact ih h

/-! ## What the other modules run -/

/-- In range the test of the 32-bit state is the test of the configuration word. -/
theorem shutDown_iff (hrange : context.toNat < cfg.contextCount) :
    shutDown cfg t context = true ↔ (t.slot context).state &&& connShutdown ≠ 0 := by
  have hsmall : ((t.slot context).state &&& connShutdown).toNat < 2 ^ 32 := by
    rw [UInt64.toNat_and]
    exact Nat.lt_of_le_of_lt Nat.and_le_right (by decide)
  rw [shutDown, connectorContextState, if_pos hrange, ← UInt64.toUInt32_and, decide_eq_true_iff, not_iff_not,
    ← UInt32.toNat_inj, ← UInt64.toNat_inj, UInt64.toNat_toUInt32, Nat.mod_eq_of_lt hsmall]
  rfl

theorem held_removeContext (h : Arrays cfg.readContexts thread) {i : Nat} (hi : i < thread.assignedContexts) {x : UInt32}
    (hx : x ∈ (connectorReadThreadRemoveContext thread i).2.held) : x ∈ thread.held := by
  obtain ⟨-, hperm, -, -⟩ := removeContext_held ⟨h.ids, h.assigned⟩ hi
  exact hperm.subset (List.mem_cons_of_mem _ hx)

/-- Without its list of calls it is `cleanupLoop`, on the identifiers a thread can hold. -/
theorem cleanupLoop_eq_trace {i : Nat} {retcode : Retcode} (h : Arrays cfg.readContexts thread)
    (hi : i ≤ thread.assignedContexts) (hids : ∀ x ∈ thread.held, x.toNat < cfg.contextCount) :
    cleanupLoop cfg closed i retcode thread t =
      (cleanupTrace cfg closed i retcode thread t).map fun r => (r.retcode, r.thread, r.table) := by
  induction i generalizing retcode thread t with
  | zero => rfl
  | succ i ih =>
    have hlt : i < (entries thread).length := by
      rw [h.length_entries]
      exact hi
    have hmem : thread.contextIds.getD i 0 ∈ thread.held := by
      rw [← h.map_fst, List.mem_map]
      exact ⟨(entries thread)[i], List.getElem_mem hlt, by rw [h.getElem_entries hlt]⟩
    obtain ⟨hremoved, hentries, harrays⟩ := entries_removeContext h (i := i) (by omega)
    have hbelow : i ≤ (connectorReadThreadRemoveContext thread i).2.assignedContexts := by
      rw [← harrays.length_entries, hentries, length_swapRemove hlt]
      omega
    have hrest : ∀ x ∈ (connectorReadThreadRemoveContext thread i).2.held, x.toNat < cfg.contextCount :=
      fun x hx => hids x (held_removeContext h (by omega) hx)
    unfold cleanupLoop cleanupTrace
    dsimp only
    by_cases hdown : (t.slot (thread.contextIds.getD i 0)).state &&& connShutdown ≠ 0
    · rw [if_pos hdown, if_pos ((shutDown_iff (hids _ hmem)).mpr hdown), if_pos hremoved, if_pos hremoved]
      cases hshut : connectorContextShutdownFromReadThread cfg (closed (thread.contextIds.getD i 0)) t
          (thread.contextIds.getD i 0) with
      | error fault => rfl
      | ok shut =>
        show cleanupLoop cfg closed i shut.retcode _ shut.table = _
        rw [ih harrays hbelow hrest]
        cases htrace : cleanupTrace cfg closed i shut.retcode (connectorReadThreadRemoveContext thread i).2 shut.table with
        | error fault => simp [bind, Except.bind, htrace, Except.map]
        | ok rest => simp [bind, Except.bind, pure, Except.pure, htrace, Except.map]
    · rw [if_neg hdown, if_neg (fun htrue => hdown ((shutDown_iff (hids _ hmem)).mp htrue))]
      exact ih h (by omega) hids

end cleanup

/-- **Every entry is looked at once.** Whatever states the contexts of a thread have, a cleanup that ends has kept the
pairs of those that are not shut down and has shut down each of the others once; it ends unless the queue of free
contexts has been destroyed. -/
theorem cleaned_up (cfg : BuildConfig) (closed : UInt32 → Bool) (thread : ReadThread) (t : ContextTable)
    (harrays : Arrays cfg.readContexts thread) (hdistinct : thread.held.Nodup) :
    (∀ r, cleanupTrace cfg closed thread.assignedContexts .error thread t = .ok r → CleanedUp cfg thread t r) ∧
      (Usable t → ∃ r, cleanupTrace cfg closed thread.assignedContexts .error thread t = .ok r) := by
  refine ⟨fun r hr => ?_, cleanupTrace_ends⟩
  have hwhole : (entries thread).take thread.assignedContexts = entries thread := by
    rw [← harrays.length_entries, List.take_length]
  obtain ⟨hkept, hshut⟩ := cleanupTrace_sweep harrays (Nat.le_refl _) (by rw [hwhole, harrays.map_fst]; exact hdistinct) hr
  rw [← harrays.length_entries] at hkept hshut
  refine ⟨hkept ▸ sweep_kept _, fun context => ?_⟩
  have hmap : r.shut = (thread.held.filter (shutDown cfg t)).reverse := by
    rw [hshut, sweep_removed, ← harrays.map_fst, List.map_reverse, List.filter_map]
    rfl
  rw [hmap, List.count_reverse, (hdistinct.filter _).count]
  simp only [List.mem_filter]

/-- Three contexts, the middle one shut down. -/
def threeContexts : ReadThread where
  contexts := [⟨4, pollIn, 0⟩, ⟨5, pollIn, pollIn⟩, ⟨6, pollIn, 0⟩] ++ .replicate 14 ⟨0, 0, 0⟩
  contextIds := [0, 1, 2] ++ .replicate 14 0
  assignedContexts := 3

def middleShutDown : ContextTable :=
  (State.start .default 1).table.setSlot 1
    { ConnectorContext.zero with configuration := commTcp ||| connConnected ||| connShutdown }

theorem cleaned_up_middle :
    ∃ r, entries r.thread = [(0, ⟨4, pollIn, 0⟩), (2, ⟨6, pollIn, 0⟩)] ∧ r.shut = [1] ∧
      CleanedUp .default threeContexts middleShutDown r := by
  have hrun : ((cleanupTrace .default (fun _ => true) 3 .error threeContexts middleShutDown).toOption.map
      fun r => (entries r.thread, r.shut)) = some ([(0, ⟨4, pollIn, 0⟩), (2, ⟨6, pollIn, 0⟩)], [1]) := by
    decide +kernel
  obtain ⟨r, hr, hend⟩ := toOption_map_eq_some.mp hrun
  obtain ⟨hentries, hshut⟩ := Prod.mk.inj hend
  exact ⟨r, hentries, hshut,
    (cleaned_up .default (fun _ => true) threeContexts middleShutDown ⟨rfl, rfl, by decide⟩ (by decide)).1 r hr⟩

end SubstanceConnector.ContextSystem
