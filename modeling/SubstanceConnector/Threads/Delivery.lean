import Mathlib.Data.List.Nodup
import SubstanceConnector.Library.ThreadPool
import SubstanceConnector.Threads.Termination

/-!
# What becomes of a message

Every message that was enqueued is in one place: in the queue, with one worker, or freed. The places are
counted for each message (`Ledger.kept`), so a message is freed at most once and, once the workers have
stopped and the queue is cleared, exactly once; and whoever hands it over or frees it has it, so nothing
happens to it after it was freed (`Clean`). A second count, of the messages not yet handed over, shows that
a message is handed over at most once, and exactly once if no worker was leaving (`Early`).

What a pool has to add is which message a worker has at each point of its routine (`Custody`).
-/

namespace SubstanceConnector.Pool

open Monitor

namespace MessageEvent

def message : MessageEvent → Queued
  | handed m _ => m
  | written m => m
  | freed m => m

def isFreed : MessageEvent → Bool
  | freed _ => true
  | _ => false

def isHanded : MessageEvent → Bool
  | handed _ _ => true
  | _ => false

end MessageEvent

def countId (id : Nat) (ms : List Queued) : Nat := ms.countP fun m => m.id == id

def freedCount (id : Nat) (log : List MessageEvent) : Nat := log.countP fun e => e.isFreed && e.message.id == id

/-- How often a message was handed over, or written, as `uses` says. -/
def usedCount (uses : MessageEvent → Bool) (id : Nat) (log : List MessageEvent) : Nat :=
  log.countP fun e => uses e && e.message.id == id

/-- Nothing happens to a message after it was freed. -/
def Clean (log : List MessageEvent) : Prop :=
  log.Pairwise fun e e' => e.isFreed = true → e'.message.id ≠ e.message.id

theorem countId_append (id : Nat) (xs ys : List Queued) : countId id (xs ++ ys) = countId id xs + countId id ys :=
  List.countP_append

theorem freedCount_append (id : Nat) (xs ys : List MessageEvent) :
    freedCount id (xs ++ ys) = freedCount id xs + freedCount id ys := List.countP_append

theorem usedCount_append (uses : MessageEvent → Bool) (id : Nat) (xs ys : List MessageEvent) :
    usedCount uses id (xs ++ ys) = usedCount uses id xs + usedCount uses id ys := List.countP_append

theorem freedCount_map_freed (id : Nat) (ms : List Queued) : freedCount id (ms.map .freed) = countId id ms :=
  List.countP_map

theorem usedCount_map_freed {uses : MessageEvent → Bool} (h : ∀ m, uses (.freed m) = false) (id : Nat) (ms : List Queued) :
    usedCount uses id (ms.map .freed) = 0 := by
  rw [usedCount, List.countP_map]
  refine List.countP_eq_zero.mpr fun m _ => ?_
  simp [h m]

theorem Clean.append {xs ys : List MessageEvent} (hxs : Clean xs) (hys : Clean ys)
    (hnew : ∀ e ∈ ys, freedCount e.message.id xs = 0) : Clean (xs ++ ys) := by
  refine List.pairwise_append.mpr ⟨hxs, hys, fun e he e' he' hfreed hsame => ?_⟩
  refine List.countP_eq_zero.mp (hnew e' he') e he ?_
  simp [hfreed, hsame]

theorem clean_map_freed {ms : List Queued} (h : ∀ id, countId id ms ≤ 1) : Clean (ms.map .freed) := by
  have hnodup : (ms.map Queued.id).Nodup := by
    refine List.nodup_iff_count_le_one.mpr fun id => ?_
    have hcount : (ms.map Queued.id).count id = countId id ms := List.countP_map
    rw [hcount]
    exact h id
  refine List.pairwise_map.mpr ((List.pairwise_map.mp hnodup).imp ?_)
  intro m m' hne _ hsame
  exact hne hsame.symm

/-! ## Who has a message -/

/-- What the local state of a worker says: the message it has, the message it has and has not handed over,
whether it is past its loop, and what holds of the variable `message` at each point; and which events count
as handing over. -/
structure Custody (W : Type) where
  uses : MessageEvent → Bool
  owned : Worker W → Option Queued
  pending : Worker W → Option Queued
  leaving : Worker W → Bool
  steady : Worker W → Bool → Prop

variable {n : Nat} {P W : Type}

/-- One action of a worker. -/
structure Custody.Handles (c : Custody W) (l : Worker W) (g : Shared) (l' : Worker W) (g' : Shared) : Prop where
  shutdown : g'.shutdown = g.shutdown
  enqueued : g'.enqueued = g.enqueued
  kept : ∀ id, countId id g'.queue + countId id (c.owned l').toList + freedCount id g'.log =
    countId id g.queue + countId id (c.owned l).toList + freedCount id g.log
  used : ∀ id, countId id g'.queue + countId id (c.pending l').toList + usedCount c.uses id g'.log ≤
    countId id g.queue + countId id (c.pending l).toList + usedCount c.uses id g.log
  exact : c.leaving l = false → ∀ id, countId id g'.queue + countId id (c.pending l').toList + usedCount c.uses id g'.log =
    countId id g.queue + countId id (c.pending l).toList + usedCount c.uses id g.log
  log : g'.log = g.log ∨ ∃ e, c.owned l = some e.message ∧ g'.log = g.log ++ [e]
  steady : c.steady l' g.shutdown
  leaving : g.shutdown = false → c.leaving l = false → c.leaving l' = false

/-- What each instruction of a worker does to its message. -/
def Custody.Keeps (c : Custody W) (l : Worker W) : Instr n P (Worker W) → Prop
  | .act f => ∀ m g, c.steady l g.shutdown → c.Handles l g (f m g).2 (f m g).1
  | .lock k | .unlock k | .wait k => c.owned k = c.owned l ∧ c.pending k = c.pending l ∧ c.leaving k = c.leaving l ∧
      ∀ shutdown, c.steady l shutdown → c.steady k shutdown
  | .stop => c.owned l = none ∧ ∀ shutdown, c.steady l shutdown
  | .signal _ | .broadcast _ | .join _ _ => False

/-- What each instruction of the caller does: it changes the flag or clears the queue. -/
def Settling (pc : CallerPc) : Instr n P CallerPc → Prop
  | .act f => ∀ m g, (f m g).1 = g.clear ∨ (f m g).2 ≠ .finished ∧ ∃ b, (f m g).1 = { g with shutdown := b } ∧
      (b = g.shutdown ∨ b = true ∨ pc.phase = .joined)
  | .lock k | .unlock k | .broadcast k | .join _ k => k ≠ .finished
  | _ => True

theorem settling_joinLoop {k : Nat} {after : CallerPc} (hafter : after ≠ .finished) :
    Settling (n := n) (P := P) (.join k) (joinLoop k after) := by
  unfold joinLoop
  split
  · exact CallerPc.noConfusion
  · exact fun _ g => .inr ⟨hafter, g.shutdown, rfl, .inl rfl⟩

/-- What a pool has to show. -/
structure Keeper (r : Routines n P W) (c : Custody W) : Prop where
  keeps : ∀ l, c.Keeps l (r.work l)
  settles : ∀ pc, Settling pc (r.call pc)
  raised : ∀ l, c.steady l false → c.steady l true
  freed : ∀ m, c.uses (.freed m) = false
  owned : c.owned ⟨r.first, none⟩ = none
  pending : c.pending ⟨r.first, none⟩ = none
  staying : c.leaving ⟨r.first, none⟩ = false
  steady : c.steady ⟨r.first, none⟩ false

/-- What the workers are at, or will be at after their waits. -/
def locals (s : State n P W) (i : Fin n) : Worker W := (s.threads (.worker i)).locals

/-- How often the workers have a message. -/
def heldCount (held : Worker W → Option Queued) (id : Nat) (pool : Fin n → Worker W) : Nat :=
  ThreadPool.total (fun l => countId id (held l).toList) pool

structure Ledger (c : Custody W) (s : State n P W) : Prop where
  steady : ∀ i, c.steady (locals s i) s.shared.shutdown
  kept : ∀ id, countId id s.shared.queue + heldCount c.owned id (locals s) + freedCount id s.shared.log =
    if id < s.shared.enqueued then 1 else 0
  used : ∀ id, countId id s.shared.queue + heldCount c.pending id (locals s) + usedCount c.uses id s.shared.log ≤
    if id < s.shared.enqueued then 1 else 0
  clean : Clean s.shared.log

/-- Before the flag is set no worker leaves, and no message is dropped. -/
structure Early (c : Custody W) (s : State n P W) : Prop where
  runs : s.shared.shutdown = false
  staying : ∀ i, c.leaving (locals s i) = false
  exact : ∀ id, countId id s.shared.queue + heldCount c.pending id (locals s) + usedCount c.uses id s.shared.log =
    if id < s.shared.enqueued then 1 else 0

/-! ## Each instruction of a worker -/

namespace Custody.Handles

variable {c : Custody W} {l k : Worker W} {g : Shared}

theorem of_same (howned : c.owned k = c.owned l) (hpending : c.pending k = c.pending l)
    (hleaving : g.shutdown = false → c.leaving l = false → c.leaving k = false) (hsteady : c.steady k g.shutdown) :
    c.Handles l g k g where
  shutdown := rfl
  enqueued := rfl
  kept id := by rw [howned]
  used id := by rw [hpending]
  exact _ id := by rw [hpending]
  log := .inl rfl
  steady := hsteady
  leaving := hleaving

/-- A worker without a message takes the next one. -/
theorem acquire {pc : W} (howned : c.owned l = none) (hpending : c.pending l = none)
    (howned' : ∀ m, c.owned ⟨pc, m⟩ = m) (hpending' : ∀ m, c.pending ⟨pc, m⟩ = m)
    (hleaving : ∀ m, c.leaving ⟨pc, m⟩ = false) (hsteady : ∀ m shutdown, c.steady ⟨pc, m⟩ shutdown) :
    c.Handles l g ⟨pc, g.dequeue.1⟩ g.dequeue.2 := by
  cases hqueue : g.queue with
  | nil =>
    rw [Shared.dequeue_of_queue_eq_nil hqueue]
    exact of_same ((howned' none).trans howned.symm) ((hpending' none).trans hpending.symm) (fun _ _ => hleaving none)
      (hsteady none _)
  | cons m rest =>
    rw [Shared.dequeue_of_queue_eq_cons hqueue]
    have hcount : ∀ id, countId id g.queue = countId id rest + countId id [m] := by
      intro id
      rw [hqueue, ← List.singleton_append, countId_append]
      omega
    refine ⟨rfl, rfl, fun id => ?_, fun id => ?_, fun _ id => ?_, .inl rfl, hsteady _ _, fun _ _ => hleaving _⟩
    · rw [howned, howned', hcount]
      rfl
    · rw [hpending, hpending', hcount]
      exact Nat.le_refl _
    · rw [hpending, hpending', hcount]
      rfl

/-- A worker hands its message over. -/
theorem use {e : Queued → MessageEvent} (hmessage : ∀ m, (e m).message = m) (hfreed : ∀ m, (e m).isFreed = false)
    (huses : ∀ m, c.uses (e m) = true) (howned : c.owned l = l.message) (howned' : c.owned k = l.message)
    (hpending : c.pending l = l.message) (hpending' : c.pending k = none) (hleaving : c.leaving k = false)
    (hsteady : c.steady k g.shutdown) : c.Handles l g k (g.record e l.message) := by
  cases hm : l.message with
  | none =>
    rw [hm] at howned howned' hpending
    exact of_same (howned'.trans howned.symm) (hpending'.trans hpending.symm) (fun _ _ => hleaving) hsteady
  | some m =>
    rw [hm] at howned howned' hpending
    have hfree : ∀ id, freedCount id [e m] = 0 := fun id => by simp [freedCount, hfreed]
    have hused : ∀ id, usedCount c.uses id [e m] = countId id [m] := fun id => by
      simp [usedCount, countId, List.countP_cons, huses, hmessage]
    refine ⟨rfl, rfl, fun id => ?_, fun id => ?_, fun _ id => ?_, .inr ⟨e m, ?_, rfl⟩, hsteady, fun _ _ => hleaving⟩
    · show countId id g.queue + _ + freedCount id (g.log ++ [e m]) = _
      rw [howned, howned', freedCount_append, hfree]
      rfl
    · show countId id g.queue + _ + usedCount c.uses id (g.log ++ [e m]) ≤ _
      rw [hpending, hpending', usedCount_append, hused]
      show _ + 0 + (_ + countId id [m]) ≤ _ + countId id [m] + _
      omega
    · show countId id g.queue + _ + usedCount c.uses id (g.log ++ [e m]) = _
      rw [hpending, hpending', usedCount_append, hused]
      show _ + 0 + (_ + countId id [m]) = _ + countId id [m] + _
      omega
    · rw [howned, hmessage]

/-- A worker frees its message, which it has handed over unless it is leaving. -/
theorem free (huses : ∀ m, c.uses (.freed m) = false) (howned : c.owned l = l.message) (howned' : c.owned k = none)
    (hpending : c.leaving l = false → c.pending l = none) (hpending' : c.pending k = none)
    (hleaving : c.leaving l = false → c.leaving k = false) (hsteady : c.steady k g.shutdown) :
    c.Handles l g k (g.record .freed l.message) := by
  cases hm : l.message with
  | none =>
    rw [hm] at howned
    refine ⟨rfl, rfl, fun id => ?_, fun id => ?_, fun hstays id => ?_, .inl rfl, hsteady, fun _ => hleaving⟩
    · rw [howned, howned']
      rfl
    · rw [hpending']
      show countId id g.queue + 0 + usedCount c.uses id g.log ≤ _
      omega
    · rw [hpending', hpending hstays]
      rfl
  | some m =>
    rw [hm] at howned
    have hfree : ∀ id, freedCount id [.freed m] = countId id [m] := fun id => freedCount_map_freed id [m]
    have hused : ∀ id, usedCount c.uses id [.freed m] = 0 := fun id => usedCount_map_freed huses id [m]
    refine ⟨rfl, rfl, fun id => ?_, fun id => ?_, fun hstays id => ?_, .inr ⟨.freed m, howned, rfl⟩, hsteady,
      fun _ => hleaving⟩
    · show countId id g.queue + _ + freedCount id (g.log ++ [.freed m]) = _
      rw [howned, howned', freedCount_append, hfree]
      show _ + 0 + (_ + countId id [m]) = _ + countId id [m] + _
      omega
    · show countId id g.queue + _ + usedCount c.uses id (g.log ++ [.freed m]) ≤ _
      rw [hpending', usedCount_append, hused]
      show _ + 0 + (_ + 0) ≤ _
      omega
    · show countId id g.queue + _ + usedCount c.uses id (g.log ++ [.freed m]) = _
      rw [hpending', hpending hstays, usedCount_append, hused]
      rfl

end Custody.Handles

/-- The test of a loop leaves the message where it is. -/
theorem keeps_test {c : Custody W} {l : Worker W} {pc : Bool → Bool → W}
    (h : ∀ shutdown, c.steady l shutdown →
      c.owned { l with pc := pc l.message.isSome shutdown } = c.owned l ∧
      c.pending { l with pc := pc l.message.isSome shutdown } = c.pending l ∧
      (shutdown = false → c.leaving l = false → c.leaving { l with pc := pc l.message.isSome shutdown } = false) ∧
      c.steady { l with pc := pc l.message.isSome shutdown } shutdown) :
    c.Keeps (n := n) (P := P) l (test l pc) := by
  intro _ g hsteady
  obtain ⟨howned, hpending, hleaving, hsteady⟩ := h g.shutdown hsteady
  exact .of_same howned hpending hleaving hsteady

/-! ## Steps -/

section steps
variable {r : Routines n P W} {c : Custody W} {s s' : State n P W} {a : Label n P} {ready : Worker W → Bool}

/-- A message that a worker has is not freed. -/
theorem Ledger.freedCount_eq_zero (hs : Ledger c s) {i : Fin n} {m : Queued} (hm : c.owned (locals s i) = some m) :
    freedCount m.id s.shared.log = 0 := by
  have hkept := hs.kept m.id
  have hle := ThreadPool.weight_le_total (fun l => countId m.id (c.owned l).toList) (locals s) i
  have hone : countId m.id (c.owned (locals s i)).toList = 1 := by
    rw [hm]
    simp [countId]
  unfold heldCount at hkept
  split at hkept <;> omega

variable [DecidableEq P]

theorem locals_of_ne {i : Agent n P} (heffect : Effect r.routine s i s') (hi : ∀ j, i ≠ .worker j) :
    locals s' = locals s := by
  funext j
  unfold locals
  obtain hsame | hwoken := heffect.threads_of_ne (Ne.symm (hi j))
  · rw [hsame]
  · rw [hwoken, Status.locals_wake]

theorem locals_worker {i : Fin n} (heffect : Effect r.routine s (.worker i) s') :
    locals s' = Function.update (locals s) i (s'.threads (.worker i)).locals := by
  funext j
  by_cases hj : j = i
  · subst hj
    rw [Function.update_self]
    rfl
  · rw [Function.update_of_ne hj]
    unfold locals
    obtain hsame | hwoken := heffect.threads_of_ne (j := .worker j) (by simpa using hj)
    · rw [hsame]
    · rw [hwoken, Status.locals_wake]

/-- A worker's step handles its message. -/
theorem handles_worker {i : Fin n} (hkeeps : ∀ l, c.Keeps l (r.work l)) (hs : Ledger c s)
    (heffect : Effect r.routine s (.worker i) s') :
    c.Handles (locals s i) s.shared (s'.threads (.worker i)).locals s'.shared := by
  have hsteady := hs.steady i
  unfold locals at hsteady ⊢
  cases heffect with
  | reacquire l hat hfree =>
    rw [hat] at hsteady ⊢
    rw [State.goto_self]
    exact .of_same rfl rfl (fun _ h => h) hsteady
  | act l f answer hat hinstr =>
    have hl := hkeeps l
    rw [show r.work l = .act f from hinstr] at hl
    rw [hat] at hsteady ⊢
    rw [State.goto_self]
    exact hl answer s.shared hsteady
  | lock l k hat hinstr hheld | unlock l k hat hinstr hheld =>
    have hl := hkeeps l
    rw [show r.work l = _ from hinstr] at hl
    rw [hat] at hsteady ⊢
    rw [State.goto_self]
    exact .of_same hl.1 hl.2.1 (fun _ h => hl.2.2.1.trans h) (hl.2.2.2 _ hsteady)
  | wait l k hat hinstr hheld =>
    have hl := hkeeps l
    rw [show r.work l = _ from hinstr] at hl
    rw [hat] at hsteady ⊢
    rw [State.block_self]
    exact .of_same hl.1 hl.2.1 (fun _ h => hl.2.2.1.trans h) (hl.2.2.2 _ hsteady)
  | signal l k j hat hinstr hblocked | signalNobody l k hat hinstr hnobody | broadcast l k hat hinstr
  | join l k j hat hinstr hstopped =>
    have hl := hkeeps l
    rw [show r.work l = _ from hinstr] at hl
    exact hl.elim

omit [DecidableEq P] in
/-- What the workers have changes by what the moving worker has. -/
theorem heldCount_update (held : Worker W → Option Queued) (id : Nat) (pool : Fin n → Worker W) (i : Fin n)
    (l : Worker W) : heldCount held id (Function.update pool i l) + countId id (held (pool i)).toList =
      heldCount held id pool + countId id (held l).toList := ThreadPool.total_update _ pool i l

omit [DecidableEq P] in
theorem Ledger.handles {i : Fin n} {l : Worker W} (hs : Ledger c s) (hlocals : locals s' = Function.update (locals s) i l)
    (h : c.Handles (locals s i) s.shared l s'.shared) : Ledger c s' := by
  refine ⟨fun j => ?_, fun id => ?_, fun id => ?_, ?_⟩
  · rw [hlocals, h.shutdown]
    exact Function.forall_update_iff (locals s) (fun _ l => c.steady l s.shared.shutdown) |>.mpr
      ⟨h.steady, fun j _ => hs.steady j⟩ j
  · have hupdate := heldCount_update c.owned id (locals s) i l
    have hmoved := h.kept id
    have hkept := hs.kept id
    rw [hlocals, h.enqueued]
    omega
  · have hupdate := heldCount_update c.pending id (locals s) i l
    have hmoved := h.used id
    have hused := hs.used id
    rw [hlocals, h.enqueued]
    omega
  · obtain hsame | ⟨e, howned, hlog⟩ := h.log
    · rw [hsame]
      exact hs.clean
    · rw [hlog]
      refine hs.clean.append (List.pairwise_singleton _ _) fun e' he' => ?_
      rw [List.mem_singleton.mp he']
      exact hs.freedCount_eq_zero howned

omit [DecidableEq P] in
theorem Early.handles {i : Fin n} {l : Worker W} (hs : Early c s) (hlocals : locals s' = Function.update (locals s) i l)
    (h : c.Handles (locals s i) s.shared l s'.shared) : Early c s' := by
  refine ⟨h.shutdown.trans hs.runs, fun j => ?_, fun id => ?_⟩
  · rw [hlocals]
    exact Function.forall_update_iff (locals s) (fun _ l => c.leaving l = false) |>.mpr
      ⟨h.leaving hs.runs (hs.staying i), fun j _ => hs.staying j⟩ j
  · have hupdate := heldCount_update c.pending id (locals s) i l
    have hmoved := h.exact (hs.staying i) id
    have hexact := hs.exact id
    rw [hlocals, h.enqueued]
    omega

/-- A producer puts a message into the queue, under a new number. -/
theorem countId_enqueue (g : Shared) (m : ConnectorMessage) (id : Nat) :
    countId id (g.enqueue m).queue + (if id < g.enqueued then 1 else 0) =
      countId id g.queue + if id < (g.enqueue m).enqueued then 1 else 0 := by
  unfold Shared.enqueue
  dsimp only
  rw [countId_append]
  have hnew : countId id [⟨g.enqueued, m⟩] = if id = g.enqueued then 1 else 0 := by
    by_cases hid : id = g.enqueued
    · simp [countId, hid]
    · simp [countId, hid, Ne.symm hid]
  rw [hnew]
  split <;> split <;> split <;> omega

/-- The invariant of a run: the position of the caller decides what is known. -/
structure Books (r : Routines n P W) (c : Custody W) (s : State n P W) : Prop where
  ledger : Ledger c s
  early : ∀ pc, s.threads .caller = .running pc → pc.phase = .early → Early c s
  cleared : s.threads .caller = .running .finished → s.shared.queue = []

/-- The producers are idle when the shutdown starts and make no step during it. -/
def ProducersIdle (s : State n P W) (a : Label n P) : Prop :=
  (a.thread = .caller → ∀ p, s.threads (.producer p) = .running .enqueue) ∧
    ∀ p, a.thread = .producer p → s.threads .caller = .running .start

instance [Fintype P] (s : State n P W) (a : Label n P) : Decidable (ProducersIdle s a) :=
  inferInstanceAs (Decidable (_ ∧ _))

theorem caller_of_ne {i : Agent n P} {pc : CallerPc} (heffect : Effect r.routine s i s') (hi : i ≠ .caller)
    (h : s'.threads .caller = .running pc) : s.threads .caller = .running pc := by
  obtain hsame | hwoken := heffect.threads_of_ne (Ne.symm hi)
  · exact hsame.symm.trans h
  · exact Status.eq_running_of_wake (hwoken.symm.trans h)

theorem books_worker {i : Fin n} (hk : Keeper r c) (hquiet : ∀ pc, s.threads .caller = .running pc → Reached r ready s pc.phase)
    (hs : Books r c s) (heffect : Effect r.routine s (.worker i) s') : Books r c s' := by
  have hlocals := locals_worker heffect
  have hhandles := handles_worker hk.keeps hs.ledger heffect
  refine ⟨hs.ledger.handles hlocals hhandles, fun pc hat hphase => ?_, fun hat => ?_⟩
  · exact (hs.early pc (caller_of_ne heffect (by simp) hat) hphase).handles hlocals hhandles
  · -- at the end every worker has stopped
    have hstopped := hquiet _ (caller_of_ne heffect (by simp) hat) i
    exact absurd rfl (heffect.stopped hstopped).1

omit [DecidableEq P] in
theorem Ledger.congr (hs : Ledger c s) (hlocals : locals s' = locals s) (hshared : s'.shared = s.shared) : Ledger c s' := by
  refine ⟨?_, ?_, ?_, ?_⟩
  · rw [hlocals, hshared]
    exact hs.steady
  · rw [hlocals, hshared]
    exact hs.kept
  · rw [hlocals, hshared]
    exact hs.used
  · rw [hshared]
    exact hs.clean

omit [DecidableEq P] in
theorem Early.congr (hs : Early c s) (hlocals : locals s' = locals s) (hshared : s'.shared = s.shared) : Early c s' := by
  refine ⟨?_, ?_, ?_⟩
  · rw [hshared]
    exact hs.runs
  · rw [hlocals]
    exact hs.staying
  · rw [hlocals, hshared]
    exact hs.exact

theorem shared_producer {p : P} (heffect : Effect r.routine s (.producer p) s') :
    s'.shared = s.shared ∨ ∃ m, s'.shared = s.shared.enqueue m := by
  cases heffect with
  | act l f answer hat hinstr =>
    cases l <;> cases hinstr
    exact .inr ⟨answer, rfl⟩
  | _ => exact .inl rfl

theorem books_producer {p : P} (hs : Books r c s) (hidle : s.threads .caller = .running .start)
    (heffect : Effect r.routine s (.producer p) s') : Books r c s' := by
  have hlocals := locals_of_ne heffect (by simp)
  have hcaller : ∀ pc, s'.threads .caller = .running pc → s.threads .caller = .running pc :=
    fun pc => caller_of_ne heffect (by simp)
  have hfinished : s'.threads .caller = .running .finished → s'.shared.queue = [] := fun hat =>
    absurd (Status.running.inj (hidle.symm.trans (hcaller _ hat))) (by simp)
  obtain hsame | ⟨m, hshared⟩ := shared_producer heffect
  · exact ⟨hs.ledger.congr hlocals hsame, fun pc hat hphase => (hs.early pc (hcaller pc hat) hphase).congr hlocals hsame,
      hfinished⟩
  · refine ⟨⟨?_, fun id => ?_, fun id => ?_, ?_⟩, fun pc hat hphase => ⟨?_, ?_, fun id => ?_⟩, hfinished⟩
    · rw [hlocals, hshared]
      exact hs.ledger.steady
    · have hnew := countId_enqueue s.shared m id
      have hkept := hs.ledger.kept id
      rw [hlocals, hshared]
      show _ + _ + freedCount id s.shared.log = _
      omega
    · have hnew := countId_enqueue s.shared m id
      have hused := hs.ledger.used id
      rw [hlocals, hshared]
      show _ + _ + usedCount c.uses id s.shared.log ≤ _
      omega
    · rw [hshared]
      exact hs.ledger.clean
    · rw [hshared]
      exact (hs.early pc (hcaller pc hat) hphase).runs
    · rw [hlocals]
      exact (hs.early pc (hcaller pc hat) hphase).staying
    · have hnew := countId_enqueue s.shared m id
      have hexact := (hs.early pc (hcaller pc hat) hphase).exact id
      rw [hlocals, hshared]
      show _ + _ + usedCount c.uses id s.shared.log = _
      omega

omit [DecidableEq P] in
theorem steady_of_stopped (hkeeps : ∀ l, c.Keeps l (r.work l)) {i : Fin n} (h : stopped r.routine s.threads (.worker i) = true)
    (shutdown : Bool) : c.owned (locals s i) = none ∧ c.steady (locals s i) shutdown := by
  obtain ⟨l, hat, hstop⟩ := stopped_iff.mp h
  have hl := hkeeps l
  rw [show r.work l = .stop from hstop] at hl
  unfold locals
  rw [hat]
  exact ⟨hl.1, hl.2 shutdown⟩

omit [DecidableEq P] in
/-- The queue is cleared: its messages are freed. -/
theorem Ledger.clear (hs : Ledger c s) (hfreed : ∀ m, c.uses (.freed m) = false) (hlocals : locals s' = locals s)
    (hshared : s'.shared = s.shared.clear) : Ledger c s' := by
  have hqueue : ∀ id, countId id s.shared.queue + freedCount id s.shared.log ≤ 1 := by
    intro id
    have hkept := hs.kept id
    split at hkept <;> omega
  refine ⟨?_, fun id => ?_, fun id => ?_, ?_⟩
  · rw [hlocals, hshared]
    exact hs.steady
  · have hkept := hs.kept id
    rw [hlocals, hshared]
    show 0 + heldCount c.owned id (locals s) + freedCount id (s.shared.log ++ s.shared.queue.map .freed) = _
    rw [freedCount_append, freedCount_map_freed]
    show _ = if id < s.shared.enqueued then 1 else 0
    omega
  · have hused := hs.used id
    rw [hlocals, hshared]
    show 0 + heldCount c.pending id (locals s) + usedCount c.uses id (s.shared.log ++ s.shared.queue.map .freed) ≤ _
    rw [usedCount_append, usedCount_map_freed hfreed]
    show _ ≤ if id < s.shared.enqueued then 1 else 0
    omega
  · rw [hshared]
    refine hs.clean.append (clean_map_freed fun id => by have := hqueue id; omega) fun e he => ?_
    obtain ⟨m, hm, rfl⟩ := List.mem_map.mp he
    have hone : 0 < countId m.id s.shared.queue := List.countP_pos_iff.mpr ⟨m, hm, by simp⟩
    have hle := hqueue m.id
    show freedCount m.id s.shared.log = 0
    omega

omit [DecidableEq P] in
/-- The flag changes: up at any time, down only when every worker has stopped. -/
theorem Ledger.flag (hs : Ledger c s) (hlocals : locals s' = locals s) {b : Bool}
    (hshared : s'.shared = { s.shared with shutdown := b }) (hsteady : ∀ i, c.steady (locals s i) b) : Ledger c s' := by
  refine ⟨?_, ?_, ?_, ?_⟩
  · rw [hlocals, hshared]
    exact hsteady
  · rw [hlocals, hshared]
    exact hs.kept
  · rw [hlocals, hshared]
    exact hs.used
  · rw [hshared]
    exact hs.clean

omit [DecidableEq P] in
/-- No action of the caller leads back before the flag. -/
theorem phase_of_act (hcalls : ∀ pc, Terminating pc (r.call pc)) {pc : CallerPc}
    {f : ConnectorMessage → Shared → Shared × CallerPc} (hinstr : r.call pc = .act f) (m : ConnectorMessage)
    (g : Shared) : (f m g).2.phase ≠ .early := by
  have hcall := hcalls pc
  rw [hinstr] at hcall
  have hmove := hcall m g
  cases hphase : pc.phase with
  | early | flagged =>
    rw [hphase] at hmove
    rw [hmove.1]
    simp
  | joining k =>
    rw [hphase] at hmove
    rw [hmove.2]
    simp
  | joined =>
    rw [hphase] at hmove
    rw [hmove]
    simp

/-- The caller goes on to `pc`. -/
theorem books_goto {t : State n P W} {pc : CallerPc} (hledger : Ledger c (t.goto .caller pc))
    (hearly : pc.phase = .early → Early c (t.goto .caller pc)) (hcleared : pc = .finished → t.shared.queue = []) :
    Books r c (t.goto .caller pc) := by
  refine ⟨hledger, fun pc' hat hphase => ?_, fun hat => ?_⟩
  · rw [State.goto_self] at hat
    obtain rfl := Status.running.inj hat
    exact hearly hphase
  · rw [State.goto_self] at hat
    exact hcleared (Status.running.inj hat)

theorem books_caller {holds : Worker W → Bool} {callerHolds : CallerPc → Bool} (hk : Keeper r c)
    (hr : Terminates r holds callerHolds ready) (hquiet : Quiet r holds callerHolds ready s) (hs : Books r c s)
    (heffect : Effect r.routine s .caller s') : Books r c s' := by
  have hlocals := locals_of_ne heffect (by simp)
  cases heffect with
  | reacquire l hat hfree =>
    have hparked := hquiet.parked .caller
    rw [hat] at hparked
    exact hparked.elim
  | act pc f answer hat hinstr =>
    have hcall : r.call pc = .act f := hinstr
    have hsettle := hk.settles pc
    rw [hcall] at hsettle
    have hlate := phase_of_act hr.calls hcall answer s.shared
    obtain hclear | ⟨hfinished, b, hflag, hb⟩ := hsettle answer s.shared
    · refine books_goto (hs.ledger.clear hk.freed hlocals hclear) (fun hphase => absurd hphase hlate) fun _ => ?_
      show (f answer s.shared).1.queue = []
      rw [hclear]
      rfl
    · refine books_goto (hs.ledger.flag hlocals hflag fun i => ?_) (fun hphase => absurd hphase hlate)
        fun hfin => absurd hfin hfinished
      have hsteady := hs.ledger.steady i
      obtain rfl | rfl | hjoined := hb
      · exact hsteady
      · cases hraised : s.shared.shutdown with
        | false => exact hk.raised _ (hraised ▸ hsteady)
        | true => exact hraised ▸ hsteady
      · have hreached := hquiet.reached pc hat
        rw [hjoined] at hreached
        exact (steady_of_stopped hk.keeps (hreached i) b).2
  | lock pc k hat hinstr hfree | unlock pc k hat hinstr hheld =>
    have hcall := hr.calls pc
    have hsettle := hk.settles pc
    rw [show r.call pc = _ from hinstr] at hcall hsettle
    refine books_goto (hs.ledger.congr hlocals rfl) (fun hphase => ?_) fun hfin => absurd hfin hsettle
    exact (hs.early pc hat (hcall.symm.trans hphase)).congr hlocals rfl
  | broadcast pc k hat hinstr =>
    have hcall := hr.calls pc
    have hsettle := hk.settles pc
    rw [show r.call pc = _ from hinstr] at hcall hsettle
    refine books_goto (hs.ledger.congr hlocals rfl) (fun hphase => ?_) fun hfin => absurd hfin hsettle
    exact absurd (hcall.2.symm.trans hphase) (by simp)
  | join pc k j hat hinstr hstopped =>
    have hcall := hr.calls pc
    have hsettle := hk.settles pc
    rw [show r.call pc = _ from hinstr] at hcall hsettle
    refine books_goto (hs.ledger.congr hlocals rfl) (fun hphase => ?_) fun hfin => absurd hfin hsettle
    obtain ⟨i, -, -, hjoining⟩ := hcall
    exact absurd (hjoining.symm.trans hphase) (by simp)
  | wait pc k hat hinstr hheld | signal pc k j hat hinstr hblocked | signalNobody pc k hat hinstr hnobody =>
    have hcall := hr.calls pc
    rw [show r.call pc = _ from hinstr] at hcall
    exact hcall.elim

variable [Fintype P] {holds : Worker W → Bool} {callerHolds : CallerPc → Bool}

theorem books_next (hk : Keeper r c) (hr : Terminates r holds callerHolds ready)
    (hquiet : Quiet r holds callerHolds ready s) (hs : Books r c s) (hidle : ProducersIdle s a)
    (h : next r.routine s a = some s') : Books r c s' := by
  have heffect := effect_next h
  cases hthread : a.thread with
  | worker i =>
    rw [hthread] at heffect
    exact books_worker hk hquiet.reached hs heffect
  | producer p =>
    rw [hthread] at heffect
    exact books_producer hs (hidle.2 p hthread) heffect
  | caller =>
    rw [hthread] at heffect
    exact books_caller hk hr hquiet hs heffect

omit [DecidableEq P] [Fintype P] in
theorem books_start (hk : Keeper r c) : Books r c r.start := by
  have hlocals : ∀ i, locals r.start i = ⟨r.first, none⟩ := fun _ => rfl
  have hnone : ∀ held : Worker W → Option Queued, held ⟨r.first, none⟩ = none → ∀ id,
      heldCount held id (locals r.start) = 0 := by
    intro held hheld id
    refine ThreadPool.total_eq_zero fun i => ?_
    rw [hlocals, hheld]
    rfl
  refine ⟨⟨fun i => hk.steady, fun id => ?_, fun id => ?_, List.Pairwise.nil⟩,
    fun _ _ _ => ⟨rfl, fun i => hk.staying, fun id => ?_⟩, fun _ => rfl⟩
  · rw [hnone _ hk.owned]
    rfl
  · rw [hnone _ hk.pending]
    exact Nat.zero_le _
  · rw [hnone _ hk.pending]
    rfl

/-- The log only grows. -/
theorem log_next (hk : Keeper r c) (hs : Books r c s) (h : next r.routine s a = some s') :
    s.shared.log <+: s'.shared.log := by
  have heffect := effect_next h
  cases hthread : a.thread with
  | worker i =>
    rw [hthread] at heffect
    obtain hsame | ⟨e, -, hlog⟩ := (handles_worker hk.keeps hs.ledger heffect).log
    · rw [hsame]
    · rw [hlog]
      exact List.prefix_append _ _
  | producer p =>
    rw [hthread] at heffect
    obtain hsame | ⟨m, hshared⟩ := shared_producer heffect
    · rw [hsame]
    · rw [hshared]
      exact List.prefix_refl _
  | caller =>
    rw [hthread] at heffect
    cases heffect with
    | act pc f answer hat hinstr =>
      have hsettle := hk.settles pc
      rw [show r.call pc = .act f from hinstr] at hsettle
      show s.shared.log <+: (f answer s.shared).1.log
      obtain hclear | ⟨-, b, hflag, -⟩ := hsettle answer s.shared
      · rw [hclear]
        exact List.prefix_append _ _
      · rw [hflag]
    | _ => exact List.prefix_refl _

/-! ## What the books say -/

omit [DecidableEq P] [Fintype P]

theorem Ledger.used_le (hs : Ledger c s) (id : Nat) : usedCount c.uses id s.shared.log ≤ 1 := by
  have hused := hs.used id
  split at hused <;> omega

theorem Ledger.freed_le (hs : Ledger c s) (id : Nat) : freedCount id s.shared.log ≤ 1 := by
  have hkept := hs.kept id
  split at hkept <;> omega

/-- At the end every message that was enqueued has been freed. -/
theorem Books.freed (hk : Keeper r c) (hquiet : Quiet r holds callerHolds ready s) (hs : Books r c s)
    (hat : s.threads .caller = .running .finished) {id : Nat} (hid : id < s.shared.enqueued) :
    freedCount id s.shared.log = 1 := by
  have hstopped : ∀ i, stopped r.routine s.threads (.worker i) = true := hquiet.reached _ hat
  have hheld : heldCount c.owned id (locals s) = 0 := by
    refine ThreadPool.total_eq_zero fun i => ?_
    rw [(steady_of_stopped hk.keeps (hstopped i) false).1]
    rfl
  have hkept := hs.ledger.kept id
  rw [hheld, hs.cleared hat, if_pos hid] at hkept
  have hempty : countId id [] = 0 := rfl
  omega

/-- With the queue empty and no message in hand, every message so far has been handed over. -/
theorem Early.used (hs : Early c s) (hqueue : s.shared.queue = []) (hidle : ∀ i, c.pending (locals s i) = none) {id : Nat}
    (hid : id < s.shared.enqueued) : usedCount c.uses id s.shared.log = 1 := by
  have hpending : heldCount c.pending id (locals s) = 0 := by
    refine ThreadPool.total_eq_zero fun i => ?_
    rw [hidle]
    rfl
  have hexact := hs.exact id
  rw [hpending, hqueue, if_pos hid] at hexact
  have hempty : countId id [] = 0 := rfl
  omega

end steps

end SubstanceConnector.Pool

namespace SubstanceConnector.DispatchPool

open Monitor SubstanceConnector.Pool

variable {n : Nat} {P : Type}

/-- Past `clear` the variable `message` is dangling until the next one is acquired. -/
def custody : Custody Pc where
  uses := MessageEvent.isHanded
  owned l :=
    match l.pc with
    | .acquireNext | .done => none
    | _ => l.message
  pending l :=
    match l.pc with
    | .clear | .acquireNext | .done => none
    | _ => l.message
  leaving l :=
    match l.pc with
    | .exit | .done => true
    | _ => false
  steady l shutdown :=
    match l.pc with
    | .acquireFirst | .wait | .wokenUnlock | .wokenTest | .acquireSecond => l.message = none
    | .loopTest => l.message = none ∨ shutdown = true
    | _ => True

theorem keeps_dispatchRoutine (l : Worker Pc) : custody.Keeps (n := n) (P := P) l (dispatchRoutine l) := by
  obtain ⟨pc, message⟩ := l
  unfold dispatchRoutine
  cases pc with
  | loopTest =>
    refine keeps_test fun shutdown hsteady => ?_
    cases shutdown with
    | false => exact ⟨rfl, rfl, fun _ _ => rfl, hsteady.resolve_right Bool.false_ne_true⟩
    | true => exact ⟨rfl, rfl, fun hruns => absurd hruns.symm Bool.false_ne_true, trivial⟩
  | waitTest =>
    refine keeps_test fun shutdown _ => ?_
    cases message <;> cases shutdown <;> exact ⟨rfl, rfl, fun _ _ => rfl, by trivial⟩
  | wokenTest =>
    refine keeps_test fun shutdown hsteady => ?_
    cases shutdown with
    | false => exact ⟨rfl, rfl, fun _ _ => rfl, hsteady⟩
    | true => exact ⟨rfl, rfl, fun hruns => absurd hruns.symm Bool.false_ne_true, trivial⟩
  | handleTest =>
    refine keeps_test fun shutdown _ => ?_
    cases message with
    | none => cases shutdown <;> exact ⟨rfl, rfl, fun _ _ => rfl, .inl rfl⟩
    | some m =>
      cases shutdown with
      | false => exact ⟨rfl, rfl, fun _ _ => rfl, trivial⟩
      | true => exact ⟨rfl, rfl, fun _ _ => rfl, .inr rfl⟩
  | acquireFirst | acquireSecond =>
    intro _ g hsteady
    exact .acquire hsteady hsteady (fun _ => rfl) (fun _ => rfl) (fun _ => rfl) fun _ _ => trivial
  | acquireNext =>
    intro _ g _
    exact .acquire rfl rfl (fun _ => rfl) (fun _ => rfl) (fun _ => rfl) fun _ _ => trivial
  | handle =>
    intro _ g _
    exact .use (fun _ => rfl) (fun _ => rfl) (fun _ => rfl) rfl rfl rfl rfl rfl trivial
  | clear =>
    intro _ g _
    exact .free (fun _ => rfl) rfl rfl (fun _ => rfl) rfl (fun _ => rfl) trivial
  | exit =>
    intro _ g _
    exact .free (fun _ => rfl) rfl rfl (fun hstays => absurd hstays (by simp [custody])) rfl (fun hstays => hstays) trivial
  | lock | unlock => exact ⟨rfl, rfl, rfl, fun _ _ => trivial⟩
  | wait | wokenUnlock => exact ⟨rfl, rfl, rfl, fun _ hsteady => hsteady⟩
  | done => exact ⟨rfl, fun _ => trivial⟩

theorem settling_terminateDispatch (pc : CallerPc) : Settling pc (terminateDispatch (n := n) (P := P) pc) := by
  cases pc with
  | start | unlock | relock | reunlock => exact CallerPc.noConfusion
  | setFlag => exact fun _ _ => .inr ⟨CallerPc.noConfusion, true, rfl, .inr (.inl rfl)⟩
  | broadcast => exact CallerPc.noConfusion
  | join k => exact settling_joinLoop CallerPc.noConfusion
  | clearFlag => exact fun _ _ => .inr ⟨CallerPc.noConfusion, false, rfl, .inr (.inr rfl)⟩
  | clearQueue => exact fun _ _ => .inl rfl
  | lock | finished => exact trivial

theorem keeper : Keeper (routines : Routines n P Pc) custody where
  keeps := keeps_dispatchRoutine
  settles := settling_terminateDispatch
  raised l hsteady := by
    obtain ⟨pc, message⟩ := l
    cases pc with
    | loopTest => exact .inr rfl
    | _ => exact hsteady
  freed _ := rfl
  owned := rfl
  pending := rfl
  staying := rfl
  steady := .inl rfl

section runs
variable [DecidableEq P] [Fintype P]

/-- The runs in which no producer is active during the shutdown. -/
def deliverySystem (n : Nat) (P : Type) [DecidableEq P] [Fintype P] : StepSystem (State n P Pc) (Label n P) :=
  routines.system.guarded ProducersIdle

theorem books_of_reachable {s : State n P Pc} (h : (deliverySystem n P).Reachable s) :
    Quiet routines holds callerHolds ready s ∧ Books routines custody s := by
  refine h.guarded_invariant (P := fun s => Quiet routines holds callerHolds ready s ∧ Books routines custody s)
    (fun s hs => ?_) fun s a s' hs hidle hstep => ?_
  · obtain rfl : s = routines.start := hs
    exact ⟨quiet_start terminates, books_start keeper⟩
  · have hcaught : CaughtUp holds ready s a := fun _ _ _ _ _ hready => holds_of_ready hready
    exact ⟨quiet_next terminates hs.1 hcaught hstep, books_next keeper terminates hs.1 hs.2 hidle hstep⟩

theorem log_later {s s' : State n P Pc} (h : (deliverySystem n P).Reachable s) (hlater : (deliverySystem n P).Later s s') :
    s.shared.log <+: s'.shared.log := by
  induction hlater with
  | refl => exact List.prefix_refl _
  | tail hlater hstep ih =>
    obtain ⟨a, hstep⟩ := hstep
    exact ih.trans (log_next keeper (books_of_reachable (StepSystem.Later.reachable hlater h)).2 hstep.2)

/-- **Delivery.** A message is handed over at most once and freed at most once, nothing happens to it after it
was freed, and at the end every message that was enqueued has been freed. If the queue was empty with no
message in hand before the shutdown, every message so far has been handed over exactly once. -/
theorem delivered_once (n : Nat) (P : Type) [DecidableEq P] [Fintype P] :
    (∀ s : State n P Pc, (deliverySystem n P).Reachable s →
      (∀ id, usedCount MessageEvent.isHanded id s.shared.log ≤ 1 ∧ freedCount id s.shared.log ≤ 1) ∧ Clean s.shared.log ∧
        (s.threads .caller = .running .finished → ∀ id, id < s.shared.enqueued → freedCount id s.shared.log = 1)) ∧
      ∀ s s' : State n P Pc, (deliverySystem n P).Reachable s → s.threads .caller = .running .start →
        s.shared.queue = [] → (∀ i, custody.pending (locals s i) = none) → (deliverySystem n P).Later s s' →
          ∀ id, id < s.shared.enqueued → usedCount MessageEvent.isHanded id s'.shared.log = 1 := by
  refine ⟨fun s h => ?_, fun s s' h hstart hqueue hidle hlater id hid => ?_⟩
  · obtain ⟨hquiet, hbooks⟩ := books_of_reachable h
    exact ⟨fun id => ⟨hbooks.ledger.used_le id, hbooks.ledger.freed_le id⟩, hbooks.ledger.clean,
      fun hat _ hid => hbooks.freed keeper hquiet hat hid⟩
  · have hbooks := (books_of_reachable h).2
    have hused := (hbooks.early _ hstart rfl).used hqueue hidle hid
    obtain ⟨rest, hlog⟩ := log_later h hlater
    have hle := (books_of_reachable (hlater.reachable h)).2.ledger.used_le id
    rw [← hlog, usedCount_append] at hle ⊢
    change usedCount MessageEvent.isHanded id s.shared.log = 1 at hused
    change usedCount MessageEvent.isHanded id s.shared.log + usedCount MessageEvent.isHanded id rest ≤ 1 at hle
    omega

end runs

/-- One message is handed over, and both threads wait again. -/
def idleRun : List (Label 2 Unit) :=
  steps left 5 ++ steps right 5 ++ send (some left) ++ steps left 17

/-- A second message is left in the queue when the pool is stopped. -/
def stopRun : List (Label 2 Unit) :=
  send (some left) ++ steps .caller 4 ++ steps left 4 ++ steps right 4 ++ steps .caller 7

theorem delivered_once_run :
    ∃ s s' : State 2 Unit Pc, s.shared.enqueued = 1 ∧ s'.shared.enqueued = 2 ∧
      usedCount MessageEvent.isHanded 0 s'.shared.log = 1 ∧ freedCount 1 s'.shared.log = 1 := by
  have hrun : ((StepSystem.runList (StepSystem.gate ProducersIdle (next routines.routine)) routines.start idleRun).bind
      fun s : State 2 Unit Pc => (StepSystem.runList (StepSystem.gate ProducersIdle (next routines.routine)) s stopRun).map
        fun s' => decide ((s.threads .caller = .running .start ∧ s.shared.queue = [] ∧
          (∀ i, custody.pending (locals s i) = none) ∧ s.shared.enqueued = 1) ∧
            s'.threads .caller = .running .finished ∧ s'.shared.enqueued = 2)) = some true := by
    decide +kernel
  obtain ⟨s, hs, hrest⟩ := Option.bind_eq_some_iff.mp hrun
  obtain ⟨s', hs', hfacts⟩ := Option.map_eq_some_iff.mp hrest
  obtain ⟨⟨hstart, hqueue, hpending, henqueued⟩, hfinished, htwo⟩ := of_decide_eq_true hfacts
  have hreach : (deliverySystem 2 Unit).Reachable s := StepSystem.guarded_reachable_runList (.init rfl) hs
  have hlater : (deliverySystem 2 Unit).Later s s' := StepSystem.guarded_later_runList hs'
  refine ⟨s, s', henqueued, htwo, ?_, ?_⟩
  · exact (delivered_once 2 Unit).2 s s' hreach hstart hqueue hpending hlater 0 (by omega)
  · exact ((delivered_once 2 Unit).1 s' (hlater.reachable hreach)).2.2 hfinished 1 (by omega)

end SubstanceConnector.DispatchPool
