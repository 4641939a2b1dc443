import SubstanceConnector.Library.StepSystem
import SubstanceConnector.Queue.Create

/-!
# Histories of any length

One caller that pushes and pops for as long as it likes, so that the 32-bit counters wrap. Every reply is compared
with what a bounded first-in first-out queue could have replied.

While the write counter has wrapped and the read counter has not, the ring works as one of `2^32 % size` cells. A
queue that holds fewer values than that does not notice the wrap; the push that fills it to that number fails, and one
that finds it fuller makes a later pop fail (`fifo_iff_clear`).
-/

namespace SubstanceConnector.QueueHistory

open RingIndex

inductive Call where
  | push (elem : UInt32)
  | pop (retval : UInt32)
  deriving DecidableEq

/-- What a queue for `capacity` values that holds `items` holds after a push with the given result; `none` if that
cannot be its result. -/
def fifoPush (capacity : Nat) (elem : UInt32) (retcode : Retcode) (items : List UInt32) : Option (List UInt32) :=
  if retcode = .success then if items.length < capacity then some (items ++ [elem]) else none
  else if items.length < capacity then none else some items

/-- The same for a pop, with the value it stored. -/
def fifoPop (retcode : Retcode) (retval : UInt32) : List UInt32 → Option (List UInt32)
  | [] => if retcode = .success then none else some []
  | x :: items => if retcode = .success ∧ retval = x then some items else none

/-- The queue, and what the first-in first-out queue holds that has given the same replies. -/
structure State where
  queue : QueuePtr
  fifo : Option (List UInt32)

def next (capacity : Nat) (s : State) : Call → State
  | .push elem =>
    match connectorUintQueuePush s.queue elem with
    | .ok (retcode, queue) => ⟨queue, s.fifo.bind (fifoPush capacity elem retcode)⟩
    | .error _ => { s with fifo := none }
  | .pop retval =>
    match connectorUintQueuePop s.queue retval with
    | .ok (retcode, retval, queue) => ⟨queue, s.fifo.bind (fifoPop retcode retval)⟩
    | .error _ => { s with fifo := none }

/-- The queue `connector_uint_queue_create` returns. -/
def Starts (n : UInt32) (s : State) : Prop :=
  connectorUintQueueCreate n true true = .ok s.queue ∧ s.fifo = some []

def system (capacity : Nat) (n : UInt32) : StepSystem State Call :=
  .ofNext (Starts n) fun s a => some (next capacity s a)

/-- What the two counters enclose. -/
def length (q : UintQueue) : Nat := (q.writeIndex - q.readIndex).toNat

/-- The ring has cells, and the positions up to and with the one that is written have different ones. -/
def Clear (s : State) : Call → Prop
  | .push _ => ∀ q, s.queue = .live q → q.size ≠ 0 ∧
      Windowed (2 ^ 32) q.size.toNat q.readIndex.toNat (q.readIndex.toNat + (length q + 1))
  | .pop _ => ∀ q, s.queue = .live q → q.size ≠ 0

/-- One value less than the ring has cells, if it has any. -/
def Capacity (c : Nat) (n : UInt32) : Prop := ringSize n ≠ 0 → c = (ringSize n).toNat - 1

theorem exists_capacity (n : UInt32) : ∃ c, n.toNat ≤ c ∧ Capacity c n := by
  by_cases h : n.toNat ≤ 2 ^ 32 - 3
  · refine ⟨(ringSize n).toNat - 1, ?_, fun _ => rfl⟩
    rw [toNat_ringSize h]
    omega
  · exact ⟨n.toNat, le_refl _, fun hne => absurd (ringSize_eq_zero (Nat.lt_of_not_le h)) hne⟩

/-! ## Runs that meet the condition -/

/-- The queue stands for the values the first-in first-out queue holds, or nothing has happened on a ring without
cells. -/
inductive Inv (n : UInt32) (s : State) : Prop
  | window {q : UintQueue} {items : List UInt32} (hqueue : s.queue = .live q) (hsize : q.size = ringSize n)
      (hwindow : q.Window items) (hfifo : s.fifo = some items)
  | cellless {q : UintQueue} (hqueue : s.queue = .live q) (hsize : q.size = 0) (hfifo : s.fifo = some [])

theorem inv_starts {n : UInt32} {s : State} (h : Starts n s) : Inv n s := by
  obtain ⟨hcreate, hfifo⟩ := h
  unfold connectorUintQueueCreate at hcreate
  rw [if_pos rfl] at hcreate
  split at hcreate
  · cases hcreate
  · have hqueue := (Except.ok.inj hcreate).symm
    by_cases hring : ringSize n = 0
    · exact .cellless hqueue hring hfifo
    · have hpos : 0 < (ringSize n).toNat := by
        rw [Nat.pos_iff_ne_zero]
        exact fun hzero => hring (UInt32.toNat_inj.mp hzero)
      exact .window hqueue rfl (.empty hpos) hfifo

section steps
variable {n : UInt32} {c : Nat} {s : State}

theorem next_push {q : UintQueue} (hqueue : s.queue = .live q) (hsize : q.size ≠ 0) (elem : UInt32) :
    next c s (.push elem) = ⟨.live (q.push elem).2, s.fifo.bind (fifoPush c elem (q.push elem).1)⟩ := by
  simp only [next, hqueue, connectorUintQueuePush, if_neg hsize]

theorem next_pop {q : UintQueue} (hqueue : s.queue = .live q) (hsize : q.size ≠ 0) (retval : UInt32) :
    next c s (.pop retval) =
      ⟨.live q.pop.2, s.fifo.bind (fifoPop (if q.pop.1 = none then .error else .success) (q.pop.1.getD retval))⟩ := by
  have hpop : connectorUintQueuePop (.live q) retval =
      .ok (if q.pop.1 = none then .error else .success, q.pop.1.getD retval, .live q.pop.2) := by
    rw [connectorUintQueuePop, if_neg hsize]
    obtain ⟨data, q'⟩ := q.pop
    cases data <;> rfl
  simp only [next, hqueue, hpop]

/-- A step that meets the condition leaves a queue that stands for the values of the other one. -/
theorem inv_next {a : Call} (hc : Capacity c n) (hi : Inv n s) (hclear : Clear s a) : Inv n (next c s a) := by
  cases hi with
  | cellless hqueue hsize hfifo =>
    cases a with
    | push elem => exact absurd hsize (hclear _ hqueue).1
    | pop retval => exact absurd hsize (hclear _ hqueue)
  | @window q items hqueue hsize hwindow hfifo =>
    have hne := hwindow.size_ne_zero
    have hroom := hwindow.room
    have hcapacity : c = q.size.toNat - 1 := hsize ▸ hc (hsize ▸ hne)
    cases a with
    | push elem =>
      obtain ⟨-, hw⟩ := hclear _ hqueue
      rw [length, hwindow.length_eq] at hw
      rw [next_push hqueue hne]
      by_cases hfull : items.length + 1 = q.size.toNat
      · rw [hwindow.push_full hw hfull]
        refine .window rfl hsize hwindow ?_
        simp [hfifo, fifoPush, hcapacity, ← hfull]
      · obtain ⟨hpush, hwindow'⟩ := hwindow.push hw (by omega) elem
        refine .window rfl ?_ hwindow' ?_
        · rw [hpush]
          exact hsize
        · have hlt : items.length < c := by omega
          simp [hfifo, fifoPush, hpush, hlt]
    | pop retval =>
      rw [next_pop hqueue hne]
      cases items with
      | nil =>
        rw [hwindow.pop_nil]
        refine .window rfl hsize hwindow ?_
        simp [hfifo, fifoPop]
      | cons x items =>
        obtain ⟨hpop, hwindow'⟩ := hwindow.pop_cons
        refine .window rfl ?_ hwindow' ?_
        · rw [hpop]
          exact hsize
        · simp [hfifo, fifoPop, hpop]

theorem inv_of_reachable (hc : Capacity c n) (h : ((system c n).guarded Clear).Reachable s) : Inv n s := by
  refine h.guarded_invariant (P := Inv n) (fun _ hs => inv_starts hs) ?_
  intro s a s' hs hclear hstep
  obtain rfl := Option.some.inj hstep
  exact inv_next hc hs hclear

end steps

/-! ## Pushes that do not meet it -/

section wrapped
variable {q : UintQueue} {items : List UInt32}

/-- At `2^32 % size` values less one the ring looks full to a push past the wrap. -/
theorem looksFull_wrapped (h : q.Window items) (hwrap : 2 ^ 32 ≤ q.readIndex.toNat + (items.length + 1))
    (hcells : items.length + 1 = 2 ^ 32 % q.size.toNat) : q.looksFull q.writeIndex q.readIndex = true := by
  have hread := q.readIndex.toNat_lt
  have hroom := h.room
  have hsize := q.size.toNat_lt
  have hdiv : q.size.toNat * (2 ^ 32 / q.size.toNat) + 2 ^ 32 % q.size.toNat = 2 ^ 32 := Nat.div_add_mod _ _
  have hnext : (q.writeIndex + 1).toNat = q.readIndex.toNat + (items.length + 1) - 2 ^ 32 := by
    rw [UintQueue.toNat_add_one, h.write]
    omega
  -- the two positions are a multiple of the size apart
  have hpos : q.readIndex.toNat =
      q.readIndex.toNat + (items.length + 1) - 2 ^ 32 + q.size.toNat * (2 ^ 32 / q.size.toNat) := by
    omega
  rw [UintQueue.looksFull_iff, hnext]
  conv_rhs => rw [hpos]
  rw [Nat.add_mul_mod_self_left]

/-- The read counter is `2^32 % size` short of the wrap, and the write counter is there: the ring looks empty. -/
theorem looksEmpty_wrapped (hread : q.readIndex.toNat + 2 ^ 32 % q.size.toNat = 2 ^ 32) (hmax : q.maxIndex = 0) :
    q.looksEmpty q.readIndex q.maxIndex = true := by
  have hdiv : q.size.toNat * (2 ^ 32 / q.size.toNat) + 2 ^ 32 % q.size.toNat = 2 ^ 32 := Nat.div_add_mod _ _
  have hpos : q.readIndex.toNat = q.size.toNat * (2 ^ 32 / q.size.toNat) := by omega
  rw [UintQueue.looksEmpty_iff, hmax, hpos, Nat.mul_mod_right]
  exact (Nat.zero_mod _).symm

end wrapped

/-- The values come out again, as many as there may be. -/
def drain (c : Nat) (s : State) (pops : Nat) : State := (fun s => next c s (.pop 0))^[pops] s

/-- Popped down to `2^32 % size` values, the queue looks empty. -/
theorem drain_fails (c : Nat) {s : State} {q : UintQueue} {items : List UInt32} {rest : Nat}
    (hqueue : s.queue = .live q) (hfifo : s.fifo = some items) (hsize : q.size ≠ 0) (hmax : q.maxIndex = 0)
    (hcells : 2 ^ 32 % q.size.toNat ≠ 0) (hlength : items.length = 2 ^ 32 % q.size.toNat + rest)
    (hread : q.readIndex.toNat + items.length = 2 ^ 32) : ∃ pops, (drain c s pops).fifo = none := by
  induction rest generalizing s q items with
  | zero =>
    refine ⟨1, ?_⟩
    have hempty := looksEmpty_wrapped (q := q) (by omega) hmax
    have hpop : q.pop = (none, q) := by
      unfold UintQueue.pop
      rw [if_pos hempty]
    cases items with
    | nil =>
      rw [List.length_nil] at hlength
      omega
    | cons x items =>
      show (next c s (.pop 0)).fifo = none
      rw [next_pop hqueue hsize, hpop]
      simp [hfifo, fifoPop]
  | succ rest ih =>
    cases items with
    | nil =>
      rw [List.length_nil] at hlength
      omega
    | cons x items =>
      rw [List.length_cons] at hlength hread
      by_cases hreply : (next c s (.pop 0)).fifo = none
      · exact ⟨1, hreply⟩
      · -- then the first value came out
        have hnext := @next_pop c s q hqueue hsize 0
        have hnonempty : ¬ q.looksEmpty q.readIndex q.maxIndex = true := by
          intro hempty
          have hpop : q.pop = (none, q) := by
            unfold UintQueue.pop
            rw [if_pos hempty]
          rw [hnext, hpop] at hreply
          simp [hfifo, fifoPop] at hreply
        have hpop : q.pop = (some (q.load q.readIndex), { q with readIndex := q.readIndex + 1 }) := by
          unfold UintQueue.pop
          rw [if_neg hnonempty]
        rw [hpop] at hnext
        have hfirst : (next c s (.pop 0)).fifo = some items := by
          rw [hnext] at hreply ⊢
          by_cases hvalue : q.load q.readIndex = x
          · simp [hfifo, fifoPop, hvalue]
          · simp [hfifo, fifoPop, hvalue] at hreply
        have hsucc : (q.readIndex + 1).toNat = q.readIndex.toNat + 1 := by
          rw [UintQueue.toNat_add_one]
          omega
        obtain ⟨pops, hpops⟩ := @ih (next c s (.pop 0)) { q with readIndex := q.readIndex + 1 } items
          (by rw [hnext]) hfirst hsize hmax hcells (by dsimp only; omega) (by dsimp only; omega)
        exact ⟨pops + 1, hpops⟩

section exact
variable {n : UInt32} {c : Nat} {s : State}

theorem Inv.fifo_isSome (hi : Inv n s) : s.fifo.isSome = true := by
  cases hi with
  | window _ _ _ hfifo => rw [hfifo, Option.isSome_some]
  | cellless _ _ hfifo => rw [hfifo, Option.isSome_some]

theorem Inv.drain (hc : Capacity c n) (pops : Nat) (hi : Inv n s) (hsize : ∀ q, s.queue = .live q → q.size ≠ 0) :
    Inv n (drain c s pops) := by
  induction pops generalizing s with
  | zero => exact hi
  | succ pops ih =>
    have hnext : Inv n (next c s (.pop 0)) := inv_next hc hi hsize
    refine ih hnext fun q' hq' => ?_
    cases hi with
    | cellless hqueue hzero => exact absurd hzero (hsize _ hqueue)
    | @window q items hqueue _ hwindow _ =>
      cases hnext with
      | window hqueue' _ hwindow' _ =>
        obtain rfl := QueuePtr.live.inj (hqueue'.symm.trans hq')
        exact hwindow'.size_ne_zero
      | cellless hqueue' hzero _ =>
        rw [next_pop hqueue (hsize q hqueue)] at hqueue'
        obtain rfl := QueuePtr.live.inj hqueue'
        rw [UintQueue.size_pop] at hzero
        exact absurd hzero (hsize q hqueue)

/-- A push of a window that would run into itself is refused without need, or leads to a pop that is. -/
theorem push_fails (hc : Capacity c n) {q : UintQueue} {items : List UInt32} (hqueue : s.queue = .live q)
    (hsize : q.size = ringSize n) (hwindow : q.Window items) (hfifo : s.fifo = some items)
    (hw : ¬ Windowed (2 ^ 32) q.size.toNat q.readIndex.toNat (q.readIndex.toNat + (items.length + 1))) (elem : UInt32) :
    ∃ pops, (drain c (next c s (.push elem)) pops).fifo = none := by
  have hne := hwindow.size_ne_zero
  have hroom := hwindow.room
  have hcapacity : c = q.size.toNat - 1 := hsize ▸ hc (hsize ▸ hne)
  have hlt : 2 ^ 32 % q.size.toNat < q.size.toNat := Nat.mod_lt _ (by omega)
  obtain ⟨hdvd, hwrap, hcells⟩ : ¬ q.size.toNat ∣ 2 ^ 32 ∧ 2 ^ 32 ≤ q.readIndex.toNat + (items.length + 1) ∧
      2 ^ 32 % q.size.toNat ≤ items.length + 1 := by
    unfold Windowed at hw
    push Not at hw
    exact ⟨hw.1, hw.2.1, by omega⟩
  have hnext := @next_push c s q hqueue hne elem
  rcases Nat.lt_or_eq_of_le hcells with hmore | hexact
  · -- the read counter is less than a ring short of the wrap, and the write counter one
    have hlast : q.readIndex.toNat + (items.length + 1) = 2 ^ 32 := by
      rcases hwindow.windowed with h | h | h
      · exact absurd h hdvd
      · omega
      · omega
    have hnotfull : ¬ q.looksFull q.writeIndex q.readIndex = true := by
      have hzero : (q.writeIndex + 1).toNat = 0 := by
        rw [UintQueue.toNat_add_one, hwindow.write]
        omega
      rw [UintQueue.looksFull_iff, hzero, Nat.zero_mod]
      intro hread
      obtain ⟨k, hk⟩ := Nat.dvd_of_mod_eq_zero hread.symm
      have hmod : 2 ^ 32 % q.size.toNat = (items.length + 1) % q.size.toNat := by
        rw [← hlast, hk, Nat.mul_add_mod]
      rcases Nat.lt_or_eq_of_le (show items.length + 1 ≤ q.size.toNat by omega) with hlt' | heq
      · rw [Nat.mod_eq_of_lt hlt'] at hmod
        omega
      · rw [heq, Nat.mod_self] at hmod
        exact hdvd (Nat.dvd_of_mod_eq_zero hmod)
    obtain ⟨hsuccess, hread, hmax⟩ := UintQueue.push_of_not_full hnotfull elem
    rw [hsuccess] at hnext
    by_cases hfits : items.length < c
    · have hitems : (next c s (.push elem)).fifo = some (items ++ [elem]) := by
        rw [hnext]
        simp [hfifo, fifoPush, hfits]
      have hlength : (items ++ [elem]).length = items.length + 1 := by simp
      have hzero : (q.push elem).2.maxIndex = 0 := by
        apply UInt32.toNat_inj.mp
        rw [hmax, UintQueue.toNat_add_one, hwindow.write, Nat.mod_add_mod, Nat.add_assoc, hlast]
        rfl
      have hcellsne : 2 ^ 32 % q.size.toNat ≠ 0 := fun hmod => hdvd (Nat.dvd_of_mod_eq_zero hmod)
      obtain ⟨rest, hrest⟩ : ∃ rest, (items ++ [elem]).length = 2 ^ 32 % q.size.toNat + rest :=
        ⟨items.length + 1 - 2 ^ 32 % q.size.toNat, by omega⟩
      rw [← UintQueue.size_push q elem] at hne hcellsne hrest
      exact drain_fails c (by rw [hnext]) hitems hne hzero hcellsne hrest (by rw [hread, hlength, hlast])
    · refine ⟨0, ?_⟩
      show (next c s (.push elem)).fifo = none
      rw [hnext]
      simp [hfifo, fifoPush, hfits]
  · refine ⟨0, ?_⟩
    have hpush : q.push elem = (.error, q) := by
      unfold UintQueue.push
      rw [if_pos (looksFull_wrapped hwindow hwrap hexact.symm)]
    have hless : items.length < c := by omega
    show (next c s (.push elem)).fifo = none
    rw [hnext, hpush]
    simp [hfifo, fifoPush, hless]

/-- **A bounded first-in first-out queue, however long the history.** In every run whose steps all meet the condition
every reply is that of a queue for at least `n` values; and a push meets it if and only if it and the pops after it
reply so. -/
theorem fifo_iff_clear (n : UInt32) :
    ∃ c, n.toNat ≤ c ∧ ∀ s, ((system c n).guarded Clear).Reachable s → s.fifo.isSome = true ∧
      ∀ elem, Clear s (.push elem) ↔ ∀ pops, (drain c (next c s (.push elem)) pops).fifo.isSome = true := by
  obtain ⟨c, hle, hc⟩ := exists_capacity n
  refine ⟨c, hle, fun s h => ?_⟩
  have hi := inv_of_reachable hc h
  refine ⟨hi.fifo_isSome, fun elem => ⟨fun hclear pops => ?_, fun hall => ?_⟩⟩
  · have hnext := inv_next hc hi hclear
    refine (hnext.drain hc pops fun q' hq' => ?_).fifo_isSome
    cases hi with
    | cellless hqueue hzero => exact absurd hzero (hclear _ hqueue).1
    | window hqueue _ hwindow _ =>
      rw [next_push hqueue hwindow.size_ne_zero] at hq'
      obtain rfl := QueuePtr.live.inj hq'
      rw [UintQueue.size_push]
      exact hwindow.size_ne_zero
  · cases hi with
    | cellless hqueue hzero hfifo =>
      have hfailed := hall 0
      simp [drain, next, hqueue, connectorUintQueuePush, hzero] at hfailed
    | @window q items hqueue hsize hwindow hfifo =>
      intro q' hq'
      obtain rfl := QueuePtr.live.inj (hqueue.symm.trans hq')
      refine ⟨hwindow.size_ne_zero, ?_⟩
      rw [length, hwindow.length_eq]
      by_contra hw
      obtain ⟨pops, hpops⟩ := push_fails hc hqueue hsize hwindow hfifo hw elem
      have hsome := hall pops
      rw [hpops] at hsome
      cases hsome

end exact

/-! ### The queue made for 32 contexts

`2^32 % 34` is 18, so that up to 17 values may lie on both sides of the wrap. -/

section contexts
variable {c : Nat} {s : State} {q : UintQueue} {items : List UInt32}

theorem windowed_push (hsize : q.size = 34) (hitems : items.length < 17) :
    Windowed (2 ^ 32) q.size.toNat q.readIndex.toNat (q.readIndex.toNat + (items.length + 1)) := by
  rw [hsize]
  exact .inr (.inr (show _ < q.readIndex.toNat + 18 by omega))

theorem clear_push (hqueue : s.queue = .live q) (hsize : q.size = 34) (hwindow : q.Window items)
    (hitems : items.length < 17) (elem : UInt32) : Clear s (.push elem) := by
  intro q' hq'
  obtain rfl := QueuePtr.live.inj (hqueue.symm.trans hq')
  refine ⟨hwindow.size_ne_zero, ?_⟩
  rw [length, hwindow.length_eq]
  exact windowed_push hsize hitems

theorem reachable_guarded_push (hc : 32 ≤ c) (hreach : ((system c 32).guarded Clear).Reachable s)
    (hqueue : s.queue = .live q) (hfifo : s.fifo = some items) (hsize : q.size = 34) (hwindow : q.Window items)
    (hitems : items.length < 17) (elem : UInt32) :
    ∃ s' q', ((system c 32).guarded Clear).Reachable s' ∧ s'.queue = .live q' ∧ s'.fifo = some (items ++ [elem]) ∧
      q'.size = 34 ∧ q'.Window (items ++ [elem]) ∧ q'.readIndex = q.readIndex ∧ q'.writeIndex = q.writeIndex + 1 := by
  have hroom : items.length + 1 < q.size.toNat := by
    rw [hsize]
    show _ < 34
    omega
  have hclear := clear_push hqueue hsize hwindow hitems elem
  obtain ⟨hpush, hwindow'⟩ := hwindow.push (windowed_push hsize hitems) hroom elem
  have hless : items.length < c := by omega
  refine ⟨next c s (.push elem), (q.push elem).2, .step hreach ⟨hclear, rfl⟩,
    by rw [next_push hqueue hwindow.size_ne_zero], ?_, ?_, hwindow', ?_, ?_⟩
  · rw [next_push hqueue hwindow.size_ne_zero, hpush]
    simp [hfifo, fifoPush, hless]
  · rw [hpush]
    exact hsize
  · rw [hpush]
    rfl
  · rw [hpush]

/-- After `k` values have gone through, one at a time. -/
theorem reachable_guarded_turns (hc : 32 ≤ c) (k : Nat) :
    ∃ s q, ((system c 32).guarded Clear).Reachable s ∧ s.queue = .live q ∧ s.fifo = some [] ∧ q.size = 34 ∧
      q.Window [] ∧ q.readIndex.toNat = k % 2 ^ 32 := by
  induction k with
  | zero => exact ⟨⟨.live (.empty 34), some []⟩, .empty 34, .init ⟨rfl, rfl⟩, rfl, rfl, rfl, .empty (by decide), rfl⟩
  | succ k ih =>
    obtain ⟨s, q, hreach, hqueue, hfifo, hsize, hwindow, hread⟩ := ih
    obtain ⟨s', q', hreach', hqueue', hfifo', hsize', hwindow', hread', -⟩ :=
      reachable_guarded_push hc hreach hqueue hfifo hsize hwindow (by decide) 0
    have hne := hwindow'.size_ne_zero
    have hclear : Clear s' (.pop 0) := by
      intro q'' hq''
      obtain rfl := QueuePtr.live.inj (hqueue'.symm.trans hq'')
      exact hne
    obtain ⟨hpop, hwindow''⟩ := hwindow'.pop_cons
    refine ⟨next c s' (.pop 0), q'.pop.2, .step hreach' ⟨hclear, rfl⟩, by rw [next_pop hqueue' hne], ?_, ?_, hwindow'', ?_⟩
    · rw [next_pop hqueue' hne, hpop]
      simp [hfifo', fifoPop]
    · rw [hpop]
      exact hsize'
    · rw [hpop]
      show (q'.readIndex + 1).toNat = (k + 1) % 2 ^ 32
      rw [UintQueue.toNat_add_one, hread', hread, Nat.mod_add_mod]

end contexts

/-- The queue made for 32 contexts holds 7 before the wrap and 8 behind it, and takes a third value. -/
theorem fifo_iff_clear_contexts :
    ∃ c s q, (32 : UInt32).toNat ≤ c ∧ ((system c 32).guarded Clear).Reachable s ∧ s.queue = .live q ∧
      q.readIndex = 0xffffffff ∧ q.writeIndex = 1 ∧ s.fifo = some [7, 8] ∧
      ∀ pops, (drain c (next c s (.push 9)) pops).fifo.isSome = true := by
  obtain ⟨c, hle, h⟩ := fifo_iff_clear 32
  obtain ⟨s₀, q₀, hreach₀, hqueue₀, hfifo₀, hsize₀, hwindow₀, hread₀⟩ := reachable_guarded_turns hle (2 ^ 32 - 1)
  have hread : q₀.readIndex = 0xffffffff := UInt32.toNat_inj.mp hread₀
  have hwrite : q₀.writeIndex = 0xffffffff := by
    apply UInt32.toNat_inj.mp
    rw [hwindow₀.write, hread₀]
    rfl
  obtain ⟨s₁, q₁, hreach₁, hqueue₁, hfifo₁, hsize₁, hwindow₁, hread₁, hwrite₁⟩ :=
    reachable_guarded_push hle hreach₀ hqueue₀ hfifo₀ hsize₀ hwindow₀ (by decide) 7
  obtain ⟨s₂, q₂, hreach₂, hqueue₂, hfifo₂, hsize₂, hwindow₂, hread₂, hwrite₂⟩ :=
    reachable_guarded_push hle hreach₁ hqueue₁ hfifo₁ hsize₁ hwindow₁ (by decide) 8
  refine ⟨c, s₂, q₂, hle, hreach₂, hqueue₂, ?_, ?_, hfifo₂, ?_⟩
  · rw [hread₂, hread₁, hread]
  · rw [hwrite₂, hwrite₁, hwrite]
    decide
  · exact ((h s₂ hreach₂).2 9).mp (clear_push hqueue₂ hsize₂ hwindow₂ (by decide) 9)

/-! ## A history that is refused -/

/-- Up to four values are taken before the wrap. -/
theorem reachable_push {c : Nat} (hc : 4 ≤ c) {s : State} {q : UintQueue} {items : List UInt32} {k : Nat}
    (hreach : (system c 4).Reachable s) (hqueue : s.queue = .live q) (hfifo : s.fifo = some items) (hsize : q.size = 6)
    (hrep : q.Rep items k) (hitems : items.length < 4) (hk : k + 1 < 2 ^ 32) (elem : UInt32) :
    ∃ s' q', (system c 4).Reachable s' ∧ s'.queue = .live q' ∧ s'.fifo = some (items ++ [elem]) ∧ q'.size = 6 ∧
      q'.Rep (items ++ [elem]) (k + 1) := by
  have hne : q.size ≠ 0 := by
    rw [hsize]
    decide
  have hroom : items.length + 1 < q.size.toNat := by
    rw [hsize]
    show _ < 6
    omega
  obtain ⟨hsuccess, hkeeps, hrep'⟩ := hrep.push (.inl hk) hroom elem
  refine ⟨next c s (.push elem), (q.push elem).2, .step hreach rfl, by rw [next_push hqueue hne], ?_, hkeeps.trans hsize, hrep'⟩
  have hless : items.length < c := by omega
  rw [next_push hqueue hne, hsuccess]
  simp [hfifo, fifoPush, hless]

/-- After `k` values have gone through the queue made for 4, one at a time. -/
theorem reachable_turns {c : Nat} (hc : 4 ≤ c) (k : Nat) (hk : k < 2 ^ 32) :
    ∃ s q, (system c 4).Reachable s ∧ s.queue = .live q ∧ s.fifo = some [] ∧ q.size = 6 ∧ q.Rep [] k := by
  induction k with
  | zero =>
    exact ⟨⟨.live (.empty 6), some []⟩, .empty 6, .init ⟨rfl, rfl⟩, rfl, rfl, rfl, .empty (by decide)⟩
  | succ k ih =>
    obtain ⟨s, q, hreach, hqueue, hfifo, hsize, hrep⟩ := ih (by omega)
    obtain ⟨s', q', hreach', hqueue', hfifo', hsize', hrep'⟩ :=
      reachable_push hc hreach hqueue hfifo hsize hrep (by decide) (by omega) 0
    have hne : q'.size ≠ 0 := by
      rw [hsize']
      decide
    obtain ⟨hpop, hkeeps, hrep''⟩ := hrep'.pop_cons
    refine ⟨next c s' (.pop 0), q'.pop.2, .step hreach' rfl, by rw [next_pop hqueue' hne], ?_, hkeeps.trans hsize', hrep''⟩
    rw [next_pop hqueue' hne, hpop]
    simp [hfifo', fifoPop]

theorem push_refused_at_wrap :
    ¬ ∀ n : UInt32, n ≠ 0 → ∃ c, n.toNat ≤ c ∧ ∀ s, (system c n).Reachable s → s.fifo.isSome = true := by
  intro hall
  obtain ⟨c, hc, h⟩ := hall 4 (by decide)
  change 4 ≤ c at hc
  obtain ⟨s₀, q₀, hreach₀, hqueue₀, hfifo₀, hsize₀, hrep₀⟩ := reachable_turns hc (2 ^ 32 - 4) (by decide)
  obtain ⟨s₁, q₁, hreach₁, hqueue₁, hfifo₁, hsize₁, hrep₁⟩ :=
    reachable_push hc hreach₀ hqueue₀ hfifo₀ hsize₀ hrep₀ (by decide) (by decide) 0
  obtain ⟨s₂, q₂, hreach₂, hqueue₂, hfifo₂, hsize₂, hrep₂⟩ :=
    reachable_push hc hreach₁ hqueue₁ hfifo₁ hsize₁ hrep₁ (by decide) (by decide) 0
  obtain ⟨s₃, q₃, hreach₃, hqueue₃, hfifo₃, hsize₃, hrep₃⟩ :=
    reachable_push hc hreach₂ hqueue₂ hfifo₂ hsize₂ hrep₂ (by decide) (by decide) 0
  have hne : q₃.size ≠ 0 := by
    rw [hsize₃]
    decide
  -- three values, and the next position is the first after the wrap
  have hfull := looksFull_wrapped hrep₃.window (by rw [hrep₃.read]; decide) (by rw [hsize₃]; decide)
  have hpush : q₃.push 0 = (.error, q₃) := by
    unfold UintQueue.push
    rw [if_pos hfull]
  have hsome := h (next c s₃ (.push 0)) (.step hreach₃ rfl)
  rw [next_push hqueue₃ hne, hpush] at hsome
  have hless : 3 < c := by omega
  simp [hfifo₃, fifoPush, hless] at hsome

end SubstanceConnector.QueueHistory
