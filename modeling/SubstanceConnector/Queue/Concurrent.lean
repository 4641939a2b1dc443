import SubstanceConnector.Library.RingIndex
import SubstanceConnector.Queue.Machine

/-!
# The queue is first in, first out under every interleaving

With `R`, `M` and `W` for the three counters, the positions below `R` are popped, those from `R` to
`M` are committed, and those from `M` to `W` are each in the hands of one push. The window from `R`
to `W` is shorter than the ring, so no two of its positions share a cell. A local copy of a counter
may be old; what a thread has concluded from one matters only if its exchange succeeds, and then
the copy is the counter (`Sound`).
-/

namespace SubstanceConnector.QueueMachine

variable {ι : Type}

/-- The position a push has reserved and not committed. -/
def reservation : Pc → Option Nat
  | .pushStore _ w => some w.toNat
  | .pushCommit _ w => some w.toNat
  | _ => none

/-- What a thread relies on at each of its accesses. -/
def Sound (q : UintQueue) (pushed popped : List UInt32) : Pc → Prop
  | .pushLoadRead _ w => w.toNat ≤ pushed.length
  | .pushReserve _ w =>
    w.toNat ≤ pushed.length ∧
      (w.toNat = pushed.length → pushed.length + 1 < 2 ^ 32 → pushed.length + 1 < popped.length + q.size.toNat)
  | .pushStore elem w => q.maxIndex.toNat ≤ w.toNat ∧ pushed[w.toNat]? = some elem
  | .pushCommit _ w => q.maxIndex.toNat ≤ w.toNat ∧ pushed[w.toNat]? = some (q.slot w.toNat)
  | .popLoadMax r => r.toNat ≤ popped.length
  | .popLoadData r => r.toNat ≤ popped.length ∧ (r.toNat = popped.length → popped.length < q.maxIndex.toNat)
  | .popExchange r data =>
    r.toNat ≤ popped.length ∧
      (r.toNat = popped.length → popped.length < q.maxIndex.toNat ∧ pushed[popped.length]? = some data)
  | _ => True

def Apart (x y : Pc) : Prop := ∀ k, reservation x = some k → reservation y ≠ some k

structure Inv (q : UintQueue) (pool : ι → Pc) (pushed popped : List UInt32) : Prop where
  size_pos : 0 < q.size.toNat
  write : q.writeIndex.toNat = pushed.length
  read : q.readIndex.toNat = popped.length
  read_le_max : popped.length ≤ q.maxIndex.toNat
  max_le_write : q.maxIndex.toNat ≤ pushed.length
  window : pushed.length < popped.length + q.size.toNat
  fifo : popped <+: pushed
  stored : ∀ k, popped.length ≤ k → k < q.maxIndex.toNat → pushed[k]? = some (q.slot k)
  sound : ∀ i, Sound q pushed popped (pool i)
  apart : Pairwise fun i j => Apart (pool i) (pool j)
  held : ∀ k, q.maxIndex.toNat ≤ k → k < pushed.length → ∃ i, reservation (pool i) = some k

theorem Apart.symm {x y : Pc} (h : Apart x y) : Apart y x := by
  intro k hy hx
  exact h k hx hy

/-- The accesses that leave the queue as it is. -/
inductive Moves (q : UintQueue) : Pc → Pc → Prop
  | push (elem : UInt32) : Moves q .idle (.pushLoadWrite elem)
  | loadWrite (elem : UInt32) : Moves q (.pushLoadWrite elem) (.pushLoadRead elem q.writeIndex)
  | full (elem w : UInt32) (h : q.looksFull w q.readIndex = true) :
      Moves q (.pushLoadRead elem w) (.pushDone .error)
  | notFull (elem w : UInt32) (h : q.looksFull w q.readIndex ≠ true) :
      Moves q (.pushLoadRead elem w) (.pushReserve elem w)
  | reserveLost (elem w : UInt32) : Moves q (.pushReserve elem w) (.pushLoadWrite elem)
  | commitLost (elem w : UInt32) : Moves q (.pushCommit elem w) (.pushCommit elem w)
  | pushDone (r : Retcode) : Moves q (.pushDone r) .idle
  | pop : Moves q .idle .popLoadRead
  | loadRead : Moves q .popLoadRead (.popLoadMax q.readIndex)
  | empty (r : UInt32) (h : q.looksEmpty r q.maxIndex = true) :
      Moves q (.popLoadMax r) (.popDone .error none)
  | notEmpty (r : UInt32) (h : q.looksEmpty r q.maxIndex ≠ true) :
      Moves q (.popLoadMax r) (.popLoadData r)
  | loadData (r : UInt32) : Moves q (.popLoadData r) (.popExchange r (q.load r))
  | exchangeLost (r data : UInt32) : Moves q (.popExchange r data) .popLoadRead
  | popDone (r : Retcode) (v : Option UInt32) : Moves q (.popDone r v) .idle

/-! ## What a thread may rely on -/

variable {q : UintQueue} {pool : ι → Pc} {pushed popped : List UInt32}

theorem toNat_succ {x : UInt32} (h : x.toNat + 1 < 2 ^ 32) : (x + 1).toNat = x.toNat + 1 := by
  rw [UInt32.toNat_add]
  exact Nat.mod_eq_of_lt h

theorem Inv.of_reservation (hi : Inv q pool pushed popped) {i : ι} {k : Nat} (h : reservation (pool i) = some k) :
    q.maxIndex.toNat ≤ k ∧ k < pushed.length := by
  have hs := hi.sound i
  generalize pool i = pc at h hs
  cases pc <;> simp only [reservation, Option.some.injEq, reduceCtorEq] at h
  all_goals
    subst h
    exact ⟨hs.1, (List.getElem?_eq_some_iff.mp hs.2).1⟩

theorem sound_notFull (hi : Inv q pool pushed popped) {w : UInt32} (hw : w.toNat ≤ pushed.length)
    (h : q.looksFull w q.readIndex ≠ true) (elem : UInt32) : Sound q pushed popped (.pushReserve elem w) := by
  refine ⟨hw, fun hlast hlt => ?_⟩
  have hwindow := hi.window
  by_contra hge
  have hend : pushed.length + 1 = popped.length + q.size.toNat := by omega
  apply h
  rw [UintQueue.looksFull_iff, toNat_succ (by omega), hlast, hend, hi.read, Nat.add_mod_right]

theorem sound_notEmpty (hi : Inv q pool pushed popped) {r : UInt32} (hr : r.toNat ≤ popped.length)
    (h : q.looksEmpty r q.maxIndex ≠ true) : Sound q pushed popped (.popLoadData r) := by
  refine ⟨hr, fun hfirst => ?_⟩
  have hle := hi.read_le_max
  by_contra hge
  have hmax : q.maxIndex.toNat = r.toNat := by omega
  apply h
  rw [UintQueue.looksEmpty_iff, hmax]

theorem sound_loadData (hi : Inv q pool pushed popped) {r : UInt32} (h : Sound q pushed popped (.popLoadData r)) :
    Sound q pushed popped (.popExchange r (q.load r)) := by
  refine ⟨h.1, fun hfirst => ⟨h.2 hfirst, ?_⟩⟩
  rw [UintQueue.load_eq_slot, hfirst]
  exact hi.stored _ (le_refl _) (h.2 hfirst)

theorem sound_moves (hi : Inv q pool pushed popped) {pc pc' : Pc} (h : Moves q pc pc')
    (hs : Sound q pushed popped pc) : Sound q pushed popped pc' := by
  cases h with
  | loadWrite elem => exact hi.write.le
  | notFull elem w hfull => exact sound_notFull hi hs hfull elem
  | commitLost elem w => exact hs
  | loadRead => exact hi.read.le
  | notEmpty r hempty => exact sound_notEmpty hi hs hempty
  | loadData r => exact sound_loadData hi hs
  | _ => trivial

theorem reservation_moves {pc pc' : Pc} (h : Moves q pc pc') : reservation pc' = reservation pc := by
  cases h <;> rfl

/-- Positions of the window other than the one stored to keep what they hold. -/
theorem Inv.slot_store (hi : Inv q pool pushed popped) {w elem : UInt32} (hw : popped.length ≤ w.toNat)
    (hw' : w.toNat < pushed.length) {k : Nat} (hk : popped.length ≤ k) (hk' : k < pushed.length) (hne : k ≠ w.toNat) :
    (q.store w elem).slot k = q.slot k := by
  have hwindow := hi.window
  apply UintQueue.slot_store_of_ne
  rcases Nat.lt_or_gt_of_ne hne with hlt | hlt
  · exact RingIndex.mod_ne_of_lt hlt (by omega)
  · exact (RingIndex.mod_ne_of_lt hlt (by omega)).symm

theorem sound_reserve {elem w : UInt32} {pc : Pc} (h : Sound q pushed popped pc) :
    Sound { q with writeIndex := w } (pushed ++ [elem]) popped pc := by
  have hkeep : ∀ (k : Nat) (v : UInt32), pushed[k]? = some v → (pushed ++ [elem])[k]? = some v :=
    fun k v hk => List.getElem?_append_left (List.getElem?_eq_some_iff.mp hk).1 ▸ hk
  have hlen : (pushed ++ [elem]).length = pushed.length + 1 := by simp
  cases pc with
  | pushLoadRead e w' =>
    have hle : w'.toNat ≤ pushed.length := h
    show w'.toNat ≤ (pushed ++ [elem]).length
    omega
  | pushReserve e w' =>
    obtain ⟨hle, -⟩ := h
    refine ⟨by omega, fun hlast => ?_⟩
    omega
  | pushStore e w' => exact ⟨h.1, hkeep _ _ h.2⟩
  | pushCommit e w' => exact ⟨h.1, hkeep _ _ h.2⟩
  | popExchange r data => exact ⟨h.1, fun hr => ⟨(h.2 hr).1, hkeep _ _ (h.2 hr).2⟩⟩
  | _ => exact h

theorem concat_prefix_of_getElem? {α : Type} {xs ys : List α} {x : α} (h : xs <+: ys) (hx : ys[xs.length]? = some x) :
    xs ++ [x] <+: ys := by
  obtain ⟨rest, rfl⟩ := h
  rw [List.getElem?_append_right (le_refl _), Nat.sub_self] at hx
  cases rest with
  | nil => exact absurd hx (by simp)
  | cons y rest =>
    obtain rfl : y = x := by simpa using hx
    exact ⟨rest, by simp⟩

theorem inv_start {n : UInt32} (hn : 0 < n.toNat) (hle : n.toNat ≤ 2 ^ 32 - 3) :
    Inv (State.start ι n).queue (State.start ι n).pool [] [] := by
  have hsize : 0 < (ringSize n).toNat := by
    rw [toNat_ringSize hle]
    omega
  refine ⟨hsize, rfl, rfl, le_refl _, le_refl _, ?_, List.prefix_refl _, ?_, fun _ => trivial, ?_, ?_⟩
  · show 0 < 0 + (ringSize n).toNat
    omega
  · intro k _ hk
    exact absurd hk (Nat.not_lt_zero k)
  · intro i j _ k hk
    exact absurd hk (by simp [State.start, reservation])
  · intro k _ hk
    exact absurd hk (Nat.not_lt_zero k)

/-! ## Every step keeps the invariant -/

variable [DecidableEq ι]

/-- A step leaves the queue as it is, or is one of the four accesses that change it. -/
inductive StepKind (s s' : State ι) : Prop
  | moves (i : ι) {pc pc' : Pc} (calls : Nat) (h : s.pool i = pc) (hmove : Moves s.queue pc pc')
      (eq : s' = { s with pool := Function.update s.pool i pc', pushCalls := calls })
  | reserve (i : ι) (elem : UInt32) (h : s.pool i = .pushReserve elem s.queue.writeIndex)
      (eq : s' = { s with
        queue := { s.queue with writeIndex := s.queue.writeIndex + 1 }
        pool := Function.update s.pool i (.pushStore elem s.queue.writeIndex)
        pushed := s.pushed ++ [elem] })
  | store (i : ι) (elem w : UInt32) (h : s.pool i = .pushStore elem w)
      (eq : s' = { s with
        queue := s.queue.store w elem
        pool := Function.update s.pool i (.pushCommit elem w) })
  | commit (i : ι) (elem : UInt32) (h : s.pool i = .pushCommit elem s.queue.maxIndex)
      (eq : s' = { s with
        queue := { s.queue with maxIndex := s.queue.maxIndex + 1 }
        pool := Function.update s.pool i (.pushDone .success) })
  | exchange (i : ι) (data : UInt32) (h : s.pool i = .popExchange s.queue.readIndex data)
      (eq : s' = { s with
        queue := { s.queue with readIndex := s.queue.readIndex + 1 }
        pool := Function.update s.pool i (.popDone .success (some data))
        popped := s.popped ++ [data] })

theorem advance_cases {s s' : State ι} {i : ι} (h : next s (.advance i) = some s') : StepKind s s' := by
  obtain ⟨hidle, rfl⟩ := next_advance h
  generalize hpc : s.pool i = pc at *
  cases pc with
  | idle => exact absurd rfl hidle
  | pushLoadWrite elem =>
    exact .moves i s.pushCalls hpc (.loadWrite elem) (by simp [Pc.advance, pushedBy, poppedBy])
  | pushLoadRead elem w =>
    by_cases hfull : s.queue.looksFull w s.queue.readIndex = true
    · exact .moves i s.pushCalls hpc (.full elem w hfull) (by simp [Pc.advance, pushedBy, poppedBy, hfull])
    · exact .moves i s.pushCalls hpc (.notFull elem w hfull) (by simp [Pc.advance, pushedBy, poppedBy, hfull])
  | pushReserve elem w =>
    by_cases hw : s.queue.writeIndex = w
    · subst hw
      exact .reserve i elem hpc (by simp [Pc.advance, pushedBy, poppedBy])
    · exact .moves i s.pushCalls hpc (.reserveLost elem w) (by simp [Pc.advance, pushedBy, poppedBy, hw])
  | pushStore elem w => exact .store i elem w hpc (by simp [Pc.advance, pushedBy, poppedBy])
  | pushCommit elem w =>
    by_cases hw : s.queue.maxIndex = w
    · subst hw
      exact .commit i elem hpc (by simp [Pc.advance, pushedBy, poppedBy])
    · exact .moves i s.pushCalls hpc (.commitLost elem w) (by simp [Pc.advance, pushedBy, poppedBy, hw])
  | pushDone r => exact .moves i s.pushCalls hpc (.pushDone r) (by simp [Pc.advance, pushedBy, poppedBy])
  | popLoadRead => exact .moves i s.pushCalls hpc .loadRead (by simp [Pc.advance, pushedBy, poppedBy])
  | popLoadMax r =>
    by_cases hempty : s.queue.looksEmpty r s.queue.maxIndex = true
    · exact .moves i s.pushCalls hpc (.empty r hempty) (by simp [Pc.advance, pushedBy, poppedBy, hempty])
    · exact .moves i s.pushCalls hpc (.notEmpty r hempty) (by simp [Pc.advance, pushedBy, poppedBy, hempty])
  | popLoadData r => exact .moves i s.pushCalls hpc (.loadData r) (by simp [Pc.advance, pushedBy, poppedBy])
  | popExchange r data =>
    by_cases hr : s.queue.readIndex = r
    · subst hr
      exact .exchange i data hpc (by simp [Pc.advance, pushedBy, poppedBy])
    · exact .moves i s.pushCalls hpc (.exchangeLost r data) (by simp [Pc.advance, pushedBy, poppedBy, hr])
  | popDone r v => exact .moves i s.pushCalls hpc (.popDone r v) (by simp [Pc.advance, pushedBy, poppedBy])

theorem step_cases {s s' : State ι} {a : Label ι} (h : next s a = some s') : StepKind s s' := by
  cases a with
  | push i elem =>
    obtain ⟨hidle, hs'⟩ := next_push h
    exact .moves i _ hidle (.push elem) hs'
  | pop i =>
    obtain ⟨hidle, hs'⟩ := next_pop h
    exact .moves i s.pushCalls hidle .pop hs'
  | advance i => exact advance_cases h

/-- A position held by a thread other than the one that moves, or still held by that one. -/
theorem held_update {i j : ι} {pc : Pc} {k : Nat} (hj : reservation (pool j) = some k)
    (hpc : j = i → reservation pc = some k) : ∃ j, reservation (Function.update pool i pc j) = some k := by
  refine ⟨j, ?_⟩
  by_cases hji : j = i
  · subst hji
    rw [Function.update_self, hpc rfl]
  · rw [Function.update_of_ne hji, hj]

theorem inv_moves (hi : Inv q pool pushed popped) {i : ι} {pc : Pc} (h : Moves q (pool i) pc) :
    Inv q (Function.update pool i pc) pushed popped := by
  have hres := reservation_moves h
  refine ⟨hi.size_pos, hi.write, hi.read, hi.read_le_max, hi.max_le_write, hi.window, hi.fifo, hi.stored, ?_,
    ?_, ?_⟩
  · exact (Function.forall_update_iff pool (p := fun _ x => Sound q pushed popped x)).mpr
      ⟨sound_moves hi h (hi.sound i), fun j _ => hi.sound j⟩
  · refine ThreadPool.pairwise_update (R := Apart) (fun _ _ => Apart.symm) hi.apart fun j hj k hk => ?_
    exact hi.apart (Ne.symm hj) k (hres ▸ hk)
  · intro k hmax hlt
    obtain ⟨j, hj⟩ := hi.held k hmax hlt
    refine held_update hj fun hji => ?_
    rw [hres, ← hji, hj]

/-! ### The four accesses that change the queue -/

theorem inv_reserve (hi : Inv q pool pushed popped) {i : ι} {elem : UInt32}
    (hpc : pool i = .pushReserve elem q.writeIndex) (hlt : pushed.length + 1 < 2 ^ 32) :
    Inv { q with writeIndex := q.writeIndex + 1 } (Function.update pool i (.pushStore elem q.writeIndex))
      (pushed ++ [elem]) popped := by
  have hsound := hi.sound i
  rw [hpc] at hsound
  have hroom := hsound.2 hi.write hlt
  have hle := hi.max_le_write
  have hlen : (pushed ++ [elem]).length = pushed.length + 1 := by simp
  refine ⟨hi.size_pos, ?_, hi.read, hi.read_le_max, ?_, ?_, ?_, ?_, ?_, ?_, ?_⟩
  · show (q.writeIndex + 1).toNat = (pushed ++ [elem]).length
    rw [toNat_succ (by rw [hi.write]; exact hlt), hi.write, hlen]
  · show q.maxIndex.toNat ≤ (pushed ++ [elem]).length
    omega
  · show (pushed ++ [elem]).length < popped.length + q.size.toNat
    omega
  · exact hi.fifo.trans (List.prefix_append _ _)
  · intro k hk hmax
    have hmax' : k < q.maxIndex.toNat := hmax
    rw [List.getElem?_append_left (by omega)]
    exact hi.stored k hk hmax
  · refine (Function.forall_update_iff pool (p := fun _ x => Sound _ _ _ x)).mpr
      ⟨⟨?_, ?_⟩, fun j _ => sound_reserve (hi.sound j)⟩
    · show q.maxIndex.toNat ≤ q.writeIndex.toNat
      rw [hi.write]
      exact hle
    · rw [hi.write, List.getElem?_concat_length]
  · -- every other reservation is below the old `write_index`
    refine ThreadPool.pairwise_update (R := Apart) (fun _ _ => Apart.symm) hi.apart fun j _ k hk hj => ?_
    have hbelow := (hi.of_reservation hj).2
    simp only [reservation, Option.some.injEq] at hk
    rw [hi.write] at hk
    omega
  · intro k hmax hk
    by_cases hlast : k = pushed.length
    · refine ⟨i, ?_⟩
      rw [Function.update_self, reservation, hi.write, hlast]
    · obtain ⟨j, hj⟩ := hi.held k hmax (by omega)
      refine held_update hj fun hji => ?_
      rw [hji, hpc] at hj
      exact absurd hj (by simp [reservation])

theorem inv_store (hi : Inv q pool pushed popped) {i : ι} {elem w : UInt32} (hpc : pool i = .pushStore elem w) :
    Inv (q.store w elem) (Function.update pool i (.pushCommit elem w)) pushed popped := by
  have hsound := hi.sound i
  rw [hpc] at hsound
  obtain ⟨hmax, hmine⟩ := hsound
  have hread := hi.read_le_max
  have hlt : w.toNat < pushed.length := (List.getElem?_eq_some_iff.mp hmine).1
  refine ⟨hi.size_pos, hi.write, hi.read, hi.read_le_max, hi.max_le_write, hi.window, hi.fifo, ?_, ?_, ?_, ?_⟩
  · intro k hk hk'
    have hk'' : k < q.maxIndex.toNat := hk'
    rw [hi.slot_store (by omega) hlt hk (by omega) (by omega)]
    exact hi.stored k hk hk'
  · refine (Function.forall_update_iff pool (p := fun _ x => Sound _ _ _ x)).mpr
      ⟨⟨hmax, ?_⟩, fun j hji => ?_⟩
    · rw [UintQueue.slot_store_self hi.size_pos]
      exact hmine
    · have hj := hi.sound j
      have hapart : Apart (pool j) (pool i) := hi.apart hji
      generalize pool j = pc at hj hapart
      cases pc with
      | pushCommit e w' =>
        refine ⟨hj.1, ?_⟩
        have hne : w'.toNat ≠ w.toNat := by
          intro heq
          exact hapart w'.toNat rfl (by rw [hpc, reservation, heq])
        rw [hi.slot_store (by omega) hlt (by have := hj.1; omega) (List.getElem?_eq_some_iff.mp hj.2).1 hne]
        exact hj.2
      | _ => exact hj
  · refine ThreadPool.pairwise_update (R := Apart) (fun _ _ => Apart.symm) hi.apart fun j hji k hk => ?_
    exact hi.apart (Ne.symm hji) k (by rw [hpc]; exact hk)
  · intro k hk hk'
    obtain ⟨j, hj⟩ := hi.held k hk hk'
    refine held_update hj fun hji => ?_
    rw [hji, hpc] at hj
    exact hj

theorem inv_commit (hi : Inv q pool pushed popped) (hlen : pushed.length < 2 ^ 32) {i : ι} {elem : UInt32}
    (hpc : pool i = .pushCommit elem q.maxIndex) :
    Inv { q with maxIndex := q.maxIndex + 1 } (Function.update pool i (.pushDone .success)) pushed popped := by
  have hsound := hi.sound i
  rw [hpc] at hsound
  obtain ⟨-, hmine⟩ := hsound
  have hlt : q.maxIndex.toNat < pushed.length := (List.getElem?_eq_some_iff.mp hmine).1
  have hsucc : (q.maxIndex + 1).toNat = q.maxIndex.toNat + 1 := toNat_succ (by omega)
  have hread := hi.read_le_max
  refine ⟨hi.size_pos, hi.write, hi.read, ?_, ?_, hi.window, hi.fifo, ?_, ?_, ?_, ?_⟩
  · show popped.length ≤ (q.maxIndex + 1).toNat
    omega
  · show (q.maxIndex + 1).toNat ≤ pushed.length
    omega
  · intro k hk hk'
    have hk'' : k < (q.maxIndex + 1).toNat := hk'
    by_cases hlast : k = q.maxIndex.toNat
    · rw [hlast]
      exact hmine
    · exact hi.stored k hk (by omega)
  · refine (Function.forall_update_iff pool (p := fun _ x => Sound _ _ _ x)).mpr ⟨trivial, fun j hji => ?_⟩
    have hj := hi.sound j
    have hapart : Apart (pool j) (pool i) := hi.apart hji
    -- a reservation of another thread is not the position just committed, so it lies above it
    have habove : ∀ k, reservation (pool j) = some k → (q.maxIndex + 1).toNat ≤ k := by
      intro k hk
      have hne : k ≠ q.maxIndex.toNat := by
        intro heq
        exact hapart k hk (by rw [hpc, reservation, heq])
      have hge := (hi.of_reservation hk).1
      omega
    generalize pool j = pc at hj habove
    cases pc with
    | pushStore e w => exact ⟨habove _ rfl, hj.2⟩
    | pushCommit e w => exact ⟨habove _ rfl, hj.2⟩
    | popLoadData r =>
      refine ⟨hj.1, fun hr => ?_⟩
      have := hj.2 hr
      show popped.length < (q.maxIndex + 1).toNat
      omega
    | popExchange r data =>
      refine ⟨hj.1, fun hr => ⟨?_, (hj.2 hr).2⟩⟩
      have := (hj.2 hr).1
      show popped.length < (q.maxIndex + 1).toNat
      omega
    | _ => exact hj
  · refine ThreadPool.pairwise_update (R := Apart) (fun _ _ => Apart.symm) hi.apart fun j _ k hk => ?_
    exact absurd hk (by simp [reservation])
  · intro k hk hk'
    have hk'' : (q.maxIndex + 1).toNat ≤ k := hk
    obtain ⟨j, hj⟩ := hi.held k (by omega) hk'
    refine held_update hj fun hji => ?_
    rw [hji, hpc, reservation, Option.some.injEq] at hj
    omega

theorem inv_exchange (hi : Inv q pool pushed popped) (hlen : pushed.length < 2 ^ 32) {i : ι} {data : UInt32}
    (hpc : pool i = .popExchange q.readIndex data) :
    Inv { q with readIndex := q.readIndex + 1 } (Function.update pool i (.popDone .success (some data))) pushed
      (popped ++ [data]) := by
  have hsound := hi.sound i
  rw [hpc] at hsound
  obtain ⟨hmax, hdata⟩ := hsound.2 hi.read
  have hle := hi.max_le_write
  have hwindow := hi.window
  have hplen : (popped ++ [data]).length = popped.length + 1 := by simp
  refine ⟨hi.size_pos, hi.write, ?_, ?_, hi.max_le_write, ?_, ?_, ?_, ?_, ?_, ?_⟩
  · show (q.readIndex + 1).toNat = (popped ++ [data]).length
    rw [toNat_succ (by rw [hi.read]; omega), hi.read, hplen]
  · show (popped ++ [data]).length ≤ q.maxIndex.toNat
    omega
  · show pushed.length < (popped ++ [data]).length + q.size.toNat
    omega
  · exact concat_prefix_of_getElem? hi.fifo hdata
  · intro k hk hk'
    exact hi.stored k (by omega) hk'
  · refine (Function.forall_update_iff pool (p := fun _ x => Sound _ _ _ x)).mpr ⟨trivial, fun j _ => ?_⟩
    have hj := hi.sound j
    generalize pool j = pc at hj
    cases pc with
    | pushReserve e w =>
      refine ⟨hj.1, fun hlast hlt => ?_⟩
      have := hj.2 hlast hlt
      show pushed.length + 1 < (popped ++ [data]).length + q.size.toNat
      omega
    | popLoadMax r =>
      have hr : r.toNat ≤ popped.length := hj
      show r.toNat ≤ (popped ++ [data]).length
      omega
    | popLoadData r =>
      have hr := hj.1
      exact ⟨by omega, fun hlast => by omega⟩
    | popExchange r d =>
      have hr := hj.1
      exact ⟨by omega, fun hlast => by omega⟩
    | _ => exact hj
  · refine ThreadPool.pairwise_update (R := Apart) (fun _ _ => Apart.symm) hi.apart fun j _ k hk => ?_
    exact absurd hk (by simp [reservation])
  · intro k hk hk'
    obtain ⟨j, hj⟩ := hi.held k hk hk'
    refine held_update hj fun hji => ?_
    rw [hji, hpc] at hj
    exact absurd hj (by simp [reservation])

/-! ## Whole runs -/

theorem inv_next {s s' : State ι} {a : Label ι} (h : next s a = some s') (hlt : s'.pushed.length < 2 ^ 32)
    (hi : Inv s.queue s.pool s.pushed s.popped) : Inv s'.queue s'.pool s'.pushed s'.popped := by
  rcases step_cases h with ⟨i, calls, hpc, hmove, rfl⟩ | ⟨i, elem, hpc, rfl⟩ | ⟨i, elem, w, hpc, rfl⟩ |
    ⟨i, elem, hpc, rfl⟩ | ⟨i, data, hpc, rfl⟩
  · exact inv_moves hi (hpc ▸ hmove)
  · exact inv_reserve hi hpc (by simpa using hlt)
  · exact inv_store hi hpc
  · exact inv_commit hi hlt hpc
  · exact inv_exchange hi hlt hpc

theorem pushed_le_next {s s' : State ι} {a : Label ι} (h : next s a = some s') :
    s.pushed.length ≤ s'.pushed.length := by
  rcases step_cases h with ⟨i, calls, hpc, hmove, rfl⟩ | ⟨i, elem, hpc, rfl⟩ | ⟨i, elem, w, hpc, rfl⟩ |
    ⟨i, elem, hpc, rfl⟩ | ⟨i, data, hpc, rfl⟩ <;> simp

theorem inv_of_reachable {n : UInt32} (hn : 0 < n.toNat) (hle : n.toNat ≤ 2 ^ 32 - 3) {s : State ι}
    (h : (system ι n).Reachable s) (hlt : s.pushed.length < 2 ^ 32) : Inv s.queue s.pool s.pushed s.popped := by
  refine h.invariant (P := fun s => s.pushed.length < 2 ^ 32 → Inv s.queue s.pool s.pushed s.popped) ?_ ?_ hlt
  · rintro s rfl _
    exact inv_start hn hle
  · intro s a s' _ hi hstep hlt'
    have hmono := pushed_le_next hstep
    exact inv_next hstep hlt' (hi (by omega))

/-- **The queue is linearizable to a FIFO.** In every state any number of threads can reach with
fewer than 2^32 successful pushes, the values popped, in the order of their exchanges, are the first
ones pushed. No committed value is overwritten before it is popped, a value is popped only after it
was stored and committed, and every value that is not yet committed is in the hands of exactly one
push. -/
theorem popped_prefix_pushed {n : UInt32} (hn : 0 < n.toNat) (hle : n.toNat ≤ 2 ^ 32 - 3) {s : State ι}
    (h : (system ι n).Reachable s) (hlt : s.pushed.length < 2 ^ 32) :
    s.popped <+: s.pushed ∧
      (∀ k, s.popped.length ≤ k → k < s.queue.maxIndex.toNat → s.pushed[k]? = some (s.queue.slot k)) ∧
      s.popped.length ≤ s.queue.maxIndex.toNat ∧ s.queue.maxIndex.toNat ≤ s.pushed.length ∧
      ∀ k, s.queue.maxIndex.toNat ≤ k → k < s.pushed.length → ∃! i, reservation (s.pool i) = some k := by
  have hi := inv_of_reachable hn hle h hlt
  refine ⟨hi.fifo, hi.stored, hi.read_le_max, hi.max_le_write, fun k hk hk' => ?_⟩
  obtain ⟨i, hheld⟩ := hi.held k hk hk'
  refine ⟨i, hheld, fun j hj => ?_⟩
  by_contra hne
  exact hi.apart hne k hj hheld

/-- Two threads push 7 and 8. Both have loaded the counters before either reserves; the first one reserves first and
commits first, and the second one has stored by then. The first one then pops, before the other has committed. -/
def racingRun : List (Label Bool) :=
  [.push false 7, .push true 8, .advance false, .advance false, .advance true, .advance true] ++
    -- the reservation of the first, and that of the second, which fails once
    [.advance false, .advance true, .advance true, .advance true, .advance true] ++
    -- the second one stores and tries in vain to commit, then the first one does both
    [.advance true, .advance true, .advance false, .advance false, .advance false] ++
    [.pop false, .advance false, .advance false, .advance false, .advance false]

theorem popped_seven_of_seven_eight :
    ∃ s : State Bool, (system Bool 2).Reachable s ∧ s.popped = [7] ∧ s.pushed = [7, 8] ∧
      reservation (s.pool true) = some 1 ∧ s.popped <+: s.pushed := by
  have hrun : ((StepSystem.runList next (State.start Bool 2) racingRun).map fun s =>
      (s.popped, s.pushed, reservation (s.pool true))) = some ([7], [7, 8], some 1) := by
    decide +kernel
  obtain ⟨s, hs, hlogs⟩ := Option.map_eq_some_iff.mp hrun
  obtain ⟨hpopped, hrest⟩ := Prod.mk.inj hlogs
  obtain ⟨hpushed, hreserved⟩ := Prod.mk.inj hrest
  have hreach : (system Bool 2).Reachable s := StepSystem.reachable_runList (.init rfl) hs
  have hlt : s.pushed.length < 2 ^ 32 := by
    rw [hpushed]
    decide
  exact ⟨s, hreach, hpopped, hpushed, hreserved, (popped_prefix_pushed (by decide) (by decide) hreach hlt).1⟩

end SubstanceConnector.QueueMachine
