import SubstanceConnector.Library.LockOrder

/-!
# One thread after the other

When the mutexes are free, a thread can go on by itself: it takes each mutex it comes to, and needs the others only for
what it waits for. If from each of its local states some answer of the environment brings it nearer to where a distance is 0
(`Instr.Nears`), it gets there by its own steps alone, and over local states that are fit all the way (`arrives`).
-/

namespace LockOrder

section runs
variable {ι A μ κ L G : Type} [DecidableEq ι] [DecidableEq μ] [DecidableEq κ] [Fintype ι]
variable {routine : ι → L → Instr A μ κ L G} {s s' : State ι μ κ L G}

/-- The thread that a step is about. -/
def Label.thread : Label ι A → ι
  | .step i _ _ => i
  | .spurious i => i

/-- Runs of steps that are allowed where they are made. -/
def Moves (routine : ι → L → Instr A μ κ L G) (allowed : State ι μ κ L G → Label ι A → Prop) :
    State ι μ κ L G → State ι μ κ L G → Prop :=
  Relation.ReflTransGen fun s s' => ∃ a, allowed s a ∧ next routine s a = some s'

/-- While the threads that have mutexes give them up, every step is allowed. -/
theorem Without.moves {idle : ι → Prop} {allowed : State ι μ κ L G → Label ι A → Prop} {P : State ι μ κ L G → Prop}
    (hsteps : ∀ s j m answer chosen s', P s → ¬ idle j → s.holder m = some j →
      next routine s (.step j answer chosen) = some s' → allowed s (.step j answer chosen) ∧ P s')
    (h : Without routine idle s s') (hs : P s) : Moves routine allowed s s' ∧ P s' := by
  induction h with
  | refl => exact ⟨.refl, hs⟩
  | tail _ hstep ih =>
    obtain ⟨j, answer, chosen, hj, ⟨m, hheld⟩, hstep⟩ := hstep
    obtain ⟨hallowed, hs'⟩ := hsteps _ j m answer chosen _ ih.2 hj hheld hstep
    exact ⟨ih.1.tail ⟨_, hallowed, hstep⟩, hs'⟩

/-- What every allowed step keeps, a run keeps. -/
theorem Moves.keeps {allowed : State ι μ κ L G → Label ι A → Prop} {P : State ι μ κ L G → Prop}
    (hkeeps : ∀ s a s', P s → allowed s a → next routine s a = some s' → P s') (h : Moves routine allowed s s') (hs : P s) :
    P s' := by
  induction h with
  | refl => exact hs
  | tail _ hstep ih =>
    obtain ⟨a, ha, hstep⟩ := hstep
    exact hkeeps _ a _ ih ha hstep

/-- Nobody else has a mutex. -/
def Solo (s : State ι μ κ L G) (i : ι) : Prop := ∀ m j, s.holder m = some j → j = i

/-- For some answer of the environment the next step leads to a fit local state nearer to where the distance is 0. A wait
does so only if its thread may be woken for no reason. -/
def Instr.Nears (fit : L → Prop) (distance : L → G → Nat) (wakes : Prop) (l : L) (g : G) : Instr A μ κ L G → Prop
  | .act f => ∃ a, fit (f a g).2 ∧ distance (f a g).2 (f a g).1 < distance l g
  | .lock _ k => fit k ∧ distance k g < distance l g
  | .unlock _ k => fit k ∧ distance k g < distance l g
  | .wait _ _ k => wakes ∧ fit k ∧ distance k g < distance l g
  | .signal _ k => fit k ∧ distance k g < distance l g
  | .broadcast _ k => fit k ∧ distance k g < distance l g
  | .await ready k => ready g = true ∧ fit k ∧ distance k g < distance l g
  | .stop => False

/-- A wait takes two more steps than the local state after it. -/
def Status.distance (distance : L → G → Nat) (g : G) : Status μ κ L → Nat
  | .running l => 3 * distance l g
  | .woken _ l => 3 * distance l g + 1
  | .blocked _ _ l => 3 * distance l g + 2

theorem Solo.step {i : ι} (hsolo : Solo s i) {answer : A} {chosen : Option ι}
    (h : next routine s (.step i answer chosen) = some s') : Solo s' i := by
  intro m j hm
  by_cases hj : j = i
  · exact hj
  · exact hsolo m j ((holder_others h hj m).mp hm)

omit [DecidableEq ι] [DecidableEq μ] [DecidableEq κ] [Fintype ι] in
theorem Solo.free {i : ι} {m : μ} (hsolo : Solo s i) (hnot : s.holder m ≠ some i) : s.holder m = none := by
  cases hholder : s.holder m with
  | none => rfl
  | some j => exact absurd (hsolo m j hholder ▸ hholder) hnot

section solo
variable {held : L → List μ} {rank : μ → Nat} {fit : L → Prop} {distance : L → G → Nat} {wakes : Prop} {i : ι}

/-- A thread makes a step by itself that gets nearer. -/
theorem solo_step (hfollows : ∀ i l, (routine i l).Follows held rank l) [Nonempty A] (hs : Owned held s) (hsolo : Solo s i)
    (hfit : fit (s.threads i).locals)
    (hnears : ∀ l, s.threads i = .running l → (routine i l).Nears fit distance wakes l s.shared)
    (hblocked : ∀ c m l, s.threads i = .blocked c m l → wakes) :
    ∃ a s', a.thread = i ∧ (a = .spurious i → wakes) ∧ next routine s a = some s' ∧ Solo s' i ∧
      fit (s'.threads i).locals ∧
      (s'.threads i).distance distance s'.shared < (s.threads i).distance distance s.shared := by
  have hi := hs i
  have hself (threads : ι → Status μ κ L) (x : Status μ κ L) : Function.update threads i x i = x :=
    Function.update_self i _ threads
  -- a step of `i` after which it is running at `k`
  have hgo : ∀ {answer : A} {chosen : Option ι} {s' : State ι μ κ L G} {k : L},
      next routine s (.step i answer chosen) = some s' → s'.threads i = .running k → fit k →
      3 * distance k s'.shared < (s.threads i).distance distance s.shared →
      ∃ a s', a.thread = i ∧ (a = .spurious i → wakes) ∧ next routine s a = some s' ∧ Solo s' i ∧
        fit (s'.threads i).locals ∧
        (s'.threads i).distance distance s'.shared < (s.threads i).distance distance s.shared := by
    intro answer chosen s' k hstep hk hfit hless
    refine ⟨.step i answer chosen, s', rfl, (fun h => by cases h), hstep, hsolo.step hstep, ?_, ?_⟩
    · rw [hk]
      exact hfit
    · rw [hk]
      exact hless
  cases hat : s.threads i with
  | blocked c m l =>
    have hstep : next routine s (.spurious i) = some (s.put i (.woken m l)) := by simp only [next, hat]
    have hat' : (s.put i (.woken m l)).threads i = .woken m l := hself _ _
    refine ⟨.spurious i, _, rfl, fun _ => hblocked c m l hat, hstep, hsolo, ?_, ?_⟩
    · rw [hat] at hfit
      rw [hat']
      exact hfit
    · rw [hat']
      exact Nat.lt_succ_self _
  | woken m l =>
    rw [hat] at hi hgo hfit
    obtain ⟨answer⟩ := ‹Nonempty A›
    have hfree : s.holder m = none := hsolo.free (hi.2 m)
    have hstep : next routine s (.step i answer none) = some ((s.hand m (some i)).goto i l) := by
      simp only [next, hat, if_pos hfree]
    exact hgo hstep (hself _ _) hfit (Nat.lt_succ_self _)
  | running l =>
    have hl := hfollows i l
    have hnear := hnears l hat
    rw [hat] at hi hgo
    have hless {k : L} {g : G} (h : distance k g < distance l s.shared) : 3 * distance k g < 3 * distance l s.shared :=
      Nat.mul_lt_mul_of_pos_left h (by decide)
    cases hinstr : routine i l with
    | act f =>
      rw [hinstr] at hnear
      obtain ⟨answer, hfit', hnear⟩ := hnear
      have hstep : next routine s (.step i answer none) =
          some ({ s with shared := (f answer s.shared).1 }.goto i (f answer s.shared).2) := by
        simp only [next, hat, hinstr]
      exact hgo hstep (hself _ _) hfit' (hless hnear)
    | lock m k =>
      rw [hinstr] at hnear
      obtain ⟨answer⟩ := ‹Nonempty A›
      have hfree : s.holder m = none := hsolo.free fun hholder => by
        have hwants : Wants routine s i m := .inr ⟨l, k, hat, hinstr⟩
        exact lt_irrefl _ (hwants.rank_lt hfollows hs hholder)
      have hstep : next routine s (.step i answer none) = some ((s.hand m (some i)).goto i k) := by
        simp only [next, hat, hinstr, if_pos hfree]
      exact hgo hstep (hself _ _) hnear.1 (hless hnear.2)
    | unlock m k =>
      rw [hinstr] at hl hnear
      obtain ⟨answer⟩ := ‹Nonempty A›
      have hown : s.holder m = some i := (hi m).mp (hl.1 ▸ List.mem_cons_self)
      have hstep : next routine s (.step i answer none) = some ((s.hand m none).goto i k) := by
        simp only [next, hat, hinstr, if_pos hown]
      exact hgo hstep (hself _ _) hnear.1 (hless hnear.2)
    | wait c m k =>
      rw [hinstr] at hl hnear
      obtain ⟨answer⟩ := ‹Nonempty A›
      have hown : s.holder m = some i := (hi m).mp (hl.1 ▸ List.mem_singleton_self m)
      have hstep : next routine s (.step i answer none) = some ((s.hand m none).put i (.blocked c m k)) := by
        simp only [next, hat, hinstr, if_pos hown]
      have hat' : ((s.hand m none).put i (.blocked c m k)).threads i = .blocked c m k := hself _ _
      refine ⟨.step i answer none, _, rfl, (fun h => by cases h), hstep, hsolo.step hstep, ?_, ?_⟩
      · rw [hat']
        exact hnear.2.1
      · rw [hat']
        show 3 * distance k s.shared + 2 < 3 * distance l s.shared
        have hnear := hnear.2.2
        omega
    | signal c k =>
      rw [hinstr] at hnear
      obtain ⟨answer⟩ := ‹Nonempty A›
      obtain ⟨chosen, threads, hwake⟩ := wakeOne_exists c s.threads
      have hstep : next routine s (.step i answer chosen) = some ({ s with threads := threads }.goto i k) := by
        simp only [next, hat, hinstr, hwake, Option.map_some]
      exact hgo hstep (hself _ _) hnear.1 (hless hnear.2)
    | broadcast c k =>
      rw [hinstr] at hnear
      obtain ⟨answer⟩ := ‹Nonempty A›
      have hstep : next routine s (.step i answer none) =
          some ({ s with threads := fun j => (s.threads j).wake c }.goto i k) := by
        simp only [next, hat, hinstr]
      exact hgo hstep (hself _ _) hnear.1 (hless hnear.2)
    | await ready k =>
      rw [hinstr] at hnear
      obtain ⟨answer⟩ := ‹Nonempty A›
      have hstep : next routine s (.step i answer none) = some (s.goto i k) := by
        simp only [next, hat, hinstr, if_pos hnear.1]
      exact hgo hstep (hself _ _) hnear.2.1 (hless hnear.2.2)
    | stop =>
      rw [hinstr] at hnear
      exact hnear.elim

/-- A thread arrives by its own steps alone. -/
theorem arrives (fit : L → Prop) (distance : L → G → Nat) (wakes : Prop) (allowed : State ι μ κ L G → Label ι A → Prop)
    (hfollows : ∀ i l, (routine i l).Follows held rank l) [Nonempty A] {P : State ι μ κ L G → Prop}
    (hsteps : ∀ s a s', P s → (∀ l, s.threads i = .running l → 0 < distance l s.shared) → a.thread = i →
      (a = .spurious i → wakes) → next routine s a = some s' → fit (s'.threads i).locals → allowed s a ∧ P s')
    (hnears : ∀ s l, P s → fit l → s.threads i = .running l → 0 < distance l s.shared →
      (routine i l).Nears fit distance wakes l s.shared)
    (hblocked : ∀ s c m l, P s → s.threads i = .blocked c m l → wakes) (howned : ∀ s, P s → Owned held s) (hs : P s)
    (hfit : fit (s.threads i).locals) (hsolo : Solo s i) :
    ∃ s' l, Moves routine allowed s s' ∧ P s' ∧ s'.threads i = .running l ∧ fit l ∧ distance l s'.shared = 0 := by
  induction hn : (s.threads i).distance distance s.shared using Nat.strong_induction_on generalizing s with
  | _ n ih =>
    subst hn
    by_cases hdone : ∃ l, s.threads i = .running l ∧ distance l s.shared = 0
    · obtain ⟨l, hat, hzero⟩ := hdone
      rw [hat] at hfit
      exact ⟨s, l, .refl, hs, hat, hfit, hzero⟩
    · have hfar (l : L) (hat : s.threads i = .running l) : 0 < distance l s.shared :=
        Nat.pos_of_ne_zero fun hzero => hdone ⟨l, hat, hzero⟩
      have hnears' (l : L) (hat : s.threads i = .running l) : (routine i l).Nears fit distance wakes l s.shared := by
        refine hnears s l hs ?_ hat (hfar l hat)
        rw [hat] at hfit
        exact hfit
      obtain ⟨a, s₁, hthread, hwakes, hstep, hsolo₁, hfit₁, hless⟩ :=
        solo_step hfollows (howned s hs) hsolo hfit hnears' fun c m l => hblocked s c m l hs
      obtain ⟨hallowed, hs₁⟩ := hsteps s a s₁ hs hfar hthread hwakes hstep hfit₁
      obtain ⟨s', l, hrun, hP, hat, hfit', hzero⟩ := ih _ hless hs₁ hfit₁ hsolo₁ rfl
      exact ⟨s', l, .head ⟨a, hallowed, hstep⟩ hrun, hP, hat, hfit', hzero⟩

end solo

end runs

end LockOrder
