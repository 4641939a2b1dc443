import SubstanceConnector.Callbacks.Trampolines

/-!
# Notifying the trampolines

`connector_notify_trampolines` reads the successor of a node after its function has returned. As additions go to the
front, whatever the functions do to the rest of the list, the walk goes through the occurrences that were registered
when it started and still are (`Pending`), as long as no function removes the occurrence it is called for: then its
node has been freed and is read all the same (`notify_iff_spares`).

When the functions leave the list alone it is a plain list in every sequence of calls, and the shutdown frees what is
left of it (`session_eq`).
-/

namespace SubstanceConnector.Callbacks

open Filter (Eventually atTop eventually_gt_atTop eventually_ge_atTop)

section walk
variable {F : Type} [DecidableEq F]

namespace Registry

/-- The occurrences of `pending` that are still registered when their turn comes, in order, and the registry after
the last one. -/
def notified (behaviour : Behaviour F) :
    Nat → List (Occurrence F) → Registry F → List (Occurrence F) × Registry F
  | _, [], r => ([], r)
  | turn, o :: pending, r =>
    if o ∈ r.entries then
      let rest := notified behaviour (turn + 1) pending (r.afterAll (behaviour turn o.trampoline))
      (o :: rest.1, rest.2)
    else notified behaviour turn pending r

/-- No function removes the occurrence it is called for, and the additions get their memory. -/
def Spares (behaviour : Behaviour F) : Nat → List (Occurrence F) → Registry F → Prop
  | _, [], _ => True
  | turn, o :: pending, r =>
    if o ∈ r.entries then
      (∀ op ∈ behaviour turn o.trampoline, op.Provided) ∧
        o ∈ (r.afterAll (behaviour turn o.trampoline)).entries ∧
        Spares behaviour (turn + 1) pending (r.afterAll (behaviour turn o.trampoline))
    else Spares behaviour turn pending r

/-- What is registered stays so or is released. -/
theorem registered_after {r : Registry F} {o : Occurrence F} (ho : o ∈ r.entries) (op : RegistryOp F) :
    o ∈ (r.after op).entries ∨ o.node ∈ (r.after op).released := by
  obtain h | ⟨f, h⟩ | ⟨p, hp, h⟩ := r.after_cases op
  · rw [h]
    exact .inl ho
  · rw [h]
    exact .inl (List.mem_cons_of_mem _ ho)
  · rw [h]
    by_cases hop : o = p
    · rw [hop]
      exact .inr (List.mem_append_right _ List.mem_cons_self)
    · exact .inl ((List.mem_erase_of_ne hop).mpr ho)

theorem released_after {r : Registry F} {i : Nat} (hi : i ∈ r.released) (op : RegistryOp F) :
    i ∈ (r.after op).released := by
  obtain h | ⟨f, h⟩ | ⟨p, hp, h⟩ := r.after_cases op
  · rwa [h]
  · rwa [h]
  · rw [h]
    exact List.mem_append_left _ hi

theorem registered_afterAll {r : Registry F} {o : Occurrence F}
    (ho : o ∈ r.entries ∨ o.node ∈ r.released) (ops : List (RegistryOp F)) :
    o ∈ (r.afterAll ops).entries ∨ o.node ∈ (r.afterAll ops).released := by
  induction ops generalizing r with
  | nil => exact ho
  | cons op ops ih =>
    apply ih
    obtain ho | ho := ho
    · exact registered_after ho op
    · exact .inr (released_after ho op)

end Registry

/-- The occurrences of `pending` that are still registered are the last ones of the list. -/
structure Pending (r : Registry F) (pending : List (Occurrence F)) : Prop where
  old : ∀ o ∈ pending, o.node < r.added
  behind : ∃ before, r.entries = before ++ pending.filter (· ∈ r.entries)

namespace Pending
variable {r : Registry F} {o : Occurrence F} {pending : List (Occurrence F)}

theorem all (r : Registry F) : Pending r r.entries := by
  refine ⟨fun o ho => r.node_lt ho, [], ?_⟩
  rw [List.nil_append, List.filter_eq_self.mpr]
  simp

theorem tail (h : Pending r (o :: pending)) : Pending r pending := by
  obtain ⟨before, hbefore⟩ := h.behind
  refine ⟨fun p hp => h.old p (List.mem_cons_of_mem o hp), ?_⟩
  by_cases ho : o ∈ r.entries
  · rw [List.filter_cons_of_pos (by simpa using ho)] at hbefore
    exact ⟨before ++ [o], by rw [List.append_assoc]; exact hbefore⟩
  · rw [List.filter_cons_of_neg (by simpa using ho)] at hbefore
    exact ⟨before, hbefore⟩

/-- One call of a function leaves it so: additions go to the front. -/
theorem after (h : Pending r pending) (op : RegistryOp F) : Pending (r.after op) pending := by
  obtain ⟨before, hbefore⟩ := h.behind
  obtain heq | ⟨f, heq⟩ | ⟨p, hp, heq⟩ := r.after_cases op
  · rwa [heq]
  · rw [heq]
    refine ⟨fun o ho => Nat.lt_succ_of_lt (h.old o ho), ⟨r.added, f⟩ :: before, ?_⟩
    have hsame : pending.filter (· ∈ (r.add f).entries) = pending.filter (· ∈ r.entries) := by
      apply List.filter_congr
      intro o ho
      have hne : o ≠ ⟨r.added, f⟩ := by
        rintro rfl
        exact (h.old _ ho).ne rfl
      simp [Registry.add, hne]
    rw [hsame, List.cons_append, ← hbefore]
    rfl
  · rw [heq]
    have hentries : (r.release p hp).entries = r.entries.filter (· ≠ p) := by
      apply (r.nodup.erase_eq_filter p).trans
      apply List.filter_congr
      intro o _
      rw [decide_not]
      rfl
    refine ⟨h.old, before.filter (· ≠ p), ?_⟩
    rw [hentries]
    conv_lhs => rw [hbefore]
    rw [List.filter_append, List.filter_filter]
    congr 1
    apply List.filter_congr
    intro o _
    simp [and_comm]

theorem afterAll (h : Pending r pending) (ops : List (RegistryOp F)) : Pending (r.afterAll ops) pending := by
  induction ops generalizing r with
  | nil => exact h
  | cons op ops ih => exact ih (h.after op)

end Pending

namespace Represents
variable {s : TrampolineList F} {r : Registry F} {o : Occurrence F} {pending : List (Occurrence F)}

/-- From the node of an occurrence the walk goes to the next one of `pending` that is registered. -/
theorem next_eq (h : Represents s r) (hpending : Pending r (o :: pending)) (ho : o ∈ r.entries) :
    s.next o.node = (pending.filter (· ∈ r.entries)).head?.map Occurrence.node := by
  obtain ⟨before, hbefore⟩ := hpending.behind
  rw [List.filter_cons_of_pos (by simpa using ho)] at hbefore
  have hlinked := h.linked
  rw [hbefore, List.map_append, List.map_cons] at hlinked
  rw [← hlinked.of_append.2.head?_eq, List.head?_map]

/-- The turn of a registered occurrence: its callback is run, and the walk goes on from its node, if that is there. -/
theorem notifyLoop_turn (h : Represents s r) (ho : o ∈ r.entries) (behaviour : Behaviour F) (notification : Notification)
    (opRounds turn : Nat) {rounds : Nat} (hrounds : (o :: pending).length ≤ rounds) :
    ∃ left, pending.length ≤ left ∧
      Callbacks.notifyLoop behaviour notification opRounds rounds turn
          (((o :: pending).filter (· ∈ r.entries)).head?.map Occurrence.node) s = do
        let s ← Callbacks.performAll opRounds s (behaviour turn o.trampoline)
        let node ← s.node o.node
        let rest ← Callbacks.notifyLoop behaviour notification opRounds left (turn + 1) node.next s
        return (⟨o, notification⟩ :: rest.1, rest.2) := by
  obtain ⟨left, rfl⟩ := Nat.exists_eq_add_of_le hrounds
  rw [List.length_cons, Nat.add_right_comm]
  refine ⟨pending.length + left, Nat.le_add_right _ _, ?_⟩
  rw [List.filter_cons_of_pos (by simpa using ho)]
  simp only [List.head?_cons, Option.map_some, Callbacks.notifyLoop, h.node_eq ho]
  rfl

/-- The turn of an occurrence that its callback leaves in the list: the walk goes on over what is left of `pending`. -/
theorem notifyLoop_left (h : Represents s r) (hpending : Pending r (o :: pending)) (ho : o ∈ r.entries)
    {behaviour : Behaviour F} {turn opRounds : Nat} {s₁ : TrampolineList F}
    (hrep : Represents s₁ (r.afterAll (behaviour turn o.trampoline)))
    (hleft : o ∈ (r.afterAll (behaviour turn o.trampoline)).entries)
    (hops : Callbacks.performAll opRounds s (behaviour turn o.trampoline) = .ok s₁) (notification : Notification)
    {rounds : Nat} (hrounds : (o :: pending).length ≤ rounds) :
    ∃ left, pending.length ≤ left ∧
      Callbacks.notifyLoop behaviour notification opRounds rounds turn
          (((o :: pending).filter (· ∈ r.entries)).head?.map Occurrence.node) s = do
        let rest ← Callbacks.notifyLoop behaviour notification opRounds left (turn + 1)
          ((pending.filter (· ∈ (r.afterAll (behaviour turn o.trampoline)).entries)).head?.map Occurrence.node) s₁
        return (⟨o, notification⟩ :: rest.1, rest.2) := by
  obtain ⟨left, hroom, hturn⟩ := h.notifyLoop_turn ho behaviour notification opRounds turn hrounds
  refine ⟨left, hroom, ?_⟩
  rw [hturn, ← hrep.next_eq (hpending.afterAll (behaviour turn o.trampoline)) hleft]
  simp only [hops, hrep.node_eq hleft, bind, Except.bind]

/-- The walk over what is left of `pending`. -/
theorem notifyLoop (h : Represents s r) (hpending : Pending r pending) {behaviour : Behaviour F} {turn : Nat}
    (hspares : r.Spares behaviour turn pending) (notification : Notification) :
    ∃ s', Represents s' (r.notified behaviour turn pending).2 ∧
      ∀ᶠ opRounds in atTop, ∀ rounds, pending.length ≤ rounds →
        notifyLoop behaviour notification opRounds rounds turn
            ((pending.filter (· ∈ r.entries)).head?.map Occurrence.node) s =
          .ok ((r.notified behaviour turn pending).1.map (⟨·, notification⟩), s') := by
  induction pending generalizing s r turn with
  | nil =>
    refine ⟨s, h, .of_forall fun _ rounds _ => ?_⟩
    cases rounds <;> rfl
  | cons o pending ih =>
    by_cases ho : o ∈ r.entries
    · rw [Registry.Spares, if_pos ho] at hspares
      obtain ⟨hprovided, hleft, hspares⟩ := hspares
      obtain ⟨s₁, hrep₁, hops⟩ := h.performAll hprovided
      have hpending₁ := hpending.afterAll (behaviour turn o.trampoline)
      obtain ⟨s', hrep, hwalk⟩ := ih hrep₁ hpending₁.tail hspares
      rw [Registry.notified, if_pos ho]
      refine ⟨s', hrep, ?_⟩
      filter_upwards [hops, hwalk] with opRounds hops hwalk
      intro rounds hrounds
      obtain ⟨left, hroom, hturn⟩ := h.notifyLoop_left hpending ho hrep₁ hleft hops notification hrounds
      rw [hturn, hwalk left hroom]
      rfl
    · rw [Registry.Spares, if_neg ho] at hspares
      obtain ⟨s', hrep, hwalk⟩ := ih h hpending.tail hspares
      rw [Registry.notified, if_neg ho, List.filter_cons_of_neg (by simpa using ho)]
      refine ⟨s', hrep, ?_⟩
      filter_upwards [hwalk] with opRounds hwalk
      intro rounds hrounds
      exact hwalk rounds (Nat.le_of_succ_le hrounds)

/-- A function that does not spare its occurrence makes the walk go wrong. -/
theorem notifyLoop_faults (h : Represents s r) (hpending : Pending r pending) {behaviour : Behaviour F} {turn : Nat}
    (hspares : ¬ r.Spares behaviour turn pending) (notification : Notification) :
    ∃ f, ∀ᶠ opRounds in atTop, ∀ rounds, pending.length ≤ rounds →
      Callbacks.notifyLoop behaviour notification opRounds rounds turn
        ((pending.filter (· ∈ r.entries)).head?.map Occurrence.node) s = .error (.fault f) := by
  induction pending generalizing s r turn with
  | nil => exact absurd trivial hspares
  | cons o pending ih =>
    by_cases ho : o ∈ r.entries
    · rw [Registry.Spares, if_pos ho] at hspares
      by_cases hprovided : ∀ op ∈ behaviour turn o.trampoline, op.Provided
      · obtain ⟨s₁, hrep₁, hops⟩ := h.performAll hprovided
        have hpending₁ := hpending.afterAll (behaviour turn o.trampoline)
        by_cases hleft : o ∈ (r.afterAll (behaviour turn o.trampoline)).entries
        · obtain ⟨f, hwalk⟩ := ih hrep₁ hpending₁.tail fun hrest => hspares ⟨hprovided, hleft, hrest⟩
          refine ⟨f, ?_⟩
          filter_upwards [hops, hwalk] with opRounds hops hwalk
          intro rounds hrounds
          obtain ⟨left, hroom, hturn⟩ := h.notifyLoop_left hpending ho hrep₁ hleft hops notification hrounds
          rw [hturn, hwalk left hroom]
          rfl
        · have hgone := hrep₁.node_gone ((Registry.registered_afterAll (.inl ho) _).resolve_left hleft)
          refine ⟨.useAfterFree, ?_⟩
          filter_upwards [hops] with opRounds hops
          intro rounds hrounds
          obtain ⟨left, -, hturn⟩ := h.notifyLoop_turn ho behaviour notification opRounds turn hrounds
          rw [hturn]
          simp only [hops, hgone, bind, Except.bind]
      · refine ⟨.nullDereference, ?_⟩
        filter_upwards [h.performAll_not_provided hprovided] with opRounds hops
        intro rounds hrounds
        obtain ⟨left, -, hturn⟩ := h.notifyLoop_turn ho behaviour notification opRounds turn hrounds
        rw [hturn]
        simp only [hops, bind, Except.bind]
    · rw [Registry.Spares, if_neg ho] at hspares
      rw [List.filter_cons_of_neg (by simpa using ho)]
      obtain ⟨f, hwalk⟩ := ih h hpending.tail hspares
      refine ⟨f, ?_⟩
      filter_upwards [hwalk] with opRounds hwalk
      intro rounds hrounds
      exact hwalk rounds (Nat.le_of_succ_le hrounds)

end Represents

/-- The notification ends, and has called, once and in order, the occurrences that were registered when it started and
when their turn came. -/
def Notifies (s : TrampolineList F) (r : Registry F) (behaviour : Behaviour F) (notification : Notification) : Prop :=
  ∃ s', ∀ᶠ rounds in atTop, connectorNotifyTrampolines rounds behaviour notification s =
    .ok (.success, (r.notified behaviour 0 r.entries).1.map (⟨·, notification⟩), s')

namespace Represents
variable {s : TrampolineList F} {r : Registry F}

theorem walk_start (h : Represents s r) :
    s.front = (r.entries.filter (· ∈ r.entries)).head?.map Occurrence.node := by
  rw [List.filter_eq_self.mpr (by simp), ← h.linked.head?_eq, List.head?_map]

theorem notify (h : Represents s r) {behaviour : Behaviour F} (hspares : r.Spares behaviour 0 r.entries)
    (notification : Notification) :
    ∃ s', Represents s' (r.notified behaviour 0 r.entries).2 ∧
      ∀ᶠ rounds in atTop, connectorNotifyTrampolines rounds behaviour notification s =
        .ok (.success, (r.notified behaviour 0 r.entries).1.map (⟨·, notification⟩), s') := by
  obtain ⟨s', hrep, hwalk⟩ := h.notifyLoop (.all r) hspares notification
  refine ⟨s', hrep, ?_⟩
  filter_upwards [hwalk, eventually_ge_atTop r.entries.length] with rounds hwalk hrounds
  rw [connectorNotifyTrampolines, h.walk_start, hwalk rounds hrounds]
  rfl

theorem notify_faults (h : Represents s r) {behaviour : Behaviour F} (hspares : ¬ r.Spares behaviour 0 r.entries)
    (notification : Notification) :
    ∃ f, ∀ᶠ rounds in atTop,
      connectorNotifyTrampolines rounds behaviour notification s = .error (.fault f) := by
  obtain ⟨f, hwalk⟩ := h.notifyLoop_faults (.all r) hspares notification
  refine ⟨f, ?_⟩
  filter_upwards [hwalk, eventually_ge_atTop r.entries.length] with rounds hwalk hrounds
  rw [connectorNotifyTrampolines, h.walk_start, hwalk rounds hrounds]
  rfl

end Represents

/-- The notification does what it is for exactly when no function removes the occurrence it is called for and the
additions get their memory; else it faults. -/
theorem notify_iff_spares {s : TrampolineList F} {r : Registry F} (h : Represents s r) (behaviour : Behaviour F)
    (notification : Notification) :
    (Notifies s r behaviour notification ↔ r.Spares behaviour 0 r.entries) ∧
      (¬ r.Spares behaviour 0 r.entries → ∃ f, ∀ᶠ rounds in atTop,
        connectorNotifyTrampolines rounds behaviour notification s = .error (.fault f)) := by
  refine ⟨⟨fun hnotifies => ?_, fun hspares => ?_⟩, fun hspares => h.notify_faults hspares notification⟩
  · by_contra hspares
    obtain ⟨s', hends⟩ := hnotifies
    obtain ⟨f, hfaults⟩ := h.notify_faults hspares notification
    obtain ⟨rounds, hends, hfaults⟩ := (hends.and hfaults).exists
    exact absurd (hends.symm.trans hfaults) (by simp)
  · obtain ⟨s', -, hends⟩ := h.notify hspares notification
    exact ⟨s', hends⟩

end walk

/-- A function that unregisters itself. -/
def selfRemoval {F : Type} : Behaviour F := fun _ f => [.remove (some f)]

def testNotification : Notification := ⟨0, connectorInternalHandshakeUuid, none⟩

/-- The list before anything was added. -/
def noTrampolines {F : Type} : TrampolineList F := ⟨none, fun _ => none, 0, []⟩

theorem Represents.noTrampolines {F : Type} : Represents (noTrampolines (F := F)) .empty :=
  ⟨rfl, by simp [Registry.empty], by simp [Registry.empty], rfl, rfl⟩

/-- One function that leaves the list alone, and one that unregisters itself. -/
theorem notify_iff_spares_single :
    Notifies (noTrampolines.push ()) (Registry.empty.add ()) (fun _ _ => []) testNotification ∧
      ∃ f, ∀ᶠ rounds in atTop,
        connectorNotifyTrampolines rounds selfRemoval testNotification (noTrampolines.push ()) = .error (.fault f) :=
  have hrep : Represents (noTrampolines.push ()) (Registry.empty.add ()) := Represents.noTrampolines.add ()
  have hspares : (Registry.empty.add ()).Spares (fun _ _ => []) 0 (Registry.empty.add ()).entries :=
    ⟨by simp, List.mem_cons_self, trivial⟩
  have hremoves : ¬ (Registry.empty.add ()).Spares selfRemoval 0 (Registry.empty.add ()).entries := fun hspares =>
    absurd hspares.2.1 (by decide)
  ⟨(notify_iff_spares hrep _ testNotification).1.mpr hspares, (notify_iff_spares hrep _ testNotification).2 hremoves⟩

/-- The walk goes on from the node that the function has had freed. -/
theorem self_removal_reads_freed_node :
    (∀ rounds, connectorNotifyTrampolines (rounds + 1) selfRemoval testNotification (noTrampolines.push ()) =
        .error (.fault .useAfterFree)) ∧
      ¬ ∀ (s : TrampolineList Unit) (r : Registry Unit), Represents s r → ∀ behaviour notification,
        Notifies s r behaviour notification := by
  have hfreed : ∀ rounds, connectorNotifyTrampolines (rounds + 1) selfRemoval testNotification
      (noTrampolines.push ()) = .error (.fault .useAfterFree) := fun rounds => rfl
  refine ⟨hfreed, fun hall => ?_⟩
  obtain ⟨s', hends⟩ := hall _ _ (Represents.noTrampolines.add ()) selfRemoval testNotification
  obtain ⟨rounds, hends, hrounds⟩ := (hends.and (eventually_gt_atTop 0)).exists
  obtain ⟨rounds, rfl⟩ := Nat.exists_eq_add_one.mpr hrounds
  exact absurd (hends.symm.trans (hfreed rounds)) (by simp)

/-! ## Sessions -/

section sessions
variable {F : Type} [DecidableEq F]

inductive RegistryCall (F : Type) where
  | op (op : RegistryOp F)
  | notify (notification : Notification)

inductive Reply (F : Type) where
  | code (code : Retcode)
  | notified (code : Retcode) (calls : List (TrampolineCall F))

/-- Functions that leave the list alone. -/
def silent : Behaviour F := fun _ _ => []

def runCalls (rounds : Nat) (s : TrampolineList F) :
    List (RegistryCall F) → Except Stop (List (Reply F) × TrampolineList F)
  | [] => .ok ([], s)
  | .op op :: calls => do
    let (code, s) ← perform rounds s op
    let (replies, s) ← runCalls rounds s calls
    return (.code code :: replies, s)
  | .notify notification :: calls => do
    let (code, called, s) ← connectorNotifyTrampolines rounds silent notification s
    let (replies, s) ← runCalls rounds s calls
    return (.notified code called :: replies, s)

/-- What is seen of the calls between the initialisation and the shutdown, and of the memory. -/
structure Session (F : Type) where
  replies : List (Reply F)
  shutdown : Retcode
  freed : List Nat
  allocated : Nat

/-- All of it, from whatever the pointer to the front was left at. -/
def session (rounds : Nat) (front : Option Nat) (calls : List (RegistryCall F)) : Except Stop (Session F) := do
  let (_, s) := connectorInitTrampolineSubsystem { noTrampolines with front }
  let (replies, s) ← runCalls rounds s calls
  let (shutdown, s) ← connectorShutdownTrampolineSubsystem rounds s
  return ⟨replies, shutdown, s.freed, s.allocated⟩

/-- The same calls of a plain list; an addition without memory faults. -/
def Registry.run (r : Registry F) : List (RegistryCall F) → Except Fault (List (Reply F) × Registry F)
  | [] => .ok ([], r)
  | .op op :: calls =>
    if op.Provided then do
      let (replies, r') ← run (r.after op) calls
      return (.code (r.reply op) :: replies, r')
    else .error .nullDereference
  | .notify notification :: calls => do
    let (replies, r') ← run r calls
    return (.notified .success (r.entries.map (⟨·, notification⟩)) :: replies, r')

/-- In the end what is still registered is released. -/
def Registry.session (calls : List (RegistryCall F)) : Except Fault (Session F) := do
  let (replies, r) ← empty.run calls
  return ⟨replies, .success, r.released ++ r.entries.map Occurrence.node, r.added⟩

theorem notified_silent (r : Registry F) (turn : Nat) {pending : List (Occurrence F)} (h : pending ⊆ r.entries) :
    r.notified silent turn pending = (pending, r) := by
  induction pending generalizing turn with
  | nil => rfl
  | cons o pending ih =>
    obtain ⟨ho, hrest⟩ := List.cons_subset.mp h
    rw [Registry.notified, if_pos ho]
    change (o :: (r.notified silent (turn + 1) pending).1, (r.notified silent (turn + 1) pending).2) = _
    rw [ih (turn + 1) hrest]

theorem spares_silent (r : Registry F) (turn : Nat) {pending : List (Occurrence F)} :
    r.Spares silent turn pending := by
  induction pending generalizing turn with
  | nil => trivial
  | cons o pending ih =>
    unfold Registry.Spares
    split
    · exact ⟨by simp [silent], ‹_›, ih (turn + 1)⟩
    · exact ih turn

/-- The calls are those of the plain list: they end with the same replies, or go wrong in the same way. -/
def RunsAs (s : TrampolineList F) (r : Registry F) (calls : List (RegistryCall F)) : Prop :=
  (∃ replies r' s', r.run calls = .ok (replies, r') ∧ Represents s' r' ∧
      ∀ᶠ rounds in atTop, runCalls rounds s calls = .ok (replies, s')) ∨
    ∃ f, r.run calls = .error f ∧ ∀ᶠ rounds in atTop, runCalls rounds s calls = .error (.fault f)

/-- A call with the same reply on both sides, and the calls after it. -/
theorem RunsAs.cons {s s₁ : TrampolineList F} {r r₁ : Registry F} {call : RegistryCall F} {calls : List (RegistryCall F)}
    {reply : Reply F} (h : RunsAs s₁ r₁ calls)
    (hr : r.run (call :: calls) = r₁.run calls >>= fun x => .ok (reply :: x.1, x.2))
    (hs : ∀ᶠ rounds in atTop,
      runCalls rounds s (call :: calls) = runCalls rounds s₁ calls >>= fun x => .ok (reply :: x.1, x.2)) :
    RunsAs s r (call :: calls) := by
  obtain ⟨replies, r', s', hrest, hrep, hcalls⟩ | ⟨f, hrest, hcalls⟩ := h
  · refine .inl ⟨reply :: replies, r', s', by rw [hr, hrest]; rfl, hrep, ?_⟩
    filter_upwards [hs, hcalls] with rounds hs hcalls
    rw [hs, hcalls]
    rfl
  · refine .inr ⟨f, by rw [hr, hrest]; rfl, ?_⟩
    filter_upwards [hs, hcalls] with rounds hs hcalls
    rw [hs, hcalls]
    rfl

/-- Until the shutdown the calls are those of the plain list. -/
theorem Represents.run {s : TrampolineList F} {r : Registry F} (h : Represents s r) (calls : List (RegistryCall F)) :
    RunsAs s r calls := by
  induction calls generalizing s r with
  | nil => exact .inl ⟨[], r, s, rfl, h, .of_forall fun _ => rfl⟩
  | cons call calls ih =>
    cases call with
    | op op =>
      by_cases hprovided : op.Provided
      · obtain ⟨s₁, hrep₁, hop⟩ := h.perform hprovided
        refine (ih hrep₁).cons (if_pos hprovided) ?_
        filter_upwards [hop] with rounds hop
        rw [runCalls, hop]
        rfl
      · refine .inr ⟨.nullDereference, by rw [Registry.run, if_neg hprovided], .of_forall fun rounds => ?_⟩
        rw [runCalls, perform_not_provided hprovided]
        rfl
    | notify notification =>
      obtain ⟨s₁, hrep₁, hnotify⟩ := h.notify (spares_silent r 0) notification
      rw [notified_silent r 0 (List.Subset.refl _)] at hrep₁ hnotify
      refine (ih hrep₁).cons rfl ?_
      filter_upwards [hnotify] with rounds hnotify
      rw [runCalls, hnotify]
      rfl

/-- Every sequence of calls is that of a plain list with the most recent function in front, and frees every node that
was allocated once. -/
theorem session_eq (front : Option Nat) (calls : List (RegistryCall F)) :
    (∀ᶠ rounds in atTop, session rounds front calls = (Registry.session calls).mapError Stop.fault) ∧
      ∀ e, Registry.session calls = .ok e → e.freed.Perm (List.range e.allocated) := by
  obtain ⟨replies, r, s, hr, hrep, hs⟩ | ⟨f, hr, hs⟩ := Represents.noTrampolines.run calls
  · have hsession : Registry.session calls =
        .ok ⟨replies, .success, r.released ++ r.entries.map Occurrence.node, r.added⟩ := by
      rw [Registry.session, hr]
      rfl
    refine ⟨?_, fun e he => ?_⟩
    · obtain ⟨s', hfreed, hallocated, hshutdown⟩ := hrep.shutdown
      filter_upwards [hs, hshutdown] with rounds hs hshutdown
      rw [hsession, ← hfreed, ← hallocated]
      change (do
        let (replies, s) ← runCalls rounds noTrampolines calls
        _) = _
      rw [hs]
      simp only [bind, Except.bind, hshutdown]
      rfl
    · obtain rfl := Except.ok.inj (hsession.symm.trans he)
      exact r.balance
  · have hsession : Registry.session calls = .error f := by
      rw [Registry.session, hr]
      rfl
    refine ⟨?_, fun e he => absurd (hsession.symm.trans he) (by simp)⟩
    filter_upwards [hs] with rounds hs
    rw [hsession]
    change (do
      let (replies, s) ← runCalls rounds noTrampolines calls
      _) = _
    rw [hs]
    rfl

end sessions

end SubstanceConnector.Callbacks
