import SubstanceConnector.Threads.Locks

/-!
# The threads when the initialization is over

`connector_init_dispatch_subsystem` spins until every dispatch thread has set `initialized`, which it does under `dispatch_lock`
right before it waits; `connector_init_read_threads` waits under `read_main_lock` for each read thread it creates, and the read
thread notifies it while it has `inbound_lock`, before its first wait. So once both are through, a signal or broadcast under the
locks of these pools finds all their threads. This rests on no wait of the initialization ending without a notification, as
`connector_init_read_threads` does not test anything after its wait.

The write threads take no part in this: `connector_init_write_threads` only creates them.
-/

namespace SubstanceConnector.CoreThreads

open LockOrder (Owned Status next)

abbrev At := Status Mutex Condition Pc

/-! ## Where each thread can be meanwhile -/

/-- The thread of `substance_connector_init`: how many dispatch threads it has found asleep, how many read threads it has created,
and by how many it has been notified. -/
inductive InitAt (cfg : BuildConfig) : At → Nat → Nat → Nat → Prop
  | createDispatchers (j : Nat) : InitAt cfg (.running (.main (.createDispatchers j))) 0 0 0
  | spinLock : InitAt cfg (.running (.main .spinLock)) 0 0 0
  | spinTest (j : Nat) (hj : j ≤ cfg.dispatchCount) : InitAt cfg (.running (.main (.spinTest j))) j 0 0
  | spinAgain : InitAt cfg (.running (.main (.spinUnlock false))) 0 0 0
  | spinUnlock : InitAt cfg (.running (.main (.spinUnlock true))) cfg.dispatchCount 0 0
  | createWriters (j : Nat) : InitAt cfg (.running (.main (.createWriters j))) cfg.dispatchCount 0 0
  | readersLock : InitAt cfg (.running (.main .readersLock)) cfg.dispatchCount 0 0
  | createReaders (j : Nat) (hj : j ≤ cfg.inboundCount) :
      InitAt cfg (.running (.main (.createReaders j))) cfg.dispatchCount j j
  | readersWait (j : Nat) (hj : j < cfg.inboundCount) :
      InitAt cfg (.running (.main (.readersWait j))) cfg.dispatchCount (j + 1) j
  | blocked (j : Nat) (hj : j < cfg.inboundCount) :
      InitAt cfg (.blocked .readMain .readMain (.main (.createReaders (j + 1)))) cfg.dispatchCount (j + 1) j
  | woken (j : Nat) (hj : j < cfg.inboundCount) :
      InitAt cfg (.woken .readMain (.main (.createReaders (j + 1)))) cfg.dispatchCount (j + 1) (j + 1)
  | readersUnlock : InitAt cfg (.running (.main .readersUnlock)) cfg.dispatchCount cfg.inboundCount cfg.inboundCount
  | finish : InitAt cfg (.running (.main .finish)) cfg.dispatchCount cfg.inboundCount cfg.inboundCount

def dispatcherAsleep : At := .blocked .dispatch .dispatch (.dispatch .wokenUnlock)

/-- A dispatch thread, and its `initialized`. -/
inductive DispatcherAt : Bool → At → Prop
  | unborn : DispatcherAt false (.running (.unborn .dispatcher))
  | loopTest : DispatcherAt false (.running (.dispatch .loopTest))
  | acquire : DispatcherAt false (.running (.enter .acquireFirst))
  | dequeue : DispatcherAt false (.running (.inside .acquireFirst [.dequeue .inbound] true))
  | dequeued : DispatcherAt false (.running (.inside .acquireFirst [] false))
  | lock : DispatcherAt false (.running (.dispatch (.lock false)))
  | waitTest : DispatcherAt false (.running (.dispatch (.waitTest false)))
  | wait : DispatcherAt true (.running (.dispatch .wait))
  | asleep : DispatcherAt true dispatcherAsleep

inductive WriterAt : At → Prop
  | unborn : WriterAt (.running (.unborn .writer))
  | loopTest : WriterAt (.running (.write .loopTest))
  | lock : WriterAt (.running (.write .lock))
  | waitTest : WriterAt (.running (.write (.waitTest false)))
  | asleep : WriterAt (.blocked .outbound .outbound (.write .wokenTest))

def readerAsleep : At := .blocked .inbound .inbound (.read .wokenTest 0)

/-- A read thread, and whether it has notified the initialization. -/
inductive ReaderAt : Bool → At → Prop
  | unborn : ReaderAt false (.running (.unborn .reader))
  | loopTest : ReaderAt false (.running (.read .loopTest 0))
  | lock : ReaderAt false (.running (.read .lock 0))
  | notify : ReaderAt false (.running (.enter (.notify 0)))
  | broadcast : ReaderAt false (.running (.inside (.notify 0) [.broadcast .readMain] true))
  | notified : ReaderAt true (.running (.inside (.notify 0) [] true))
  | waitTest : ReaderAt true (.running (.read .waitTest 0))
  | wait : ReaderAt true (.running (.read .wait 0))
  | asleep : ReaderAt true readerAsleep

/-- Nothing is queued, no thread is to stop, and the API does nothing yet. -/
structure Quiet (g : Shared) : Prop where
  ready : g.ready = false
  dispatchCode : g.dispatchCode = false
  writeFlag : g.writeFlag = false
  readFlag : g.readFlag = false
  inbound : g.inbound = 0

section starting
variable {cfg : BuildConfig} {signalMain : Bool} {users : Nat} {s s' : State cfg users}

/-- A state of the initialization. -/
structure Starting (s : State cfg users) (asleep created notified : Nat) : Prop where
  quiet : Quiet s.shared
  main : InitAt cfg (s.threads .main) asleep created notified
  dispatcher : ∀ i : Fin cfg.dispatchCount, DispatcherAt (s.shared.initialized i) (s.threads (.dispatcher i))
  found : ∀ i : Fin cfg.dispatchCount, i.val < asleep → s.threads (.dispatcher i) = dispatcherAsleep
  writer : ∀ i, WriterAt (s.threads (.writer i))
  reader : ∀ i : Fin cfg.inboundCount, ReaderAt (decide (i.val < notified)) (s.threads (.reader i))
  unborn : ∀ i : Fin cfg.inboundCount, created ≤ i.val → s.threads (.reader i) = .running (.unborn .reader)
  created : s.shared.created .reader = created
  user : ∀ i, s.threads (.user i) = .running (.application .user)

theorem starting_start : Starting (start cfg users) 0 0 0 where
  quiet := ⟨rfl, rfl, rfl, rfl, rfl⟩
  main := .createDispatchers 0
  dispatcher _ := .unborn
  found _ h := absurd h (Nat.not_lt_zero _)
  writer _ := .unborn
  reader _ := .unborn
  unborn _ _ := rfl
  created := rfl
  user _ := rfl

/-! ## A step of each thread -/

section steps
variable {asleep created notified : Nat}

/-- A step that changes one dispatch thread only, which is not asleep yet. -/
theorem Starting.dispatcher_put (hs : Starting s asleep created notified) {i : Fin cfg.dispatchCount} {x : At}
    {holder : Mutex → Option (Name cfg users)} {shared : Shared} (hquiet : Quiet shared)
    (hcreated : shared.created = s.shared.created)
    (hothers : ∀ j : Fin cfg.dispatchCount, j ≠ i → shared.initialized j = s.shared.initialized j)
    (hawake : s.threads (.dispatcher i) ≠ dispatcherAsleep) (hx : DispatcherAt (shared.initialized i) x) :
    Starting ⟨Function.update s.threads (.dispatcher i) x, holder, shared⟩ asleep created notified where
  quiet := hquiet
  main := hs.main
  dispatcher j := by
    dsimp only
    by_cases hj : j = i
    · subst hj
      rwa [Function.update_self]
    · rw [Function.update_of_ne (by simpa using hj), hothers j hj]
      exact hs.dispatcher j
  found j hlt := by
    dsimp only
    by_cases hj : j = i
    · subst hj
      exact absurd (hs.found j hlt) hawake
    · rw [Function.update_of_ne (by simpa using hj)]
      exact hs.found j hlt
  writer := hs.writer
  reader := hs.reader
  unborn := hs.unborn
  created := by
    dsimp only
    rw [hcreated]
    exact hs.created
  user := hs.user

theorem starting_dispatcher (hs : Starting s asleep created notified) {i : Fin cfg.dispatchCount} {answer : Answer}
    {chosen : Option (Name cfg users)} (h : next (routine cfg signalMain) s (.step (.dispatcher i) answer chosen) = some s') :
    Starting s' asleep created notified := by
  have hd := hs.dispatcher i
  generalize hinit : s.shared.initialized i = initialized at hd
  generalize hat : s.threads (.dispatcher i) = x at hd
  have hput : s.threads (.dispatcher i) ≠ dispatcherAsleep → ∀ {x : At} {holder : Mutex → Option (Name cfg users)},
      DispatcherAt initialized x →
      Starting ⟨Function.update s.threads (.dispatcher i) x, holder, s.shared⟩ asleep created notified :=
    fun hawake _ _ hpc => hs.dispatcher_put hs.quiet rfl (fun _ _ => rfl) hawake (hinit ▸ hpc)
  cases hd with
  | unborn =>
    obtain ⟨-, rfl⟩ := LockOrder.next_await hat rfl h
    exact hput (by rw [hat]; exact nofun) .loopTest
  | loopTest =>
    obtain rfl := LockOrder.next_act hat rfl h
    rw [hs.quiet.dispatchCode]
    exact hput (by rw [hat]; exact nofun) .acquire
  | acquire =>
    obtain ⟨-, rfl⟩ := LockOrder.next_lock hat rfl h
    exact hput (by rw [hat]; exact nofun) .dequeue
  | dequeue =>
    obtain rfl := LockOrder.next_act hat rfl h
    have hnone : s.shared.length .inbound = 0 := hs.quiet.inbound
    rw [hnone]
    refine hs.dispatcher_put ⟨hs.quiet.ready, hs.quiet.dispatchCode, hs.quiet.writeFlag, hs.quiet.readFlag, rfl⟩ rfl
      (fun _ _ => rfl) (by rw [hat]; exact nofun) ?_
    rw [show (s.shared.setLength 0 .inbound).initialized i = false from hinit]
    exact .dequeued
  | dequeued =>
    obtain rfl := LockOrder.next_unlock hat rfl h
    exact hput (by rw [hat]; exact nofun) .lock
  | lock =>
    obtain ⟨-, rfl⟩ := LockOrder.next_lock hat rfl h
    exact hput (by rw [hat]; exact nofun) .waitTest
  | waitTest =>
    obtain rfl := LockOrder.next_act hat rfl h
    have hwait : (!false && !s.shared.dispatchCode) = true := by
      rw [hs.quiet.dispatchCode]
      rfl
    rw [if_pos hwait]
    refine hs.dispatcher_put ⟨hs.quiet.ready, hs.quiet.dispatchCode, hs.quiet.writeFlag, hs.quiet.readFlag,
      hs.quiet.inbound⟩ rfl (fun j hj => ?_) (by rw [hat]; exact nofun) ?_
    · exact Function.update_of_ne (fun heq => hj (Fin.ext heq)) _ _
    · show DispatcherAt (Function.update s.shared.initialized i.val true i.val) _
      rw [Function.update_self]
      exact .wait
  | wait =>
    obtain rfl := LockOrder.next_wait hat rfl h
    exact hput (by rw [hat]; exact nofun) .asleep
  | asleep =>
    rw [LockOrder.next_blocked hat] at h
    cases h

/-- A step that changes one write thread only. -/
theorem Starting.writer_put (hs : Starting s asleep created notified) {i : Fin cfg.outboundCount} {x : At}
    {holder : Mutex → Option (Name cfg users)} (hx : WriterAt x) :
    Starting ⟨Function.update s.threads (.writer i) x, holder, s.shared⟩ asleep created notified where
  quiet := hs.quiet
  main := hs.main
  dispatcher := hs.dispatcher
  found := hs.found
  writer j := by
    dsimp only
    by_cases hj : j = i
    · subst hj
      rwa [Function.update_self]
    · rw [Function.update_of_ne (by simpa using hj)]
      exact hs.writer j
  reader := hs.reader
  unborn := hs.unborn
  created := hs.created
  user := hs.user

theorem starting_writer (hs : Starting s asleep created notified) {i : Fin cfg.outboundCount} {answer : Answer}
    {chosen : Option (Name cfg users)} (h : next (routine cfg signalMain) s (.step (.writer i) answer chosen) = some s') :
    Starting s' asleep created notified := by
  have hw := hs.writer i
  generalize hat : s.threads (.writer i) = x at hw
  cases hw with
  | unborn =>
    obtain ⟨-, rfl⟩ := LockOrder.next_await hat rfl h
    exact hs.writer_put .loopTest
  | loopTest =>
    obtain rfl := LockOrder.next_act hat rfl h
    rw [hs.quiet.writeFlag]
    exact hs.writer_put .lock
  | lock =>
    obtain ⟨-, rfl⟩ := LockOrder.next_lock hat rfl h
    exact hs.writer_put .waitTest
  | waitTest =>
    obtain rfl := LockOrder.next_wait hat rfl h
    exact hs.writer_put .asleep
  | asleep =>
    rw [LockOrder.next_blocked hat] at h
    cases h

/-- A step that changes one read thread only, from before the notification or after it. -/
theorem Starting.reader_put (hs : Starting s asleep created notified) {i : Fin cfg.inboundCount} {x : At}
    {holder : Mutex → Option (Name cfg users)} (hborn : i.val < created) (hx : ReaderAt (decide (i.val < notified)) x) :
    Starting ⟨Function.update s.threads (.reader i) x, holder, s.shared⟩ asleep created notified where
  quiet := hs.quiet
  main := hs.main
  dispatcher := hs.dispatcher
  found := hs.found
  writer := hs.writer
  reader j := by
    dsimp only
    by_cases hj : j = i
    · subst hj
      rwa [Function.update_self]
    · rw [Function.update_of_ne (by simpa using hj)]
      exact hs.reader j
  unborn j hle := by
    dsimp only
    have hj : j ≠ i := by
      rintro rfl
      omega
    rw [Function.update_of_ne (by simpa using hj)]
    exact hs.unborn j hle
  created := hs.created
  user := hs.user

theorem Starting.created_le (hs : Starting s asleep created notified) : created ≤ notified + 1 := by
  have hmain := hs.main
  generalize s.threads .main = x at hmain
  cases hmain <;> omega

/-! Only the thread of `substance_connector_init` waits on `read_main_condition`. -/

theorem DispatcherAt.wake {b : Bool} {x : At} (h : DispatcherAt b x) : x.wake .readMain = x := by
  cases h <;> rfl

theorem WriterAt.wake {x : At} (h : WriterAt x) : x.wake .readMain = x := by
  cases h <;> rfl

theorem ReaderAt.wake {b : Bool} {x : At} (h : ReaderAt b x) : x.wake .readMain = x := by
  cases h <;> rfl

/-- A read thread notifies: it is the one that the initialization has created last and is blocked for. -/
theorem Starting.notify (howned : Owned Pc.held s) (hs : Starting s asleep created notified) {i : Fin cfg.inboundCount}
    (hat : s.threads (.reader i) = .running (.inside (.notify 0) [.broadcast .readMain] true))
    (hlt : i.val < created) (hnot : ¬ i.val < notified) :
    Starting ⟨Function.update (fun name => (s.threads name).wake .readMain) (.reader i)
      (.running (.inside (.notify 0) [] true)), s.holder, s.shared⟩ asleep created (notified + 1) := by
  have hle := hs.created_le
  have hlast : i.val = notified := by omega
  have hreader : s.holder .readMain = some (.reader i) := by
    have hown := howned (.reader i)
    rw [hat] at hown
    exact (hown .readMain).mp List.mem_cons_self
  have hmain := hs.main
  generalize hinit : s.threads .main = y at hmain
  have hwoken : InitAt cfg (y.wake .readMain) asleep created (notified + 1) := by
    cases hmain with
    | readersWait j hj =>
      have hown := howned .main
      rw [hinit] at hown
      cases hreader.symm.trans ((hown .readMain).mp (List.mem_singleton_self _))
    | blocked j hj => exact .woken _ hj
    | _ => omega
  refine ⟨hs.quiet, ?_, fun j => ?_, fun j hj => ?_, fun j => ?_, fun j => ?_, fun j hj => ?_, hs.created, fun j => ?_⟩
  · show InitAt cfg ((s.threads .main).wake .readMain) asleep created (notified + 1)
    rwa [hinit]
  · show DispatcherAt _ ((s.threads (.dispatcher j)).wake .readMain)
    rw [(hs.dispatcher j).wake]
    exact hs.dispatcher j
  · show (s.threads (.dispatcher j)).wake .readMain = _
    rw [(hs.dispatcher j).wake]
    exact hs.found j hj
  · show WriterAt ((s.threads (.writer j)).wake .readMain)
    rw [(hs.writer j).wake]
    exact hs.writer j
  · dsimp only
    by_cases hj : j = i
    · subst hj
      rw [Function.update_self, decide_eq_true (show j.val < notified + 1 by omega)]
      exact .notified
    · have hne : j.val ≠ i.val := fun heq => hj (Fin.ext heq)
      have hsame : decide (j.val < notified + 1) = decide (j.val < notified) := decide_eq_decide.mpr (by omega)
      rw [Function.update_of_ne (by simpa using hj), (hs.reader j).wake, hsame]
      exact hs.reader j
  · dsimp only
    have hne : j ≠ i := by
      rintro rfl
      omega
    rw [Function.update_of_ne (by simpa using hne), (hs.reader j).wake]
    exact hs.unborn j hj
  · show (s.threads (.user j)).wake .readMain = _
    rw [hs.user j]
    rfl

theorem starting_reader (howned : Owned Pc.held s) (hs : Starting s asleep created notified) {i : Fin cfg.inboundCount}
    {answer : Answer} {chosen : Option (Name cfg users)}
    (h : next (routine cfg signalMain) s (.step (.reader i) answer chosen) = some s') :
    ∃ notified', Starting s' asleep created notified' := by
  have hr := hs.reader i
  have hborn : s.threads (.reader i) ≠ .running (.unborn .reader) → i.val < created :=
    fun hne => Nat.lt_of_not_le fun hle => hne (hs.unborn i hle)
  generalize hnotified : decide (i.val < notified) = b at hr
  generalize hat : s.threads (.reader i) = x at hr
  have hput : i.val < created → ∀ {x : At} {holder : Mutex → Option (Name cfg users)}, ReaderAt b x →
      ∃ notified', Starting ⟨Function.update s.threads (.reader i) x, holder, s.shared⟩ asleep created notified' :=
    fun hlt _ _ hx => ⟨notified, hs.reader_put hlt (hnotified ▸ hx)⟩
  rw [hat] at hborn
  cases hr with
  | unborn =>
    obtain ⟨hready, rfl⟩ := LockOrder.next_await hat rfl h
    have hlt : i.val < created := by
      rw [← hs.created]
      exact of_decide_eq_true hready
    exact hput hlt .loopTest
  | loopTest =>
    obtain rfl := LockOrder.next_act hat rfl h
    rw [hs.quiet.readFlag]
    exact hput (hborn nofun) .lock
  | lock =>
    obtain ⟨-, rfl⟩ := LockOrder.next_lock hat rfl h
    exact hput (hborn nofun) .notify
  | notify =>
    obtain ⟨-, rfl⟩ := LockOrder.next_lock hat rfl h
    exact hput (hborn nofun) .broadcast
  | broadcast =>
    obtain rfl := LockOrder.next_broadcast hat rfl h
    exact ⟨notified + 1, hs.notify howned hat (hborn nofun) (of_decide_eq_false hnotified)⟩
  | notified =>
    obtain rfl := LockOrder.next_unlock hat rfl h
    exact hput (hborn nofun) .waitTest
  | waitTest =>
    obtain rfl := LockOrder.next_act hat rfl h
    rw [if_pos ⟨rfl, hs.quiet.readFlag⟩]
    exact hput (hborn nofun) .wait
  | wait =>
    obtain rfl := LockOrder.next_wait hat rfl h
    exact hput (hborn nofun) .asleep
  | asleep =>
    rw [LockOrder.next_blocked hat] at h
    cases h

/-- A step of the initialization itself, which may find more threads asleep or create one. -/
theorem Starting.main_put (hs : Starting s asleep created notified) {x : At} {holder : Mutex → Option (Name cfg users)}
    {shared : Shared} {asleep' created' : Nat} (hquiet : Quiet shared) (hinit : shared.initialized = s.shared.initialized)
    (hx : InitAt cfg x asleep' created' notified) (hcreated : shared.created .reader = created') (hle : created ≤ created')
    (hfound : ∀ i : Fin cfg.dispatchCount, i.val < asleep' → s.threads (.dispatcher i) = dispatcherAsleep) :
    Starting ⟨Function.update s.threads .main x, holder, shared⟩ asleep' created' notified where
  quiet := hquiet
  main := by
    dsimp only
    rwa [Function.update_self]
  dispatcher j := by
    dsimp only
    rw [hinit]
    exact hs.dispatcher j
  found := hfound
  writer := hs.writer
  reader := hs.reader
  unborn j hj := hs.unborn j (hle.trans hj)
  created := hcreated
  user := hs.user

/-- Under `dispatch_lock`, a dispatch thread that has set `initialized` is asleep. -/
theorem Starting.asleep_of_initialized (howned : Owned Pc.held s) (hs : Starting s asleep created notified)
    (hmain : s.holder .dispatch = some .main) {i : Fin cfg.dispatchCount} (hinit : s.shared.initialized i = true) :
    s.threads (.dispatcher i) = dispatcherAsleep := by
  have hd := hs.dispatcher i
  rw [hinit] at hd
  generalize hat : s.threads (.dispatcher i) = x at hd
  cases hd with
  | wait =>
    have hown := howned (.dispatcher i)
    rw [hat] at hown
    cases hmain.symm.trans ((hown .dispatch).mp (List.mem_singleton_self _))
  | asleep => rfl

theorem starting_main (howned : Owned Pc.held s) (hs : Starting s asleep created notified)
    (hmore : s.threads .main ≠ .running (.main .finish)) {answer : Answer} {chosen : Option (Name cfg users)}
    (h : next (routine cfg signalMain) s (.step .main answer chosen) = some s') :
    ∃ asleep' created', Starting s' asleep' created' notified := by
  have hmain := hs.main
  generalize hat : s.threads .main = x at hmain
  have hput : ∀ {x : At} {holder : Mutex → Option (Name cfg users)}, InitAt cfg x asleep created notified →
      ∃ asleep' created', Starting ⟨Function.update s.threads .main x, holder, s.shared⟩ asleep' created' notified :=
    fun hx => ⟨_, _, hs.main_put hs.quiet rfl hx hs.created le_rfl hs.found⟩
  have hquiet (k : Kind) (n : Nat) : Quiet (s.shared.create k n) :=
    ⟨hs.quiet.ready, hs.quiet.dispatchCode, hs.quiet.writeFlag, hs.quiet.readFlag, hs.quiet.inbound⟩
  have hother {k : Kind} (n : Nat) (hk : .reader ≠ k) : (s.shared.create k n).created .reader = created :=
    (Function.update_of_ne hk _ _).trans hs.created
  have hcreate (n : Nat) : (s.shared.create .reader n).created .reader = n := by
    show Function.update s.shared.created .reader n .reader = n
    exact Function.update_self _ _ _
  cases hmain with
  | createDispatchers j =>
    obtain rfl := LockOrder.next_act hat rfl h
    by_cases hj : j < cfg.dispatchCount
    · rw [if_pos hj]
      exact ⟨_, _, hs.main_put (hquiet _ _) rfl (.createDispatchers (j + 1)) (hother _ (by decide)) le_rfl hs.found⟩
    · rw [if_neg hj]
      exact hput .spinLock
  | spinLock =>
    obtain ⟨-, rfl⟩ := LockOrder.next_lock hat rfl h
    exact hput (.spinTest 0 (Nat.zero_le _))
  | spinTest j hj =>
    obtain rfl := LockOrder.next_act hat rfl h
    have hheld : s.holder .dispatch = some .main := by
      have hown := howned .main
      rw [hat] at hown
      exact (hown .dispatch).mp (List.mem_singleton_self _)
    by_cases hlt : asleep < cfg.dispatchCount
    · by_cases hinit : s.shared.initialized asleep = true
      · rw [if_pos hlt, if_pos hinit]
        refine ⟨_, _, hs.main_put hs.quiet rfl (.spinTest (asleep + 1) hlt) hs.created le_rfl fun i hi => ?_⟩
        by_cases hsame : i.val = asleep
        · exact hs.asleep_of_initialized howned hheld (hsame ▸ hinit)
        · exact hs.found i (by omega)
      · rw [if_pos hlt, if_neg hinit]
        exact ⟨_, _, hs.main_put hs.quiet rfl .spinAgain hs.created le_rfl fun i hi => absurd hi (Nat.not_lt_zero _)⟩
    · rw [if_neg hlt]
      exact ⟨_, _, hs.main_put hs.quiet rfl .spinUnlock hs.created le_rfl fun i _ => hs.found i (by omega)⟩
  | spinAgain =>
    obtain rfl := LockOrder.next_unlock hat rfl h
    exact hput .spinLock
  | spinUnlock =>
    obtain rfl := LockOrder.next_unlock hat rfl h
    exact hput (.createWriters 0)
  | createWriters j =>
    obtain rfl := LockOrder.next_act hat rfl h
    by_cases hj : j < cfg.outboundCount
    · rw [if_pos hj]
      exact ⟨_, _, hs.main_put (hquiet _ _) rfl (.createWriters (j + 1)) (hother _ (by decide)) le_rfl hs.found⟩
    · rw [if_neg hj]
      exact hput .readersLock
  | readersLock =>
    obtain ⟨-, rfl⟩ := LockOrder.next_lock hat rfl h
    exact hput (.createReaders 0 (Nat.zero_le _))
  | createReaders j hj =>
    obtain rfl := LockOrder.next_act hat rfl h
    by_cases hlt : created < cfg.inboundCount
    · rw [if_pos hlt]
      exact ⟨_, _, hs.main_put (hquiet _ _) rfl (.readersWait created hlt) (hcreate _) (Nat.le_succ _) hs.found⟩
    · rw [if_neg hlt]
      obtain rfl : created = cfg.inboundCount := by omega
      exact hput .readersUnlock
  | readersWait j hj =>
    obtain rfl := LockOrder.next_wait hat rfl h
    exact hput (.blocked _ hj)
  | blocked j hj =>
    rw [LockOrder.next_blocked hat] at h
    cases h
  | woken j hj =>
    obtain ⟨-, rfl⟩ := LockOrder.next_woken hat h
    exact hput (.createReaders _ hj)
  | readersUnlock =>
    obtain rfl := LockOrder.next_unlock hat rfl h
    exact hput .finish
  | finish => exact absurd hat hmore

/-- The calls of the API return before they do anything. -/
theorem starting_user (hs : Starting s asleep created notified) {i : Fin users} {answer : Answer}
    {chosen : Option (Name cfg users)} (h : next (routine cfg signalMain) s (.step (.user i) answer chosen) = some s') :
    s' = s := by
  have hat := hs.user i
  obtain rfl := LockOrder.next_act hat rfl h
  have hself : Function.update s.threads (.user i) (.running (.application .user)) = s.threads := by
    rw [← hat]
    exact Function.update_eq_self _ _
  have hnot : ¬ s.shared.ready = true := by
    rw [hs.quiet.ready]
    exact Bool.false_ne_true
  have hsame : ⟨Function.update s.threads (.user i) (.running (.application .user)), s.holder, s.shared⟩ = s := by
    rw [hself]
  cases answer with
  | write | connect =>
    dsimp only
    rw [if_neg hnot]
    exact hsame
  | await =>
    dsimp only
    rw [if_neg (fun h => Host.noConfusion h.1)]
    exact hsame
  | shutdown =>
    dsimp only
    rw [if_neg (fun h => Host.noConfusion h.1)]
    exact hsame
  | _ => exact hsame

end steps

/-! ## The whole initialization -/

/-- No wait ends without a notification, and `substance_connector_init` does not set the module state yet; the other threads
go on meanwhile. -/
def Initializing (s : State cfg users) : LockOrder.Label (Name cfg users) Answer → Prop
  | .step name _ _ => name = .main → s.threads .main ≠ .running (.main .finish)
  | .spurious _ => False

instance (s : State cfg users) (a : LockOrder.Label (Name cfg users) Answer) : Decidable (Initializing s a) :=
  match a with
  | .step _ _ _ => inferInstanceAs (Decidable (_ = _ → _ ≠ _))
  | .spurious _ => inferInstanceAs (Decidable False)

theorem starting_of_reachable (h : ((system cfg signalMain users).guarded Initializing).Reachable s) :
    ∃ asleep created notified, Starting s asleep created notified := by
  induction h with
  | init h =>
    subst h
    exact ⟨0, 0, 0, starting_start⟩
  | @step s s' a hreach h ih =>
    obtain ⟨asleep, created, notified, hs⟩ := ih
    have howned := owned_of_reachable hreach.of_guarded
    obtain ⟨hguard, h⟩ := h
    cases a with
    | spurious name => exact hguard.elim
    | step name answer chosen =>
      cases name with
      | main =>
        obtain ⟨asleep', created', hs'⟩ := starting_main howned hs (hguard rfl) h
        exact ⟨asleep', created', notified, hs'⟩
      | dispatcher i => exact ⟨asleep, created, notified, starting_dispatcher hs h⟩
      | writer i => exact ⟨asleep, created, notified, starting_writer hs h⟩
      | reader i =>
        obtain ⟨notified', hs'⟩ := starting_reader howned hs h
        exact ⟨asleep, created, notified', hs'⟩
      | user i => exact ⟨asleep, created, notified, starting_user hs h ▸ hs⟩

/-- A read thread that has notified is waiting, or has `inbound_lock` until it waits. -/
theorem asleep_or_locked (howned : Owned Pc.held s) {i : Fin cfg.inboundCount}
    (h : ReaderAt true (s.threads (.reader i))) :
    s.threads (.reader i) = readerAsleep ∨ s.holder .inbound = some (.reader i) := by
  have hown := howned (.reader i)
  generalize s.threads (.reader i) = x at h hown
  cases h with
  | asleep => exact .inl rfl
  | notified => exact .inr ((hown .inbound).mp (List.mem_cons_of_mem _ (List.mem_singleton_self _)))
  | waitTest | wait => exact .inr ((hown .inbound).mp (List.mem_singleton_self _))

/-- Whatever the order of the threads: when the initialization is over, every dispatch thread waits on `dispatch_condition`, and
every read thread on `inbound_condition` unless it is about to and has `inbound_lock`. Until then, while
`connector_init_read_threads` is blocked for a read thread, this thread has not notified it yet. -/
theorem pools_started (h : ((system cfg signalMain users).guarded Initializing).Reachable s) :
    (s.threads .main = .running (.main .finish) →
      (∀ i, s.threads (.dispatcher i) = dispatcherAsleep) ∧
      ∀ i, s.threads (.reader i) = readerAsleep ∨ s.holder .inbound = some (.reader i)) ∧
    ∀ i : Fin cfg.inboundCount, s.threads .main = .blocked .readMain .readMain (.main (.createReaders (i + 1))) →
      ReaderAt false (s.threads (.reader i)) := by
  obtain ⟨asleep, created, notified, hs⟩ := starting_of_reachable h
  have howned := owned_of_reachable h.of_guarded
  have hmain := hs.main
  refine ⟨fun hat => ?_, fun i hat => ?_⟩
  · rw [hat] at hmain
    cases hmain with
    | finish =>
      refine ⟨fun i => hs.found i i.isLt, fun i => asleep_or_locked howned ?_⟩
      have hr := hs.reader i
      rwa [decide_eq_true i.isLt] at hr
  · rw [hat] at hmain
    cases hmain with
    | blocked j hj =>
      have hr := hs.reader i
      rwa [decide_eq_false (Nat.lt_irrefl _)] at hr

end starting

def startupRun {users : Nat} : List (LockOrder.Label (Name .default users) Answer) :=
  let turns (n : Nat) (name : Name .default users) := List.replicate n (LockOrder.Label.step name Answer.nothing none)
  turns 3 .main ++ turns 8 (.dispatcher ⟨0, Nat.zero_lt_two⟩) ++ turns 8 (.dispatcher ⟨1, Nat.one_lt_two⟩) ++
    turns 11 .main ++ turns 8 (.reader ⟨0, Nat.zero_lt_two⟩) ++ turns 3 .main ++
    turns 8 (.reader ⟨1, Nat.one_lt_two⟩) ++ turns 3 .main

theorem default_pools_started :
    ∃ s : State .default 0, s.threads .main = .running (.main .finish) ∧
      (∀ i, s.threads (.dispatcher i) = dispatcherAsleep) ∧
      ∀ i, s.threads (.reader i) = readerAsleep ∨ s.holder .inbound = some (.reader i) := by
  have hrun : (StepSystem.runList (StepSystem.gate Initializing (next (routine .default false))) (start .default 0)
      startupRun).map (fun s => s.threads .main) = some (.running (.main .finish)) := by
    decide +kernel
  obtain ⟨s, hs, hat⟩ := Option.map_eq_some_iff.mp hrun
  have hreach : ((system .default false 0).guarded Initializing).Reachable s :=
    StepSystem.guarded_reachable_runList (.init rfl) hs
  exact ⟨s, hat, (pools_started hreach).1 hat⟩

end SubstanceConnector.CoreThreads
