import SubstanceConnector.Library.StepSystem
import SubstanceConnector.Context.Cases
import SubstanceConnector.Queue.Sequential

/-!
# Runs of the context operations

The context table and the read threads under any sequence of calls, each call one step with any
outcome of the system calls it makes. A call that leaves the defined behaviour of C has no successor.
The state also counts the pushes made on the two queues.

`Evolves` is the shape all these steps share: whatever the operation, the table changes by single
pops, pushes and writes to slots.
-/

namespace SubstanceConnector

/-- The table changes by pops, pushes and writes to slots. -/
inductive Evolves : ContextTable → ContextTable → Prop
  | refl (t : ContextTable) : Evolves t t
  | popFree {t u : ContextTable} {v : UInt32} {r : Retcode × UInt32 × QueuePtr}
      (h : connectorUintQueuePop t.freeContexts v = .ok r) (rest : Evolves { t with freeContexts := r.2.2 } u) :
      Evolves t u
  | pushFree {t u : ContextTable} {v : UInt32} {r : Retcode × QueuePtr}
      (h : connectorUintQueuePush t.freeContexts v = .ok r) (rest : Evolves { t with freeContexts := r.2 } u) :
      Evolves t u
  | popAvailable {t u : ContextTable} {v : UInt32} {r : Retcode × UInt32 × QueuePtr}
      (h : connectorUintQueuePop t.connectionQueue v = .ok r)
      (rest : Evolves { t with connectionQueue := r.2.2 } u) : Evolves t u
  | pushAvailable {t u : ContextTable} {v : UInt32} {r : Retcode × QueuePtr}
      (h : connectorUintQueuePush t.connectionQueue v = .ok r) (rest : Evolves { t with connectionQueue := r.2 } u) :
      Evolves t u
  | setSlot {t u : ContextTable} (context : UInt32) (c : ConnectorContext) (rest : Evolves (t.setSlot context c) u) :
      Evolves t u

namespace Evolves

theorem trans {t u v : ContextTable} (h : Evolves t u) (h' : Evolves u v) : Evolves t v := by
  induction h with
  | refl t => exact h'
  | popFree h _ ih => exact .popFree h (ih h')
  | pushFree h _ ih => exact .pushFree h (ih h')
  | popAvailable h _ ih => exact .popAvailable h (ih h')
  | pushAvailable h _ ih => exact .pushAvailable h (ih h')
  | setSlot context c _ ih => exact .setSlot context c (ih h')

/-- A property of the free queue that pops and pushes keep is kept. -/
theorem freeContexts {P : QueuePtr → Prop}
    (hpop : ∀ p v r, P p → connectorUintQueuePop p v = .ok r → P r.2.2)
    (hpush : ∀ p v r, P p → connectorUintQueuePush p v = .ok r → P r.2) {t u : ContextTable} (h : Evolves t u)
    (ht : P t.freeContexts) : P u.freeContexts := by
  induction h with
  | refl t => exact ht
  | popFree h _ ih => exact ih (hpop _ _ _ ht h)
  | pushFree h _ ih => exact ih (hpush _ _ _ ht h)
  | popAvailable _ _ ih => exact ih ht
  | pushAvailable _ _ ih => exact ih ht
  | setSlot _ _ _ ih => exact ih ht

theorem of_popFree {t : ContextTable} {v : UInt32} {r : Retcode × UInt32 × ContextTable} (h : t.popFree v = .ok r) :
    Evolves t r.2.2 := by
  obtain ⟨p, hp, hr⟩ := bind_eq_ok.mp h
  obtain rfl := Except.ok.inj hr
  exact .popFree hp (.refl _)

theorem of_pushFree {t : ContextTable} {v : UInt32} {r : Retcode × ContextTable} (h : t.pushFree v = .ok r) :
    Evolves t r.2 := by
  obtain ⟨p, hp, hr⟩ := bind_eq_ok.mp h
  obtain rfl := Except.ok.inj hr
  exact .pushFree hp (.refl _)

theorem of_appendAvailable {t u : ContextTable} {v : UInt32} (h : appendAvailable t v = .ok u) : Evolves t u := by
  obtain ⟨p, hp, hu⟩ := bind_eq_ok.mp h
  obtain rfl := Except.ok.inj hu
  unfold connectorAvailableQueuePush at hp
  by_cases hnull : t.connectionQueue = .null
  · rw [if_pos hnull] at hp
    obtain rfl := Except.ok.inj hp
    exact .refl _
  · rw [if_neg hnull] at hp
    obtain ⟨r, hr, hp⟩ := bind_eq_ok.mp hp
    obtain rfl := Except.ok.inj hp
    exact .pushAvailable hr (.refl _)

theorem of_availablePopLoop {t : ContextTable} {n : Nat} {r : Option UInt32 × ContextTable}
    (h : availablePopLoop t n = .ok r) : Evolves t r.2 := by
  induction n generalizing t with
  | zero =>
    obtain rfl := Except.ok.inj h
    exact .refl _
  | succ n ih =>
    obtain ⟨p, hp, h⟩ := bind_eq_ok.mp h
    dsimp only at h
    by_cases hsuccess : p.1 = .success
    · rw [if_pos hsuccess] at h
      obtain rfl := Except.ok.inj h
      exact .popAvailable hp (.refl _)
    · rw [if_neg hsuccess] at h
      exact .popAvailable hp (ih h)

theorem of_availableQueuePop {t : ContextTable} {r : Option UInt32 × ContextTable}
    (h : connectorAvailableQueuePop t = .ok r) : Evolves t r.2 := by
  unfold connectorAvailableQueuePop at h
  by_cases hnull : t.connectionQueue = .null
  · rw [if_pos hnull] at h
    obtain rfl := Except.ok.inj h
    exact .refl _
  · rw [if_neg hnull] at h
    exact of_availablePopLoop h

section operations
variable {cfg : BuildConfig} {t : ContextTable}

theorem of_open {o : OpenOutcome} {desc : Option ContextDesc} {identifier : Option UInt32}
    {r : Retcode × Option UInt32 × ContextTable} (h : connectorContextOpen cfg o t desc identifier = .ok r) :
    Evolves t r.2.2 := by
  cases contextOpen_cases h with
  | invalid => exact .refl _
  | exhausted hpop => exact of_popFree hpop
  | opened hpop hrange hcopy hopen happend => exact (of_popFree hpop).trans (.setSlot _ _ (of_appendAvailable happend))
  | failed hpop hrange hretcode hpush => exact (of_popFree hpop).trans (.setSlot _ _ (of_pushFree hpush))

theorem of_connect {o : ConnectOutcome} {desc : Option ContextDesc} {identifier : Option UInt32}
    {r : Retcode × Option UInt32 × ContextTable} (h : connectorContextConnect cfg o t desc identifier = .ok r) :
    Evolves t r.2.2 := by
  cases contextConnect_cases h with
  | invalid => exact .refl _
  | connected hpop hrange hbridge happend => exact (of_popFree hpop).trans (.setSlot _ _ (of_appendAvailable happend))
  | failed hpop hrange hbridge hretcode hpush => exact (of_popFree hpop).trans (.setSlot _ _ (of_pushFree hpush))

theorem of_accept {accepted : Option Nat} {context : UInt32} {identifier : Option UInt32}
    {r : Retcode × Option UInt32 × ContextTable} (h : connectorContextAccept cfg accepted t context identifier = .ok r) :
    Evolves t r.2.2 := by
  cases contextAccept_cases h with
  | refused => exact .refl _
  | accepted hlistener haccept hpop hrange happend =>
    exact (of_popFree hpop).trans (.setSlot _ _ (of_appendAvailable happend))

theorem of_close (context : UInt32) : Evolves t (connectorContextClose cfg t context).2 := by
  obtain h | ⟨-, -, h⟩ := contextClose_cases cfg t context <;> rw [h]
  · exact .refl _
  · exact .setSlot _ _ (.refl _)

theorem of_writeHandshake (o : HandshakeOutcome) (context : UInt32) :
    Evolves t (connectorContextWriteHandshake cfg o t context).2 := by
  obtain h | ⟨-, -, h⟩ := contextWriteHandshake_cases cfg t o context <;> rw [h]
  · exact .refl _
  · exact .setSlot _ _ (.refl _)

theorem of_shutdown {closed : Bool} {context : UInt32} {r : ShutdownResult}
    (h : connectorContextShutdownFromReadThread cfg closed t context = .ok r) : Evolves t r.table := by
  obtain ⟨-, pushed, hpush, rfl⟩ | ⟨-, rfl⟩ := contextShutdown_cases h
  · exact .setSlot _ _ (of_pushFree hpush)
  · exact .refl _

theorem of_tryAcquire {o : HandshakeOutcome} {thread : ReadThread} {r : Retcode × ReadThread × ContextTable}
    (h : connectorReadThreadTryAcquire cfg o thread t = .ok r) : Evolves t r.2.2 := by
  obtain ⟨u, hpop, rfl⟩ | ⟨context, u, hpop, -, rfl⟩ := readThreadTryAcquire_cases h
  · exact of_availableQueuePop hpop
  · exact (of_availableQueuePop hpop).trans (of_writeHandshake _ _)

theorem of_cleanupLoop {closed : UInt32 → Bool} {i : Nat} {retcode : Retcode} {thread : ReadThread}
    {r : Retcode × ReadThread × ContextTable} (h : cleanupLoop cfg closed i retcode thread t = .ok r) :
    Evolves t r.2.2 :=
  cleanupLoop_keeps (P := Evolves t) (fun hu hshut => hu.trans (of_shutdown hshut)) (.refl t) h

end operations

end Evolves

/-! ## The system -/

namespace ContextSystem

structure State where
  table : ContextTable
  threads : List ReadThread
  -- pushes made so far on the free queue and on the available queue
  freePushes : Nat
  availablePushes : Nat

inductive Label where
  | openContext (o : OpenOutcome) (desc : Option ContextDesc) (identifier : Option UInt32)
  | connect (o : ConnectOutcome) (desc : Option ContextDesc) (identifier : Option UInt32)
  | accept (accepted : Option Nat) (context : UInt32) (identifier : Option UInt32)
  | close (context : UInt32)
  | acquire (i : Nat) (o : HandshakeOutcome)
  | cleanup (i : Nat) (closed : UInt32 → Bool)

/-- How far the write index has advanced. -/
def pushesSince : QueuePtr → QueuePtr → Nat
  | .live q, .live q' => (q'.writeIndex - q.writeIndex).toNat
  | _, _ => 0

def State.moveTo (s : State) (table : ContextTable) (threads : List ReadThread) : State where
  table := table
  threads := threads
  freePushes := s.freePushes + pushesSince s.table.freeContexts table.freeContexts
  availablePushes := s.availablePushes + pushesSince s.table.connectionQueue table.connectionQueue

def next (cfg : BuildConfig) (s : State) : Label → Option State
  | .openContext o desc identifier =>
    (connectorContextOpen cfg o s.table desc identifier).toOption.map fun r => s.moveTo r.2.2 s.threads
  | .connect o desc identifier =>
    (connectorContextConnect cfg o s.table desc identifier).toOption.map fun r => s.moveTo r.2.2 s.threads
  | .accept accepted context identifier =>
    (connectorContextAccept cfg accepted s.table context identifier).toOption.map fun r => s.moveTo r.2.2 s.threads
  | .close context => some (s.moveTo (connectorContextClose cfg s.table context).2 s.threads)
  | .acquire i o =>
    (s.threads[i]?).bind fun thread =>
      -- the callers test the load before they acquire
      if connectorReadThreadCheckLoad cfg thread then
        (connectorReadThreadTryAcquire cfg o thread s.table).toOption.map fun r =>
          s.moveTo r.2.2 (s.threads.set i r.2.1)
      else none
  | .cleanup i closed =>
    (s.threads[i]?).bind fun thread =>
      (connectorReadThreadCleanupConnections cfg closed thread s.table).toOption.map fun r =>
        s.moveTo r.2.2 (s.threads.set i r.2.1)

/-- `connector_init_context_subsystem` and `connector_available_queue_init` with memory available. -/
def startTable (cfg : BuildConfig) : Except Fault ContextTable := do
  let a ← connectorInitContextSubsystem cfg true true ⟨[], .null, .null⟩
  let b ← connectorAvailableQueueInit cfg true true a.2
  return b.2

/-- The state after initialisation, with `n` read threads. -/
def Starts (cfg : BuildConfig) (n : Nat) (s : State) : Prop :=
  startTable cfg = .ok s.table ∧ s.threads = List.replicate n (.zero cfg) ∧ s.freePushes = cfg.contextCount ∧
    s.availablePushes = 0

def system (cfg : BuildConfig) (n : Nat) : StepSystem State Label := .ofNext (Starts cfg n) (next cfg)

/-- A pop finds the free queue empty. -/
def freeEmpty (t : ContextTable) : Bool :=
  match t.freeContexts with
  | .live q => q.looksEmpty q.readIndex q.maxIndex
  | _ => false

/-! ## The first state -/

/-- The ring size of both queues. -/
def ring (cfg : BuildConfig) : UInt32 := ringSize (UInt32.ofNat cfg.contextCount)

theorem toNat_contextCount (cfg : BuildConfig) : (UInt32.ofNat cfg.contextCount).toNat = cfg.contextCount := by
  have hle := cfg.contextCount_le
  exact UInt32.toNat_ofNat_of_lt' (by show cfg.contextCount < 2 ^ 32; omega)

theorem toNat_ring (cfg : BuildConfig) :
    (ring cfg).toNat = cfg.contextCount + (2 - cfg.contextCount % 2) := by
  have hle := cfg.contextCount_le
  rw [ring, toNat_ringSize (by rw [toNat_contextCount]; exact hle), toNat_contextCount]

/-- The identifiers of all contexts. -/
def ids (cfg : BuildConfig) : List UInt32 := (List.range cfg.contextCount).map UInt32.ofNat

theorem pushAll_rep {t : ContextTable} {size : UInt32} {items : List UInt32} {pushes : Nat} (xs : List UInt32)
    (h : t.freeContexts.Rep size items pushes) (hroom : items.length + xs.length < size.toNat)
    (hlt : pushes + xs.length < 2 ^ 32) :
    ∃ p, pushAll xs t = .ok { t with freeContexts := p } ∧ p.Rep size (items ++ xs) (pushes + xs.length) := by
  induction xs generalizing t items pushes with
  | nil => exact ⟨t.freeContexts, rfl, by simpa using h⟩
  | cons x xs ih =>
    rw [List.length_cons] at hroom hlt
    obtain ⟨p, hpush, hp⟩ := h.push (.inl (by omega)) (by omega) x
    have hfirst : t.pushFree x = .ok (.success, { t with freeContexts := p }) := by
      simp [ContextTable.pushFree, hpush, bind, Except.bind, pure, Except.pure]
    have hlen : (items ++ [x]).length = items.length + 1 := by simp
    obtain ⟨p', hall, hp'⟩ := @ih { t with freeContexts := p } (items ++ [x]) (pushes + 1) hp (by omega) (by omega)
    refine ⟨p', ?_, ?_⟩
    · rw [pushAll, hfirst]
      exact hall
    · rw [List.append_assoc, Nat.add_assoc, Nat.add_comm 1] at hp'
      exact hp'

theorem startTable_rep (cfg : BuildConfig) :
    ∃ t, startTable cfg = .ok t ∧ t.contextList = List.replicate cfg.contextCount .zero ∧
      t.freeContexts.Rep (ring cfg) (ids cfg) cfg.contextCount ∧ t.connectionQueue.Rep (ring cfg) [] 0 := by
  have hpos := cfg.contextCount_pos
  have hle := cfg.contextCount_le
  have hring := toNat_ring cfg
  have hcount := toNat_contextCount cfg
  obtain ⟨p, hcreate, hp⟩ :=
    @connectorUintQueueCreate_rep (UInt32.ofNat cfg.contextCount) (by omega) (by omega)
  have hids : (ids cfg).length = cfg.contextCount := by simp [ids]
  obtain ⟨q, hall, hq⟩ := pushAll_rep (ids cfg)
    (t := ⟨List.replicate cfg.contextCount .zero, p, .null⟩) hp (by rw [List.length_nil, hids]; unfold ring at hring; omega)
    (by omega)
  rw [List.nil_append, Nat.zero_add, hids] at hq
  refine ⟨⟨List.replicate cfg.contextCount .zero, q, p⟩, ?_, rfl, hq, hp⟩
  have hinit : connectorInitContextSubsystem cfg true true ⟨[], .null, .null⟩ =
      .ok (.success, ⟨List.replicate cfg.contextCount .zero, q, .null⟩) := by
    rw [connectorInitContextSubsystem, hcreate]
    show (if p = .null then _ else _) = _
    rw [if_neg hp.ne_null]
    unfold ids at hall
    rw [hall]
    rfl
  rw [startTable, hinit]
  show (connectorAvailableQueueInit cfg true true ⟨List.replicate cfg.contextCount .zero, q, .null⟩ >>= _) = _
  rw [connectorAvailableQueueInit, if_pos rfl, hcreate]
  rfl

def State.start (cfg : BuildConfig) (n : Nat) : State where
  table := (startTable cfg).toOption.getD ⟨[], .null, .null⟩
  threads := List.replicate n (.zero cfg)
  freePushes := cfg.contextCount
  availablePushes := 0

theorem starts_start (cfg : BuildConfig) (n : Nat) : Starts cfg n (.start cfg n) := by
  obtain ⟨t, ht, -, -, -⟩ := startTable_rep cfg
  refine ⟨?_, rfl, rfl, rfl⟩
  simp only [State.start, ht]
  rfl

theorem toOption_map_eq_some {ε α β : Type} {x : Except ε α} {f : α → β} {b : β} :
    x.toOption.map f = some b ↔ ∃ a, x = .ok a ∧ f a = b := by
  cases x <;> simp [Except.toOption]

/-- A step is a call that returned. -/
inductive NextCases (cfg : BuildConfig) (s : State) : Label → State → Prop
  | openContext {o : OpenOutcome} {desc : Option ContextDesc} {identifier : Option UInt32}
      {r : Retcode × Option UInt32 × ContextTable} (hr : connectorContextOpen cfg o s.table desc identifier = .ok r) :
      NextCases cfg s (.openContext o desc identifier) (s.moveTo r.2.2 s.threads)
  | connect {o : ConnectOutcome} {desc : Option ContextDesc} {identifier : Option UInt32}
      {r : Retcode × Option UInt32 × ContextTable} (hr : connectorContextConnect cfg o s.table desc identifier = .ok r) :
      NextCases cfg s (.connect o desc identifier) (s.moveTo r.2.2 s.threads)
  | accept {accepted : Option Nat} {listener : UInt32} {identifier : Option UInt32}
      {r : Retcode × Option UInt32 × ContextTable}
      (hr : connectorContextAccept cfg accepted s.table listener identifier = .ok r) :
      NextCases cfg s (.accept accepted listener identifier) (s.moveTo r.2.2 s.threads)
  | close (context : UInt32) :
      NextCases cfg s (.close context) (s.moveTo (connectorContextClose cfg s.table context).2 s.threads)
  | acquire {i : Nat} {o : HandshakeOutcome} {thread : ReadThread} {r : Retcode × ReadThread × ContextTable}
      (hi : s.threads[i]? = some thread) (hr : connectorReadThreadTryAcquire cfg o thread s.table = .ok r) :
      NextCases cfg s (.acquire i o) (s.moveTo r.2.2 (s.threads.set i r.2.1))
  | cleanup {i : Nat} {closed : UInt32 → Bool} {thread : ReadThread} {r : Retcode × ReadThread × ContextTable}
      (hi : s.threads[i]? = some thread)
      (hr : connectorReadThreadCleanupConnections cfg closed thread s.table = .ok r) :
      NextCases cfg s (.cleanup i closed) (s.moveTo r.2.2 (s.threads.set i r.2.1))

theorem next_cases {cfg : BuildConfig} {s s' : State} {a : Label} (h : next cfg s a = some s') :
    NextCases cfg s a s' := by
  cases a with
  | openContext o desc identifier =>
    obtain ⟨r, hr, rfl⟩ := toOption_map_eq_some.mp h
    exact .openContext hr
  | connect o desc identifier =>
    obtain ⟨r, hr, rfl⟩ := toOption_map_eq_some.mp h
    exact .connect hr
  | accept accepted context identifier =>
    obtain ⟨r, hr, rfl⟩ := toOption_map_eq_some.mp h
    exact .accept hr
  | close context =>
    obtain rfl := Option.some.inj h
    exact .close context
  | acquire i o =>
    obtain ⟨thread, hi, h⟩ := Option.bind_eq_some_iff.mp h
    obtain ⟨-, h⟩ := Option.ite_none_right_eq_some.mp h
    obtain ⟨r, hr, rfl⟩ := toOption_map_eq_some.mp h
    exact .acquire hi hr
  | cleanup i closed =>
    obtain ⟨thread, hi, h⟩ := Option.bind_eq_some_iff.mp h
    obtain ⟨r, hr, rfl⟩ := toOption_map_eq_some.mp h
    exact .cleanup hi hr

theorem evolves_next {cfg : BuildConfig} {s s' : State} {a : Label} (h : next cfg s a = some s') :
    Evolves s.table s'.table := by
  cases next_cases h with
  | openContext hr => exact .of_open hr
  | connect hr => exact .of_connect hr
  | accept hr => exact .of_accept hr
  | close context => exact .of_close context
  | acquire hi hr => exact .of_tryAcquire hr
  | cleanup hi hr => exact .of_cleanupLoop hr

end ContextSystem

end SubstanceConnector
