import SubstanceConnector.Framework.Applications
import SubstanceConnector.Framework.ConnectionContext
import SubstanceConnector.Handshake.Delivery

/-!
# The exchange of the connection contexts

Two instances joined by one connection, each with the C++ framework on top. A dispatch thread that notifies the framework
calls, one after the other, what `connector_cpp_trampoline` finds for the identifier; for an established connection the first
of these is `System::connectionEstablished`, which writes the context of the own side for the peer.

Whatever the order of the steps, the calls made and still to be made are those of the notifications (`Called`), so that every
message of a user has been passed to each callback of its identifier as often as it was written once nothing is under way
(`callbacks_called`), and each side has then been told the context of the other once (`contexts_exchanged`).
-/

namespace SubstanceConnector.Framework.ContextExchange

open Exchange
open BuildConfig (firstThread)

/-- The connection, the frameworks of the two sides, the version of the library and the writer of JSON values. -/
structure Setup (F : Type) where
  connection : Exchange.Setup
  framework : Party → Statics (Option (MessageCallback F))
  version : List UInt8
  writeString : Json.Value → List UInt8

variable {F : Type}

/-- `getConnectionContext().c_str()`. -/
def Setup.contextMessage (X : Setup F) (p : Party) : Option CString :=
  ((X.framework p).getConnectionContext X.writeString X.version).toOption.map fun text => .ofBuffer (text ++ [0])

theorem Setup.exists_contextMessage (X : Setup F) (p : Party) : ∃ text, X.contextMessage p = some text := by
  obtain ⟨v, -, hcontext⟩ := (X.framework p).getConnectionContext_eq X.writeString X.version
  rw [contextMessage, hcontext]
  exact ⟨_, rfl⟩

/-- The calls that each notification has still to make, and those made. -/
structure State (X : Setup F) where
  core : Exchange.State X.connection
  pending : Party → List (List (CallbackCall F))
  calls : Party → List (CallbackCall F)

inductive Label (X : Setup F) where
  | core (a : Exchange.Label X.connection)
  | callback (p : Party) (k : Nat)

variable {X : Setup F}

/-- The calls of a notification. -/
def trampolineOf (callbackMap : CallbackMap (Option (MessageCallback F))) : Event → Option (List (CallbackCall F))
  | .notified context type message => some (connectorCppTrampoline callbackMap context type message)
  | _ => none

def trampolines (callbackMap : CallbackMap (Option (MessageCallback F))) (log : List Event) : List (List (CallbackCall F)) :=
  log.filterMap (trampolineOf callbackMap)

/-- The instances have made a step: what they notified since is to be called. -/
def State.advance (s : State X) (core : Exchange.State X.connection) : State X :=
  { s with
    core := core
    pending := fun p =>
      s.pending p ++ trampolines (X.framework p).callbackMap ((core.ends p).log.drop (s.core.ends p).log.length) }

theorem updateContext_ne_handshake : System.sConnectionUpdateContextId ≠ connectorInternalHandshakeUuid := by decide

/-- `System::connectionEstablished`. -/
def connectionEstablished (X : Setup F) (p : Party) (context : UInt32) : Exchange.Label X.connection :=
  .writeMessage p context (some System.sConnectionUpdateContextId)
    (fun h => updateContext_ne_handshake (Option.some.inj h)) (X.contextMessage p)

/-- The next call of a notification is made. -/
def State.callback (s : State X) (p : Party) (k : Nat) : Option (State X) :=
  match (s.pending p)[k]? with
  | some (call :: rest) =>
    let s' : State X :=
      { s with
        pending := Function.update s.pending p ((s.pending p).set k rest)
        calls := Function.update s.calls p (s.calls p ++ [call]) }
    match call.callback with
    | .connectionEstablished => (Exchange.next s.core (connectionEstablished X p call.context)).map s'.advance
    | .recv _ => some s'
  | _ => none

def next (s : State X) : Label X → Option (State X)
  | .core a => (Exchange.next s.core a).map s.advance
  | .callback p k => s.callback p k

/-- The connection has just been made and no callback is running. -/
def Starts (X : Setup F) (s : State X) : Prop :=
  Exchange.Starts X.connection s.core ∧ (∀ p, s.pending p = []) ∧ ∀ p, s.calls p = []

/-- The user of a party writes the message. -/
def Label.posts (q : Parcel) (p : Party) : Label X → Bool
  | .core a => a.posts q p
  | .callback _ _ => false

/-- How often the user of a party does so in a run. -/
def userPosts (q : Parcel) (p : Party) (as : List (Label X)) : Nat := as.countP (Label.posts q p)

/-- A call of `System::connectionEstablished` for the connection. -/
def establishes (X : Setup F) (p : Party) (call : CallbackCall F) : Bool :=
  match call.callback with
  | .connectionEstablished => decide (call.context = X.connection.context p)
  | .recv _ => false

/-- How often `System::connectionEstablished` has written the message. -/
def answers (X : Setup F) (q : Parcel) (p : Party) (calls : List (CallbackCall F)) : Nat :=
  if q.type = System.sConnectionUpdateContextId ∧ X.contextMessage p = some q.text then calls.countP (establishes X p)
  else 0

/-- No callback of a party is still to be called. -/
def State.Idle (s : State X) (p : Party) : Prop := ∀ calls ∈ s.pending p, calls = []

/-! ## Every step -/

/-- The calls made and still to be made are those of the notifications. -/
def Called (s : State X) : Prop :=
  ∀ p, (s.calls p ++ (s.pending p).flatten).Perm (trampolines (X.framework p).callbackMap (s.core.ends p).log).flatten

structure Inv (posted : Parcel → Party → Nat) (s : State X) : Prop where
  core : Exchange.Inv s.core
  accounts : ∀ q : Parcel, q.type ≠ connectorInternalHandshakeUuid →
    Accounts q (fun p => posted q p + answers X q p (s.calls p)) s.core
  called : Called s

section steps
variable {s s' : State X} {posted : Parcel → Party → Nat}

/-- No step takes anything out of a log. -/
theorem log_next {S : Exchange.Setup} {x x' : Exchange.State S} {a : Exchange.Label S} (h : Exchange.next x a = some x')
    (p : Party) : (x.ends p).log <+: (x'.ends p).log := by
  have hset : ∀ (r : Party) (y : Instance (S.cfg r)), (x.ends r).log <+: y.log →
      (x.ends p).log <+: ((x.setEnd r y).ends p).log := by
    intro r y hlog
    by_cases hp : p = r
    · subst hp
      simp only [State.setEnd, Function.update_self]
      exact hlog
    · simp only [State.setEnd, Function.update_of_ne hp]
      exact List.prefix_refl _
  cases a with
  | acquire r i =>
    obtain ⟨y, hy, rfl⟩ := Option.map_eq_some_iff.mp h
    exact hset r y (log_acquire hy)
  | receive r i k =>
    obtain ⟨-, h⟩ := Option.ite_none_right_eq_some.mp h
    obtain ⟨m, -, h⟩ := Option.bind_eq_some_iff.mp h
    obtain ⟨y, hy, rfl⟩ := Option.map_eq_some_iff.mp h
    exact hset r y (log_read hy)
  | enqueueInbound r i =>
    obtain ⟨y, hy, rfl⟩ := Option.map_eq_some_iff.mp h
    exact hset r y (log_enqueueInbound hy)
  | writeMessage r context type htype message =>
    obtain rfl := Option.some.inj h
    exact hset r _ (List.prefix_refl _)
  | acquireOutbound r j k =>
    obtain ⟨y, hy, rfl⟩ := Option.map_eq_some_iff.mp h
    exact hset r y (log_acquireOutbound hy)
  | send r j =>
    obtain ⟨y, hy, rfl⟩ := Option.map_eq_some_iff.mp h
    exact hset r y (log_send hy)
  | acquireInbound r j k =>
    obtain ⟨y, hy, rfl⟩ := Option.map_eq_some_iff.mp h
    exact hset r y (log_acquireInbound hy)
  | act r j block =>
    obtain ⟨y, hy, rfl⟩ := Option.map_eq_some_iff.mp h
    exact hset r y (log_act hy)

theorem trampolines_append (callbackMap : CallbackMap (Option (MessageCallback F))) (log es : List Event) :
    trampolines callbackMap (log ++ es) = trampolines callbackMap log ++ trampolines callbackMap es :=
  List.filterMap_append

/-- A step of the instances leaves the calls to be made for what it notifies. -/
theorem Called.advance (hs : Called s) {core : Exchange.State X.connection} {a : Exchange.Label X.connection}
    (h : Exchange.next s.core a = some core) : Called (s.advance core) := by
  intro p
  obtain ⟨es, hes⟩ := log_next h p
  show (s.calls p ++ (s.pending p ++ trampolines _ ((core.ends p).log.drop _)).flatten).Perm
    (trampolines (X.framework p).callbackMap (core.ends p).log).flatten
  rw [← hes, List.drop_left, trampolines_append, List.flatten_append, List.flatten_append, ← List.append_assoc]
  exact (hs p).append_right _

/-- Of the calls of one notification the first is made. -/
theorem perm_set {α : Type} {made : List α} {pending : List (List α)} {k : Nat} {call : α} {rest : List α}
    (h : pending[k]? = some (call :: rest)) :
    (made ++ [call] ++ (pending.set k rest).flatten).Perm (made ++ pending.flatten) := by
  rw [List.append_assoc]
  refine List.Perm.append_left made ?_
  induction pending generalizing k with
  | nil => cases h
  | cons calls pending ih =>
    cases k with
    | zero =>
      obtain rfl := Option.some.inj h
      exact .refl _
    | succ k =>
      rw [List.set_cons_succ, List.flatten_cons, List.flatten_cons]
      have htail := (ih h).append_left calls
      refine List.Perm.trans ?_ htail
      rw [← List.append_assoc, ← List.append_assoc]
      exact List.perm_append_comm.append_right _

/-- What a callback leaves before it runs. -/
theorem Called.made (hs : Called s) {p : Party} {k : Nat} {call : CallbackCall F} {rest : List (CallbackCall F)}
    (hcall : (s.pending p)[k]? = some (call :: rest)) :
    Called { s with
      pending := Function.update s.pending p ((s.pending p).set k rest)
      calls := Function.update s.calls p (s.calls p ++ [call]) } := by
  intro r
  by_cases hr : r = p
  · subst hr
    simp only [Function.update_self]
    exact (perm_set hcall).trans (hs r)
  · simp only [Function.update_of_ne hr]
    exact hs r

theorem answers_update (X : Setup F) (calls : Party → List (CallbackCall F)) (p : Party) (call : CallbackCall F) (q : Parcel)
    (r : Party) :
    answers X q r (Function.update calls p (calls p ++ [call]) r) =
      answers X q r (calls r) + if r = p ∧ q.type = System.sConnectionUpdateContextId ∧
        X.contextMessage p = some q.text ∧ establishes X p call = true then 1 else 0 := by
  unfold answers
  by_cases hr : r = p
  · subst hr
    simp only [Function.update_self, List.countP_append, List.countP_singleton]
    by_cases hq : q.type = System.sConnectionUpdateContextId ∧ X.contextMessage r = some q.text
    · simp [hq]
    · rw [if_neg hq, if_neg hq, if_neg (fun h => hq ⟨h.2.1, h.2.2.1⟩)]
  · simp only [Function.update_of_ne hr]
    simp [hr]

theorem Inv.core_step (hs : Inv posted s) {a : Exchange.Label X.connection} {core : Exchange.State X.connection}
    (h : Exchange.next s.core a = some core) :
    Inv (fun q p => posted q p + (a.posts q p).toNat) (s.advance core) := by
  refine ⟨inv_next hs.core h, fun q hq p => ?_, hs.called.advance h⟩
  have haccount := accounts_next hq hs.core (hs.accounts q hq) h p
  show Account q _ (core.ends p) (posted q p + (a.posts q p).toNat + answers X q p (s.calls p)) (core.got p)
  rw [Nat.add_right_comm]
  exact haccount

theorem Inv.callback (hs : Inv posted s) {p : Party} {k : Nat} (h : s.callback p k = some s') : Inv posted s' := by
  unfold State.callback at h
  split at h
  case h_2 => cases h
  case h_1 call rest hcall =>
    have hmade := hs.called.made hcall
    dsimp only at h
    split at h
    case h_1 hestablished =>
      obtain ⟨core, hcore, rfl⟩ := Option.map_eq_some_iff.mp h
      refine ⟨inv_next hs.core hcore, fun q hq r => ?_, hmade.advance hcore⟩
      have haccount := accounts_next hq hs.core (hs.accounts q hq) hcore r
      have hmakes := answers_update X s.calls p call q r
      -- the context is written where a call of the function is counted
      have hpost : ((connectionEstablished X p call.context).posts q r).toNat =
          if r = p ∧ q.type = System.sConnectionUpdateContextId ∧ X.contextMessage p = some q.text ∧
            establishes X p call = true then 1 else 0 := by
        have hone : (connectionEstablished X p call.context).posts q r = decide (r = p ∧
            q.type = System.sConnectionUpdateContextId ∧ X.contextMessage p = some q.text ∧ establishes X p call = true) := by
          rw [connectionEstablished, Exchange.Label.posts, decide_eq_decide]
          simp only [establishes, hestablished, decide_eq_true_eq, Option.some.injEq]
          constructor
          · rintro ⟨rfl, hcontext, htype, htext⟩
            exact ⟨rfl, htype.symm, htext, hcontext⟩
          · rintro ⟨rfl, htype, htext, hcontext⟩
            exact ⟨rfl, hcontext, htype.symm, htext⟩
        rw [hone]
        split
        · rename_i hyes
          rw [decide_eq_true hyes]
          rfl
        · rename_i hno
          rw [decide_eq_false hno]
          rfl
      rw [← hpost] at hmakes
      show Account q _ (core.ends r) (posted q r + answers X q r (Function.update s.calls p _ r)) (core.got r)
      rw [hmakes, ← Nat.add_assoc]
      exact haccount
    case h_2 f hrecv =>
      obtain rfl := Option.some.inj h
      refine ⟨hs.core, fun q hq r => ?_, hmade⟩
      have hmakes := answers_update X s.calls p call q r
      have hsilent : establishes X p call = false := by
        rw [establishes, hrecv]
      rw [hsilent, if_neg (by simp), Nat.add_zero] at hmakes
      show Account q _ (s.core.ends r) (posted q r + answers X q r (Function.update s.calls p _ r)) (s.core.got r)
      rw [hmakes]
      exact hs.accounts q hq r

theorem inv_run {as : List (Label X)} (hs : Inv posted s) (h : StepSystem.runList next s as = some s') :
    Inv (fun q p => posted q p + userPosts q p as) s' := by
  induction as generalizing s posted with
  | nil =>
    obtain rfl := Option.some.inj h
    exact hs
  | cons a as ih =>
    obtain ⟨t, ht, hrest⟩ := Option.bind_eq_some_iff.mp h
    have hcount : ∀ q p, userPosts q p (a :: as) = userPosts q p [a] + userPosts q p as := by
      intro q p
      rw [userPosts, ← List.singleton_append, List.countP_append]
      rfl
    simp only [hcount, ← Nat.add_assoc]
    cases a with
    | core a =>
      obtain ⟨core, hcore, rfl⟩ := Option.map_eq_some_iff.mp ht
      have hone : ∀ q p, userPosts q p ([.core a] : List (Label X)) = (a.posts q p).toNat := by
        intro q p
        rw [userPosts, List.countP_singleton, Label.posts]
        cases a.posts q p <;> rfl
      simp only [hone]
      exact ih (hs.core_step hcore) hrest
    | callback p k => exact ih (hs.callback ht) hrest

theorem inv_starts (h : Starts X s) : Inv (fun _ _ => 0) s := by
  obtain ⟨hcore, hpending, hcalls⟩ := h
  refine ⟨Exchange.inv_starts hcore, fun q _ p => ?_, fun p => ?_⟩
  · have hanswers : answers X q p (s.calls p) = 0 := by
      rw [answers, hcalls p]
      exact ite_self 0
    dsimp only
    rw [hanswers, hcore.2 p]
    exact (hcore.1 p).account
  · rw [hpending p, hcalls p, (hcore.1 p).log]
    exact .refl _

end steps

/-! ## The calls of a log -/

section logs
variable (callbackMap : CallbackMap (Option (MessageCallback F)))

/-- One notification calls each callback of its identifier once. -/
theorem count_trampoline [DecidableEq F] (f : MessageCallback F) (context c : UInt32) (messageType : Uuid)
    (message : Option CString) (q : Parcel) :
    (connectorCppTrampoline callbackMap context messageType message).count ⟨f, c, q.type, some q.text⟩ =
      (if context = c ∧ messageType = q.type ∧ message = some q.text then 1 else 0) *
        (findCallbacks callbackMap q.type).count (some f) := by
  unfold connectorCppTrampoline
  split
  · rename_i hsame
    obtain ⟨rfl, rfl, rfl⟩ := hsame
    rw [Nat.one_mul]
    induction findCallbacks callbackMap q.type with
    | nil => rfl
    | cons callback callbacks ih =>
      cases callback with
      | none =>
        rw [List.filterMap_cons, List.count_cons]
        simpa using ih
      | some g =>
        rw [List.filterMap_cons, List.count_cons]
        simp only [Option.map_some, List.count_cons, ih]
        congr 1
        by_cases hg : g = f
        · simp [hg]
        · simp [hg]
  · rename_i hother
    rw [Nat.zero_mul, List.count_eq_zero]
    intro hmem
    obtain ⟨callback, -, hcall⟩ := List.mem_filterMap.mp hmem
    obtain ⟨g, -, hsame⟩ := Option.map_eq_some_iff.mp hcall
    cases hsame
    exact hother ⟨rfl, rfl, rfl⟩

theorem count_trampolines [DecidableEq F] (f : MessageCallback F) (c : UInt32) (q : Parcel) (log : List Event) :
    (trampolines callbackMap log).flatten.count ⟨f, c, q.type, some q.text⟩ =
      log.countP (q.isNotified c) * (findCallbacks callbackMap q.type).count (some f) := by
  induction log with
  | nil => simp [trampolines]
  | cons e log ih =>
    rw [List.countP_cons, Nat.add_mul, ← ih]
    cases e with
    | notified context type message =>
      have hcons : trampolines callbackMap (.notified context type message :: log) =
          connectorCppTrampoline callbackMap context type message :: trampolines callbackMap log := rfl
      rw [hcons, List.flatten_cons, List.count_append, count_trampoline, Nat.add_comm]
      simp only [Parcel.isNotified, decide_eq_true_eq]
    | wrote connection message | named connection name =>
      rw [if_neg (by simp [Parcel.isNotified]), Nat.zero_mul, Nat.add_zero]
      rfl

end logs

/-! ## Every run -/

section runs
variable {s₀ s : State X} {as : List (Label X)}

theorem State.Idle.flatten_eq {p : Party} (h : s.Idle p) : (s.pending p).flatten = [] := by
  rw [List.flatten_eq_nil_iff]
  exact h

/-- In every run, a callback has been called with a message at most as often as the message
was written at the other side, by the user or by `System::connectionEstablished`, times the occurrences of the callback in the
list of its identifier; and exactly as often once nothing is under way. -/
theorem callbacks_called [DecidableEq F] (hstart : Starts X s₀) (hrun : StepSystem.runList next s₀ as = some s)
    {q : Parcel} (hq : q.type ≠ connectorInternalHandshakeUuid) (p : Party) (f : MessageCallback F) :
    let written := userPosts q p as + answers X q p (s.calls p)
    let bound := (findCallbacks (X.framework p.peer).callbackMap q.type).count (some f)
    let called := (s.calls p.peer).count ⟨f, X.connection.context p.peer, q.type, some q.text⟩
    called ≤ written * bound ∧
      (s.core.Quiet p → Settled (s.core.ends p.peer) → s.Idle p.peer → called = written * bound) := by
  intro written bound called
  have hinv := inv_run (inv_starts hstart) hrun
  have hleft : 0 + userPosts q p as + answers X q p (s.calls p) = _ := (hinv.accounts q hq p).left
  have harrived := (hinv.accounts q hq p.peer).arrived
  have hwire := hinv.core.count_wire (q := q) p
  have hall := (hinv.called p.peer).count_eq ⟨f, X.connection.context p.peer, q.type, some q.text⟩
  rw [List.count_append, count_trampolines] at hall
  have hnotified : (s.core.ends p.peer).log.countP (q.isNotified (X.connection.context p.peer)) ≤ written := by
    unfold Exchange.State.sent at hwire
    unfold delivered at harrived
    omega
  have hle := Nat.mul_le_mul_right bound hnotified
  refine ⟨((Nat.le_add_right _ _).trans hall.le).trans hle, fun hquiet hsettled hidle => ?_⟩
  rw [hidle.flatten_eq, List.count_nil, Nat.add_zero] at hall
  have hexact : (s.core.ends p.peer).log.countP (q.isNotified (X.connection.context p.peer)) = written := by
    rw [hsettled.incoming_eq] at harrived
    rw [hquiet.1.departing_eq] at hleft
    rw [hquiet.2, List.countP_nil] at hwire
    unfold Exchange.State.sent at hwire
    unfold delivered at harrived
    omega
  rw [hexact] at hall
  exact hall

/-- A callback that is not bound is never called. -/
theorem not_called [DecidableEq F] (hstart : Starts X s₀) (hrun : StepSystem.runList next s₀ as = some s) {p : Party} {q : Parcel}
    (hmissing : (X.framework p).callbackMap q.type = none) (c : UInt32) (f : MessageCallback F) :
    (s.calls p).count ⟨f, c, q.type, some q.text⟩ = 0 := by
  have hinv := inv_run (inv_starts hstart) hrun
  have hall := (hinv.called p).count_eq ⟨f, c, q.type, some q.text⟩
  rw [List.count_append, count_trampolines, findCallbacks, hmissing, Option.getD_none, List.count_nil, Nat.mul_zero] at hall
  exact (Nat.add_eq_zero_iff.mp hall).1

/-- **From a user to the members of the other.** What is written at a party under an identifier that an object of the peer
lists, by its user or by its own `System::connectionEstablished`, is passed to each member that is listed for it, as often as it
was written, once nothing is under way; the identifier of a handshake is left out, as the handshakes of the library call its
members too. Under an identifier that the peer does not advertise, no callback is ever called. -/
theorem members_called [DecidableEq F] (hstart : Starts X s₀) (hrun : StepSystem.runList next s₀ as = some s) (p : Party)
    {members : Nat → Application F} {applications : Finset Nat}
    (hpeer : Statics.StartedWith members applications (X.framework p.peer)) (q : Parcel) (f : MessageCallback F) :
    let written := userPosts q p as + answers X q p (s.calls p)
    let called := (s.calls p.peer).count ⟨f, X.connection.context p.peer, q.type, some q.text⟩
    (q.type ≠ System.sConnectionEstablishedId → ∀ a ∈ applications, ∀ callbacks,
        (q.type, callbacks) ∈ (members a).callbackPairs →
      called ≤ written * callbacks.count (some f) ∧
        (s.core.Quiet p → Settled (s.core.ends p.peer) → s.Idle p.peer → called = written * callbacks.count (some f))) ∧
      (q.type ∉ (X.framework p.peer).featureLevel → called = 0) := by
  intro written called
  refine ⟨fun hhandshake a ha callbacks hentry => ?_, fun hmissing => ?_⟩
  · have hcalled := callbacks_called hstart hrun hhandshake p f
    have hbinds := hpeer.binds ha hentry
    dsimp only at hcalled
    rw [findCallbacks, hbinds, Option.getD_some] at hcalled
    exact hcalled
  · rw [hpeer.mem_featureLevel, Option.not_isSome_iff_eq_none] at hmissing
    exact not_called hstart hrun hmissing _ f

/-- Nothing but the contexts is written by `System::connectionEstablished`. -/
theorem answers_of_ne {q : Parcel} (hcontext : q.type ≠ System.sConnectionUpdateContextId) (p : Party)
    (calls : List (CallbackCall F)) : answers X q p calls = 0 :=
  if_neg fun h => hcontext h.1

/-! ## The contexts -/

/-- The framework has been started with a `System` object whose member for the contexts is `recvContext`. -/
def Serves (framework : Statics (Option (MessageCallback F))) (recvContext : Option F) : Prop :=
  ∃ members applications, Statics.StartedWith members applications framework ∧ ∃ a ∈ applications, ∃ established closed,
    members a = .system established closed recvContext

section serves
variable {framework : Statics (Option (MessageCallback F))} {recvContext : Option F}

theorem Serves.context (h : Serves framework recvContext) :
    findCallbacks framework.callbackMap System.sConnectionUpdateContextId = Application.member recvContext := by
  obtain ⟨members, applications, hstarted, a, ha, established, closed, hobject⟩ := h
  have hentry : (System.sConnectionUpdateContextId, Application.member recvContext) ∈ (members a).callbackPairs := by
    rw [hobject]
    simp [Application.callbackPairs]
  rw [findCallbacks, hstarted.binds ha hentry, Option.getD_some]

/-- The function of the library is called for an established connection, once. -/
theorem Serves.established (h : Serves framework recvContext) (context : UInt32) (messageType : Uuid)
    (message : Option CString) (X : Setup F) (p : Party) :
    (connectorCppTrampoline framework.callbackMap context messageType message).countP (establishes X p) =
      if messageType = connectorInternalHandshakeUuid ∧ context = X.connection.context p then 1 else 0 := by
  obtain ⟨members, applications, hstarted, a, ha, established, closed, hobject⟩ := h
  have hmembers : ∀ (callback : Option F), ((Application.member callback).filterMap fun callback =>
      callback.map fun f => (⟨f, context, messageType, message⟩ : CallbackCall F)).countP (establishes X p) = 0 := by
    intro callback
    cases callback <;> rfl
  by_cases hid : messageType = connectorInternalHandshakeUuid
  · subst hid
    have hentry : (System.sConnectionEstablishedId, some .connectionEstablished :: Application.member established) ∈
        (members a).callbackPairs := by
      rw [hobject]
      simp [Application.callbackPairs]
    have hfound : findCallbacks framework.callbackMap connectorInternalHandshakeUuid =
        some .connectionEstablished :: Application.member established := by
      rw [findCallbacks, show connectorInternalHandshakeUuid = System.sConnectionEstablishedId from rfl,
        hstarted.binds ha hentry, Option.getD_some]
    rw [connectorCppTrampoline, hfound, List.filterMap_cons]
    simp only [Option.map_some, List.countP_cons, hmembers, Nat.zero_add, establishes, decide_eq_true_eq, true_and]
  · rw [if_neg (fun h => hid h.1), connectorCppTrampoline, findCallbacks, hstarted.callbackMap_eq]
    cases hfound : Statics.firstOf applications.sort (fun a => (members a).callbackPairs) messageType with
    | none => rfl
    | some callbacks =>
      obtain ⟨b, -, hlookup⟩ := List.exists_of_findSome?_eq_some hfound
      obtain ⟨callback, rfl⟩ := Application.eq_member_of_ne (Json.mem_of_lookup hlookup) hid
      exact hmembers callback

end serves

/-- Each handshake that is notified is answered with the context. -/
theorem countP_establishes {p : Party} {recvContext : Option F} (h : Serves (X.framework p) recvContext) {log : List Event}
    (hlog : ∀ n ∈ notices log, n.1 = X.connection.context p) :
    (trampolines (X.framework p).callbackMap log).flatten.countP (establishes X p) = (notices log).length := by
  induction log with
  | nil => rfl
  | cons e log ih =>
    cases e with
    | notified context type message =>
      have hcons : trampolines (X.framework p).callbackMap (.notified context type message :: log) =
          connectorCppTrampoline (X.framework p).callbackMap context type message ::
            trampolines (X.framework p).callbackMap log := rfl
      rw [hcons, List.flatten_cons, List.countP_append, h.established]
      by_cases htype : type = connectorInternalHandshakeUuid
      · have hnotices : notices (.notified context type message :: log) = (context, message) :: notices log := by
          simp [notices, noticeOf, htype]
        rw [hnotices] at hlog ⊢
        have hcontext : context = X.connection.context p := hlog _ List.mem_cons_self
        rw [if_pos ⟨htype, hcontext⟩, ih fun n hn => hlog n (List.mem_cons_of_mem _ hn), List.length_cons, Nat.add_comm]
      · have hnotices : notices (.notified context type message :: log) = notices log := by
          simp [notices, noticeOf, htype]
        rw [hnotices] at hlog ⊢
        rw [if_neg (fun h => htype h.1), Nat.zero_add]
        exact ih hlog
    | wrote connection message | named connection name => exact ih hlog

theorem count_member [DecidableEq F] (recvContext : Option F) (f : F) :
    (Application.member recvContext).count (some (.recv f)) = if recvContext = some f then 1 else 0 := by
  rw [Application.member, List.count_singleton]
  cases recvContext with
  | none => simp
  | some g =>
    by_cases hg : g = f
    · simp [hg]
    · simp [hg]

/-- **The contexts are exchanged.** Two frameworks, each started with one `System` object, whose users leave the identifier
of the contexts to it. In every run the member for the contexts has been called at most once at each side, with what
`getConnectionContext` gives at the other; once both sides have acquired the connection and nothing is under way, it has been
called once. -/
theorem contexts_exchanged [DecidableEq F] (hstart : Starts X s₀) (hrun : StepSystem.runList next s₀ as = some s)
    {recvContext : Party → Option F} (hserves : ∀ p, Serves (X.framework p) (recvContext p))
    (husers : ∀ q : Parcel, q.type = System.sConnectionUpdateContextId → ∀ p, userPosts q p as = 0) (p : Party) (f : F)
    (text : CString) :
    let called := (s.calls p.peer).count
      ⟨.recv f, X.connection.context p.peer, System.sConnectionUpdateContextId, some text⟩
    let due := if X.contextMessage p = some text ∧ recvContext p.peer = some f then 1 else 0
    called ≤ due ∧ ((∀ r, s.core.Acquired r ∧ s.core.Quiet r ∧ s.Idle r) → called = due) := by
  intro called due
  have hinv := inv_run (inv_starts hstart) hrun
  have hcalled := callbacks_called hstart hrun (q := ⟨System.sConnectionUpdateContextId, text⟩) updateContext_ne_handshake p
    (.recv f)
  dsimp only at hcalled
  rw [husers _ rfl p, Nat.zero_add, (hserves p.peer).context, count_member] at hcalled
  have hnoticed : ∀ n ∈ notices (s.core.ends p).log, n.1 = X.connection.context p := by
    intro n hn
    rw [(hinv.core.side p).noticed n hn]
  have hmade := (hinv.called p).countP_eq (establishes X p)
  rw [List.countP_append, countP_establishes (hserves p) hnoticed] at hmade
  have honce := hinv.core.notices_le p
  have hanswers : answers X ⟨System.sConnectionUpdateContextId, text⟩ p (s.calls p) =
      if X.contextMessage p = some text then (s.calls p).countP (establishes X p) else 0 := by
    rw [answers]
    simp only [true_and]
  rw [hanswers] at hcalled
  have hsplit : due = (if X.contextMessage p = some text then 1 else 0) * if recvContext p.peer = some f then 1 else 0 := by
    by_cases htext : X.contextMessage p = some text
    · simp [due, htext]
    · simp [due, htext]
  refine ⟨?_, fun hquiet => ?_⟩
  · rw [hsplit]
    refine hcalled.1.trans (Nat.mul_le_mul_right _ ?_)
    split
    · omega
    · exact Nat.le_refl 0
  · have hlength := (hinv.core.settled (fun r => ⟨(hquiet r).1, (hquiet r).2.1⟩) p).2
    rw [(hquiet p).2.2.flatten_eq, List.countP_nil, hlength] at hmade
    have hexact := hcalled.2 (hquiet p).2.1 (hquiet p.peer).2.1.1 (hquiet p.peer).2.2
    rw [Nat.add_zero] at hmade
    rw [hmade] at hexact
    rw [hsplit]
    exact hexact

end runs

/-! ## One exchange -/

section pair

/-- Both frameworks have one `System` object with all its members set. -/
def systemMembers (_ : Nat) : Application Nat := .system (some 7) (some 8) (some 9)

def systemStarted : Statics (Option (MessageCallback Nat)) :=
  (((Statics.start fun _ => []).run (([.registerApplication 16] :
    List (Statics.ObjectCall Nat fun a => (systemMembers a).kind)).map Statics.ObjectCall.call)).init [65] [65]
      (fun a => (systemMembers a).callbackPairs) .success).2

theorem startedWith_systemStarted : Statics.StartedWith systemMembers {16} systemStarted :=
  ⟨fun a => (systemMembers a).kind, [.registerApplication 16], [65], [65], fun _ => rfl, rfl, by decide, by decide, rfl⟩

/-- The same with the callbacks looked up in the list of the object. -/
def systemFramework : Statics (Option (MessageCallback Nat)) :=
  { systemStarted with callbackMap := fun id => (systemMembers 16).callbackPairs.lookup id }

theorem systemFramework_eq : systemFramework = systemStarted := by
  have hmap := startedWith_systemStarted.callbackMap_eq
  rw [Finset.sort_singleton] at hmap
  apply Statics.ext
  case callbackMap =>
    rw [hmap]
    funext id
    rw [Statics.firstOf_cons, Statics.firstOf, List.findSome?_nil, Option.or_none]
    rfl
  all_goals rfl

theorem serves_systemFramework : Serves systemFramework (some 9) := by
  rw [systemFramework_eq]
  exact ⟨systemMembers, {16}, startedWith_systemStarted, 16, Finset.mem_singleton_self 16, some 7, some 8, rfl⟩

def systemPair : Setup Nat where
  connection := pair
  framework _ := systemFramework
  version := [49]
  writeString := compactText

def systemStart : State systemPair := ⟨pairStart, fun _ => [], fun _ => []⟩

def coreSteps (as : List (Exchange.Label pair)) : List (Label systemPair) := as.map fun a => .core a

/-- The parties exchange their handshakes, then their contexts. -/
def systemRun : List (Label systemPair) :=
  coreSteps exchangeRun ++ [.callback .a 0, .callback .a 0, .callback .b 0, .callback .b 0] ++
    coreSteps (reply .a ++ reply .b ++ deliver .b 1 1 ++ deliver .a 0 1) ++ [.callback .a 1, .callback .b 1]

instance (X : Setup Nat) (s : State X) (p : Party) : Decidable (s.Idle p) :=
  inferInstanceAs (Decidable (∀ calls ∈ s.pending p, calls = []))

/-- Each party is told the context of the other. -/
theorem context_received :
    ∃ s text, StepSystem.runList next systemStart systemRun = some s ∧ systemPair.contextMessage .a = some text ∧
      (s.calls .b).count ⟨.recv 9, 1, System.sConnectionUpdateContextId, some text⟩ = 1 := by
  obtain ⟨text, htext⟩ := systemPair.exists_contextMessage .a
  have hrun : (StepSystem.runList next systemStart systemRun).map (fun s => decide
      ((s.core.Acquired .a ∧ s.core.Quiet .a ∧ s.Idle .a) ∧ s.core.Acquired .b ∧ s.core.Quiet .b ∧ s.Idle .b)) =
        some true := by
    decide +kernel
  obtain ⟨s, hs, hend⟩ := Option.map_eq_some_iff.mp hrun
  obtain ⟨ha, hb⟩ := of_decide_eq_true hend
  refine ⟨s, text, hs, htext, ?_⟩
  have hstart : Starts systemPair systemStart := ⟨starts_pairStart, fun _ => rfl, fun _ => rfl⟩
  have husers : ∀ q : Parcel, q.type = System.sConnectionUpdateContextId → ∀ p, userPosts q p systemRun = 0 :=
    fun _ _ _ => rfl
  have hexchanged := contexts_exchanged hstart hs (fun _ => serves_systemFramework) husers .a 9 text
  dsimp only at hexchanged
  rw [htext] at hexchanged
  refine (hexchanged.2 fun r => ?_).trans (if_pos ⟨rfl, rfl⟩)
  cases r with
  | a => exact ha
  | b => exact hb

/-- Party `a` sends the identifier of a closed connection itself, for which the object of `b` has one member. -/
theorem notice_nulFree : (0 : UInt8) ∉ [66] := by decide

def notice : Parcel := ⟨System.sConnectionClosedId, ⟨[66], notice_nulFree⟩⟩

def noticeRun : List (Label systemPair) :=
  coreSteps ([.acquire .a firstThread, .acquire .b firstThread,
    .writeMessage .a 0 (some notice.type) (by decide) (some notice.text)] ++
    reply .a ++ deliver .b 1 2 ++ reply .b ++ deliver .b 1 1 ++ deliver .a 0 2 ++ reply .a ++ deliver .b 1 1) ++
    [.callback .b 0, .callback .b 1, .callback .b 1] ++ coreSteps (reply .b)

theorem member_called_once : ∃ s, StepSystem.runList next systemStart noticeRun = some s ∧
    (s.calls .b).count ⟨.recv 8, 1, notice.type, some notice.text⟩ = 1 := by
  have hrun : (StepSystem.runList next systemStart noticeRun).map (fun s => decide
      (s.core.Quiet .a ∧ Settled (s.core.ends .b) ∧ s.Idle .b)) = some true := by
    decide +kernel
  obtain ⟨s, hs, hend⟩ := Option.map_eq_some_iff.mp hrun
  obtain ⟨hquiet, hsettled, hidle⟩ := of_decide_eq_true hend
  have hstart : Starts systemPair systemStart := ⟨starts_pairStart, fun _ => rfl, fun _ => rfl⟩
  have hpeer : Statics.StartedWith systemMembers {16} (systemPair.framework .b) := by
    show Statics.StartedWith systemMembers {16} systemFramework
    rw [systemFramework_eq]
    exact startedWith_systemStarted
  have hmembers := ((members_called hstart hs .a hpeer notice (.recv 8)).1 (by decide) 16 (Finset.mem_singleton_self 16)
    [some (.recv 8)] (by decide)).2 hquiet hsettled hidle
  rw [answers_of_ne (by decide)] at hmembers
  exact ⟨s, hs, hmembers⟩

end pair

end SubstanceConnector.Framework.ContextExchange
