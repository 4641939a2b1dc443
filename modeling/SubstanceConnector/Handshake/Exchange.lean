import SubstanceConnector.Handshake.Tally

/-!
# The handshake between two instances

Two instances joined by one connection that stays open and delivers every frame whole and in order.
Each of them writes an internal handshake when a read thread acquires its context, answers the other's
with a reply that is not internal, and notifies its user when a reply arrives. Every frame of the
exchange is in one place (`SideInv`), so each instance is notified once, with the name of the other
(`handshake_exchanged`), whatever the order in which the threads do their work.
-/

namespace SubstanceConnector.Exchange

open BuildConfig (firstThread)

inductive Party where
  | a
  | b
  deriving DecidableEq

def Party.peer : Party → Party
  | .a => .b
  | .b => .a

@[simp] theorem Party.peer_peer (p : Party) : p.peer.peer = p := by cases p <;> rfl

/-- The builds of the two instances, their application names and the context the connection has at
each end. -/
structure Setup where
  cfg : Party → BuildConfig
  name : Party → CString
  context : Party → UInt32

/-- The instances, and the frames each of them has read from the connection. -/
structure State (S : Setup) where
  ends : (p : Party) → Instance (S.cfg p)
  got : Party → List ConnectorMessage

variable {S : Setup}

/-- The frames a party has put on the connection. -/
def State.sent (s : State S) (p : Party) : List ConnectorMessage := frames (S.context p) (s.ends p).log

/-- The frames under way from a party to its peer. -/
def State.wire (s : State S) (p : Party) : List ConnectorMessage := (s.sent p).drop (s.got p.peer).length

/-- What the two instances do: allocations and writes succeed, no context is opened or closed, and
users do not send the handshake identifier. -/
inductive Label (S : Setup) where
  | acquire (p : Party) (i : Fin (S.cfg p).inboundCount)
  | receive (p : Party) (i : Fin (S.cfg p).inboundCount) (k : Nat)
  | enqueueInbound (p : Party) (i : Fin (S.cfg p).inboundCount)
  | writeMessage (p : Party) (context : UInt32) (type : Option Uuid) (htype : type ≠ some connectorInternalHandshakeUuid)
      (message : Option CString)
  | acquireOutbound (p : Party) (j : Fin (S.cfg p).outboundCount) (k : Nat)
  | send (p : Party) (j : Fin (S.cfg p).outboundCount)
  | acquireInbound (p : Party) (j : Fin (S.cfg p).dispatchCount) (k : Nat)
  | act (p : Party) (j : Fin (S.cfg p).dispatchCount) (block : Nat)

def State.setEnd (s : State S) (p : Party) (x : Instance (S.cfg p)) : State S :=
  { s with ends := Function.update s.ends p x }

def State.receive (s : State S) (p : Party) (i : Fin (S.cfg p).inboundCount) (k : Nat) : Option (State S) :=
  if ((s.ends p).readers i).data.contextIds.getD k 0 = S.context p then
    (s.wire p.peer).head?.bind fun m =>
      ((s.ends p).read i k m).map fun x =>
        { s.setEnd p x with got := Function.update s.got p (s.got p ++ [m]) }
  else none

def next (s : State S) : Label S → Option (State S)
  | .acquire p i => ((s.ends p).acquire i ⟨true, .success⟩).map (s.setEnd p)
  | .receive p i k => s.receive p i k
  | .enqueueInbound p i => ((s.ends p).enqueueInbound i).map (s.setEnd p)
  | .writeMessage p context type _ message =>
    some (s.setEnd p ((s.ends p).writeMessage true context type message))
  | .acquireOutbound p j k => ((s.ends p).acquireOutbound j k).map (s.setEnd p)
  | .send p j => ((s.ends p).send j .success).map (s.setEnd p)
  | .acquireInbound p j k => ((s.ends p).acquireInbound j k ⟨true, true⟩).map (s.setEnd p)
  | .act p j block => ((s.ends p).act j (some block)).map (s.setEnd p)

/-- One end when the connection has just been made: its context is connected, no thread has acquired it
and nothing has happened on it. -/
structure Joined {cfg : BuildConfig} (c : UInt32) (name : CString) (x : Instance cfg) : Prop where
  applicationName : x.applicationName = name
  connected : Connected cfg c x.table
  unsent : (x.table.slot c).configuration &&& handshakeMask ≠ handshakeSent
  unnamed : (x.table.slot c).applicationName = none
  proper : ∀ i, ContextSystem.Proper cfg (x.readers i).data
  unheld : ∀ i, c ∉ (x.readers i).data.held
  settled : Settled x
  log : x.log = []

def Starts (S : Setup) (s : State S) : Prop :=
  (∀ p, Joined (S.context p) (S.name p) (s.ends p)) ∧ ∀ p, s.got p = []

def system (S : Setup) : StepSystem (State S) (Label S) := .ofNext (Starts S) next

/-! ## Logs only grow -/

section logs
variable {cfg : BuildConfig} {x x' : Instance cfg}

theorem log_acquire {i : Fin cfg.inboundCount} {o : HandshakeOutcome} (h : x.acquire i o = some x') :
    x.log <+: x'.log := by
  obtain ⟨r, context, written, -, -, -, rfl⟩ := Instance.acquire_eq_some h
  exact List.prefix_append _ _

theorem log_read {i : Fin cfg.inboundCount} {k : Nat} {m : ConnectorMessage} (h : x.read i k m = some x') :
    x.log <+: x'.log := by
  obtain ⟨-, -, context, -, rfl⟩ := Instance.read_eq_some h
  exact List.prefix_refl _

theorem log_enqueueInbound {i : Fin cfg.inboundCount} (h : x.enqueueInbound i = some x') : x.log <+: x'.log := by
  obtain ⟨m, -, rfl⟩ := Option.map_eq_some_iff.mp h
  exact List.prefix_refl _

theorem log_acquireOutbound {j : Fin cfg.outboundCount} {k : Nat} (h : x.acquireOutbound j k = some x') :
    x.log <+: x'.log := by
  obtain ⟨-, m, -, rfl⟩ := Instance.acquireOutbound_eq_some h
  exact List.prefix_refl _

theorem log_send {j : Fin cfg.outboundCount} {written : Retcode} (h : x.send j written = some x') : x.log <+: x'.log := by
  obtain ⟨m, -, rfl⟩ := Option.map_eq_some_iff.mp h
  dsimp only
  split
  · exact List.prefix_append _ _
  · exact List.prefix_refl _

theorem log_acquireInbound {j : Fin cfg.dispatchCount} {k : Nat} {o : CallbackOutcome}
    (h : x.acquireInbound j k o = some x') : x.log <+: x'.log := by
  obtain ⟨-, m, -, rfl⟩ := Instance.acquireInbound_eq_some h
  exact List.prefix_refl _

theorem log_act {j : Fin cfg.dispatchCount} {block : Option Nat} (h : x.act j block = some x') : x.log <+: x'.log := by
  obtain ⟨a, rest, -, hperform⟩ := Instance.act_eq_some h
  obtain ⟨-, -, -, -, -, es, hlog⟩ := Instance.frame_perform hperform
  rw [hlog]
  exact List.prefix_append _ _

end logs

/-! ## Every run -/

/-- Both ends count right, and each has read a part of what the other has sent. -/
structure Inv (s : State S) : Prop where
  side : ∀ p, SideInv (S.context p) (S.name p) (S.name p.peer) (s.got p) (s.ends p)
  got : ∀ p, s.got p <+: s.sent p.peer

variable {s s' : State S}

theorem sent_setEnd_self (s : State S) (p : Party) (x : Instance (S.cfg p)) :
    (s.setEnd p x).sent p = frames (S.context p) x.log := by
  simp [State.sent, State.setEnd]

theorem sent_setEnd_of_ne (s : State S) {p r : Party} (x : Instance (S.cfg p)) (h : r ≠ p) :
    (s.setEnd p x).sent r = s.sent r := by
  simp [State.sent, State.setEnd, Function.update_of_ne h]

theorem sent_prefix_setEnd (s : State S) {p : Party} {x : Instance (S.cfg p)} (hlog : (s.ends p).log <+: x.log)
    (r : Party) : s.sent r <+: (s.setEnd p x).sent r := by
  by_cases hr : r = p
  · subst hr
    rw [sent_setEnd_self]
    exact hlog.filterMap _
  · rw [sent_setEnd_of_ne s x hr]

theorem Inv.setEnd (hs : Inv s) {p : Party} {x : Instance (S.cfg p)}
    (hside : SideInv (S.context p) (S.name p) (S.name p.peer) (s.got p) x) (hlog : (s.ends p).log <+: x.log) :
    Inv (s.setEnd p x) := by
  refine ⟨?_, ?_⟩
  · exact (Function.forall_update_iff s.ends fun r y =>
      SideInv (S.context r) (S.name r) (S.name r.peer) (s.got r) y).mpr ⟨hside, fun r _ => hs.side r⟩
  · exact fun r => (hs.got r).trans (sent_prefix_setEnd s hlog r.peer)

theorem count_le_of_prefix {ms ns : List ConnectorMessage} (internal : Bool) (h : ms <+: ns) :
    count internal ms ≤ count internal ns := h.sublist.countP_le

/-- A party sends at most one internal handshake, so its peer gets at most one. -/
theorem Inv.count_got (hs : Inv s) (p : Party) : count true (s.got p) ≤ 1 := by
  have hle := count_le_of_prefix true (hs.got p)
  have hsent : count true (s.sent p.peer) = flagged (s.ends p.peer).table (S.context p.peer) := (hs.side p.peer).sent
  have hflag := flagged_le (s.ends p.peer).table (S.context p.peer)
  omega

theorem inv_receive {p : Party} {i : Fin (S.cfg p).inboundCount} {k : Nat} (hs : Inv s)
    (h : s.receive p i k = some s') : Inv s' := by
  unfold State.receive at h
  split at h
  · rename_i hcontext
    obtain ⟨m, hm, h⟩ := Option.bind_eq_some_iff.mp h
    obtain ⟨x, hx, rfl⟩ := Option.map_eq_some_iff.mp h
    obtain ⟨rest, hrest⟩ := hs.got p
    obtain ⟨tail, rfl⟩ : ∃ tail, rest = m :: tail := by
      rw [State.wire, Party.peer_peer, ← hrest, List.drop_left] at hm
      exact List.head?_eq_some_iff.mp hm
    have hmem : m ∈ s.sent p.peer := by
      rw [← hrest]
      exact List.mem_append_right _ List.mem_cons_self
    have hside := sideInv_read (hs.side p) ((hs.side p.peer).wrote m hmem) hcontext hx
    refine ⟨?_, ?_⟩
    · intro r
      by_cases hr : r = p
      · subst hr
        simp only [State.setEnd, Function.update_self]
        exact hside
      · simp only [State.setEnd, Function.update_of_ne hr]
        exact hs.side r
    · intro r
      have hgrow := sent_prefix_setEnd s (log_read hx) r.peer
      by_cases hr : r = p
      · subst hr
        show Function.update s.got r (s.got r ++ [m]) r <+: _
        rw [Function.update_self]
        refine List.IsPrefix.trans ?_ hgrow
        exact ⟨tail, by rw [List.append_assoc, List.singleton_append, hrest]⟩
      · show Function.update s.got p (s.got p ++ [m]) r <+: _
        rw [Function.update_of_ne hr]
        exact (hs.got r).trans hgrow
  · cases h

theorem inv_next {a : Label S} (hs : Inv s) (h : next s a = some s') : Inv s' := by
  cases a with
  | acquire p i =>
    obtain ⟨x, hx, rfl⟩ := Option.map_eq_some_iff.mp h
    exact hs.setEnd (sideInv_acquire (hs.side p) hx) (log_acquire hx)
  | receive p i k => exact inv_receive hs h
  | enqueueInbound p i =>
    obtain ⟨x, hx, rfl⟩ := Option.map_eq_some_iff.mp h
    exact hs.setEnd (sideInv_enqueueInbound (hs.side p) hx) (log_enqueueInbound hx)
  | writeMessage p context type htype message =>
    obtain rfl := Option.some.inj h
    exact hs.setEnd (sideInv_writeMessage (hs.side p) htype true context message) (List.prefix_refl _)
  | acquireOutbound p j k =>
    obtain ⟨x, hx, rfl⟩ := Option.map_eq_some_iff.mp h
    exact hs.setEnd (sideInv_acquireOutbound (hs.side p) hx) (log_acquireOutbound hx)
  | send p j =>
    obtain ⟨x, hx, rfl⟩ := Option.map_eq_some_iff.mp h
    exact hs.setEnd (sideInv_send (hs.side p) hx) (log_send hx)
  | acquireInbound p j k =>
    obtain ⟨x, hx, rfl⟩ := Option.map_eq_some_iff.mp h
    exact hs.setEnd (sideInv_acquireInbound (hs.side p) hx) (log_acquireInbound hx)
  | act p j block =>
    obtain ⟨x, hx, rfl⟩ := Option.map_eq_some_iff.mp h
    exact hs.setEnd (sideInv_act (hs.side p) (hs.count_got p) hx) (log_act hx)

theorem Joined.sideInv {cfg : BuildConfig} {c : UInt32} {name : CString} {x : Instance cfg} (h : Joined c name x)
    (peer : CString) : SideInv c name peer [] x := by
  have hnamed : named x.table c peer = 0 := by
    rw [named, h.unnamed, if_neg (by simp)]
  have hflag : flagged x.table c = 0 := by
    rw [flagged, if_neg h.unsent]
  constructor
  case applicationName => exact h.applicationName
  case connected => exact h.connected
  case proper => exact h.proper
  case acquired => exact fun i hi => absurd hi (h.unheld i)
  case reading => exact fun i m hm => absurd hm (by rw [h.settled.reading i]; simp)
  case inbound => exact fun m hm => absurd hm (by rw [h.settled.inbound]; simp)
  case outbound => exact fun m hm => absurd hm (by rw [h.settled.outbound]; simp)
  case writing => exact fun j m hm => absurd hm (by rw [h.settled.writers j]; simp)
  case acting => exact fun j a ha => absurd ha (by rw [h.settled.dispatchers j]; simp)
  case wrote => exact fun m hm => absurd hm (by rw [h.log]; exact List.not_mem_nil)
  case noticed => exact fun n hn => absurd hn (by rw [h.log]; exact List.not_mem_nil)
  case sent =>
    rw [h.log, hflag]
    rfl
  case replies =>
    rw [h.settled.arriving_eq, h.settled.replying_eq, h.settled.leaving_eq, h.log]
    rfl
  case names =>
    rw [h.settled.arriving_eq, h.settled.naming_eq, hnamed]
    rfl
  case notified =>
    rw [h.settled.arriving_eq, h.settled.notifying_eq, h.log]
    rfl

theorem inv_starts (h : Starts S s) : Inv s := by
  refine ⟨?_, ?_⟩
  · intro p
    rw [h.2 p]
    exact (h.1 p).sideInv _
  · intro p
    rw [h.2 p]
    exact List.nil_prefix

theorem inv_of_reachable (h : (system S).Reachable s) : Inv s := by
  refine h.invariant (P := Inv) ?_ ?_
  · exact fun s hs => inv_starts hs
  · intro s a s' _ hs hstep
    exact inv_next hs hstep

/-! ## What the counts say -/

/-- The frames with the handshake identifier. -/
def handshakeFrames (ms : List ConnectorMessage) : Nat :=
  ms.countP fun m => m.header.messageId = connectorInternalHandshakeUuid

theorem handshakeFrames_eq (ms : List ConnectorMessage) : handshakeFrames ms = count true ms + count false ms := by
  induction ms with
  | nil => rfl
  | cons m ms ih =>
    have hhead : (if m.header.messageId = connectorInternalHandshakeUuid then 1 else 0) =
        (if isHandshake true m = true then 1 else 0) + if isHandshake false m = true then 1 else 0 := by
      unfold isHandshake
      by_cases hid : m.header.messageId = connectorInternalHandshakeUuid
      · cases connectorIdentifyInternal m.header.description <;> simp [hid]
      · simp [hid]
    simp only [handshakeFrames, count, List.countP_cons, decide_eq_true_eq] at ih ⊢
    omega

/-- A party has sent as many replies as its peer has sent handshakes, at most. -/
theorem Inv.replies_le (hs : Inv s) (p : Party) : count false (s.sent p) ≤ count true (s.sent p.peer) := by
  have hreplies := (hs.side p).replies
  have hgot := count_le_of_prefix true (hs.got p)
  show count false (frames (S.context p) (s.ends p).log) ≤ _
  omega

theorem Inv.sent_le (hs : Inv s) (p : Party) : count true (s.sent p) ≤ 1 :=
  (hs.side p).sent.trans_le (flagged_le _ _)

theorem Inv.notices_le (hs : Inv s) (p : Party) : (notices (s.ends p).log).length ≤ 1 := by
  have hnotified := (hs.side p).notified
  have hgot := count_le_of_prefix false (hs.got p)
  have hreplies := hs.replies_le p.peer
  have hsent := hs.sent_le p.peer.peer
  omega

/-- A read thread of the party has the context of the connection. -/
def State.Acquired (s : State S) (p : Party) : Prop := ∃ i, S.context p ∈ ((s.ends p).readers i).data.held

/-- No message of the party is queued, with a thread or under way. -/
def State.Quiet (s : State S) (p : Party) : Prop := Settled (s.ends p) ∧ s.wire p = []

theorem Inv.got_eq (hs : Inv s) {p : Party} (h : s.Quiet p.peer) : s.got p = s.sent p.peer := by
  have hwire := h.2
  rw [State.wire, Party.peer_peer, List.drop_eq_nil_iff] at hwire
  exact (hs.got p).eq_of_length_le hwire

/-- Once both ends have acquired the connection and nothing is left to be done, the handshake of each
party has come all the way. -/
theorem Inv.settled (hs : Inv s) (h : ∀ p, s.Acquired p ∧ s.Quiet p) (p : Party) :
    count true (s.got p) = 1 ∧ (notices (s.ends p).log).length = 1 := by
  have hsent : ∀ r, count true (s.sent r) = 1 := by
    intro r
    obtain ⟨i, hi⟩ := (h r).1
    exact (hs.side r).sent.trans ((hs.side r).acquired i hi)
  have hgot : ∀ r, count true (s.got r) = 1 := by
    intro r
    rw [hs.got_eq (h r.peer).2]
    exact hsent r.peer
  have hreplied : count false (s.sent p.peer) = 1 := by
    have hreplies := (hs.side p.peer).replies
    have hsettled := (h p.peer).2.1
    rw [hgot, hsettled.arriving_eq, hsettled.replying_eq, hsettled.leaving_eq] at hreplies
    show count false (frames (S.context p.peer) (s.ends p.peer).log) = 1
    omega
  have hnotified := (hs.side p).notified
  have hsettled := (h p).2.1
  rw [hs.got_eq (h p.peer).2, hsettled.arriving_eq, hsettled.notifying_eq, hreplied] at hnotified
  exact ⟨hgot p, by omega⟩

/-- **The exchange.** In every reachable state each instance has been notified of the handshake at most
once, and with the name of the other; at most four handshake frames were sent. When both ends have
acquired the connection and nothing is queued or under way, each has been notified exactly once and its
context has the name of the other. -/
theorem handshake_exchanged {s : State S} (h : (system S).Reachable s) :
    (∀ p, (notices (s.ends p).log).length ≤ 1 ∧
      ∀ n ∈ notices (s.ends p).log, n = (S.context p, some (S.name p.peer))) ∧
    handshakeFrames (s.sent .a) + handshakeFrames (s.sent .b) ≤ 4 ∧
    ((∀ p, s.Acquired p ∧ s.Quiet p) → ∀ p,
      notices (s.ends p).log = [(S.context p, some (S.name p.peer))] ∧
        ((s.ends p).table.slot (S.context p)).applicationName.map Pointer.text = some (S.name p.peer)) := by
  have hs := inv_of_reachable h
  refine ⟨fun p => ⟨hs.notices_le p, (hs.side p).noticed⟩, ?_, ?_⟩
  · have ha := hs.sent_le .a
    have hb := hs.sent_le .b
    have hra := hs.replies_le .a
    have hrb := hs.replies_le .b
    dsimp only [Party.peer] at hra hrb
    rw [handshakeFrames_eq, handshakeFrames_eq]
    omega
  · intro hquiet p
    obtain ⟨hgot, hlength⟩ := hs.settled hquiet p
    refine ⟨?_, ?_⟩
    · obtain ⟨n, hn⟩ := List.length_eq_one_iff.mp hlength
      rw [hn, (hs.side p).noticed n (by rw [hn]; exact List.mem_singleton_self n)]
    · have hnames := (hs.side p).names
      have hsettled := (hquiet p).2.1
      rw [hgot, hsettled.arriving_eq, hsettled.naming_eq, named] at hnames
      by_contra hne
      rw [if_neg hne] at hnames
      omega

/-! ## One exchange -/

/-- Party `a` connects, party `b` accepts the connection on a listening context. -/
def pair : Setup where
  cfg _ := .default
  name
    | .a => ⟨[65], by decide⟩
    | .b => ⟨[66], by decide⟩
  context
    | .a => 0
    | .b => 1

def connectRun : List (Instance.Label .default) :=
  [.request (.connect ⟨some 7, true⟩ (some ⟨commTcp, none, 6000⟩) (some 0))]

def acceptRun : List (Instance.Label .default) :=
  [.request (.openContext ⟨none, true, none, some 4, true, 6000, true⟩ (some ⟨commTcp, none, 6000⟩) (some 0)),
    .acquire firstThread ⟨true, .success⟩, .request (.accept (some 9) 0 (some 0))]

def pairStart : State pair where
  ends
    | .a => StepSystem.stateAt Instance.next (.start .default (pair.name .a)) connectRun 1
    | .b => StepSystem.stateAt Instance.next (.start .default (pair.name .b)) acceptRun 3
  got _ := []

theorem starts_pairStart : Starts pair pairStart := by
  refine ⟨?_, fun _ => rfl⟩
  rintro (_ | _)
  · constructor
    case connected => exact ⟨by decide, by decide +kernel, by decide +kernel, by decide +kernel⟩
    case proper => exact fun i => ⟨by revert i; decide +kernel, by revert i; decide +kernel⟩
    case settled =>
      exact ⟨by decide +kernel, by decide +kernel, by decide +kernel, by decide +kernel, by decide +kernel⟩
    all_goals decide +kernel
  · constructor
    case connected => exact ⟨by decide, by decide +kernel, by decide +kernel, by decide +kernel⟩
    case proper => exact fun i => ⟨by revert i; decide +kernel, by revert i; decide +kernel⟩
    case settled =>
      exact ⟨by decide +kernel, by decide +kernel, by decide +kernel, by decide +kernel, by decide +kernel⟩
    all_goals decide +kernel

instance {cfg : BuildConfig} (x : Instance cfg) : Decidable (Settled x) :=
  decidable_of_iff ((∀ i, (x.readers i).reading = none) ∧ x.inbound = [] ∧ x.outbound = [] ∧ (∀ j, x.writers j = none) ∧
      ∀ j, x.dispatchers j = [])
    ⟨fun ⟨h₁, h₂, h₃, h₄, h₅⟩ => ⟨h₁, h₂, h₃, h₄, h₅⟩,
      fun h => ⟨h.reading, h.inbound, h.outbound, h.writers, h.dispatchers⟩⟩

instance (s : State S) (p : Party) : Decidable (s.Acquired p) := inferInstanceAs (Decidable (∃ _, _))

instance (s : State S) (p : Party) : Decidable (s.Quiet p) := inferInstanceAs (Decidable (_ ∧ _))

/-- A frame arrives on the `k`-th context of a read thread and is dispatched, with `n` actions. -/
def deliver (p : Party) (k n : Nat) : List (Label pair) :=
  [.receive p firstThread k, .enqueueInbound p firstThread, .acquireInbound p firstThread 0] ++
    List.replicate n (.act p firstThread 1)

def reply (p : Party) : List (Label pair) := [.acquireOutbound p firstThread 0, .send p firstThread]

/-- The whole exchange, party `b` being the first to answer. -/
def exchangeRun : List (Label pair) :=
  [.acquire .a firstThread, .acquire .b firstThread] ++ deliver .b 1 2 ++ reply .b ++ deliver .a 0 2 ++ reply .a ++
    deliver .a 0 1 ++ deliver .b 1 1

theorem exchanged_exchangeRun :
    ∃ s, (system pair).Reachable s ∧ (∀ p, s.Acquired p ∧ s.Quiet p) ∧
      notices (s.ends .a).log = [(0, some (pair.name .b))] ∧ notices (s.ends .b).log = [(1, some (pair.name .a))] := by
  have hrun : (StepSystem.runList next pairStart exchangeRun).map (fun s => decide
      ((s.Acquired .a ∧ s.Quiet .a) ∧ s.Acquired .b ∧ s.Quiet .b)) = some true := by
    decide +kernel
  obtain ⟨s, hs, hend⟩ := Option.map_eq_some_iff.mp hrun
  have hreach : (system pair).Reachable s := StepSystem.reachable_runList (.init starts_pairStart) hs
  obtain ⟨ha, hb⟩ := of_decide_eq_true hend
  have hquiet : ∀ p, s.Acquired p ∧ s.Quiet p := by
    rintro (_ | _)
    · exact ha
    · exact hb
  have hexchanged := (handshake_exchanged hreach).2.2 hquiet
  exact ⟨s, hreach, hquiet, (hexchanged .a).1, (hexchanged .b).1⟩

end SubstanceConnector.Exchange
