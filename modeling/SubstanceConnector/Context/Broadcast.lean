import SubstanceConnector.Context.Configuration
import SubstanceConnector.Context.Range
import SubstanceConnector.System.Autoconnect

/-!
# Broadcasting over TCP

The names in the default TCP directory are ports. A broadcast connects to those that no TCP context has, by the state,
type and port of every slot, also of the slots whose contexts are back in the free queue: `connector_context_open` and
a shutdown clear such a slot, a connect that failed leaves it filled. The port of a failed connect is therefore
skipped until its context is used again (`broadcast_tcp_exact_iff`).
-/

namespace SubstanceConnector.Broadcast

open ContextSystem

/-! ## The model -/

/-- `strrchr`: the string from the last `c` on. -/
def strrchr (c : UInt8) (s : List UInt8) : Option (List UInt8) :=
  if c ∈ s then some (c :: (s.reverse.takeWhile (· ≠ c)).reverse) else none

def isSpace (c : UInt8) : Bool := c = 0x20 ∨ 0x09 ≤ c ∧ c ≤ 0x0d

def isDigit (c : UInt8) : Bool := 0x30 ≤ c ∧ c ≤ 0x39

/-- The number the digits at the start stand for. -/
def digitsValue (s : List UInt8) : Nat :=
  (s.takeWhile isDigit).foldl (fun n c => 10 * n + (c.toNat - 0x30)) 0

/-- The value `strtol` reads in base 10, before it is cut off at the ends of `long`. -/
def decimalValue (s : List UInt8) : Int :=
  match s.dropWhile isSpace with
  | [] => 0
  | c :: rest =>
    if c = 0x2d then - (digitsValue rest : Int)
    else if c = 0x2b then digitsValue rest
    else digitsValue (c :: rest)

/-- `atoi`, which is `strtol` with its result converted to `int`; `long` has 64 bits. -/
def atoi (s : List UInt8) : Int32 :=
  .ofInt (max (- 2 ^ 63) (min (2 ^ 63 - 1) (decimalValue s)))

/-- `connector_context_port`. -/
def connectorContextPort (t : ContextTable) (context : UInt32) : UInt32 := .ofNat (t.slot context).port

/-- What the loop of `test_tcp_validity` stops at. -/
def hasTcpPort (t : ContextTable) (port : UInt32) (context : UInt32) : Bool :=
  (t.slot context).state ≠ connClosed ∧ (t.slot context).type = commTcp ∧ port = connectorContextPort t context

def testTcpValidity (cfg : BuildConfig) (t : ContextTable) (port : UInt32) : Retcode :=
  if port ≤ 65535 then
    if (ids cfg).any (hasTcpPort t port) then .error else .success
  else .error

/-- The port in the file name of a path. -/
def filenamePort (path : CString) : Option UInt32 :=
  (strrchr pathDelim path.bytes).map fun filename =>
    -- one character further, unless at the terminator
    (atoi (if filename ≠ [] then filename.tail else filename)).toUInt32

/-- `connect_tcp_path_impl`, with the port it connects to, if it does. -/
def connectTcpPathImpl (cfg : BuildConfig) (o : CString → ContextTable → ConnectOutcome) (path : CString)
    (t : ContextTable) : Except Fault (Retcode × Option UInt32 × ContextTable) :=
  match filenamePort path with
  | none => .error .nullDereference
  | some port =>
    if testTcpValidity cfg t port = .success then do
      let r ← connectorContextConnectTcp cfg (o path t) t port (some 0)
      pure (r.1, some port, r.2.2)
    else pure (.success, none, t)

/-- `connector_broadcast_connect_tcp`, with the default directory; what the system answers to a connect may depend on
everything before it. -/
def connectorBroadcastConnectTcp (cfg : BuildConfig) (heap : HeapWords) (stat : Stat)
    (opendir : CString → Option (List CString)) (tcpDirectory : CString) (o : CString → ContextTable → ConnectOutcome)
    (t : ContextTable) : Except Fault (Retcode × List (ConnectTurn ContextTable (Option UInt32)) × ContextTable) :=
  broadcastConnectImplOn tcpDirectory (connectorIsFile stat) (connectTcpPathImpl cfg o) heap stat opendir t

/-! ## What it should do -/

/-- A TCP context that has not been returned to the free queue has the port. -/
def InUse (cfg : BuildConfig) (t : ContextTable) (port : UInt32) : Prop :=
  ∃ context, context.toNat < cfg.contextCount ∧ context ∉ t.freeContexts.contents ∧ (t.slot context).type = commTcp ∧
    connectorContextPort t context = port

/-- A context in the free queue still reads as a TCP context with the port. -/
def LeftBehind (cfg : BuildConfig) (t : ContextTable) (port : UInt32) : Prop :=
  ∃ context, context.toNat < cfg.contextCount ∧ context ∈ t.freeContexts.contents ∧ hasTcpPort t port context = true

/-- A turn connects to the port of its file exactly if no context in use has it. -/
def ExactTcp (cfg : BuildConfig) (stat : Stat) (tcpDirectory : CString)
    (turn : ConnectTurn ContextTable (Option UInt32)) : Prop :=
  ∀ port, (∃ retcode, turn.connected = some (retcode, some port)) ↔
    connectorIsFile stat (connectorPathJoin tcpDirectory turn.name) = .success ∧
      filenamePort (connectorPathJoin tcpDirectory turn.name) = some port ∧ port ≤ 65535 ∧ ¬ InUse cfg turn.before port

/-- No slot in the free queue misleads the turn. -/
def Spared (cfg : BuildConfig) (stat : Stat) (tcpDirectory : CString)
    (turn : ConnectTurn ContextTable (Option UInt32)) : Prop :=
  connectorIsFile stat (connectorPathJoin tcpDirectory turn.name) = .success →
    ∀ port ∈ filenamePort (connectorPathJoin tcpDirectory turn.name), port ≤ 65535 →
      LeftBehind cfg turn.before port → InUse cfg turn.before port

/-! ## No slot with a type reads as closed -/

/-- Whoever has the type of a TCP context has a state, in use or not. -/
def Marked (t : ContextTable) : Prop := ∀ c ∈ t.contextList, c.type = commTcp → c.state ≠ connClosed

section marked
variable {cfg : BuildConfig} {t u : ContextTable}

theorem or_ne_closed (word : UInt64) {bit : UInt64} (hbit : bit &&& connMask ≠ 0) :
    (word ||| bit) &&& connMask ≠ connClosed := by
  rw [or_and_distrib]
  exact fun hzero => hbit (UInt64.or_eq_zero_iff.mp hzero).2

theorem Marked.wrote {context : UInt32} {c : ConnectorContext} (h : Marked t) (hwrote : Wrote cfg t u context c)
    (hc : c.type = commTcp → c.state ≠ connClosed) : Marked u := by
  intro d hd htype
  rw [hwrote.2] at hd
  rcases List.mem_or_eq_of_mem_set hd with hmem | rfl
  · exact h d hmem htype
  · exact hc htype

theorem Marked.of_slots (h : Marked t) (hu : u.contextList = t.contextList) : Marked u := by
  intro d hd
  rw [hu] at hd
  exact h d hd

theorem Marked.slot (h : Marked t) {context : UInt32} (htype : (t.slot context).type = commTcp) :
    (t.slot context).state ≠ connClosed := by
  rw [ContextTable.slot, List.getD_eq_getElem?_getD] at htype ⊢
  cases hget : t.contextList[context.toNat]? with
  | none =>
    rw [hget] at htype
    exact absurd htype (by decide)
  | some c =>
    rw [hget] at htype
    exact h c (List.mem_of_getElem? hget) htype

theorem Marked.writes {call : Call} {begun : Option UInt32} (h : Marked t) (hwrites : Writes cfg t u call begun) :
    Marked u := by
  cases hwrites with
  | same hu => exact h.of_slots hu
  | opened htaken hpopped hcopy hopen hsuccess hwrote =>
    refine h.wrote hwrote fun _ => ?_
    rw [ConnectorContext.state, configuration_openConnection hopen]
    exact or_ne_closed _ (by decide)
  | openFailed htaken hwrote => exact h.wrote hwrote fun htype => absurd htype (by decide)
  | connected htaken hbridge hsuccess hwrote => exact h.wrote hwrote fun _ => or_ne_closed _ (by decide)
  | connectFailed htaken hbridge hfailed hwrote =>
    refine h.wrote hwrote fun _ => ?_
    rw [ConnectorContext.state, ← hbridge, configuration_bridgeConnection]
    exact or_ne_closed _ (by decide)
  | accepted htaken hlistener hincoming hwrote => exact h.wrote hwrote fun _ => or_ne_closed _ (by decide)
  | closed huse hwrote => exact h.wrote hwrote fun _ => or_ne_closed _ (by decide)
  | @sent o context hstate hwrote =>
    refine h.wrote hwrote fun _ => ?_
    have hflag : handshakeSent &&& connMask = 0 := by decide
    show ((t.slot context).configuration ||| handshakeSent) &&& connMask ≠ connClosed
    rw [or_and_distrib, hflag, UInt64.or_zero]
    exact fun hclosed => absurd (hstate.symm.trans hclosed) (by decide)
  | shut hwrote => exact h.wrote hwrote fun htype => absurd htype (by decide)

theorem Marked.cleanupLoop {closed : UInt32 → Bool} {i : Nat} {retcode : Retcode} {thread : ReadThread}
    {r : Retcode × ReadThread × ContextTable} (h : Marked t)
    (hr : cleanupLoop cfg closed i retcode thread t = .ok r) : Marked r.2.2 := by
  refine cleanupLoop_keeps (P := Marked) (fun ht hshut => ?_) h hr
  obtain ⟨hwrote, -⟩ | ⟨-, htable, -⟩ := shutdown_cases hshut
  · exact ht.wrote hwrote fun htype => absurd htype (by decide)
  · rw [htable]
    exact ht

theorem Marked.next {s s' : State} {a : Label} (h : Marked s.table) (hstep : next cfg s a = some s') :
    Marked s'.table := by
  cases next_cases hstep with
  | openContext hr => exact h.writes (writes_open hr)
  | connect hr => exact h.writes (writes_connect hr)
  | accept hr => exact h.writes (writes_accept hr)
  | close context => exact h.writes (writes_close context)
  | @acquire i o thread r hi hr =>
    show Marked r.2.2
    obtain ⟨u, hpop, rfl⟩ | ⟨context, u, hpop, -, rfl⟩ := readThreadTryAcquire_cases hr
    · exact h.of_slots (contextList_availableQueuePop hpop)
    · exact (h.of_slots (contextList_availableQueuePop hpop)).writes (writes_writeHandshake o context)
  | cleanup hi hr => exact h.cleanupLoop hr

theorem marked_of_reachable {n : Nat} {s : State} (h : (system cfg n).Reachable s) : Marked s.table := by
  refine h.invariant (P := fun s => Marked s.table) ?_ fun _ _ _ _ hs hstep => hs.next hstep
  rintro s ⟨hstart, -, -, -⟩ c hc htype
  obtain ⟨t, ht, hlist, -, -⟩ := startTable_rep cfg
  obtain rfl : t = s.table := Except.ok.inj (ht.symm.trans hstart)
  rw [hlist] at hc
  rw [List.eq_of_mem_replicate hc] at htype
  exact absurd htype (by decide)

end marked

/-! ## What a turn finds -/

section turns
variable {cfg : BuildConfig} {t : ContextTable} {port : UInt32} {stat : Stat} {tcpDirectory : CString}
  {o : CString → ContextTable → ConnectOutcome}

theorem hasTcpPort_iff {context : UInt32} : hasTcpPort t port context = true ↔
    (t.slot context).state ≠ connClosed ∧ (t.slot context).type = commTcp ∧ port = connectorContextPort t context :=
  decide_eq_true_iff

/-- A port is valid if no slot reads as a context with it, wherever that context is. -/
theorem testTcpValidity_iff (hmarked : Marked t) :
    testTcpValidity cfg t port = .success ↔ port ≤ 65535 ∧ ¬ InUse cfg t port ∧ ¬ LeftBehind cfg t port := by
  have hany : (ids cfg).any (hasTcpPort t port) = true ↔ InUse cfg t port ∨ LeftBehind cfg t port := by
    rw [List.any_eq_true]
    refine ⟨?_, ?_⟩
    · rintro ⟨context, hrange, hport⟩
      rw [mem_ids] at hrange
      obtain ⟨-, htype, heq⟩ := hasTcpPort_iff.mp hport
      by_cases hfree : context ∈ t.freeContexts.contents
      · exact .inr ⟨context, hrange, hfree, hport⟩
      · exact .inl ⟨context, hrange, hfree, htype, heq.symm⟩
    · rintro (⟨context, hrange, -, htype, heq⟩ | ⟨context, hrange, -, hport⟩)
      · exact ⟨context, mem_ids.mpr hrange, hasTcpPort_iff.mpr ⟨hmarked.slot htype, htype, heq.symm⟩⟩
      · exact ⟨context, mem_ids.mpr hrange, hport⟩
  unfold testTcpValidity
  by_cases hsmall : port ≤ 65535
  · rw [if_pos hsmall, ← not_or, ← hany]
    by_cases hfound : (ids cfg).any (hasTcpPort t port) = true
    · simp [hfound]
    · simp [hfound, hsmall]
  · simp [hsmall]

/-- What a turn connects to. -/
theorem attempted_iff {name : CString} {r : ConnectTurn ContextTable (Option UInt32) × ContextTable}
    (h : tryPath tcpDirectory (connectorIsFile stat) (connectTcpPathImpl cfg o) name t = .ok r) :
    (∃ retcode, r.1.connected = some (retcode, some port)) ↔
      connectorIsFile stat (connectorPathJoin tcpDirectory name) = .success ∧
        filenamePort (connectorPathJoin tcpDirectory name) = some port ∧ testTcpValidity cfg t port = .success := by
  obtain ⟨hfile, c, hc, rfl⟩ | ⟨hfile, rfl⟩ := tryPath_cases h
  · unfold connectTcpPathImpl at hc
    cases hport : filenamePort (connectorPathJoin tcpDirectory name) with
    | none =>
      rw [hport] at hc
      cases hc
    | some found =>
      rw [hport] at hc
      dsimp only at hc
      by_cases hvalid : testTcpValidity cfg t found = .success
      · rw [if_pos hvalid] at hc
        obtain ⟨x, -, hc⟩ := bind_eq_ok.mp hc
        obtain rfl := Except.ok.inj hc
        simp only [hfile, true_and]
        refine ⟨?_, ?_⟩
        · rintro ⟨retcode, hconnected⟩
          obtain rfl : found = port := by simpa using (congrArg (Option.map Prod.snd) hconnected)
          exact ⟨rfl, hvalid⟩
        · rintro ⟨heq, -⟩
          obtain rfl : found = port := Option.some.inj heq
          exact ⟨_, rfl⟩
      · rw [if_neg hvalid] at hc
        obtain rfl := Except.ok.inj hc
        refine iff_of_false (by simp) ?_
        rintro ⟨-, heq, hport'⟩
        obtain rfl : found = port := Option.some.inj heq
        exact hvalid hport'
  · exact iff_of_false (by simp) fun hall => hfile hall.1

theorem strrchr_join (directory name : CString) :
    ∃ filename, strrchr pathDelim (connectorPathJoin directory name).bytes = some filename := by
  refine ⟨_, if_pos ?_⟩
  show pathDelim ∈ directory.bytes ++ pathDelim :: name.bytes
  simp

/-- Of a name without a delimiter it is the number the name begins with. -/
theorem filenamePort_join (directory : CString) {name : CString} (hname : pathDelim ∉ name.bytes) :
    filenamePort (connectorPathJoin directory name) = some (atoi name.bytes).toUInt32 := by
  have hlast : strrchr pathDelim (connectorPathJoin directory name).bytes = some (pathDelim :: name.bytes) := by
    show strrchr pathDelim (directory.bytes ++ pathDelim :: name.bytes) = _
    have htake : (name.bytes.reverse ++ pathDelim :: directory.bytes.reverse).takeWhile (· ≠ pathDelim) =
        name.bytes.reverse := by
      rw [List.takeWhile_append_of_pos]
      · simp
      · intro c hc
        rw [List.mem_reverse] at hc
        exact decide_eq_true fun heq => hname (heq ▸ hc)
    rw [strrchr, if_pos (by simp), List.reverse_append, List.reverse_cons, List.append_assoc,
      List.singleton_append, htake, List.reverse_reverse]
  rw [filenamePort, hlast]
  rfl

/-- A turn is exact if and only if no slot in the free queue misleads it. -/
theorem exactTcp_iff (hmarked : Marked t) {name : CString} {r : ConnectTurn ContextTable (Option UInt32) × ContextTable}
    (h : tryPath tcpDirectory (connectorIsFile stat) (connectTcpPathImpl cfg o) name t = .ok r) :
    ExactTcp cfg stat tcpDirectory r.1 ↔ Spared cfg stat tcpDirectory r.1 := by
  unfold ExactTcp Spared
  rw [(tryPath_follows h).1, tryPath_before h]
  simp only [attempted_iff h, testTcpValidity_iff hmarked]
  refine ⟨fun hexact hfile port hport hsmall hleft => ?_, fun hspared port => ?_⟩
  · by_contra hunused
    exact ((hexact port).mpr ⟨hfile, hport, hsmall, hunused⟩).2.2.2.2 hleft
  · refine ⟨?_, ?_⟩
    · rintro ⟨hfile, hport, hsmall, hunused, -⟩
      exact ⟨hfile, hport, hsmall, hunused⟩
    · rintro ⟨hfile, hport, hsmall, hunused⟩
      exact ⟨hfile, hport, hsmall, hunused, fun hleft => hunused (hspared hfile port hport hsmall hleft)⟩

end turns

/-! ## Broadcasts in every run -/

section runs
variable {cfg : BuildConfig} {n : Nat} {t : ContextTable}

/-- The table of a reachable state. -/
def Reached (cfg : BuildConfig) (n : Nat) (t : ContextTable) : Prop := ∃ s, (system cfg n).Reachable s ∧ s.table = t

theorem Reached.marked (h : Reached cfg n t) : Marked t := by
  obtain ⟨s, hs, rfl⟩ := h
  exact marked_of_reachable hs

theorem Reached.connect (h : Reached cfg n t) (o : ConnectOutcome) (port identifier : UInt32) :
    ∃ r, connectorContextConnectTcp cfg o t port (some identifier) = .ok r ∧ Reached cfg n r.2.2 := by
  obtain ⟨s, hs, rfl⟩ := h
  obtain ⟨r, hr⟩ := contextConnect_returns (free_in_range hs) (available_live hs) o ⟨commTcp, none, port⟩ identifier
  have hstep : next cfg s (.connect o (some ⟨commTcp, none, port⟩) (some identifier)) =
      some (s.moveTo r.2.2 s.threads) :=
    toOption_map_eq_some.mpr ⟨r, hr, rfl⟩
  exact ⟨r, hr, _, .step hs hstep, rfl⟩

/-- Every turn of a broadcast starts in a reachable state, and none of them fails to return. -/
theorem Reached.connectTcpPathImpl {directory name : CString} {o : CString → ContextTable → ConnectOutcome}
    (h : Reached cfg n t) :
    ∃ r, connectTcpPathImpl cfg o (connectorPathJoin directory name) t = .ok r ∧ Reached cfg n r.2.2 := by
  obtain ⟨filename, hfilename⟩ := strrchr_join directory name
  unfold Broadcast.connectTcpPathImpl
  cases hport : filenamePort (connectorPathJoin directory name) with
  | none =>
    rw [filenamePort, hfilename] at hport
    cases hport
  | some port =>
    dsimp only
    by_cases hvalid : testTcpValidity cfg t port = .success
    · obtain ⟨r, hr, hafter⟩ := h.connect (o (connectorPathJoin directory name) t) port 0
      rw [if_pos hvalid, hr]
      exact ⟨_, rfl, hafter⟩
    · rw [if_neg hvalid]
      exact ⟨_, rfl, h⟩

end runs

/-- The broadcast returns, with one turn for every name that is not hidden, and each does what it should. -/
def ExactBroadcastTcp (cfg : BuildConfig) (heap : HeapWords) (stat : Stat) (opendir : CString → Option (List CString))
    (tcpDirectory : CString) (o : CString → ContextTable → ConnectOutcome) (t : ContextTable) (entries : List CString) :
    Prop :=
  ∃ retcode run, connectorBroadcastConnectTcp cfg heap stat opendir tcpDirectory o t = .ok (retcode, run) ∧
    run.1.map (·.name) = visible entries ∧ ∀ turn ∈ run.1, ExactTcp cfg stat tcpDirectory turn

section broadcast
variable {cfg : BuildConfig} {n : Nat} {t : ContextTable} {stat : Stat} {opendir : CString → Option (List CString)}
  {tcpDirectory : CString} {entries : List CString} {o : CString → ContextTable → ConnectOutcome}

theorem exactBroadcastTcp_iff_of_lt (hdir : HasType stat sIfdir tcpDirectory)
    (hentries : opendir tcpDirectory = some entries) (hlt : (visible entries).length < connectorDefaultFileListSize)
    (heap : HeapWords) {run : List (ConnectTurn ContextTable (Option UInt32)) × ContextTable}
    (hrun : tryPaths tcpDirectory (connectorIsFile stat) (connectTcpPathImpl cfg o) (visible entries) t = .ok run)
    (hmarked : ∀ turn ∈ run.1, Marked turn.before) :
    ExactBroadcastTcp cfg heap stat opendir tcpDirectory o t entries ↔
      ∀ turn ∈ run.1, Spared cfg stat tcpDirectory turn := by
  have hiff : ∀ turn ∈ run.1, (ExactTcp cfg stat tcpDirectory turn ↔ Spared cfg stat tcpDirectory turn) := by
    intro turn hturn
    obtain ⟨u, hturn'⟩ := tryPaths_turn hrun hturn
    exact exactTcp_iff (hmarked turn hturn) hturn'
  obtain ⟨retcode, hbroadcast⟩ := broadcastConnectImplOn_of_lt heap hdir hentries hlt hrun
  obtain ⟨hnames, -⟩ := tryPaths_follows hrun
  refine ⟨?_, fun hspared => ⟨retcode, run, hbroadcast, hnames, fun turn hturn => ?_⟩⟩
  · rintro ⟨retcode', run', hbroadcast', -, hexact⟩ turn hturn
    obtain ⟨-, rfl⟩ := Prod.mk.inj (Except.ok.inj (hbroadcast.symm.trans hbroadcast'))
    exact (hiff turn hturn).mp (hexact turn hturn)
  · exact (hiff turn hturn).mpr (hspared turn hturn)

end broadcast

/-- **One connection for each port.** From every reachable state the loop of a broadcast runs through reachable states.
It connects exactly to the ports that no context in use has, whatever was in memory, if and only if there are few
enough names and no turn finds a slot in the free queue that still reads as a context with its port. -/
theorem broadcast_tcp_exact_iff (cfg : BuildConfig) (n : Nat) {s : State} (h : (system cfg n).Reachable s) (stat : Stat)
    (opendir : CString → Option (List CString)) (tcpDirectory : CString) (entries : List CString)
    (o : CString → ContextTable → ConnectOutcome) (hdir : HasType stat sIfdir tcpDirectory)
    (hentries : opendir tcpDirectory = some entries) :
    ∃ run, tryPaths tcpDirectory (connectorIsFile stat) (connectTcpPathImpl cfg o) (visible entries) s.table = .ok run ∧
      (∀ turn ∈ run.1, Reached cfg n turn.before) ∧
      ((∀ heap, ExactBroadcastTcp cfg heap stat opendir tcpDirectory o s.table entries) ↔
        (visible entries).length < connectorDefaultFileListSize ∧
          ∀ turn ∈ run.1, Spared cfg stat tcpDirectory turn) := by
  have hstart : Reached cfg n s.table := ⟨s, h, rfl⟩
  obtain ⟨run, hrun, -, hreached⟩ := @tryPaths_returns ContextTable (Option UInt32) tcpDirectory (connectorIsFile stat)
    (connectTcpPathImpl cfg o) s.table (Reached cfg n) (fun name t ht => ht.connectTcpPathImpl) (visible entries) hstart
  have hmarked : ∀ turn ∈ run.1, Marked turn.before := fun turn hturn => (hreached turn hturn).marked
  refine ⟨run, hrun, hreached, fun hall => ?_, ?_⟩
  · have hlt : (visible entries).length < connectorDefaultFileListSize := by
      by_contra hle
      obtain ⟨retcode, result, hresult, -⟩ := hall fun _ _ => 1
      exact broadcastConnectImplOn_of_le hdir hentries (Nat.not_lt.mp hle) _ hresult
    exact ⟨hlt, (exactBroadcastTcp_iff_of_lt hdir hentries hlt (fun _ _ => 0) hrun hmarked).mp (hall _)⟩
  · rintro ⟨hlt, hspared⟩ heap
    exact (exactBroadcastTcp_iff_of_lt hdir hentries hlt heap hrun hmarked).mpr hspared

instance (cfg : BuildConfig) (t : ContextTable) (port : UInt32) : Decidable (InUse cfg t port) :=
  decidable_of_iff (∃ context ∈ ids cfg, context ∉ t.freeContexts.contents ∧ (t.slot context).type = commTcp ∧
    connectorContextPort t context = port) (by simp only [InUse, mem_ids])

instance (cfg : BuildConfig) (t : ContextTable) (port : UInt32) : Decidable (LeftBehind cfg t port) :=
  decidable_of_iff (∃ context ∈ ids cfg, context ∈ t.freeContexts.contents ∧ hasTcpPort t port context = true)
    (by simp only [LeftBehind, mem_ids])

/-- The file of an instance that listens on port 8080, in a directory with nothing else. -/
def name8080 : CString := ⟨[0x38, 0x30, 0x38, 0x30], by decide⟩

def listing8080 : Stat := fun path =>
  if path = portDirectoryPath then some 0o040755
  else if path = connectorPathJoin portDirectoryPath name8080 then some 0o100644
  else none

theorem hasType_listing8080 : HasType listing8080 sIfdir portDirectoryPath := ⟨0o040755, by decide, by decide⟩

theorem filenamePort_name8080 : filenamePort (connectorPathJoin portDirectoryPath name8080) = some 8080 := by
  rw [filenamePort_join _ (by decide)]
  decide

/-- With one name there is one turn, and it starts where the broadcast does. -/
theorem tryPaths_name8080 {cfg : BuildConfig} {o : CString → ContextTable → ConnectOutcome} {t : ContextTable}
    {run : List (ConnectTurn ContextTable (Option UInt32)) × ContextTable}
    (hrun : tryPaths portDirectoryPath (connectorIsFile listing8080) (connectTcpPathImpl cfg o) (visible [name8080]) t =
      .ok run) : ∃ turn, run.1 = [turn] ∧ turn.name = name8080 ∧ turn.before = t := by
  have hvisible : visible [name8080] = [name8080] := by decide
  rw [hvisible] at hrun
  obtain ⟨turn, hturn, hrun⟩ := bind_eq_ok.mp hrun
  obtain rfl := Except.ok.inj hrun
  exact ⟨turn.1, rfl, (tryPath_follows hturn).1, tryPath_before hturn⟩

theorem broadcast_tcp_exact_iff_fresh :
    (system .default 2).Reachable (.start .default 2) ∧
      ∀ heap, ExactBroadcastTcp .default heap listing8080 (fun _ => some [name8080]) portDirectoryPath
        (fun _ _ => ⟨some 3, true⟩) (State.start .default 2).table [name8080] := by
  have hreach : (system .default 2).Reachable (.start .default 2) := .init (starts_start .default 2)
  obtain ⟨run, hrun, -, hiff⟩ := broadcast_tcp_exact_iff .default 2 hreach listing8080 (fun _ => some [name8080])
    portDirectoryPath [name8080] (fun _ _ => ⟨some 3, true⟩) hasType_listing8080 rfl
  refine ⟨hreach, hiff.mpr ⟨by decide, fun turn hturn _ port hport _ hleft => ?_⟩⟩
  obtain ⟨first, hfirst, hname, hbefore⟩ := tryPaths_name8080 hrun
  rw [hfirst, List.mem_singleton] at hturn
  rw [hturn, hname, filenamePort_name8080] at hport
  rw [hturn, hbefore, ← Option.some.inj hport] at hleft
  exact absurd hleft (by decide +kernel)

/-- A connect to port 8080 that is refused. -/
def refused8080 : Label := .connect ⟨some 3, false⟩ (some ⟨commTcp, none, 8080⟩) (some 0)

/-- After it no context is in use, and the port is skipped. -/
theorem refused_port_skipped :
    ∃ s, (system .default 2).Reachable s ∧ freeEmpty s.table = false ∧ ¬ InUse .default s.table 8080 ∧
      ¬ ExactBroadcastTcp .default (fun _ _ => 0) listing8080 (fun _ => some [name8080]) portDirectoryPath
        (fun _ _ => ⟨some 3, true⟩) s.table [name8080] := by
  have hrun : (next .default (.start .default 2) refused8080).map (fun s =>
      (freeEmpty s.table, decide (InUse .default s.table 8080), decide (LeftBehind .default s.table 8080))) =
        some (false, false, true) := by
    decide +kernel
  obtain ⟨s, hs, hend⟩ := Option.map_eq_some_iff.mp hrun
  simp only [Prod.mk.injEq, decide_eq_false_iff_not, decide_eq_true_eq] at hend
  obtain ⟨hfree, hunused, hleft⟩ := hend
  have hreach : (system .default 2).Reachable s := .step (.init (starts_start .default 2)) hs
  refine ⟨s, hreach, hfree, hunused, fun hexact => hunused ?_⟩
  have hstart : Reached .default 2 s.table := ⟨s, hreach, rfl⟩
  obtain ⟨run, htry, -, hreached⟩ := @tryPaths_returns ContextTable (Option UInt32) portDirectoryPath
    (connectorIsFile listing8080) (connectTcpPathImpl .default fun _ _ => ⟨some 3, true⟩) s.table (Reached .default 2)
    (fun name t ht => ht.connectTcpPathImpl) (visible [name8080]) hstart
  have hspared := (exactBroadcastTcp_iff_of_lt hasType_listing8080 rfl (by decide) _ htry
    fun turn hturn => (hreached turn hturn).marked).mp hexact
  obtain ⟨turn, hturns, hname, hbefore⟩ := tryPaths_name8080 htry
  have hturn := hspared turn (by rw [hturns]; exact List.mem_singleton_self turn)
  unfold Spared at hturn
  rw [hname, hbefore] at hturn
  exact hturn (by decide) 8080 filenamePort_name8080 (by decide) hleft

end SubstanceConnector.Broadcast
