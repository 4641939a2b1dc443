import Mathlib.Data.Finset.Insert
import SubstanceConnector.Context.Calls

/-!
# Who owns the connection data

`connector_context_open` stores a copy of its string in the slot and `clear_context_struct` releases it. A connect
stores the string of its caller in the same field and takes it out again only if it succeeds; a context that it
returns with the string still there can be handed to an accept, and is then released with it (`borrowed_released`).
In runs without such a connect every slot has its own copy or nothing (`connection_data_owned`).
-/

namespace SubstanceConnector.ConnectionData

open ContextSystem

/-! ## The model -/

/-- The table, the blocks in use, the copy made for the use each slot is in, and whether something that is no block
in use has been released. -/
structure State where
  table : ContextTable
  live : Finset Nat
  current : UInt32 → Option Pointer
  invalid : Bool

def connectorBuildDefaultUnixPath : Option Pointer := none

/-- The call, with what `connector_build_default_unix_path` returns. -/
def withDefaultPath : Call → Call
  | .request (.openContext o desc identifier) =>
    .request (.openContext { o with defaultPath := connectorBuildDefaultUnixPath } desc identifier)
  | call => call

/-- The copy an open makes. -/
def copied : Request → Option Pointer
  | .openContext o (some desc) _ => (connectorStrdup o.copy desc.connectionData).toOption.join
  | _ => none

/-- The block a call allocates, once it has got a context. -/
def allocated (t : ContextTable) : Call → Option Nat
  | .request (.openContext o (some desc) (some _)) => if popped t && desc.connectionData.isSome then o.copy else none
  | _ => none

def allocate (live : Finset Nat) : Option Nat → Finset Nat
  | none => live
  | some id => insert id live

/-- The blocks in use after some pointers have been released, and whether all of them were in use. -/
def release (live : Finset Nat) : List Pointer → Finset Nat × Bool
  | [] => (live, true)
  | .block id _ :: rest => if id ∈ live then release (live.erase id) rest else (live, false)
  | .borrowed _ :: _ => (live, false)

/-- A request that succeeds begins a use of the context it returns, a shutdown ends one. -/
def State.used (s : State) (begun : Option UInt32) : Call → UInt32 → Option Pointer
  | .request q =>
    match begun with
    | some context => Function.update s.current context (copied q)
    | none => s.current
  | .shutdownFromReadThread _ context => Function.update s.current context none
  | _ => s.current

/-- A call; the allocator returns blocks that are not in use. -/
def next (cfg : BuildConfig) (s : State) (a : Call) : Option State :=
  let call := withDefaultPath a
  if ∀ id ∈ allocated s.table call, id ∉ s.live then
    (call.run cfg s.table).toOption.map fun r =>
      let released := release (allocate s.live (allocated s.table call)) r.freed
      { table := r.table
        live := released.1
        current := s.used r.begun call
        invalid := s.invalid || !released.2 }
  else none

def State.start (cfg : BuildConfig) : State where
  table := (startTable cfg).toOption.getD ⟨[], .null, .null⟩
  live := ∅
  current _ := none
  invalid := false

def system (cfg : BuildConfig) : StepSystem State Call := .ofNext (· = .start cfg) (next cfg)

/-- The slots own what they hold, no two the same block, and nothing else has been released. -/
structure Owned (s : State) : Prop where
  copies : ∀ c, (s.table.slot c).connectionData = none ∨ ∃ id text,
    (s.table.slot c).connectionData = some (.block id text) ∧ s.current c = some (.block id text) ∧ id ∈ s.live
  distinct : ∀ c d id text text', (s.table.slot c).connectionData = some (.block id text) →
    (s.table.slot d).connectionData = some (.block id text') → c = d
  valid : s.invalid = false

/-- The connection is established: the type exists, the path is not too long, and the system agrees. -/
def Established (cfg : BuildConfig) (o : ConnectOutcome) (desc : ContextDesc) : Prop :=
  (desc.configuration &&& commMask = commTcp ∨ desc.configuration &&& commMask = commUnix ∧
    ∀ path ∈ desc.connectionData, path.length + 1 < cfg.sunPathSize) ∧ o.socket.isSome ∧ o.connect = true

/-- A connect with a string is established, and an accept takes a context that has none. -/
def Clean (cfg : BuildConfig) (s : State) : Call → Prop
  | .request (.connect o (some desc) (some _)) => desc.connectionData.isSome → Established cfg o desc
  | .request (.accept incoming listener (some _)) =>
    listener.toNat < cfg.contextCount ∧ (s.table.slot listener).state = connOpen →
      connectorAcceptConnection incoming (s.table.slot listener) ≠ none →
        ∀ context ∈ taken s.table, (s.table.slot context).connectionData = none
  | _ => True

/-! ## Opening and connecting -/

section structures
variable {cfg : BuildConfig} {c : ConnectorContext}

theorem connectionData_openConnection {o : OpenOutcome} {r : Retcode × ConnectorContext} (hpath : o.defaultPath = none)
    (h : connectorOpenConnection cfg o c = .ok r) (hsuccess : r.1 = .success) :
    r.2.connectionData = c.connectionData ∧ r.2.applicationName = c.applicationName := by
  unfold connectorOpenConnection at h
  split_ifs at h
  · obtain rfl := Except.ok.inj h
    unfold connectorOpenTcpImpl
    dsimp only
    repeat' split
    all_goals exact ⟨rfl, rfl⟩
  · -- without a default path nothing is opened over a Unix socket
    unfold connectorOpenUnix at h
    rw [hpath] at h
    dsimp only at h
    split at h
    · obtain rfl := Except.ok.inj h
      cases hsuccess
    · split at h
      · cases h
      · obtain rfl := Except.ok.inj h
        cases hsuccess
  · obtain rfl := Except.ok.inj h
    cases hsuccess

theorem connectionData_bridgeConnection (o : ConnectOutcome) :
    (connectorBridgeConnection cfg o c).2.connectionData = c.connectionData ∧
      (connectorBridgeConnection cfg o c).2.applicationName = c.applicationName := by
  obtain ⟨fd, hfills⟩ := bridgeConnection_fills o c
  rw [hfills]
  exact ⟨rfl, rfl⟩

theorem type_described (desc : ContextDesc) (data : Option Pointer) :
    (described desc data).type = desc.configuration &&& commMask := by
  have hmask : commMask &&& commMask = commMask := by decide
  have hzero : connOpen &&& commMask = 0 := by decide
  show ((desc.configuration &&& commMask) ||| connOpen) &&& commMask = _
  rw [or_and_distrib, UInt64.and_assoc, hmask, hzero, UInt64.or_zero]

/-- A connection that is established succeeds. -/
theorem Established.success {o : ConnectOutcome} {desc : ContextDesc} (h : Established cfg o desc)
    (hdata : desc.connectionData.isSome) :
    (connectorBridgeConnection cfg o (described desc (desc.connectionData.map .borrowed))).1 = .success := by
  obtain ⟨htype, hsocket, hconnect⟩ := h
  obtain ⟨sock, hsock⟩ := Option.isSome_iff_exists.mp hsocket
  have hbridge : ∀ c, connectorConnectTcpImpl o c = (.success, { c with fd := sock }) := by
    intro c
    rw [connectorConnectTcpImpl, hsock]
    exact if_pos hconnect
  have hconnection : ∀ data, (described desc data).connection = desc.configuration &&& commMask := by
    intro data
    rw [ConnectorContext.connection, type_described]
    refine if_neg ?_
    rcases htype with htcp | ⟨hunix, -⟩
    · rw [htcp]
      decide
    · rw [hunix]
      decide
  rw [connectorBridgeConnection, hconnection]
  rcases htype with htcp | ⟨hunix, hshort⟩
  · rw [if_pos htcp, hbridge]
  · obtain ⟨path, hpath⟩ := Option.isSome_iff_exists.mp hdata
    have hnot : desc.configuration &&& commMask ≠ commTcp := by
      rw [hunix]
      decide
    have hfits := hshort path hpath
    rw [if_neg hnot, if_pos hunix, hpath, connectorConnectUnix]
    show (if path.length + 1 ≥ cfg.sunPathSize then _ else _ : Retcode × ConnectorContext).1 = _
    rw [if_neg (by omega), hbridge]

end structures

/-! ## The invariant -/

structure Inv (cfg : BuildConfig) (s : State) : Prop extends Owned s where
  length : s.table.contextList.length = cfg.contextCount
  unnamed : ∀ c, (s.table.slot c).applicationName = none

section invariant
variable {cfg : BuildConfig} {s : State} {u : ContextTable} {context : UInt32} {c : ConnectorContext}
  {live : Finset Nat} {current : UInt32 → Option Pointer}

/-- The slot holds nothing, or a block in use that no other slot holds. -/
def Holds (s : State) (live : Finset Nat) (current : UInt32 → Option Pointer) (context : UInt32)
    (data : Option Pointer) : Prop :=
  data = none ∨ ∃ id text, data = some (.block id text) ∧ current context = some (.block id text) ∧ id ∈ live ∧
    ∀ d text', d ≠ context → (s.table.slot d).connectionData ≠ some (.block id text')

/-- One slot is written. -/
theorem Inv.wrote (hs : Inv cfg s) (hwrote : Wrote cfg s.table u context c)
    (hholds : Holds s live current context c.connectionData) (hname : c.applicationName = none)
    (hcurrent : ∀ d, d ≠ context → current d = s.current d)
    (hlive : ∀ d id text, d ≠ context → (s.table.slot d).connectionData = some (.block id text) → id ∈ live) :
    Inv cfg ⟨u, live, current, false⟩ := by
  have hself := hwrote.slot_self hs.length
  have hother : ∀ d id text text', d ≠ context → c.connectionData = some (.block id text) →
      (u.slot d).connectionData ≠ some (.block id text') := by
    intro d id text text' hd hc
    rw [hwrote.slot_of_ne hd]
    rcases hholds with hnone | ⟨id', text'', hblock, -, -, hfree⟩
    · rw [hnone] at hc
      cases hc
    · rw [hblock] at hc
      cases hc
      exact hfree d text' hd
  refine ⟨⟨fun d => ?_, fun d e id text text' hd he => ?_, rfl⟩, hwrote.length.trans hs.length, fun d => ?_⟩
  · show (u.slot d).connectionData = none ∨ _
    by_cases hdc : d = context
    · rw [hdc, hself]
      rcases hholds with hnone | ⟨id, text, hblock, hcopy, hin, -⟩
      · exact .inl hnone
      · exact .inr ⟨id, text, hblock, hcopy, hin⟩
    · rw [hwrote.slot_of_ne hdc]
      rcases hs.copies d with hnone | ⟨id, text, hblock, hcopy, -⟩
      · exact .inl hnone
      · exact .inr ⟨id, text, hblock, (hcurrent d hdc).trans hcopy, hlive d id text hdc hblock⟩
  · replace hd : (u.slot d).connectionData = some (.block id text) := hd
    replace he : (u.slot e).connectionData = some (.block id text') := he
    by_cases hdc : d = context
    · by_cases hec : e = context
      · rw [hdc, hec]
      · rw [hdc, hself] at hd
        exact absurd he (hother e id text text' hec hd)
    · by_cases hec : e = context
      · rw [hec, hself] at he
        exact absurd hd (hother d id text' text hdc he)
      · rw [hwrote.slot_of_ne hdc] at hd
        rw [hwrote.slot_of_ne hec] at he
        exact hs.distinct d e id text text' hd he
  · show (u.slot d).applicationName = none
    by_cases hdc : d = context
    · rw [hdc, hself]
      exact hname
    · rw [hwrote.slot_of_ne hdc]
      exact hs.unnamed d

theorem Inv.live_of_block (hs : Inv cfg s) {d : UInt32} {id : Nat} {text : CString}
    (h : (s.table.slot d).connectionData = some (.block id text)) : id ∈ s.live := by
  rcases hs.copies d with hnone | ⟨id', text', hblock, -, hin⟩
  · rw [hnone] at h
    cases h
  · rw [hblock] at h
    cases h
    exact hin

/-- What a slot holds it goes on holding. -/
theorem Inv.holds (hs : Inv cfg s) (context : UInt32) :
    Holds s s.live s.current context (s.table.slot context).connectionData := by
  rcases hs.copies context with hnone | ⟨id, text, hblock, hcopy, hin⟩
  · exact .inl hnone
  · refine .inr ⟨id, text, hblock, hcopy, hin, fun d text' hd hother => hd ?_⟩
    exact hs.distinct d context id text' text hother hblock

/-- A fresh block is held by nobody. -/
theorem Inv.holds_fresh (hs : Inv cfg s) (context : UInt32) {id : Nat} (text : CString) (hfresh : id ∉ s.live) :
    Holds s (insert id s.live) (Function.update s.current context (some (.block id text))) context
      (some (.block id text)) := by
  refine .inr ⟨id, text, rfl, Function.update_self _ _ _, Finset.mem_insert_self _ _, fun d text' _ hother => ?_⟩
  exact hfresh (hs.live_of_block hother)

/-- A shutdown releases the block of the slot, and nobody else's. -/
theorem Inv.released (hs : Inv cfg s) (context : UInt32) :
    (release s.live (s.table.slot context).owned).2 = true ∧
      ∀ d id text, d ≠ context → (s.table.slot d).connectionData = some (.block id text) →
        id ∈ (release s.live (s.table.slot context).owned).1 := by
  rw [ConnectorContext.owned, hs.unnamed context]
  rcases hs.copies context with hnone | ⟨id, text, hblock, -, hin⟩
  · rw [hnone]
    exact ⟨rfl, fun d id text _ hd => hs.live_of_block hd⟩
  · rw [hblock]
    have hrelease : release s.live ([] ++ [Pointer.block id text]) = (s.live.erase id, true) := if_pos hin
    rw [Option.toList_none, Option.toList_some, hrelease]
    refine ⟨rfl, fun d id' text' hdc hd => Finset.mem_erase.mpr ⟨?_, hs.live_of_block hd⟩⟩
    rintro rfl
    exact hdc (hs.distinct d context id' text' text hd hblock)

/-- The copy of an open that has got its context is in a block that was not in use. -/
theorem copied_of_strdup {o : OpenOutcome} {desc : ContextDesc} {identifier : UInt32} {copy : Option Pointer}
    (hpopped : popped s.table = true) (hcopy : connectorStrdup o.copy desc.connectionData = .ok copy)
    (hfresh : ∀ id ∈ allocated s.table (.request (.openContext o (some desc) (some identifier))), id ∉ s.live) :
    copy = none ∧ allocated s.table (.request (.openContext o (some desc) (some identifier))) = none ∨
      ∃ id text, copy = some (.block id text) ∧
        allocated s.table (.request (.openContext o (some desc) (some identifier))) = some id ∧ id ∉ s.live := by
  rw [allocated, hpopped, Bool.true_and] at hfresh ⊢
  unfold connectorStrdup at hcopy
  split at hcopy
  · rename_i hnone
    obtain rfl := Except.ok.inj hcopy
    rw [hnone]
    exact .inl ⟨rfl, rfl⟩
  · rename_i text htext
    split at hcopy
    · cases hcopy
    · rename_i id hid
      obtain rfl := Except.ok.inj hcopy
      rw [htext, hid] at hfresh ⊢
      exact .inr ⟨id, text, rfl, rfl, hfresh id rfl⟩

/-- No default path comes from the outside. -/
def NoDefaultPath : Call → Prop
  | .request (.openContext o _ _) => o.defaultPath = none
  | _ => True

theorem noDefaultPath (a : Call) : NoDefaultPath (withDefaultPath a) := by
  cases a with
  | request q =>
    cases q with
    | openContext o desc identifier => exact rfl
    | _ => trivial
  | _ => trivial

/-- The calls that release nothing. -/
def releases : Call → Bool
  | .shutdownFromReadThread _ _ => true
  | _ => false

theorem Inv.mem_allocate (hs : Inv cfg s) (block : Option Nat) {d : UInt32} {id : Nat} {text : CString}
    (hd : (s.table.slot d).connectionData = some (.block id text)) : id ∈ allocate s.live block := by
  have hin := hs.live_of_block hd
  cases block with
  | none => exact hin
  | some id' => exact Finset.mem_insert_of_mem hin

/-- The slots stay as they are, and blocks are allocated. -/
theorem Inv.same (hs : Inv cfg s) (hu : u.contextList = s.table.contextList) (block : Option Nat) :
    Inv cfg ⟨u, allocate s.live block, s.current, false⟩ := by
  have hslot := slot_of_contextList hu
  refine ⟨⟨fun d => ?_, fun d e => ?_, rfl⟩, (congrArg List.length hu).trans hs.length, fun d => ?_⟩
  · show (u.slot d).connectionData = none ∨ _
    rw [hslot]
    rcases hs.copies d with hnone | ⟨id, text, hblock, hcopy, -⟩
    · exact .inl hnone
    · exact .inr ⟨id, text, hblock, hcopy, hs.mem_allocate block hblock⟩
  · show ∀ id text text', (u.slot d).connectionData = _ → (u.slot e).connectionData = _ → d = e
    rw [hslot, hslot]
    exact hs.distinct d e
  · show (u.slot d).applicationName = none
    rw [hslot]
    exact hs.unnamed d

theorem inv_writes {call : Call} {begun : Option UInt32} (hs : Inv cfg s) (hpath : NoDefaultPath call)
    (hkeeps : releases call = false) (hclean : Clean cfg s call) (hfresh : ∀ id ∈ allocated s.table call, id ∉ s.live)
    (h : Writes cfg s.table u call begun) :
    Inv cfg ⟨u, allocate s.live (allocated s.table call), s.used begun call, false⟩ := by
  cases h with
  | same h =>
    have hused : s.used none call = s.current := by
      cases call with
      | shutdownFromReadThread => cases hkeeps
      | _ => rfl
    rw [hused]
    exact hs.same h _
  | @opened o desc identifier context copy r htaken hpopped hcopy hopen hsuccess hwrote =>
    obtain ⟨hdata, hname⟩ := connectionData_openConnection hpath hopen hsuccess
    have hused : s.used (some context) (.request (.openContext o (some desc) (some identifier))) =
        Function.update s.current context copy := by
      rw [State.used, copied, hcopy]
      cases copy <;> rfl
    rw [hused]
    rcases copied_of_strdup hpopped hcopy hfresh with ⟨rfl, hblock⟩ | ⟨id, text, rfl, hblock, hnew⟩
    · rw [hblock]
      exact hs.wrote hwrote (.inl hdata) hname (fun d hd => Function.update_of_ne hd _ _) fun d id text _ hd =>
        hs.live_of_block hd
    · rw [hblock]
      refine hs.wrote hwrote ?_ hname (fun d hd => Function.update_of_ne hd _ _) fun d id text _ hd =>
        Finset.mem_insert_of_mem (hs.live_of_block hd)
      rw [hdata]
      exact hs.holds_fresh context text hnew
  | openFailed htaken hwrote =>
    exact hs.wrote hwrote (.inl rfl) rfl (fun d hd => rfl) fun d id text _ hd => hs.mem_allocate _ hd
  | connected htaken hbridge hsuccess hwrote =>
    refine hs.wrote hwrote (.inl rfl) ?_ (fun d hd => Function.update_of_ne hd _ _) fun d id text _ hd =>
      hs.live_of_block hd
    rw [← hbridge]
    exact (connectionData_bridgeConnection _).2
  | @connectFailed o desc identifier context r htaken hbridge hfailed hwrote =>
    obtain ⟨hdata, hname⟩ := @connectionData_bridgeConnection cfg (described desc (desc.connectionData.map .borrowed)) o
    have hnone : desc.connectionData = none := by
      rw [← Option.not_isSome_iff_eq_none]
      intro hsome
      refine hfailed ?_
      rw [← hbridge]
      exact (hclean hsome).success hsome
    rw [hbridge] at hdata hname
    refine hs.wrote hwrote (.inl ?_) hname (fun d hd => rfl) fun d id text _ hd => hs.live_of_block hd
    rw [hdata, hnone]
    rfl
  | @accepted incoming listener identifier context fd htaken hlistener hincoming hwrote =>
    have hnone := hclean hlistener (by rw [hincoming]; exact Option.some_ne_none fd) context htaken
    exact hs.wrote hwrote (.inl hnone) (hs.unnamed context) (fun d hd => Function.update_of_ne hd _ _)
      fun d id text _ hd => hs.live_of_block hd
  | closed huse hwrote =>
    exact hs.wrote hwrote (hs.holds _) (hs.unnamed _) (fun d hd => rfl) fun d id text _ hd => hs.live_of_block hd
  | sent hstate hwrote =>
    exact hs.wrote hwrote (hs.holds _) (hs.unnamed _) (fun d hd => rfl) fun d id text _ hd => hs.live_of_block hd
  | shut hwrote => cases hkeeps

/-- A shutdown releases what the slot holds and clears it. -/
theorem inv_shutdown {closed : Bool} {r : ShutdownResult} (hs : Inv cfg s)
    (h : connectorContextShutdownFromReadThread cfg closed s.table context = .ok r) :
    (release s.live r.freed).2 = true ∧
      Inv cfg ⟨r.table, (release s.live r.freed).1, Function.update s.current context none, false⟩ := by
  obtain ⟨hwrote, hfreed⟩ | ⟨hrange, htable, hfreed⟩ := shutdown_cases h
  · obtain ⟨hvalid, hlive⟩ := hs.released context
    rw [hfreed]
    exact ⟨hvalid, hs.wrote hwrote (.inl rfl) rfl (fun d hd => Function.update_of_ne hd _ _) hlive⟩
  · -- there is no such slot
    rw [hfreed, htable]
    refine ⟨rfl, ⟨fun d => ?_, hs.distinct, rfl⟩, hs.length, hs.unnamed⟩
    by_cases hd : d = context
    · left
      have hout : s.table.contextList.length ≤ context.toNat := by
        rw [hs.length]
        omega
      show (s.table.slot d).connectionData = none
      rw [hd, ContextTable.slot, List.getD_eq_getElem?_getD, List.getElem?_eq_none hout]
      rfl
    · rcases hs.copies d with hnone | ⟨id, text, hblock, hcopy, hin⟩
      · exact .inl hnone
      · exact .inr ⟨id, text, hblock, (Function.update_of_ne hd _ _).trans hcopy, hin⟩

/-- Without a default path the same calls are clean. -/
theorem clean_withDefaultPath {a : Call} (h : Clean cfg s a) : Clean cfg s (withDefaultPath a) := by
  cases a with
  | request q =>
    cases q with
    | openContext o desc identifier => trivial
    | connect o desc identifier => exact h
    | accept incoming listener identifier => exact h
  | _ => trivial

theorem inv_next {a : Call} {s' : State} (hs : Inv cfg s) (hclean : Clean cfg s a) (h : next cfg s a = some s') :
    Inv cfg s' := by
  obtain ⟨hfresh, h⟩ := Option.ite_none_right_eq_some.mp h
  obtain ⟨r, hrun, rfl⟩ := toOption_map_eq_some.mp h
  have hwrites := writes_run hrun
  have hpath := noDefaultPath a
  replace hclean := clean_withDefaultPath hclean
  generalize withDefaultPath a = call at hrun hfresh hwrites hpath hclean
  cases hkeeps : releases call with
  | false =>
    have hfreed : r.freed = [] := by
      cases call with
      | request q =>
        obtain ⟨v, -, rfl⟩ := map_eq_ok.mp hrun
        rfl
      | close context =>
        obtain rfl := Except.ok.inj hrun
        rfl
      | writeHandshake o context =>
        obtain rfl := Except.ok.inj hrun
        rfl
      | shutdownFromReadThread closed context => cases hkeeps
    dsimp only
    rw [hfreed, hs.valid]
    exact inv_writes hs hpath hkeeps hclean hfresh hwrites
  | true =>
    cases call with
    | shutdownFromReadThread closed context =>
      obtain ⟨v, hshut, rfl⟩ := map_eq_ok.mp hrun
      obtain ⟨hvalid, hinv⟩ := inv_shutdown hs hshut
      dsimp only [allocated, allocate]
      rw [hvalid, hs.valid]
      exact hinv
    | _ => cases hkeeps

theorem inv_start (cfg : BuildConfig) : Inv cfg (.start cfg) := by
  obtain ⟨t, ht, hlist, -, -⟩ := startTable_rep cfg
  have htable : (State.start cfg).table = t := by
    rw [State.start, ht]
    rfl
  have hslot : ∀ c, (State.start cfg).table.slot c = .zero := by
    intro c
    rw [htable, ContextTable.slot, hlist, List.getD_eq_getElem?_getD]
    by_cases hc : c.toNat < cfg.contextCount
    · simp [hc]
    · simp [hc]
  refine ⟨⟨fun c => .inl ?_, fun c d id text text' hc => ?_, rfl⟩, ?_, fun c => ?_⟩
  · rw [hslot]
    rfl
  · rw [hslot] at hc
    cases hc
  · rw [htable, hlist, List.length_replicate]
  · rw [hslot]
    rfl

end invariant

/-- **Every slot owns what it holds** in the runs whose connects with a string are established and whose accepts
take a context that has none. -/
theorem connection_data_owned (cfg : BuildConfig) (s : State) (h : ((system cfg).guarded (Clean cfg)).Reachable s) :
    Owned s := by
  refine (h.guarded_invariant (P := Inv cfg) (fun s hs => ?_) fun s a s' hs hclean hstep => ?_).toOwned
  · obtain rfl : s = .start cfg := hs
    exact inv_start cfg
  · exact inv_next hs hclean hstep

instance (cfg : BuildConfig) (o : ConnectOutcome) (desc : ContextDesc) : Decidable (Established cfg o desc) :=
  inferInstanceAs (Decidable ((_ ∨ _ ∧ _) ∧ _ ∧ _))

instance (cfg : BuildConfig) (s : State) : ∀ a, Decidable (Clean cfg s a)
  | .request (.connect _ (some _) (some _)) => inferInstanceAs (Decidable (_ → _))
  | .request (.accept _ _ (some _)) => inferInstanceAs (Decidable (_ → _ → _))
  | .request (.connect _ none _) | .request (.connect _ (some _) none) | .request (.accept _ _ none) => .isTrue trivial
  | .request (.openContext _ _ _) | .close _ | .writeHandshake _ _ | .shutdownFromReadThread _ _ => .isTrue trivial

/-- "/tmp/a". -/
def path : CString := ⟨[47, 116, 109, 112, 47, 97], by decide⟩

/-- A port is opened with a string, which is copied to the given block. -/
def openWith (block : Nat) (port : UInt16) : Call :=
  .request (.openContext ⟨some block, true, none, some 4, true, port, true⟩ (some ⟨commTcp, some path, 0⟩) (some 0))

theorem connection_data_owned_run :
    ∃ s : State, (s.table.slot 0).connectionData = none ∧ (s.table.slot 1).connectionData = some (.block 8 path) ∧
      Owned s := by
  have hrun : (StepSystem.runList (StepSystem.gate (Clean .default) (next .default)) (State.start .default)
      [openWith 7 8080, openWith 8 8081, .close 0, .shutdownFromReadThread true 0]).map
        (fun s => ((s.table.slot 0).connectionData, (s.table.slot 1).connectionData)) =
          some (none, some (.block 8 path)) := by
    decide +kernel
  obtain ⟨s, hs, hend⟩ := Option.map_eq_some_iff.mp hrun
  obtain ⟨hfirst, hsecond⟩ := Prod.mk.inj hend
  exact ⟨s, hfirst, hsecond, connection_data_owned .default s (StepSystem.guarded_reachable_runList (.init rfl) hs)⟩

/-- A connect fails, its context is the last one to be handed out again, to an accept, and is shut down. -/
def borrowedRun : List Call :=
  .request (.connect ⟨some 4, false⟩ (some ⟨commUnix, some path, 0⟩) (some 0)) ::
    .replicate 31 (.request (.openContext ⟨none, true, none, some 5, true, 0, true⟩ (some ⟨commTcp, none, 0⟩) (some 0))) ++
      [.request (.accept (some 6) 1 (some 0)), .close 0, .shutdownFromReadThread true 0]

theorem borrowed_released : ¬ ∀ s, (system .default).Reachable s → Owned s := by
  have hrun : (StepSystem.runList (next .default) (State.start .default) borrowedRun).map (·.invalid) = some true := by
    decide +kernel
  obtain ⟨s, hs, hinvalid⟩ := Option.map_eq_some_iff.mp hrun
  intro hall
  have hvalid := (hall s (StepSystem.reachable_runList (.init rfl) hs)).valid
  rw [hinvalid] at hvalid
  cases hvalid

end SubstanceConnector.ConnectionData
