import SubstanceConnector.Context.Configuration
import SubstanceConnector.Context.ConnectionData
import SubstanceConnector.Context.Range
import SubstanceConnector.Context.Undo

/-!
# Opening over a Unix socket

`connector_open_unix` takes the path of its caller, or a default one for which it first ensures a directory. Whether
it goes on depends on `local_result`, which is an error until that directory has been ensured: with a path of the
caller it never is, and without one there is no default path to go on with, since `connector_build_default_unix_path`
returns NULL. So no Unix context is ever opened (`opens_iff`).
-/

namespace SubstanceConnector.ContextSystem

open RingIndex
open ConnectionData (connectorBuildDefaultUnixPath)

/-! ## The calls it makes -/

/-- A call of `connector_open_unix` to the system. -/
inductive UnixCall where
  | ensureDirectory
  | socket
  | unlink (path : CString)
  | bind (sock : Nat)
  | listen (sock : Nat)
  | close (sock : Nat)
  deriving DecidableEq

/-- `connector_open_unix` from the point where it has a path, with `calls` made so far. -/
def openUnixPath (cfg : BuildConfig) (o : OpenOutcome) (context : ConnectorContext) (calls : List UnixCall) :
    List UnixCall × Except Fault (Retcode × ConnectorContext) :=
  match context.connectionData with
  | none => (calls, .error .nullDereference)
  | some filepath =>
    if filepath.text.length + 1 ≥ cfg.sunPathSize then (calls, .ok (.invalid, context))
    else
      match o.socket with
      | none => (calls ++ [.socket], .ok (.openFail, context))
      | some sock =>
        let calls := calls ++ [.socket, .unlink filepath.text, .bind sock]
        if o.bind then
          let calls := calls ++ [.listen sock]
          if o.listen then (calls, .ok (.success, { context with fd := sock }))
          else (calls ++ [.unlink filepath.text, .close sock], .ok (.openFail, context))
        else (calls ++ [.close sock], .ok (.openFail, context))

/-- `connector_open_unix`, with the calls it makes up to its end or to a fault. -/
def connectorOpenUnixCalls (cfg : BuildConfig) (o : OpenOutcome) (context : ConnectorContext) :
    List UnixCall × Except Fault (Retcode × ConnectorContext) :=
  match context.connectionData with
  -- `local_result` is still an error
  | some _ => ([], .ok (.invalid, context))
  | none =>
    let context := { context with connectionData := o.defaultPath }
    if o.directory then openUnixPath cfg o context [.ensureDirectory]
    else ([.ensureDirectory], .ok (.invalid, context))

/-- Every socket that was opened has been closed. -/
def SocketsClosed (o : OpenOutcome) (calls : List UnixCall) : Prop :=
  .socket ∈ calls → ∀ sock ∈ o.socket, .close sock ∈ calls

section calls
variable {cfg : BuildConfig} {o : OpenOutcome} {c : ConnectorContext}

/-- Apart from the calls it is the function of the model. -/
theorem openUnixCalls_result (cfg : BuildConfig) (o : OpenOutcome) (c : ConnectorContext) :
    (connectorOpenUnixCalls cfg o c).2 = connectorOpenUnix cfg o c := by
  unfold connectorOpenUnixCalls connectorOpenUnix
  cases c.connectionData with
  | some filepath => rfl
  | none =>
    dsimp only
    cases o.directory with
    | false => rfl
    | true =>
      rw [if_pos rfl, if_pos rfl, openUnixPath]
      dsimp only
      cases o.defaultPath with
      | none => rfl
      | some filepath =>
        dsimp only
        by_cases hlong : filepath.text.length + 1 ≥ cfg.sunPathSize
        · rw [if_pos hlong, if_pos hlong]
        · rw [if_neg hlong, if_neg hlong]
          cases o.socket with
          | none => rfl
          | some sock => cases o.bind <;> cases o.listen <;> rfl

theorem socketsClosed_openUnixPath {calls : List UnixCall} (hcalls : .socket ∉ calls)
    {r : Retcode × ConnectorContext} (h : (openUnixPath cfg o c calls).2 = .ok r) (hfailed : r.1 ≠ .success) :
    SocketsClosed o (openUnixPath cfg o c calls).1 := by
  unfold openUnixPath at h ⊢
  cases hpath : c.connectionData with
  | none =>
    rw [hpath] at h
    cases h
  | some filepath =>
    rw [hpath] at h
    dsimp only at h ⊢
    by_cases hlong : filepath.text.length + 1 ≥ cfg.sunPathSize
    · rw [if_pos hlong]
      exact fun hsocket => absurd hsocket hcalls
    · rw [if_neg hlong] at h ⊢
      intro _ sock hsock
      rw [show o.socket = some sock from hsock] at h ⊢
      dsimp only at h ⊢
      cases hbind : o.bind with
      | false => simp
      | true =>
        cases hlisten : o.listen with
        | false => simp
        | true =>
          rw [hbind, hlisten] at h
          obtain rfl := Except.ok.inj h
          exact absurd rfl hfailed

/-- A failure leaves no socket open, whatever the default path is. -/
theorem socketsClosed_of_failed {r : Retcode × ConnectorContext} (h : connectorOpenUnix cfg o c = .ok r)
    (hfailed : r.1 ≠ .success) : SocketsClosed o (connectorOpenUnixCalls cfg o c).1 := by
  rw [← openUnixCalls_result] at h
  unfold connectorOpenUnixCalls at h ⊢
  cases hpath : c.connectionData with
  | some filepath => exact fun hsocket => absurd hsocket (by simp)
  | none =>
    rw [hpath] at h
    dsimp only at h ⊢
    cases hdirectory : o.directory with
    | false => exact fun hsocket => absurd hsocket (by simp)
    | true =>
      rw [hdirectory, if_pos rfl] at h
      rw [if_pos rfl]
      exact socketsClosed_openUnixPath (by simp) h hfailed

end calls

/-! ## What it should do -/

/-- The path a Unix context is opened with. -/
def pathUsed (filepath : Option CString) : Option CString :=
  filepath.or (connectorBuildDefaultUnixPath.map Pointer.text)

/-- There is a path short enough for the platform, and the calls made for it succeed. -/
structure CanOpen (cfg : BuildConfig) (o : OpenOutcome) (filepath : Option CString) : Prop where
  path : ∃ path ∈ pathUsed filepath, path.length + 1 < cfg.sunPathSize
  directory : filepath = none → o.directory = true
  socket : o.socket.isSome
  bind : o.bind = true
  listen : o.listen = true

/-- The outcomes with the default path of the library. -/
def withDefault (o : OpenOutcome) : OpenOutcome := { o with defaultPath := connectorBuildDefaultUnixPath }

/-- The calls of `connector_context_open_unix`: none without a free context or without a copy of the path. -/
def contextOpenUnixCalls (cfg : BuildConfig) (o : OpenOutcome) (t : ContextTable) (filepath : Option CString) :
    List UnixCall :=
  if freeEmpty t then []
  else
    match connectorStrdup o.copy filepath with
    | .error _ => []
    | .ok copy => (connectorOpenUnixCalls cfg o (described ⟨commUnix, filepath, 0⟩ copy)).1

/-- The call returns. It succeeds exactly if it can, and otherwise leaves no socket open and the context it took free
and its slot clear. -/
def Opens (cfg : BuildConfig) (o : OpenOutcome) (t : ContextTable) (filepath : Option CString) (identifier : UInt32) :
    Prop :=
  ∃ r, connectorContextOpenUnix cfg (withDefault o) t filepath (some identifier) = .ok r ∧
    (r.1 = .success ↔ CanOpen cfg o filepath) ∧
    (r.1 ≠ .success → SocketsClosed o (contextOpenUnixCalls cfg (withDefault o) t filepath) ∧
      (freeEmpty t = false → ∃ context, Recycled cfg t r.2.2 context .zero))

/-- The call comes to an end: a copy of the path can be made, and no default path is needed. -/
structure Returns (o : OpenOutcome) (filepath : Option CString) : Prop where
  copy : filepath.isSome → o.copy.isSome
  directory : filepath = none → o.directory = false

section opens
variable {cfg : BuildConfig} {o : OpenOutcome} {t : ContextTable} {filepath : Option CString} {identifier : UInt32}

/-- No default path, no success. -/
theorem openUnix_withDefault (cfg : BuildConfig) (o : OpenOutcome) (c : ConnectorContext) :
    connectorOpenUnix cfg (withDefault o) c =
      if c.connectionData = none ∧ o.directory = true then .error .nullDereference else .ok (.invalid, c) := by
  unfold connectorOpenUnix
  obtain ⟨configuration, fd, port, connectionData, applicationName, id⟩ := c
  cases connectionData with
  | some filepath => rfl
  | none =>
    rw [withDefault, connectorBuildDefaultUnixPath]
    dsimp only
    cases o.directory <;> rfl

/-- The two steps on a context come to an end exactly under `Returns`, and then the result is an error. -/
theorem openUnix_returns (h : Returns o filepath) :
    ∃ copy, connectorStrdup o.copy filepath = .ok copy ∧
      connectorOpenUnix cfg (withDefault o) (described ⟨commUnix, filepath, 0⟩ copy) =
        .ok (.invalid, described ⟨commUnix, filepath, 0⟩ copy) := by
  cases filepath with
  | none =>
    refine ⟨none, rfl, ?_⟩
    rw [openUnix_withDefault, h.directory rfl]
    rfl
  | some path =>
    obtain ⟨id, hid⟩ := Option.isSome_iff_exists.mp (h.copy rfl)
    refine ⟨some (.block id path), ?_, ?_⟩
    · rw [hid]
      rfl
    · rw [openUnix_withDefault]
      rfl

theorem returns_of_openUnix {copy : Option Pointer} {opened : Retcode × ConnectorContext}
    (hcopy : connectorStrdup o.copy filepath = .ok copy)
    (hopened : connectorOpenUnix cfg (withDefault o) (described ⟨commUnix, filepath, 0⟩ copy) = .ok opened) :
    Returns o filepath := by
  rw [openUnix_withDefault] at hopened
  cases filepath with
  | none =>
    obtain rfl := Except.ok.inj hcopy
    refine ⟨fun h => absurd h (by decide), fun _ => ?_⟩
    cases hdirectory : o.directory with
    | false => rfl
    | true =>
      rw [hdirectory, if_pos ⟨rfl, rfl⟩] at hopened
      cases hopened
  | some path =>
    refine ⟨fun _ => ?_, fun h => absurd h (by simp)⟩
    cases hblock : o.copy with
    | none =>
      rw [hblock] at hcopy
      cases hcopy
    | some id => rfl

theorem connection_described (filepath : Option CString) (copy : Option Pointer) :
    (described ⟨commUnix, filepath, 0⟩ copy).connection = commUnix := by
  rw [ConnectorContext.connection, ConnectionData.type_described]
  show (if commUnix &&& commMask > commMax then 0 else commUnix &&& commMask) = commUnix
  decide

/-- With a context to take, the call is its two steps on that context. -/
theorem contextOpenUnix_popped {context : UInt32} {u : ContextTable} (hpop : t.popFree 0 = .ok (.success, context, u))
    (hrange : context.toNat < cfg.contextCount) :
    connectorContextOpenUnix cfg o t filepath (some identifier) = (do
      let copy ← connectorStrdup o.copy filepath
      let opened ← connectorOpenUnix cfg o (described ⟨commUnix, filepath, 0⟩ copy)
      if opened.1 = .success then
        let t ← appendAvailable (u.setSlot context opened.2) context
        return (.success, some context, t)
      else
        let pushed ← (u.setSlot context .zero).pushFree context
        return (opened.1, some identifier, pushed.2)) := by
  have hconnection : ∀ copy, connectorOpenConnection cfg o (described ⟨commUnix, filepath, 0⟩ copy) =
      connectorOpenUnix cfg o (described ⟨commUnix, filepath, 0⟩ copy) := by
    intro copy
    rw [connectorOpenConnection, connection_described]
    rfl
  rw [connectorContextOpenUnix, connectorContextOpen, hpop]
  show (if context.toNat < cfg.contextCount then _ else _) = _
  rw [if_pos hrange]
  refine bind_congr fun copy => ?_
  rw [← hconnection]
  rfl

/-- Whatever the system answers, the call does not succeed. -/
theorem not_success_withDefault {r : Retcode × Option UInt32 × ContextTable}
    (h : connectorContextOpenUnix cfg (withDefault o) t filepath (some identifier) = .ok r) : r.1 ≠ .success := by
  cases contextOpen_cases h with
  | invalid => exact nofun
  | exhausted hpop hretcode => exact hretcode
  | opened hpop hrange hcopy hopen happend =>
    rw [connectorOpenConnection, connection_described] at hopen
    have hunix := (openUnix_withDefault cfg o _).symm.trans hopen
    split_ifs at hunix
    cases hunix
  | failed hpop hrange hretcode hpush => exact hretcode

end opens

/-- **No Unix context is opened.** In every reachable state the call does what it should exactly for what cannot be
opened, as long as it returns. -/
theorem opens_iff (cfg : BuildConfig) (n : Nat) {s : State} (h : ((system cfg n).guarded (Unwrapped cfg)).Reachable s)
    (hpush : Faithful (2 ^ 32) (ring cfg).toNat (s.freePushes + 1)) (o : OpenOutcome) (filepath : Option CString)
    (identifier : UInt32) :
    Opens cfg o s.table filepath identifier ↔
      ¬ CanOpen cfg o filepath ∧ (freeEmpty s.table = false → Returns o filepath) := by
  have hcells := free_in_range h.of_guarded
  obtain ⟨items, hrep⟩ := (tracked_of_reachable h).free
  have htake := fun hfree => popFree_of_rep hrep hcells hfree hpush
  refine ⟨?_, ?_⟩
  · rintro ⟨r, hr, hsuccess, -⟩
    refine ⟨fun hcan => not_success_withDefault hr (hsuccess.mpr hcan), fun hfree => ?_⟩
    obtain ⟨context, u, hpop, hrange, -⟩ := htake hfree
    rw [contextOpenUnix_popped hpop hrange] at hr
    obtain ⟨copy, hcopy, hr⟩ := bind_eq_ok.mp hr
    obtain ⟨opened, hopened, -⟩ := bind_eq_ok.mp hr
    exact returns_of_openUnix hcopy hopened
  · rintro ⟨hcannot, hreturns⟩
    cases hfree : freeEmpty s.table with
    | true =>
      obtain ⟨retcode, hretcode, hrun⟩ := refused_open (sane_of_reachable h.of_guarded) hfree (withDefault o)
        (some ⟨commUnix, filepath, 0⟩) (some identifier)
      refine ⟨_, hrun, ⟨fun hsuccess => absurd hsuccess hretcode, fun hcan => absurd hcan hcannot⟩, fun _ => ⟨?_, ?_⟩⟩
      · rw [contextOpenUnixCalls, if_pos hfree]
        exact fun hsocket => absurd hsocket (by simp)
      · intro hnot
        rw [hfree] at hnot
        cases hnot
    | false =>
      obtain ⟨context, u, hpop, hrange, hback⟩ := htake hfree
      obtain ⟨copy, hcopy, hopened⟩ := @openUnix_returns cfg o filepath (hreturns hfree)
      obtain ⟨pushed, hpushed⟩ := hback .zero
      have hrun : connectorContextOpenUnix cfg (withDefault o) s.table filepath (some identifier) =
          .ok (.invalid, some identifier, pushed.2) := by
        rw [contextOpenUnix_popped hpop hrange]
        show (connectorStrdup o.copy filepath >>= _) = _
        rw [hcopy]
        show (connectorOpenUnix _ _ _ >>= _) = _
        rw [hopened]
        show ((u.setSlot context .zero).pushFree context >>= _) = _
        rw [hpushed]
        rfl
      refine ⟨_, hrun, ⟨nofun, fun hcan => absurd hcan hcannot⟩, fun hfailed => ⟨?_, fun _ => ?_⟩⟩
      · have hcalls : contextOpenUnixCalls cfg (withDefault o) s.table filepath =
            (connectorOpenUnixCalls cfg (withDefault o) (described ⟨commUnix, filepath, 0⟩ copy)).1 := by
          rw [contextOpenUnixCalls, hfree, if_neg (by decide)]
          show (match connectorStrdup o.copy filepath with | .error _ => _ | .ok copy => _) = _
          rw [hcopy]
        rw [hcalls]
        exact socketsClosed_of_failed hopened nofun
      · exact recycled_open hrep (ne_nil_of_rep hrep hfree) hpush hrun hfailed

/-- The system agrees to everything but the binding. -/
def unbound : OpenOutcome := ⟨some 7, true, none, some 3, false, 0, true⟩

theorem opens_iff_unbound :
    ∃ s, ((system .default 2).guarded (Unwrapped .default)).Reachable s ∧
      Opens .default unbound s.table (some ConnectionData.path) 0 := by
  have hreach : ((system .default 2).guarded (Unwrapped .default)).Reachable (.start .default 2) :=
    .init (starts_start .default 2)
  have hcannot : ¬ CanOpen .default unbound (some ConnectionData.path) := fun hcan => absurd hcan.bind (by decide)
  exact ⟨_, hreach, (opens_iff .default 2 hreach (.inl (by decide)) unbound (some ConnectionData.path) 0).mpr
    ⟨hcannot, fun _ => ⟨fun _ => rfl, nofun⟩⟩⟩

/-- The system agrees to everything. -/
def agreeing : OpenOutcome := ⟨some 7, true, none, some 3, true, 0, true⟩

theorem agreeing_not_opened :
    CanOpen .default agreeing (some ConnectionData.path) ∧
      ¬ Opens .default agreeing (State.start .default 2).table (some ConnectionData.path) 0 ∧
      connectorContextOpenUnix .default (withDefault agreeing) (State.start .default 2).table none (some 0) =
        .error .nullDereference := by
  have hcan : CanOpen .default agreeing (some ConnectionData.path) :=
    ⟨⟨ConnectionData.path, rfl, by decide⟩, nofun, rfl, rfl, rfl⟩
  refine ⟨hcan, ?_, ?_⟩
  · rintro ⟨r, hr, hsuccess, -⟩
    exact not_success_withDefault hr (hsuccess.mpr hcan)
  · decide +kernel

end SubstanceConnector.ContextSystem
