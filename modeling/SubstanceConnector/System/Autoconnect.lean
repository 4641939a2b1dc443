import SubstanceConnector.System.DirectoryList

/-!
# Broadcast connections

`autoconnect.c`: a broadcast goes through the names listed in a default directory, tries those of the right file type
and removes those it could not connect to. The loop runs on a state, so that each turn can depend on what the earlier
ones did; `broadcastConnectImplOn_stateless` says that it is the loop of `System.DirectoryList` if none does.

`test_file_type` masks the type field of `st_mode` with the type it looks for. The types are numbers and not bits, so
a regular file passes for a socket; the broadcast over Unix sockets connects to it and then removes it
(`broadcast_unix_exact_iff`).
-/

namespace SubstanceConnector

/-! ## Files -/

/-- The `st_mode` of a path, if `stat` succeeds. -/
abbrev Stat : Type := CString → Option UInt32

def sIfmt : UInt32 := 0o170000
def sIfsock : UInt32 := 0o140000
def sIflnk : UInt32 := 0o120000
def sIfreg : UInt32 := 0o100000
def sIfblk : UInt32 := 0o060000
def sIfdir : UInt32 := 0o040000
def sIfchr : UInt32 := 0o020000
def sIfifo : UInt32 := 0o010000

def testFileType (stat : Stat) (flag : UInt32) (path : CString) : Retcode :=
  match stat path with
  | some mode => if mode &&& flag ≠ 0 then .success else .error
  | none => .error

def connectorIsDirectory (stat : Stat) : CString → Retcode := testFileType stat sIfdir

def connectorIsUnixSocket (stat : Stat) : CString → Retcode := testFileType stat sIfsock

def connectorIsFile (stat : Stat) : CString → Retcode := testFileType stat sIfreg

/-- What POSIX says the type of a file is. -/
def HasType (stat : Stat) (type : UInt32) (path : CString) : Prop := ∃ mode ∈ stat path, mode &&& sIfmt = type

-- `CONNECTOR_PATH_DELIM`
def pathDelim : UInt8 := 0x2f

/-- `connector_path_join` of a directory and a name. -/
def connectorPathJoin (directory name : CString) : CString where
  bytes := directory.bytes ++ pathDelim :: name.bytes
  nulFree := by
    rw [List.mem_append, List.mem_cons]
    rintro (h | h | h)
    · exact directory.nulFree h
    · exact absurd h (by decide)
    · exact name.nulFree h

/-! ## The loop -/

/-- One turn of the loop: the state it finds, what `connect_path` returned and did, if the file was worth a try, and
whether the file was removed. -/
structure ConnectTurn (σ α : Type) where
  name : CString
  before : σ
  connected : Option (Retcode × α)
  removed : Bool

section loop
variable {σ α : Type} (socketDir : CString) (testType : CString → Retcode)
  (connectPath : CString → σ → Except Fault (Retcode × α × σ))

def tryPath (name : CString) (s : σ) : Except Fault (ConnectTurn σ α × σ) :=
  if testType (connectorPathJoin socketDir name) = .success then do
    let r ← connectPath (connectorPathJoin socketDir name) s
    pure (⟨name, s, some (r.1, r.2.1), r.1 ≠ .success⟩, r.2.2)
  else pure (⟨name, s, none, false⟩, s)

def tryPaths : List CString → σ → Except Fault (List (ConnectTurn σ α) × σ)
  | [], s => pure ([], s)
  | name :: names, s => do
    let turn ← tryPath socketDir testType connectPath name s
    let rest ← tryPaths names turn.2
    pure (turn.1 :: rest.1, rest.2)

/-- `broadcast_connect_impl`, on a state. -/
def broadcastConnectImplOn (heap : HeapWords) (stat : Stat) (opendir : CString → Option (List CString)) (s : σ) :
    Except Fault (Retcode × List (ConnectTurn σ α) × σ) :=
  if connectorIsDirectory stat socketDir = .success then do
    let r ← connectorListDirectory heap opendir (some socketDir) none (some none)
    match r with
    | (.success, some (some array)) => do
      let names ← scan array
      let run ← tryPaths socketDir testType connectPath names s
      let _ ← connectorClearDirectoryList (some (some array))
      pure (.success, run)
    | _ => pure (.error, [], s)
  else pure (.error, [], s)

end loop

/-- `connector_broadcast_connect_unix`, with the default directory and what a connect over a Unix socket does. -/
def connectorBroadcastConnectUnix {σ α : Type} (heap : HeapWords) (stat : Stat)
    (opendir : CString → Option (List CString)) (unixDirectory : CString)
    (connectUnix : CString → σ → Except Fault (Retcode × α × σ)) (s : σ) :
    Except Fault (Retcode × List (ConnectTurn σ α) × σ) :=
  broadcastConnectImplOn unixDirectory (connectorIsUnixSocket stat) connectUnix heap stat opendir s

/-! ## What a turn does -/

section turns
variable {σ α : Type} {socketDir : CString} {testType : CString → Retcode}
  {connectPath : CString → σ → Except Fault (Retcode × α × σ)} {names : List CString} {s : σ}

/-- A turn tries its file if it has the right type, and removes it if the try failed. -/
structure ConnectTurn.Follows (socketDir : CString) (testType : CString → Retcode) (turn : ConnectTurn σ α) : Prop where
  tried : turn.connected.isSome ↔ testType (connectorPathJoin socketDir turn.name) = .success
  removed : turn.removed = true ↔ ∃ r ∈ turn.connected, r.1 ≠ .success

/-- A file that is tried, and one that is passed over. -/
theorem tryPath_cases {name : CString} {r : ConnectTurn σ α × σ}
    (h : tryPath socketDir testType connectPath name s = .ok r) :
    (testType (connectorPathJoin socketDir name) = .success ∧ ∃ c, connectPath (connectorPathJoin socketDir name) s = .ok c ∧
      r = (⟨name, s, some (c.1, c.2.1), c.1 ≠ .success⟩, c.2.2)) ∨
    (testType (connectorPathJoin socketDir name) ≠ .success ∧ r = (⟨name, s, none, false⟩, s)) := by
  unfold tryPath at h
  by_cases htype : testType (connectorPathJoin socketDir name) = .success
  · rw [if_pos htype] at h
    obtain ⟨c, hc, h⟩ := bind_eq_ok.mp h
    exact .inl ⟨htype, c, hc, (Except.ok.inj h).symm⟩
  · rw [if_neg htype] at h
    exact .inr ⟨htype, (Except.ok.inj h).symm⟩

theorem tryPath_follows {name : CString} {r : ConnectTurn σ α × σ}
    (h : tryPath socketDir testType connectPath name s = .ok r) :
    r.1.name = name ∧ r.1.Follows socketDir testType := by
  obtain ⟨htype, c, -, rfl⟩ | ⟨htype, rfl⟩ := tryPath_cases h
  · exact ⟨rfl, iff_of_true rfl htype, by simp⟩
  · exact ⟨rfl, iff_of_false (by simp) htype, by simp⟩

/-- The loop takes every name once, in order. -/
theorem tryPaths_follows {r : List (ConnectTurn σ α) × σ}
    (h : tryPaths socketDir testType connectPath names s = .ok r) :
    r.1.map (·.name) = names ∧ ∀ turn ∈ r.1, turn.Follows socketDir testType := by
  induction names generalizing s r with
  | nil =>
    obtain rfl := Except.ok.inj h
    exact ⟨rfl, by simp⟩
  | cons name names ih =>
    obtain ⟨turn, hturn, h⟩ := bind_eq_ok.mp h
    obtain ⟨rest, hrest, h⟩ := bind_eq_ok.mp h
    obtain rfl := Except.ok.inj h
    obtain ⟨hname, hfollows⟩ := tryPath_follows hturn
    obtain ⟨hnames, hall⟩ := ih hrest
    refine ⟨by rw [List.map_cons, hname, hnames], fun t ht => ?_⟩
    rcases List.mem_cons.mp ht with rfl | ht
    · exact hfollows
    · exact hall t ht

theorem tryPath_before {name : CString} {r : ConnectTurn σ α × σ}
    (h : tryPath socketDir testType connectPath name s = .ok r) : r.1.before = s := by
  obtain ⟨-, c, -, rfl⟩ | ⟨-, rfl⟩ := tryPath_cases h
  · rfl
  · rfl

/-- Every turn is one of the loop's, in the state it says. -/
theorem tryPaths_turn {r : List (ConnectTurn σ α) × σ} (h : tryPaths socketDir testType connectPath names s = .ok r)
    {turn : ConnectTurn σ α} (hturn : turn ∈ r.1) :
    ∃ s', tryPath socketDir testType connectPath turn.name turn.before = .ok (turn, s') := by
  induction names generalizing s r with
  | nil =>
    obtain rfl := Except.ok.inj h
    cases hturn
  | cons name names ih =>
    obtain ⟨first, hfirst, h⟩ := bind_eq_ok.mp h
    obtain ⟨rest, hrest, h⟩ := bind_eq_ok.mp h
    obtain rfl := Except.ok.inj h
    rcases List.mem_cons.mp hturn with rfl | hturn
    · rw [(tryPath_follows hfirst).1, tryPath_before hfirst]
      exact ⟨first.2, hfirst⟩
    · exact ih hrest hturn

/-- A condition under which a connect returns, and which it keeps, is met at every turn; and the loop returns. -/
theorem tryPaths_returns {I : σ → Prop}
    (hconnect : ∀ name s, I s → ∃ r, connectPath (connectorPathJoin socketDir name) s = .ok r ∧ I r.2.2)
    (names : List CString) (hs : I s) :
    ∃ r, tryPaths socketDir testType connectPath names s = .ok r ∧ I r.2 ∧ ∀ turn ∈ r.1, I turn.before := by
  induction names generalizing s with
  | nil => exact ⟨_, rfl, hs, by simp⟩
  | cons name names ih =>
    have hturn : ∃ r, tryPath socketDir testType connectPath name s = .ok r ∧ I r.2 := by
      unfold tryPath
      by_cases htype : testType (connectorPathJoin socketDir name) = .success
      · rw [if_pos htype]
        obtain ⟨c, hc, hkept⟩ := hconnect name s hs
        rw [hc]
        exact ⟨_, rfl, hkept⟩
      · rw [if_neg htype]
        exact ⟨_, rfl, hs⟩
    obtain ⟨turn, hrun, hkept⟩ := hturn
    obtain ⟨rest, hrest, hlast, hall⟩ := ih hkept
    refine ⟨(turn.1 :: rest.1, rest.2), ?_, hlast, fun t ht => ?_⟩
    · rw [tryPaths, hrun]
      show (tryPaths _ _ _ names turn.2 >>= _) = _
      rw [hrest]
      rfl
    · rcases List.mem_cons.mp ht with rfl | ht
      · rw [tryPath_before hrun]
        exact hs
      · exact hall t ht

end turns

/-! ## The whole broadcast -/

/-- The names of a directory that are not hidden. -/
def visible (entries : List CString) : List CString := entries.filter fun name => name.bytes.head? ≠ some 0x2e

theorem accepted_none (entries : List CString) : accepted none entries = visible entries := by
  refine List.filter_congr fun name _ => ?_
  show decide (defaultFilter name = .success) = _
  unfold defaultFilter
  by_cases hhidden : name.bytes.head? ≠ some 0x2e
  · simp [hhidden]
  · simp [hhidden]

/-- What a filter does not accept leaves no trace. -/
theorem readEntries_of_accepted_nil (heap : HeapWords) {filterOp : CString → Retcode} {entries : List CString}
    (hnone : entries.filter (filterOp · = .success) = []) (l : FileList) (size : Nat) :
    readEntries heap filterOp entries l size = .ok l := by
  induction entries with
  | nil => rfl
  | cons entry entries ih =>
    have haccept : ¬ filterOp entry = .success := by
      intro haccept
      rw [List.filter_cons_of_pos (by simpa using haccept)] at hnone
      cases hnone
    rw [List.filter_cons_of_neg (by simpa using haccept)] at hnone
    rw [readEntries, if_neg haccept]
    exact ih hnone

section broadcast
variable {σ α : Type} {socketDir : CString} {testType : CString → Retcode}
  {connectPath : CString → σ → Except Fault (Retcode × α × σ)} {stat : Stat}
  {opendir : CString → Option (List CString)} {entries : List CString} {s : σ}

/-- The type of a directory shares its bit with itself. -/
theorem isDirectory_of_hasType (h : HasType stat sIfdir socketDir) :
    connectorIsDirectory stat socketDir = .success := by
  obtain ⟨mode, hmode, htype⟩ := h
  have hmask : sIfdir &&& sIfmt = sIfdir := by decide
  have hbit : mode &&& sIfdir = sIfdir := by
    rw [← hmask, UInt32.and_comm sIfdir, ← UInt32.and_assoc, htype]
    decide
  rw [connectorIsDirectory, testFileType, show stat socketDir = some mode from hmode]
  dsimp only
  rw [hbit]
  decide

/-- With fewer names than the first array has entries, the loop runs over them whatever was in memory. -/
theorem broadcastConnectImplOn_of_lt (heap : HeapWords) (hdir : HasType stat sIfdir socketDir)
    (hentries : opendir socketDir = some entries) (hlt : (visible entries).length < connectorDefaultFileListSize)
    {run : List (ConnectTurn σ α) × σ}
    (hrun : tryPaths socketDir testType connectPath (visible entries) s = .ok run) :
    ∃ retcode, broadcastConnectImplOn socketDir testType connectPath heap stat opendir s = .ok (retcode, run) := by
  rw [broadcastConnectImplOn, if_pos (isDirectory_of_hasType hdir)]
  rw [← accepted_none] at hlt hrun
  by_cases hne : accepted none entries = []
  · have hlist : connectorListDirectory heap opendir (some socketDir) none (some none) = .ok (.success, some none) := by
      have hnone : entries.filter (defaultFilter · = .success) = [] := hne
      have hread := readEntries_of_accepted_nil heap hnone ⟨none, 0, 0⟩ 0
      simp [connectorListDirectory, hentries, hread, bind, Except.bind, pure, Except.pure]
    rw [hne] at hrun
    obtain rfl := Except.ok.inj hrun
    rw [hlist]
    exact ⟨_, rfl⟩
  · obtain ⟨array, hlist, -, -, hscan, hclear⟩ := listed_of_lt heap none hentries hne hlt
    refine ⟨.success, ?_⟩
    rw [hlist]
    show (scan array >>= _) = _
    rw [hscan]
    show (tryPaths _ _ _ _ s >>= _) = _
    rw [hrun]
    show (connectorClearDirectoryList _ >>= _) = _
    rw [hclear]
    rfl

/-- From there on it can run into whatever was in memory. -/
theorem broadcastConnectImplOn_of_le (hdir : HasType stat sIfdir socketDir)
    (hentries : opendir socketDir = some entries)
    (hle : connectorDefaultFileListSize ≤ (visible entries).length) (r : Retcode × List (ConnectTurn σ α) × σ) :
    broadcastConnectImplOn socketDir testType connectPath (fun _ _ => 1) stat opendir s ≠ .ok r := by
  rw [← accepted_none] at hle
  obtain ⟨array, hlist, hscan, -⟩ := unterminated_of_le none hentries hle
  rw [broadcastConnectImplOn, if_pos (isDirectory_of_hasType hdir), hlist]
  show (scan array >>= _) ≠ _
  rw [hscan]
  exact nofun

end broadcast

/-- The attempt of a turn. -/
def ConnectTurn.attempt {σ α : Type} (turn : ConnectTurn σ α) : Attempt :=
  ⟨turn.name, turn.connected.map (·.1), turn.removed⟩

section stateless
variable {socketDir : CString} {testType connectPath : CString → Retcode}

theorem tryPaths_stateless (names : List CString) :
    ∃ turns : List (ConnectTurn Unit Unit),
      tryPaths socketDir testType (fun path _ => .ok (connectPath path, (), ())) names () = .ok (turns, ()) ∧
        turns.map ConnectTurn.attempt =
          names.map (tryFile (testType <| connectorPathJoin socketDir ·) (connectPath <| connectorPathJoin socketDir ·)) := by
  induction names with
  | nil => exact ⟨[], rfl, rfl⟩
  | cons name names ih =>
    have hturn : ∃ turn : ConnectTurn Unit Unit,
        tryPath socketDir testType (fun path _ => .ok (connectPath path, (), ())) name () = .ok (turn, ()) ∧
          turn.attempt = tryFile (testType <| connectorPathJoin socketDir ·)
            (connectPath <| connectorPathJoin socketDir ·) name := by
      unfold tryPath tryFile
      by_cases htype : testType (connectorPathJoin socketDir name) = .success
      · rw [if_pos htype, if_pos htype]
        exact ⟨_, rfl, rfl⟩
      · rw [if_neg htype, if_neg htype]
        exact ⟨_, rfl, rfl⟩
    obtain ⟨turn, hrun, hattempt⟩ := hturn
    obtain ⟨turns, hrest, hmap⟩ := ih
    refine ⟨turn :: turns, ?_, by rw [List.map_cons, List.map_cons, hattempt, hmap]⟩
    rw [tryPaths, hrun]
    show (tryPaths _ _ _ names () >>= _) = _
    rw [hrest]
    rfl

/-- If no connect depends on an earlier one, the loop is a map over the names. -/
theorem broadcastConnectImplOn_stateless (heap : HeapWords) (stat : Stat) (opendir : CString → Option (List CString)) :
    (broadcastConnectImplOn socketDir testType (fun path _ => .ok (connectPath path, (), ())) heap stat opendir ()).map
        (fun r => (r.1, r.2.1.map ConnectTurn.attempt)) =
      broadcastConnectImpl heap (connectorIsDirectory stat) opendir socketDir
        (testType <| connectorPathJoin socketDir ·) (connectPath <| connectorPathJoin socketDir ·) := by
  unfold broadcastConnectImplOn broadcastConnectImpl
  by_cases hdir : connectorIsDirectory stat socketDir = .success
  · rw [if_pos hdir, if_pos hdir]
    cases connectorListDirectory heap opendir (some socketDir) none (some none) with
    | error fault => rfl
    | ok r =>
      obtain ⟨retcode, elements⟩ := r
      cases retcode with
      | success =>
        rcases elements with - | - | array
        · rfl
        · rfl
        · show Except.map _ (scan array >>= _) = (scan array >>= _)
          cases scan array with
          | error fault => rfl
          | ok names =>
            obtain ⟨turns, hrun, hmap⟩ := @tryPaths_stateless socketDir testType connectPath names
            show Except.map _ (tryPaths _ _ _ names () >>= _) = _
            rw [hrun]
            show Except.map _ (connectorClearDirectoryList _ >>= _) = (connectorClearDirectoryList _ >>= _)
            cases connectorClearDirectoryList (some (some array)) with
            | error fault => rfl
            | ok cleared => exact congrArg (fun attempts => Except.ok (Retcode.success, attempts)) hmap
      | _ => rfl
  · rw [if_neg hdir, if_neg hdir]
    rfl

end stateless

/-! ## Unix sockets -/

/-- What a turn over Unix sockets should do: connect to a socket, and remove it if that failed. -/
structure ConnectTurn.Exact {σ α : Type} (stat : Stat) (unixDirectory : CString) (turn : ConnectTurn σ α) : Prop where
  tried : turn.connected.isSome ↔ HasType stat sIfsock (connectorPathJoin unixDirectory turn.name)
  removed : turn.removed = true ↔
    HasType stat sIfsock (connectorPathJoin unixDirectory turn.name) ∧ ∃ r ∈ turn.connected, r.1 ≠ .success

/-- The broadcast returns, with one turn for every name that is not hidden, and each does what it should. -/
def ExactBroadcast {σ : Type} (heap : HeapWords) (stat : Stat) (opendir : CString → Option (List CString))
    (unixDirectory : CString) (connectUnix : CString → σ → Retcode × σ) (s : σ) (entries : List CString) : Prop :=
  ∃ retcode run, connectorBroadcastConnectUnix heap stat opendir unixDirectory
      (fun path s => .ok ((connectUnix path s).1, (), (connectUnix path s).2)) s = .ok (retcode, run) ∧
    run.1.map (·.name) = visible entries ∧ ∀ turn ∈ run.1, turn.Exact stat unixDirectory

/-- The mask tells whether the file is a socket. -/
def Told (stat : Stat) (path : CString) : Prop := ∀ mode ∈ stat path, mode &&& sIfsock ≠ 0 → mode &&& sIfmt = sIfsock

/-- Of the types POSIX has, only two share no bit with that of a socket. -/
theorem shares_bit_iff {type : UInt32} (h : type ∈ [sIfsock, sIflnk, sIfreg, sIfblk, sIfdir, sIfchr, sIfifo]) :
    type &&& sIfsock = 0 ↔ type = sIfchr ∨ type = sIfifo := by
  simp only [List.mem_cons, List.not_mem_nil, or_false] at h
  rcases h with rfl | rfl | rfl | rfl | rfl | rfl | rfl <;> decide

section sockets
variable {stat : Stat} {path : CString}

theorem isUnixSocket_iff : connectorIsUnixSocket stat path = .success ↔ ∃ mode ∈ stat path, mode &&& sIfsock ≠ 0 := by
  unfold connectorIsUnixSocket testFileType
  cases stat path with
  | none => simp
  | some mode =>
    by_cases hbit : mode &&& sIfsock ≠ 0
    · simp [hbit]
    · simp [hbit]

/-- A socket passes. -/
theorem isUnixSocket_of_hasType (h : HasType stat sIfsock path) : connectorIsUnixSocket stat path = .success := by
  obtain ⟨mode, hmode, htype⟩ := h
  refine isUnixSocket_iff.mpr ⟨mode, hmode, fun hzero => ?_⟩
  have hmask : sIfmt &&& sIfsock = sIfsock := by decide
  have hsock : mode &&& sIfsock = sIfsock := by
    rw [← hmask, ← UInt32.and_assoc, htype]
    decide
  rw [hsock] at hzero
  exact absurd hzero (by decide)

theorem told_iff : Told stat path ↔ (connectorIsUnixSocket stat path = .success ↔ HasType stat sIfsock path) := by
  refine ⟨fun htold => ⟨fun hpasses => ?_, isUnixSocket_of_hasType⟩, fun h mode hmode hbit => ?_⟩
  · obtain ⟨mode, hmode, hbit⟩ := isUnixSocket_iff.mp hpasses
    exact ⟨mode, hmode, htold mode hmode hbit⟩
  · obtain ⟨mode', hmode', htype⟩ := h.mp (isUnixSocket_iff.mpr ⟨mode, hmode, hbit⟩)
    obtain rfl := Option.mem_unique hmode hmode'
    exact htype

/-- A turn does what it should if the mask tells what its file is. -/
theorem ConnectTurn.Follows.exact_iff {σ α : Type} {unixDirectory : CString} {turn : ConnectTurn σ α}
    (h : turn.Follows unixDirectory (connectorIsUnixSocket stat)) :
    turn.Exact stat unixDirectory ↔ Told stat (connectorPathJoin unixDirectory turn.name) := by
  rw [told_iff]
  refine ⟨fun hexact => h.tried.symm.trans hexact.tried, fun htold => ⟨h.tried.trans htold, h.removed.trans ?_⟩⟩
  refine ⟨fun hfailed => ⟨?_, hfailed⟩, And.right⟩
  obtain ⟨r, hr, -⟩ := hfailed
  exact htold.mp (h.tried.mp (Option.isSome_of_mem hr))

end sockets

section unixBroadcast
variable {σ : Type} {stat : Stat} {opendir : CString → Option (List CString)} {unixDirectory : CString}
  {entries : List CString} {connectUnix : CString → σ → Retcode × σ} {s : σ}

theorem exactBroadcast_iff_of_lt (hdir : HasType stat sIfdir unixDirectory)
    (hentries : opendir unixDirectory = some entries) (hlt : (visible entries).length < connectorDefaultFileListSize)
    (heap : HeapWords) :
    ExactBroadcast heap stat opendir unixDirectory connectUnix s entries ↔
      ∀ name ∈ visible entries, Told stat (connectorPathJoin unixDirectory name) := by
  obtain ⟨run, hrun, -, -⟩ := @tryPaths_returns σ Unit unixDirectory (connectorIsUnixSocket stat)
    (fun path s => .ok ((connectUnix path s).1, (), (connectUnix path s).2)) s (fun _ => True)
    (fun name s _ => ⟨_, rfl, trivial⟩) (visible entries) trivial
  obtain ⟨retcode, hbroadcast⟩ := broadcastConnectImplOn_of_lt heap hdir hentries hlt hrun
  obtain ⟨hnames, hfollows⟩ := tryPaths_follows hrun
  refine ⟨?_, fun htold => ?_⟩
  · rintro ⟨retcode', run', hbroadcast', -, hexact⟩ name hname
    obtain ⟨-, rfl⟩ := Prod.mk.inj (Except.ok.inj (hbroadcast.symm.trans hbroadcast'))
    rw [← hnames] at hname
    obtain ⟨turn, hturn, rfl⟩ := List.mem_map.mp hname
    exact (hfollows turn hturn).exact_iff.mp (hexact turn hturn)
  · refine ⟨retcode, run, hbroadcast, hnames, fun turn hturn => (hfollows turn hturn).exact_iff.mpr (htold _ ?_)⟩
    rw [← hnames]
    exact List.mem_map_of_mem hturn

end unixBroadcast

/-- **Sockets and nothing else.** Whatever was in memory, the broadcast connects to the sockets of the directory and
removes those it could not connect to, if and only if there are few enough names and the mask tells for each of them
whether it is a socket. -/
theorem broadcast_unix_exact_iff {σ : Type} (stat : Stat) (opendir : CString → Option (List CString))
    (unixDirectory : CString) (entries : List CString) (connectUnix : CString → σ → Retcode × σ) (s : σ)
    (hdir : HasType stat sIfdir unixDirectory) (hentries : opendir unixDirectory = some entries) :
    (∀ heap, ExactBroadcast heap stat opendir unixDirectory connectUnix s entries) ↔
      (visible entries).length < connectorDefaultFileListSize ∧
        ∀ name ∈ visible entries, Told stat (connectorPathJoin unixDirectory name) := by
  refine ⟨fun hall => ?_, ?_⟩
  · have hlt : (visible entries).length < connectorDefaultFileListSize := by
      by_contra hle
      obtain ⟨retcode, run, hrun, -⟩ := hall fun _ _ => 1
      exact broadcastConnectImplOn_of_le hdir hentries (Nat.not_lt.mp hle) _ hrun
    exact ⟨hlt, (exactBroadcast_iff_of_lt hdir hentries hlt fun _ _ => 0).mp (hall _)⟩
  · rintro ⟨hlt, htold⟩ heap
    exact (exactBroadcast_iff_of_lt hdir hentries hlt heap).mpr htold

/-- A directory of which one name is that of a file with the mode given. -/
def oneFile (mode : UInt32) (path : CString) : Option UInt32 :=
  if path = portDirectoryPath then some 0o040755
  else if path = connectorPathJoin portDirectoryPath (portFile 0) then some mode
  else none

theorem broadcast_unix_exact_iff_socket :
    HasType (oneFile 0o140755) sIfsock (connectorPathJoin portDirectoryPath (portFile 0)) ∧
      ∀ heap, ExactBroadcast heap (oneFile 0o140755) (fun _ => some (portDirectory 1)) portDirectoryPath
        (fun _ s => (.openFail, s)) () (portDirectory 1) := by
  have hdir : HasType (oneFile 0o140755) sIfdir portDirectoryPath := ⟨0o040755, by decide, by decide⟩
  have hsocket : HasType (oneFile 0o140755) sIfsock (connectorPathJoin portDirectoryPath (portFile 0)) :=
    ⟨0o140755, by decide, by decide⟩
  refine ⟨hsocket, (broadcast_unix_exact_iff _ _ _ _ _ _ hdir rfl).mpr ⟨by decide, fun name hname => ?_⟩⟩
  have hvisible : visible (portDirectory 1) = [portFile 0] := by decide
  rw [hvisible, List.mem_singleton] at hname
  rw [hname, told_iff]
  exact iff_of_true (isUnixSocket_of_hasType hsocket) hsocket

/-- A regular file is connected to, and removed when that fails. -/
theorem regular_file_removed :
    HasType (oneFile 0o100644) sIfreg (connectorPathJoin portDirectoryPath (portFile 0)) ∧
      (connectorBroadcastConnectUnix (fun _ _ => 0) (oneFile 0o100644) (fun _ => some (portDirectory 1)) portDirectoryPath
          (fun _ s => .ok (.openFail, (), s)) ()).toOption.map
        (fun r => r.2.1.map fun turn => (turn.name, turn.connected.map (·.1), turn.removed)) =
          some [(portFile 0, some .openFail, true)] ∧
      ¬ ExactBroadcast (fun _ _ => 0) (oneFile 0o100644) (fun _ => some (portDirectory 1)) portDirectoryPath
        (fun _ s => (.openFail, s)) () (portDirectory 1) := by
  have hdir : HasType (oneFile 0o100644) sIfdir portDirectoryPath := ⟨0o040755, by decide, by decide⟩
  refine ⟨⟨0o100644, by decide, by decide⟩, by decide +kernel, fun hexact => ?_⟩
  have htold := (exactBroadcast_iff_of_lt hdir rfl (by decide) _).mp hexact (portFile 0) (by decide)
  exact absurd (htold 0o100644 (by decide) (by decide)) (by decide)

end SubstanceConnector
