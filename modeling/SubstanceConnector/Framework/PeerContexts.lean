import SubstanceConnector.Framework.PythonSchemas
import SubstanceConnector.Framework.PythonSystem

/-!
# Contexts between the two endpoints

A C++ framework writes its connection with `connection_schema::Serialize`, and the Python `SystemApplication` keeps it
in its map; a Python instance writes `get_connection_context`, and C++ reads it with `connection_schema::Deserialize`.
A peer is a context. The map is keyed by name, so it is the table of the peers only as long as no two of them have one name
(`NewPeer`): a context goes to the name that the connection was established with, because `init` gives the library the
identifier that is written as `id_name`. The value read is the one written, up to the order of the members.
-/

namespace SubstanceConnector.Python.SystemApplication

open Json StateCalls

/-! ## The two writers -/

/-- `available_features` as C++ writes it: null if there is none. -/
def featureList (features : List Uuid) : Value :=
  if features = [] then .null else .array (features.map fun feature => .string (Framework.uuidToString feature))

/-- The attributes of the connection of a peer. -/
def ofPeer (schema : Framework.ConnectionSchema) : ConnectionSchema :=
  ⟨.string schema.displayName, .string schema.idName, .string schema.connectorVersion,
    featureList schema.availableFeatures⟩

/-- `__dict__` of a connection. -/
def attributes (schema : ConnectionSchema) : Dict :=
  [("available_features", schema.availableFeatures), ("connector_version", schema.connectorVersion),
    ("display_name", schema.displayName), ("id_name", schema.idName)]

/-! ## Peers -/

/-- What becomes of a notification: a context is the text of a C++ connection, as `json.loads` reads it. -/
inductive Event where
  | established (context : Nat) (name : List UInt8) (sent : Except CallException Unit)
  | closed (context : Nat) (name : List UInt8)
  | updated (context : Nat) (schema : Framework.ConnectionSchema) (json : Dict)

def Event.notification : Event → Notification
  | .established context name sent => .established context name sent
  | .closed context name => .closed context name
  | .updated _ _ json => .updated (.ok (.object json))

/-- The connected contexts, each with the name of its peer and the connection it sent last. -/
abbrev Peers := Nat → Option (List UInt8 × Option Framework.ConnectionSchema)

def Peers.after (peers : Peers) : Event → Peers
  | .established context name _ => Function.update peers context (some (name, none))
  | .closed context _ => Function.update peers context none
  | .updated context schema _ =>
    Function.update peers context ((peers context).map fun peer => (peer.1, some schema))

/-- A context that is not connected is established, one that is connected with the name is closed, and it sends what C++ writes
for its name; what is read has the members that were written. -/
def Genuine (peers : Peers) : Event → Prop
  | .established context _ _ => peers context = none
  | .closed context name => ∃ sent, peers context = some (name, sent)
  | .updated context schema json => (∃ sent, peers context = some (schema.idName, sent)) ∧
    ∃ members, schema.serialize .null = .ok (.object members) ∧ ∀ key, json.lookup key = members.lookup key

/-- A context is established with a name that no connected one has. -/
def NewPeer (peers : Peers) : Event → Prop
  | .established _ name _ => ∀ context peer, peers context = some peer → peer.1 ≠ name
  | _ => True

/-- A condition on every event of a sequence and the peers before it. -/
def Throughout (P : Peers → Event → Prop) : Peers → List Event → Prop
  | _, [] => True
  | peers, event :: events => P peers event ∧ Throughout P (peers.after event) events

/-- The map is the table of the peers: each is there under its name, with its context and what it sent last, and nobody else. -/
def Tabulates (applicationMap : ApplicationMap) (peers : Peers) : Prop :=
  ∀ name entry, applicationMap name = some entry ↔
    ∃ sent, peers entry.context = some (name, sent) ∧ entry.schema = sent.map ofPeer

section writers
variable {schema : Framework.ConnectionSchema} {json : Dict}

theorem append_featureList (features written : List Value) :
    features.foldlM (fun value feature => value.append feature) (.array written) =
      (.ok (.array (written ++ features)) : Except LogicError Value) := by
  induction features generalizing written with
  | nil => simp [pure, Except.pure]
  | cons feature features ih =>
    rw [List.foldlM_cons]
    exact (ih (written ++ [feature])).trans (by simp)

theorem featureValue_eq (features : List Uuid) :
    Framework.ConnectionSchema.featureValue features = .ok (featureList features) := by
  cases features with
  | nil => rfl
  | cons feature features =>
    have hrest := append_featureList (features.map fun feature => .string (Framework.uuidToString feature))
      [.string (Framework.uuidToString feature)]
    rw [List.foldlM_map] at hrest
    exact hrest

/-- The members of a connection that C++ wrote. -/
theorem lookup_written {members : List (String × Value)} (h : schema.serialize .null = .ok (.object members)) :
    members.lookup "display_name" = some (.string schema.displayName) ∧
      members.lookup "id_name" = some (.string schema.idName) ∧
      members.lookup "connector_version" = some (.string schema.connectorVersion) ∧
      members.lookup "available_features" = some (featureList schema.availableFeatures) := by
  rw [Framework.ConnectionSchema.serialize, featureValue_eq] at h
  simp only [Value.set, Value.members, bind, Except.bind, pure, Except.pure, Except.ok.injEq, Value.object.injEq] at h
  subst h
  simp [insertMember, List.lookup_cons]

end writers

/-! ## The Python map -/

section map
variable {schema : Framework.ConnectionSchema} {json : Dict} {applicationMap : ApplicationMap} {peers : Peers}

/-- A context goes to the entry of its name, if there is one. -/
theorem deliver_context {members : List (String × Value)} (h : schema.serialize .null = .ok (.object members))
    (hread : ∀ key, json.lookup key = members.lookup key) :
    deliver (.updated (.ok (.object json))) applicationMap = .ok () (Function.update applicationMap schema.idName
      ((applicationMap schema.idName).map (Entry.setSchema (ofPeer schema)))) := by
  obtain ⟨hname, hid, hversion, hfeatures⟩ := lookup_written h
  rw [← hread] at hname hid hversion hfeatures
  have hset : setSchema (ofPeer schema) applicationMap =
      if (applicationMap schema.idName).isSome then
        .ok () (Function.update applicationMap schema.idName
          ((applicationMap schema.idName).map (Entry.setSchema (ofPeer schema))))
      else .error .keyError applicationMap := by
    change (if _ then _ else _ : Callback) applicationMap = _
    split <;> rfl
  have hsubscript {key : String} {v : Value} (hkey : json.lookup key = some v) :
      subscript key (.object json) = .ok v := by
    rw [subscript, hkey]
    rfl
  rw [deliver, recvContext, if_pos rfl, tryCatch_ok, ofExcept_bind rfl, ofExcept_bind (hsubscript hname),
    ofExcept_bind (hsubscript hid), ofExcept_bind (hsubscript hversion), ofExcept_bind (hsubscript hfeatures)]
  change EStateM.Result.ok () (after (setSchema (ofPeer schema) applicationMap)) = _
  rw [hset]
  cases hentry : applicationMap schema.idName with
  | none =>
    rw [if_neg (by simp), Option.map_none, Function.update_eq_self_iff.mpr hentry.symm]
    rfl
  | some entry =>
    rw [if_pos (by simp)]
    rfl

theorem Tabulates.entry (h : Tabulates applicationMap peers) {context : Nat} {name : List UInt8}
    {sent : Option Framework.ConnectionSchema} (hpeer : peers context = some (name, sent)) :
    applicationMap name = some ⟨context, sent.map ofPeer⟩ :=
  (h name ⟨context, sent.map ofPeer⟩).mpr ⟨sent, hpeer, rfl⟩

/-- No two peers have one name. -/
theorem Tabulates.context_eq (h : Tabulates applicationMap peers) {context context' : Nat} {name : List UInt8}
    {sent sent' : Option Framework.ConnectionSchema} (hpeer : peers context = some (name, sent))
    (hpeer' : peers context' = some (name, sent')) : context = context' :=
  congrArg Entry.context (Option.some.inj ((h.entry hpeer).symm.trans (h.entry hpeer')))

/-- The entry of a name and the peer of a context are changed together, where neither belongs to another. -/
theorem Tabulates.update (h : Tabulates applicationMap peers) {context : Nat} {name : List UInt8}
    (hname : ∀ context' sent, peers context' = some (name, sent) → context' = context)
    (hcontext : ∀ name' sent, peers context = some (name', sent) → name' = name)
    (peer : Option (Option Framework.ConnectionSchema)) :
    Tabulates (Function.update applicationMap name (peer.map fun sent => ⟨context, sent.map ofPeer⟩))
      (Function.update peers context (peer.map fun sent => (name, sent))) := by
  rintro n ⟨c, schema⟩
  by_cases hn : n = name
  · subst hn
    rw [Function.update_self]
    by_cases hc : c = context
    · subst hc
      cases peer with
      | none => simp
      | some sent => simp [eq_comm]
    · have hnone : ∀ sent, peers c ≠ some (n, sent) := fun sent hpeer => hc (hname c sent hpeer)
      rw [show (⟨c, schema⟩ : Entry).context = c from rfl, Function.update_of_ne hc]
      refine iff_of_false (fun heq => ?_) fun ⟨sent, hpeer, _⟩ => hnone sent hpeer
      obtain ⟨sent, -, hentry⟩ := Option.map_eq_some_iff.mp heq
      exact hc (congrArg Entry.context hentry).symm
  · rw [Function.update_of_ne hn, h n ⟨c, schema⟩]
    by_cases hc : c = context
    · subst hc
      rw [Function.update_self]
      refine iff_of_false (fun ⟨sent, hpeer, _⟩ => hn (hcontext n sent hpeer)) fun ⟨sent, hpeer, _⟩ => ?_
      obtain ⟨sent', -, heq⟩ := Option.map_eq_some_iff.mp hpeer
      exact hn (Prod.mk.inj heq).1.symm
    · rw [show (⟨c, schema⟩ : Entry).context = c from rfl, Function.update_of_ne hc]

theorem Tabulates.step (h : Tabulates applicationMap peers) {event : Event} (hevent : Genuine peers event)
    (hnew : NewPeer peers event) :
    ∃ applicationMap', deliver event.notification applicationMap = .ok () applicationMap' ∧
      Tabulates applicationMap' (peers.after event) := by
  cases event with
  | established context name sent =>
    refine ⟨_, deliver_established sent, h.update (fun context' sent' hpeer => ?_) (fun name' sent' hpeer => ?_) (some none)⟩
    · exact absurd rfl (hnew context' _ hpeer)
    · cases hevent.symm.trans hpeer
  | closed context name =>
    obtain ⟨sent, hpeer⟩ := hevent
    refine ⟨_, ?_, h.update (fun context' sent' hpeer' => h.context_eq hpeer' hpeer) (fun name' sent' hpeer' => ?_) none⟩
    · show deliver (.closed context name) applicationMap = _
      rw [deliver_closed, pop_of_some (h.entry hpeer)]
      rfl
    · cases hpeer.symm.trans hpeer'
      rfl
  | updated context schema json =>
    obtain ⟨⟨sent, hpeer⟩, members, hwritten, hread⟩ := hevent
    refine ⟨_, deliver_context hwritten hread, ?_⟩
    have hupdate := h.update (fun context' sent' hpeer' => h.context_eq hpeer' hpeer)
      (fun name' sent' hpeer' => by cases hpeer.symm.trans hpeer'; rfl) (some (some schema))
    rw [h.entry hpeer, Peers.after, hpeer]
    exact hupdate

theorem Tabulates.run (h : Tabulates applicationMap peers) {events : List Event} (hevents : Throughout Genuine peers events)
    (hnew : Throughout NewPeer peers events) :
    ∃ applicationMap', (events.map Event.notification).forM deliver applicationMap = .ok () applicationMap' ∧
      Tabulates applicationMap' (events.foldl Peers.after peers) := by
  induction events generalizing applicationMap peers with
  | nil => exact ⟨applicationMap, rfl, h⟩
  | cons event events ih =>
    obtain ⟨map, hdeliver, hmap⟩ := h.step hevents.1 hnew.1
    obtain ⟨map', hrun, htabulates⟩ := ih hmap hevents.2 hnew.2
    exact ⟨map', (forM_cons_of_ok hdeliver _).trans hrun, htabulates⟩

end map

/-! ## The C++ reader -/

section reader
variable {C : Type}

/-- The text of each identifier is the one that C++ writes for its words. -/
theorem featuresIds_str (unset : Nat → Nat → UInt32) (features : List UUID) :
    Framework.ConnectionSchema.featuresIds unset (features.map fun feature => .string feature.str) =
      .ok (features.map words) := by
  have hwords := Framework.ConnectionSchema.featuresIds_map unset (features.map words)
  rw [List.map_map] at hwords
  simp only [str_eq]
  exact hwords

/-- An instance that has no name yet is read as one with an empty name. -/
theorem deserialize_context (s : ConnectorInstance C) (version : List UInt8) (target : Framework.ConnectionSchema)
    (unset : Nat → Nat → UInt32) {root : Value}
    (hroot : Holds root fun key => (attributes (s.getConnectionContext version)).lookup key) :
    target.deserialize unset root =
      .ok ⟨s.applicationName.getD [], s.applicationName.getD [], version, s.featureLevel.map words⟩ := by
  have hname : (s.applicationName.elim Value.null Value.string).asString = .ok (s.applicationName.getD []) := by
    cases s.applicationName <;> rfl
  have hdisplay : root.get "display_name" (.string []) = .ok (s.applicationName.elim .null .string) := hroot.get ..
  have hid : root.get "id_name" (.string []) = .ok (s.applicationName.elim .null .string) := hroot.get ..
  have hversion : root.get "connector_version" (.string []) = .ok (.string version) := hroot.get ..
  have hlist : root.get "available_features" .null =
      .ok (.array (s.featureLevel.map fun featureId => .string featureId.str)) := hroot.get ..
  have hfeatures := featuresIds_str unset s.featureLevel
  simp only [Framework.ConnectionSchema.deserialize, hdisplay, hid, hversion, hlist, bind, Except.bind, hname]
  simp only [Value.asString, Value.elements, hfeatures]
  rfl

end reader

/-! ## Both directions -/

/-- **Contexts are understood.** After any sequence of notifications in which no two connected contexts have one name, the
map of the Python system application is the table of its peers; and what a Python instance writes is read by C++ as its name,
the version of its library and the identifiers of its features. -/
theorem contexts_understood :
    (∀ events, Throughout Genuine (fun _ => none) events → Throughout NewPeer (fun _ => none) events →
      ∃ applicationMap, (events.map Event.notification).forM deliver (fun _ => none) = .ok () applicationMap ∧
        Tabulates applicationMap (events.foldl Peers.after fun _ => none)) ∧
    ∀ (C : Type) (s : ConnectorInstance C) (version : List UInt8) (target : Framework.ConnectionSchema)
      (unset : Nat → Nat → UInt32) (root : Value),
      Holds root (fun key => (attributes (s.getConnectionContext version)).lookup key) →
      target.deserialize unset root =
        .ok ⟨s.applicationName.getD [], s.applicationName.getD [], version, s.featureLevel.map words⟩ := by
  refine ⟨fun events hevents hnew => ?_, fun C s version target unset root hroot => ?_⟩
  · have hstart : Tabulates (fun _ => none) fun _ => none := fun name entry => by simp
    exact hstart.run hevents hnew
  · exact deserialize_context s version target unset hroot

/-- A C++ peer with one feature, beside another peer. -/
def greeting : Framework.ConnectionSchema := ⟨[65], [66], [49], [.ofWords 1 2 3 4]⟩

def greetingJson : Dict :=
  [("available_features", featureList greeting.availableFeatures), ("connector_version", .string [49]),
    ("id_name", .string [66]), ("display_name", .string [65])]

def greetings : List Event :=
  [.established 3 [66] (.ok ()), .established 4 [67] (.ok ()), .updated 3 greeting greetingJson]

theorem greeting_understood :
    (∃ applicationMap, (greetings.map Event.notification).forM deliver (fun _ => none) = .ok () applicationMap ∧
      applicationMap [66] = some ⟨3, some (ofPeer greeting)⟩ ∧ applicationMap [67] = some ⟨4, none⟩) ∧
    greeting.deserialize (fun _ _ => 0)
      (.object (attributes ((.start : ConnectorInstance Unit).getConnectionContext [49]))) = .ok ⟨[], [], [49], []⟩ := by
  constructor
  · have hsecond : NewPeer (Peers.after (fun _ => none) (.established 3 [66] (.ok ()))) (.established 4 [67] (.ok ())) := by
      intro context peer hpeer
      simp only [Peers.after, Function.update_apply, Option.ite_none_right_eq_some, Option.some.injEq] at hpeer
      rw [← hpeer.2]
      decide
    obtain ⟨applicationMap, hrun, htabulates⟩ := contexts_understood.1 greetings
      ⟨rfl, rfl, ⟨⟨_, rfl⟩, _, rfl, fun _ => rfl⟩, trivial⟩ ⟨fun _ _ hpeer => (by cases hpeer), hsecond, trivial, trivial⟩
    exact ⟨applicationMap, hrun, (htabulates [66] ⟨3, some (ofPeer greeting)⟩).mpr ⟨some greeting, rfl, rfl⟩,
      (htabulates [67] ⟨4, none⟩).mpr ⟨none, rfl, rfl⟩⟩
  · exact contexts_understood.2 Unit .start [49] greeting (fun _ _ => 0) _ (holds_object _)

end SubstanceConnector.Python.SystemApplication
