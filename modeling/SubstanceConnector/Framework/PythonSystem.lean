import SubstanceConnector.Framework.PythonInstance

/-!
# The Python system application

`system.py`: the map of the connected applications, on any sequence of notifications. The map is keyed by the name of the
peer, and a connection is known by its context: once a context is established with the name of another, the map describes
the established contexts never again (`Lost.run`), and one of the two closures raises. So the map is right on exactly the
sequences in which no two contexts have one name at once (`application_map`).
-/

namespace SubstanceConnector.Python.SystemApplication

open StateCalls Json

def connectionEstablishedUuid : UUID := ⟨0x02572bc52d84450a9e01d22c66b1abb1, by decide⟩

def connectionClosedUuid : UUID := ⟨0x04705ddf16d44489af6c6e3a93f1959d, by decide⟩

def connectionUpdateContextUuid : UUID := ⟨0x39b07a6749964b62a340908a81f66562, by decide⟩

/-- What the map has for a name; the schema is empty until the context of the peer is received. -/
structure Entry where
  context : Nat
  schema : Option ConnectionSchema

/-- `_application_map`. -/
abbrev ApplicationMap := List UInt8 → Option Entry

abbrev Callback := EStateM CallException ApplicationMap Unit

/-- `_application_map.pop(message)`. -/
def pop (message : List UInt8) : Callback := do
  let applicationMap ← get
  if (applicationMap message).isSome then modify fun applicationMap => Function.update applicationMap message none
  else throw .keyError

/-- `send_context`, on what reading and writing the context comes to; what is raised is printed. -/
def sendContext (sent : Except CallException Unit) : Callback :=
  tryCatch (MonadExcept.ofExcept sent) fun _ => pure ()

def recvConnectionEstablished (sent : Except CallException Unit) (context : Nat) (messageType : UUID)
    (message : List UInt8) : Callback :=
  if messageType = connectionEstablishedUuid then do
    modify fun applicationMap => Function.update applicationMap message (some ⟨context, none⟩)
    sendContext sent
  else pure ()

def recvConnectionClosed (messageType : UUID) (message : List UInt8) : Callback :=
  if messageType = connectionClosedUuid then pop message else pure ()

/-- `message_object[key]`. -/
def subscript (key : String) : Value → Except CallException Value
  | .object members => (members.lookup key).elim (.error .keyError) .ok
  | _ => .error .typeError

/-- A value as a key of the map, whose keys are texts; lists and dictionaries cannot be hashed. -/
def mapKey : Value → Except CallException (List UInt8)
  | .string name => .ok name
  | .array _ => .error .typeError
  | .object _ => .error .typeError
  | _ => .error .keyError

def Entry.setSchema (schema : ConnectionSchema) (entry : Entry) : Entry := { entry with schema := some schema }

/-- `_application_map[id_name]["schema"] = schema`. -/
def setSchema (schema : ConnectionSchema) : Callback := do
  let name ← MonadExcept.ofExcept (mapKey schema.idName)
  let applicationMap ← get
  if (applicationMap name).isSome then
    modify fun applicationMap => Function.update applicationMap name ((applicationMap name).map (Entry.setSchema schema))
  else throw .keyError

/-- `recv_context`, on what `json.loads` makes of the message; what is raised is printed. -/
def recvContext (messageType : UUID) (loaded : Except CallException Value) : Callback :=
  tryCatch
    (if messageType = connectionUpdateContextUuid then do
      let messageObject ← MonadExcept.ofExcept loaded
      let displayName ← MonadExcept.ofExcept (subscript "display_name" messageObject)
      let idName ← MonadExcept.ofExcept (subscript "id_name" messageObject)
      let connectorVersion ← MonadExcept.ofExcept (subscript "connector_version" messageObject)
      let availableFeatures ← MonadExcept.ofExcept (subscript "available_features" messageObject)
      setSchema ⟨displayName, idName, connectorVersion, availableFeatures⟩
    else pure ())
    fun _ => pure ()

/-! ## Notifications -/

/-- A notification of a connection. -/
inductive Notification where
  | established (context : Nat) (name : List UInt8) (sent : Except CallException Unit)
  | closed (context : Nat) (name : List UInt8)
  | updated (loaded : Except CallException Value)

/-- The callback of a notification. -/
def deliver : Notification → Callback
  | .established context name sent => recvConnectionEstablished sent context connectionEstablishedUuid name
  | .closed _ name => recvConnectionClosed connectionClosedUuid name
  | .updated loaded => recvContext connectionUpdateContextUuid loaded

/-- The contexts that are established, with their names. -/
abbrev Connections := List (Nat × List UInt8)

def Connections.after (connections : Connections) : Notification → Connections
  | .established context name _ => (context, name) :: connections
  | .closed context name => connections.filter (· ≠ (context, name))
  | .updated _ => connections

/-- Only a context that is not established is established, and only one that is with this name is closed. -/
def Admits (connections : Connections) : Notification → Prop
  | .established context _ _ => ∀ connection ∈ connections, connection.1 ≠ context
  | .closed context name => (context, name) ∈ connections
  | .updated _ => True

/-- A context is established with a name that no established one has. -/
def NewName (connections : Connections) : Notification → Prop
  | .established _ name _ => ∀ connection ∈ connections, connection.2 ≠ name
  | _ => True

/-- A condition on every notification of a sequence and the contexts established before it. -/
def Along (P : Connections → Notification → Prop) : Connections → List Notification → Prop
  | _, [] => True
  | connections, notification :: notifications =>
    P connections notification ∧ Along P (connections.after notification) notifications

/-- The contexts that the map has for the names. -/
def contexts (applicationMap : ApplicationMap) (name : List UInt8) : Option Nat := (applicationMap name).map Entry.context

/-- The map has the established contexts, each under its name, and no others. -/
def Describes (applicationMap : ApplicationMap) (connections : Connections) : Prop :=
  ∀ context name, (context, name) ∈ connections ↔ contexts applicationMap name = some context

/-! ## The callbacks -/

theorem contexts_update (applicationMap : ApplicationMap) (name : List UInt8) (found : Option Entry) :
    contexts (Function.update applicationMap name found) =
      Function.update (contexts applicationMap) name (found.map Entry.context) :=
  Function.comp_update (Option.map Entry.context) applicationMap name found

section callbacks
variable {applicationMap : ApplicationMap} {context : Nat} {name : List UInt8}

theorem sendContext_ok (sent : Except CallException Unit) : sendContext sent applicationMap = .ok () applicationMap := by
  rw [sendContext, tryCatch_ok]
  cases sent <;> rfl

theorem deliver_established (sent : Except CallException Unit) : deliver (.established context name sent) applicationMap =
    .ok () (Function.update applicationMap name (some ⟨context, none⟩)) := by
  rw [deliver, recvConnectionEstablished, if_pos rfl]
  exact sendContext_ok sent

theorem pop_of_some {entry : Entry} (h : applicationMap name = some entry) :
    pop name applicationMap = .ok () (Function.update applicationMap name none) := by
  have hsome : (applicationMap name).isSome := by
    rw [h]
    rfl
  change (if _ then _ else _ : Callback) applicationMap = _
  rw [if_pos hsome]
  rfl

theorem pop_of_none (h : applicationMap name = none) : pop name applicationMap = .error .keyError applicationMap := by
  have hnone : ¬ (applicationMap name).isSome := by
    rw [h]
    exact Bool.false_ne_true
  change (if _ then _ else _ : Callback) applicationMap = _
  rw [if_neg hnone]
  rfl

theorem deliver_closed : deliver (.closed context name) = pop name := by
  rw [deliver, recvConnectionClosed, if_pos rfl]

/-- The schema of an entry is set, and its context stays. -/
theorem keeps_setSchema (schema : ConnectionSchema) : Keeps contexts (setSchema schema) := by
  have hset : ∀ name (applicationMap : ApplicationMap),
      contexts (Function.update applicationMap name ((applicationMap name).map (Entry.setSchema schema))) =
        contexts applicationMap := by
    intro name applicationMap
    rw [contexts_update, Option.map_map]
    exact Function.update_eq_self name (contexts applicationMap)
  refine Keeps.bind (keeps_ofExcept _) fun name => ?_
  refine Keeps.bind keeps_get fun applicationMap => ?_
  exact (keeps_modify (hset name)).ite (keeps_throw _)

theorem deliver_updated (applicationMap : ApplicationMap) (loaded : Except CallException Value) : ∃ applicationMap',
    deliver (.updated loaded) applicationMap = .ok () applicationMap' ∧
      contexts applicationMap' = contexts applicationMap := by
  refine ⟨_, tryCatch_ok _ _, ?_⟩
  revert applicationMap
  change Keeps contexts _
  refine Keeps.ite ?_ (keeps_pure ())
  refine Keeps.bind (keeps_ofExcept _) fun messageObject => ?_
  refine Keeps.bind (keeps_ofExcept _) fun displayName => ?_
  refine Keeps.bind (keeps_ofExcept _) fun idName => ?_
  refine Keeps.bind (keeps_ofExcept _) fun connectorVersion => ?_
  refine Keeps.bind (keeps_ofExcept _) fun availableFeatures => ?_
  exact keeps_setSchema _

end callbacks

/-! ## One notification -/

section notifications
variable {applicationMap : ApplicationMap} {connections : Connections}
  {notification : Notification}

/-- A callback that returns has put the context under the name, has found and removed the name, or changes no context. -/
theorem deliver_ok {applicationMap' : ApplicationMap} (h : deliver notification applicationMap = .ok () applicationMap') :
    (∃ context name sent, notification = .established context name sent ∧
      contexts applicationMap' = Function.update (contexts applicationMap) name (some context)) ∨
    (∃ context name found, notification = .closed context name ∧ contexts applicationMap name = some found ∧
      contexts applicationMap' = Function.update (contexts applicationMap) name none) ∨
    (∃ loaded, notification = .updated loaded ∧ contexts applicationMap' = contexts applicationMap) := by
  cases notification with
  | established context name sent =>
    rw [deliver_established] at h
    cases h
    exact .inl ⟨context, name, sent, rfl, contexts_update applicationMap name _⟩
  | closed context name =>
    rw [deliver_closed] at h
    cases hfound : applicationMap name with
    | none =>
      rw [pop_of_none hfound] at h
      cases h
    | some entry =>
      rw [pop_of_some hfound] at h
      cases h
      refine .inr (.inl ⟨context, name, entry.context, rfl, ?_, contexts_update applicationMap name none⟩)
      rw [contexts, hfound]
      rfl
  | updated loaded =>
    obtain ⟨map, hmap, hcontexts⟩ := deliver_updated applicationMap loaded
    cases hmap.symm.trans h
    exact .inr (.inr ⟨loaded, rfl, hcontexts⟩)

/-- Where the map describes the connections, the callback returns. -/
theorem Describes.returns (h : Describes applicationMap connections) (hadmits : Admits connections notification) :
    ∃ applicationMap', deliver notification applicationMap = .ok () applicationMap' := by
  cases notification with
  | established context name sent => exact ⟨_, deliver_established sent⟩
  | closed context name =>
    have hfound := (h context name).mp hadmits
    rw [contexts, Option.map_eq_some_iff] at hfound
    obtain ⟨entry, hentry, -⟩ := hfound
    rw [deliver_closed, pop_of_some hentry]
    exact ⟨_, rfl⟩
  | updated loaded =>
    obtain ⟨applicationMap', hmap, -⟩ := deliver_updated applicationMap loaded
    exact ⟨applicationMap', hmap⟩

/-- It describes them afterwards, if the notification brings no name that is there. -/
theorem Describes.step (h : Describes applicationMap connections) (hadmits : Admits connections notification)
    (hname : NewName connections notification) {applicationMap' : ApplicationMap}
    (hdeliver : deliver notification applicationMap = .ok () applicationMap') :
    Describes applicationMap' (connections.after notification) := by
  intro c n
  obtain ⟨context, name, sent, rfl, hcontexts⟩ | ⟨context, name, found, rfl, hfound, hcontexts⟩ | ⟨loaded, rfl, hcontexts⟩ :=
    deliver_ok hdeliver
  · rw [hcontexts, Connections.after, List.mem_cons, h c n]
    by_cases hn : n = name
    · have hnew : contexts applicationMap n ≠ some c := fun hc => hname (c, n) ((h c n).mpr hc) hn
      rw [hn] at hnew ⊢
      rw [Function.update_self, or_iff_left hnew, Prod.mk.injEq, Option.some.injEq]
      exact ⟨fun heq => heq.1.symm, fun heq => ⟨heq.symm, rfl⟩⟩
    · simp [hn]
  · rw [hcontexts, Connections.after, List.mem_filter, h c n]
    by_cases hn : n = name
    · rw [hn, (h context name).mp hadmits, Function.update_self]
      constructor
      · rintro ⟨hc, hne⟩
        rw [Option.some.inj hc] at hne
        exact absurd rfl (of_decide_eq_true hne)
      · intro hc
        cases hc
    · simp [hn]
  · rw [hcontexts, Connections.after, h c n]

/-- The map has only established contexts, and misses one of them. -/
def Lost (applicationMap : ApplicationMap) (connections : Connections) : Prop :=
  (∀ name context, contexts applicationMap name = some context → (context, name) ∈ connections) ∧
    ∃ context name, (context, name) ∈ connections ∧ contexts applicationMap name ≠ some context

theorem Lost.not_describes (h : Lost applicationMap connections) : ¬ Describes applicationMap connections := by
  intro hdescribes
  obtain ⟨-, context, name, hmem, hne⟩ := h
  exact hne ((hdescribes context name).mp hmem)

/-- A callback that returns leaves established contexts only. -/
theorem sound_step (hsound : ∀ name context, contexts applicationMap name = some context → (context, name) ∈ connections)
    {applicationMap' : ApplicationMap} (hdeliver : deliver notification applicationMap = .ok () applicationMap')
    (other : List UInt8) (c : Nat) (hc : contexts applicationMap' other = some c) :
    (c, other) ∈ connections.after notification := by
  obtain ⟨context, name, sent, rfl, hcontexts⟩ | ⟨context, name, found, rfl, -, hcontexts⟩ | ⟨loaded, rfl, hcontexts⟩ :=
    deliver_ok hdeliver
  · rw [hcontexts] at hc
    by_cases hother : other = name
    · rw [hother, Function.update_self] at hc
      rw [hother, Option.some.inj hc]
      exact List.mem_cons_self
    · rw [Function.update_of_ne hother] at hc
      exact List.mem_cons_of_mem _ (hsound other c hc)
  · rw [hcontexts] at hc
    by_cases hother : other = name
    · rw [hother, Function.update_self] at hc
      cases hc
    · rw [Function.update_of_ne hother] at hc
      refine List.mem_filter.mpr ⟨hsound other c hc, decide_eq_true fun heq => ?_⟩
      exact hother (Prod.mk.inj heq).2
  · rw [hcontexts] at hc
    exact hsound other c hc

/-- A second context with a name takes the place of the first. -/
theorem Describes.lost (h : Describes applicationMap connections) (hadmits : Admits connections notification)
    (hname : ¬ NewName connections notification) {applicationMap' : ApplicationMap}
    (hdeliver : deliver notification applicationMap = .ok () applicationMap') :
    Lost applicationMap' (connections.after notification) := by
  refine ⟨sound_step (fun name context => (h context name).mpr) hdeliver, ?_⟩
  obtain ⟨context, name, sent, rfl, hcontexts⟩ | ⟨context, name, found, rfl, -, -⟩ | ⟨loaded, rfl, -⟩ := deliver_ok hdeliver
  · simp only [NewName, not_forall, not_not] at hname
    obtain ⟨⟨first, n⟩, hfirst, rfl⟩ := hname
    refine ⟨first, n, List.mem_cons_of_mem _ hfirst, ?_⟩
    rw [hcontexts, Function.update_self]
    exact fun heq => hadmits (first, n) hfirst (Option.some.inj heq).symm
  · exact absurd trivial hname
  · exact absurd trivial hname

/-- What the map misses it misses from then on: a closure of another context with the name removes the name. -/
theorem Lost.step (h : Lost applicationMap connections) (hadmits : Admits connections notification)
    {applicationMap' : ApplicationMap} (hdeliver : deliver notification applicationMap = .ok () applicationMap') :
    Lost applicationMap' (connections.after notification) := by
  obtain ⟨hsound, missed, n, hmissed, hne⟩ := h
  refine ⟨sound_step hsound hdeliver, ?_⟩
  obtain ⟨context, name, sent, rfl, hcontexts⟩ | ⟨context, name, found, rfl, hfound, hcontexts⟩ | ⟨loaded, rfl, hcontexts⟩ :=
    deliver_ok hdeliver
  · refine ⟨missed, n, List.mem_cons_of_mem _ hmissed, ?_⟩
    rw [hcontexts]
    by_cases hn : n = name
    · rw [hn, Function.update_self]
      exact fun heq => hadmits (missed, n) hmissed (Option.some.inj heq).symm
    · rw [Function.update_of_ne hn]
      exact hne
  · have hstays : ∀ {c : Nat} {other : List UInt8}, (c, other) ∈ connections → (c, other) ≠ (context, name) →
        (c, other) ∈ connections.after (.closed context name) := by
      intro c other hmem hother
      exact List.mem_filter.mpr ⟨hmem, decide_eq_true hother⟩
    rw [hcontexts]
    by_cases hn : n = name
    · rw [hn] at hmissed hne
      have hremoved : ∀ c, Function.update (contexts applicationMap) name none name ≠ some c := by
        intro c
        rw [Function.update_self]
        exact (Option.some_ne_none c).symm
      by_cases hcontext : missed = context
      · -- the context that is closed was missing: the one that the map has is missing now
        refine ⟨found, name, hstays (hsound name found hfound) fun heq => hne ?_, hremoved found⟩
        rw [hfound, hcontext, (Prod.mk.inj heq).1]
      · exact ⟨missed, name, hstays hmissed fun heq => hcontext (Prod.mk.inj heq).1, hremoved missed⟩
    · refine ⟨missed, n, hstays hmissed fun heq => hn (Prod.mk.inj heq).2, ?_⟩
      rw [Function.update_of_ne hn]
      exact hne
  · rw [hcontexts]
    exact ⟨missed, n, hmissed, hne⟩

end notifications

/-! ## Sequences -/

section sequences
variable {notifications : List Notification}

theorem Describes.run {applicationMap : ApplicationMap} {connections : Connections}
    (h : Describes applicationMap connections) (hadmits : Along Admits connections notifications)
    (hnames : Along NewName connections notifications) :
    ∃ applicationMap', notifications.forM deliver applicationMap = .ok () applicationMap' ∧
      Describes applicationMap' (notifications.foldl Connections.after connections) := by
  induction notifications generalizing applicationMap connections with
  | nil => exact ⟨applicationMap, rfl, h⟩
  | cons notification notifications ih =>
    obtain ⟨map, hdeliver⟩ := h.returns hadmits.1
    obtain ⟨map', hrun, hdescribes⟩ := ih (h.step hadmits.1 hnames.1 hdeliver) hadmits.2 hnames.2
    exact ⟨map', (forM_cons_of_ok hdeliver notifications).trans hrun, hdescribes⟩

theorem Lost.run {applicationMap applicationMap' : ApplicationMap} {connections : Connections}
    (h : Lost applicationMap connections) (hadmits : Along Admits connections notifications)
    (hrun : notifications.forM deliver applicationMap = .ok () applicationMap') :
    Lost applicationMap' (notifications.foldl Connections.after connections) := by
  induction notifications generalizing applicationMap connections with
  | nil =>
    cases hrun
    exact h
  | cons notification notifications ih =>
    obtain ⟨_, map, hdeliver, hrest⟩ := bind_ok hrun
    exact ih (h.step hadmits.1 hdeliver) hadmits.2 hrest

theorem newName_of_describes {applicationMap applicationMap' : ApplicationMap} {connections : Connections}
    (h : Describes applicationMap connections) (hadmits : Along Admits connections notifications)
    (hrun : notifications.forM deliver applicationMap = .ok () applicationMap')
    (hdescribes : Describes applicationMap' (notifications.foldl Connections.after connections)) :
    Along NewName connections notifications := by
  induction notifications generalizing applicationMap connections with
  | nil => trivial
  | cons notification notifications ih =>
    obtain ⟨_, map, hdeliver, hrest⟩ := bind_ok hrun
    have hname : NewName connections notification := by
      by_contra hname
      exact ((h.lost hadmits.1 hname hdeliver).run hadmits.2 hrest).not_describes hdescribes
    exact ⟨hname, ih (h.step hadmits.1 hname hdeliver) hadmits.2 hrest hdescribes⟩

theorem describes_start : Describes (fun _ => none) [] := by
  intro context name
  exact ⟨fun hmem => absurd hmem List.not_mem_nil, fun heq => by cases heq⟩

/-- No callback raises and the map has exactly the established contexts, if and only if no context is established with a
name that an established one has. -/
theorem application_map (notifications : List Notification)
    (hadmits : Along Admits [] notifications) :
    (∃ applicationMap, notifications.forM deliver (fun _ => none) = .ok () applicationMap ∧
      Describes applicationMap (notifications.foldl Connections.after [])) ↔ Along NewName [] notifications := by
  constructor
  · rintro ⟨applicationMap, hrun, hdescribes⟩
    exact newName_of_describes describes_start hadmits hrun hdescribes
  · exact describes_start.run hadmits

/-- Two contexts with different names, the first closed. -/
theorem application_map_two :
    let notifications : List Notification :=
      [.established 1 [65] (.ok ()), .established 2 [66] (.error .connectionError), .closed 1 [65]]
    ∃ applicationMap, notifications.forM deliver (fun _ => none) = .ok () applicationMap ∧
      Describes applicationMap [(2, [66])] := by
  intro notifications
  refine (application_map notifications ?_).mpr ?_
  · simp [notifications, Along, Admits, Connections.after]
  · simp [notifications, Along, NewName, Connections.after]

/-- Two contexts with one name, and their closures: the second raises. -/
theorem shared_name_raises :
    let notifications : List Notification :=
      [.established 1 [65] (.ok ()), .established 2 [65] (.ok ()), .closed 2 [65], .closed 1 [65]]
    Along Admits [] notifications ∧
      ∃ applicationMap, notifications.forM deliver (fun _ => none) = .error .keyError applicationMap := by
  intro notifications
  refine ⟨by simp [notifications, Along, Admits, Connections.after], ?_⟩
  simp only [notifications, forM_cons_of_ok (deliver_established _)]
  have hfirst : ∀ applicationMap : ApplicationMap,
      deliver (.closed 2 [65]) (Function.update applicationMap [65] (some ⟨2, none⟩)) =
        .ok () (Function.update (Function.update applicationMap [65] (some ⟨2, none⟩)) [65] none) := by
    intro applicationMap
    rw [deliver_closed]
    exact pop_of_some (Function.update_self _ _ _)
  have hsecond : ∀ applicationMap : ApplicationMap,
      deliver (.closed 1 [65]) (Function.update applicationMap [65] none) =
        .error .keyError (Function.update applicationMap [65] none) := by
    intro applicationMap
    rw [deliver_closed]
    exact pop_of_none (Function.update_self _ _ _)
  rw [forM_cons_of_ok (hfirst _)]
  exact ⟨_, forM_cons_of_error (hsecond _) []⟩

end sequences

end SubstanceConnector.Python.SystemApplication
