import SubstanceConnector.Framework.Core

/-!
# The names of the connection

A call of `init` stores the names it is given before it asks for the state, so that a call that is refused changes what
`getConnectionContext` returns unless the names are those stored; and a call that the library refuses leaves the framework
in the middle of its start (`init_refused`). The writer of JSON values is a parameter: its text reads back as the value it
was written from, so that no two connections with UTF-8 names have one text.
-/

namespace SubstanceConnector.Framework

open Json

/-- The bytes of a Unicode text. -/
def Utf8 (bytes : List UInt8) : Prop := ByteArray.IsValidUTF8 ⟨bytes.toArray⟩

/-- The objects of two connections with Unicode texts have one text only if they are equal. -/
def ReadsBack (writeString : Value → List UInt8) : Prop :=
  ∀ (schema schema' : ConnectionSchema) (v v' : Value),
    (Utf8 schema.displayName ∧ Utf8 schema.idName ∧ Utf8 schema.connectorVersion) →
    (Utf8 schema'.displayName ∧ Utf8 schema'.idName ∧ Utf8 schema'.connectorVersion) →
    schema.serialize .null = .ok v → schema'.serialize .null = .ok v' → writeString v = writeString v' → v = v'

namespace Statics
variable {C : Type}

/-- The state, the applications, the callbacks and the text of the connection are as before. -/
def Untouched (writeString : Value → List UInt8) (version : List UInt8) (s s' : Statics C) : Prop :=
  s'.startupState = s.startupState ∧ s'.applications = s.applications ∧ s'.callbackMap = s.callbackMap ∧
    s'.getConnectionContext writeString version = s.getConnectionContext writeString version

theorem getConnectionContext_eq (writeString : Value → List UInt8) (version : List UInt8) (s : Statics C) :
    ∃ v, (⟨s.connectionDisplayName, s.connectionId, version, s.featureLevel⟩ : ConnectionSchema).serialize .null = .ok v ∧
      s.getConnectionContext writeString version = .ok (writeString v) := by
  obtain ⟨v, -, hv, -⟩ := ConnectionSchema.serialize_isUnder
    ⟨s.connectionDisplayName, s.connectionId, version, s.featureLevel⟩ holds_null
  refine ⟨v, hv, ?_⟩
  rw [getConnectionContext, hv]
  rfl

/-- A value comes from one schema. -/
theorem serialize_injective {schema schema' : ConnectionSchema} {v : Value} (h : schema.serialize .null = .ok v)
    (h' : schema'.serialize .null = .ok v) : schema = schema' := by
  obtain ⟨w, f, hw, hf, hunder⟩ := schema.serialize_isUnder holds_null
  obtain ⟨w', f', hw', hf', hunder'⟩ := schema'.serialize_isUnder holds_null
  cases h.symm.trans hw
  cases h'.symm.trans hw'
  have hread := ConnectionSchema.deserialize_of_isUnder schema (fun _ _ => 0) hf hunder
  exact Except.ok.inj (hread.symm.trans (ConnectionSchema.deserialize_of_isUnder schema (fun _ _ => 0) hf' hunder'))

/-- A call that returns false touches nothing if the framework is not shut down and the names are those stored, and
only then, as far as the names are Unicode texts. -/
theorem init_refused {writeString : Value → List UInt8} (hwrite : ReadsBack writeString) {version : List UInt8}
    (hversion : Utf8 version) {s : Statics C} {displayName id : List UInt8} {pushed : Nat → List (CallbackPair C)}
    {coreInit : Retcode} (hfalse : (s.init displayName id pushed coreInit).1 = false) :
    (s.startupState ≠ .shutdown ∧ displayName = s.connectionDisplayName ∧ id = s.connectionId →
      Untouched writeString version s (s.init displayName id pushed coreInit).2) ∧
    (Untouched writeString version s (s.init displayName id pushed coreInit).2 → s.startupState ≠ .shutdown ∧
      (Utf8 displayName ∧ Utf8 id → Utf8 s.connectionDisplayName ∧ Utf8 s.connectionId →
        displayName = s.connectionDisplayName ∧ id = s.connectionId)) := by
  constructor
  · rintro ⟨hstate, rfl, rfl⟩
    rw [init_of_ne hstate]
    exact ⟨rfl, rfl, rfl, rfl⟩
  · intro huntouched
    have hstate : s.startupState ≠ .shutdown := by
      intro hstate
      rw [init_of_shutdown hstate] at hfalse huntouched
      have hcore : coreInit ≠ .success := of_decide_eq_false hfalse
      have hstarted := huntouched.1
      simp only [hcore, if_false, hstate] at hstarted
      cases hstarted
    refine ⟨hstate, fun hnames hstored => ?_⟩
    rw [init_of_ne hstate] at huntouched
    obtain ⟨v, hv, hcontext⟩ := s.getConnectionContext_eq writeString version
    obtain ⟨v', hv', hcontext'⟩ :=
      { s with connectionDisplayName := displayName, connectionId := id }.getConnectionContext_eq writeString version
    have htexts : writeString v' = writeString v :=
      Except.ok.inj (hcontext'.symm.trans (huntouched.2.2.2.trans hcontext))
    have hvalues := hwrite _ _ v' v ⟨hnames.1, hnames.2, hversion⟩ ⟨hstored.1, hstored.2, hversion⟩ hv' hv htexts
    rw [hvalues] at hv'
    have hschemas := serialize_injective hv' hv
    exact ⟨congrArg ConnectionSchema.displayName hschemas, congrArg ConnectionSchema.idName hschemas⟩

end Statics

/-! ## A writer -/

/-- A text between quotation marks, with a backslash before those inside it. -/
def quoted : List UInt8 → List UInt8
  | [] => [34]
  | c :: rest => if c = 34 ∨ c = 92 then 92 :: c :: quoted rest else c :: quoted rest

def stringText (bytes : List UInt8) : List UInt8 := 34 :: quoted bytes

/-- The elements of an array after the first, and its end. -/
def elementsText : List (List UInt8) → List UInt8
  | [] => text "]"
  | element :: rest => text "," ++ stringText element ++ elementsText rest

def featuresText : List (List UInt8) → List UInt8
  | [] => text "null"
  | element :: rest => text "[" ++ stringText element ++ elementsText rest

/-- What is under a key, or null. -/
def under (v : Value) (key : String) : Value := ((v.get key .null).toOption).getD .null

def bytesOf (v : Value) : List UInt8 := (v.asString.toOption).getD []

/-- The members of a connection in the order of their keys. With an empty `indentation` there is nothing between them. -/
def compactText (v : Value) : List UInt8 :=
  text "\x7b\"available_features\":" ++ featuresText ((under v "available_features").elements.map bytesOf) ++
    text ",\"connector_version\":" ++ stringText (bytesOf (under v "connector_version")) ++
    text ",\"display_name\":" ++ stringText (bytesOf (under v "display_name")) ++
    text ",\"id_name\":" ++ stringText (bytesOf (under v "id_name")) ++ text "\x7d"

theorem quoted_append_inj {bytes bytes' rest rest' : List UInt8} (h : quoted bytes ++ rest = quoted bytes' ++ rest') :
    bytes = bytes' ∧ rest = rest' := by
  induction bytes generalizing bytes' with
  | nil =>
    cases bytes' with
    | nil => exact ⟨rfl, (List.cons.inj h).2⟩
    | cons c' bytes' =>
      simp only [quoted] at h
      split at h <;> simp_all
  | cons c bytes ih =>
    cases bytes' with
    | nil =>
      simp only [quoted] at h
      split at h <;> simp_all
    | cons c' bytes' =>
      simp only [quoted] at h
      split at h <;> split at h
      · simp only [List.cons_append, List.cons.injEq, true_and] at h
        obtain ⟨hbytes, hrest⟩ := ih h.2
        exact ⟨by rw [h.1, hbytes], hrest⟩
      · simp_all
      · simp_all
      · simp only [List.cons_append, List.cons.injEq] at h
        obtain ⟨hbytes, hrest⟩ := ih h.2
        exact ⟨by rw [h.1, hbytes], hrest⟩

theorem stringText_append_inj {bytes bytes' rest rest' : List UInt8}
    (h : stringText bytes ++ rest = stringText bytes' ++ rest') : bytes = bytes' ∧ rest = rest' :=
  quoted_append_inj (List.cons.inj h).2

theorem elementsText_append_inj {elements elements' : List (List UInt8)} {rest rest' : List UInt8}
    (h : elementsText elements ++ rest = elementsText elements' ++ rest') : elements = elements' ∧ rest = rest' := by
  induction elements generalizing elements' with
  | nil =>
    cases elements' with
    | nil => exact ⟨rfl, List.append_cancel_left h⟩
    | cons element' elements' => exact absurd (List.cons.inj h).1 (by decide)
  | cons element elements ih =>
    cases elements' with
    | nil => exact absurd (List.cons.inj h).1 (by decide)
    | cons element' elements' =>
      simp only [elementsText, List.append_assoc] at h
      obtain ⟨helement, hrest⟩ := stringText_append_inj (List.append_cancel_left h)
      obtain ⟨helements, hrest⟩ := ih hrest
      exact ⟨by rw [helement, helements], hrest⟩

theorem featuresText_append_inj {features features' : List (List UInt8)} {rest rest' : List UInt8}
    (h : featuresText features ++ rest = featuresText features' ++ rest') : features = features' ∧ rest = rest' := by
  cases features with
  | nil =>
    cases features' with
    | nil => exact ⟨rfl, List.append_cancel_left h⟩
    | cons element' elements' => exact absurd (List.cons.inj h).1 (by decide)
  | cons element elements =>
    cases features' with
    | nil => exact absurd (List.cons.inj h).1 (by decide)
    | cons element' elements' =>
      simp only [featuresText, List.append_assoc] at h
      obtain ⟨helement, hrest⟩ := stringText_append_inj (List.append_cancel_left h)
      obtain ⟨helements, hrest⟩ := elementsText_append_inj hrest
      exact ⟨by rw [helement, helements], hrest⟩

theorem under_of_holds {v x : Value} {f : String → Option Value} {key : String} (hv : Holds v f) (hkey : f key = some x) :
    under v key = x := by
  rw [under, hv.get, hkey]
  rfl

theorem uuidToString_injective : Function.Injective uuidToString :=
  Function.LeftInverse.injective (uuidFromString_uuidToString fun _ => 0)

theorem compactText_readsBack : ReadsBack compactText := by
  intro schema schema' v v' _ _ hv hv' htext
  obtain ⟨w, f, hw, hf, h⟩ := schema.serialize_isUnder holds_null
  obtain ⟨w', f', hw', hf', h'⟩ := schema'.serialize_isUnder holds_null
  cases hv.symm.trans hw
  cases hv'.symm.trans hw'
  obtain ⟨value, hvalue, helements⟩ := h.availableFeatures
  obtain ⟨value', hvalue', helements'⟩ := h'.availableFeatures
  have hfeatures : ∀ features : List Uuid, (features.map fun feature => Value.string (uuidToString feature)).map bytesOf =
      features.map uuidToString := fun features => List.map_map
  simp only [compactText, under_of_holds hf hvalue, under_of_holds hf h.connectorVersion, under_of_holds hf h.displayName,
    under_of_holds hf h.idName, under_of_holds hf' hvalue', under_of_holds hf' h'.connectorVersion,
    under_of_holds hf' h'.displayName, under_of_holds hf' h'.idName, helements, helements', hfeatures,
    List.append_assoc] at htext
  obtain ⟨hfeature, hrest⟩ := featuresText_append_inj (List.append_cancel_left htext)
  obtain ⟨hversion, hrest⟩ := stringText_append_inj (List.append_cancel_left hrest)
  obtain ⟨hname, hrest⟩ := stringText_append_inj (List.append_cancel_left hrest)
  obtain ⟨hid, -⟩ := stringText_append_inj (List.append_cancel_left hrest)
  have hschemas : schema = schema' := by
    apply ConnectionSchema.ext hname hid hversion
    exact List.map_injective_iff.mpr uuidToString_injective hfeature
  rw [hschemas] at hw
  exact Except.ok.inj (hw.symm.trans hw')

namespace Statics

/-- A second call with the names of the first. -/
theorem init_refused_twice :
    let s : Statics Unit := ((start fun _ => []).init [65] [66] (fun _ => []) .success).2
    Untouched compactText [49] s (s.init [65] [66] (fun _ => []) .success).2 := by
  intro s
  have hs : s = _ := congrArg Prod.snd (init_of_shutdown rfl [65] [66] (fun _ => []) .success)
  have hstate : s.startupState ≠ .shutdown := by
    rw [hs]
    decide
  have hrefused : (s.init [65] [66] (fun _ => []) .success).1 = false := congrArg Prod.fst (init_of_ne hstate _ _ _ _)
  have hversion : Utf8 [49] := ⟨['1'], by decide +kernel⟩
  exact (init_refused compactText_readsBack hversion hrefused).1
    ⟨hstate, by rw [hs], by rw [hs]⟩

/-- A second call is refused and renames the connection; a first one that the library refuses leaves the framework in
the middle of its start. -/
theorem init_touches :
    let s : Statics Unit := ((start fun _ => []).init [65] [65] (fun _ => []) .success).2
    let refused := s.init [66] [66] (fun _ => []) .success
    let failed := (start fun _ => ([] : List (CallbackPair Unit))).init [65] [65] (fun _ => []) .error
    refused.1 = false ∧ ¬ Untouched compactText [49] s refused.2 ∧
      failed.1 = false ∧ ¬ Untouched compactText [49] (start fun _ => []) failed.2 := by
  intro s refused failed
  have hs : s = _ := congrArg Prod.snd (init_of_shutdown rfl [65] [65] (fun _ => []) .success)
  have hrefused : refused = _ := init_of_ne (by rw [hs]; decide) [66] [66] (fun _ => []) .success
  have hfailed : failed = _ := init_of_shutdown rfl [65] [65] (fun _ => []) .error
  refine ⟨congrArg Prod.fst hrefused, fun huntouched => ?_, congrArg Prod.fst hfailed, fun huntouched => ?_⟩
  · have htext := huntouched.2.2.2
    rw [hrefused, hs] at htext
    revert htext
    decide +kernel
  · have hstarted := huntouched.1
    rw [hfailed] at hstarted
    cases hstarted

end Statics

end SubstanceConnector.Framework
