import SubstanceConnector.Framework.MeshSchema

/-!
# Names in mesh export schemas

Where `mesh_export_schema::Deserialize` looks names up: a step stays in the tables of names, and what follows it counts
only if the step returns (`staysInTables_bind`). With texts under the keys of the enumerations the lookups stay in their
tables exactly if each name is found that comes before an accessor that throws and before any format
(`deserialize_staysInTables`).
-/

namespace SubstanceConnector.Framework

open Json

namespace MeshExportSchema

/-- What is found at the end of a table of names is not used. -/
def StaysInTables {α : Type} (x : Except ReadStop α) : Prop := x ≠ .error .endOfTable

def Returns {ε α : Type} (x : Except ε α) : Prop := ∃ a, x = .ok a

section steps
variable {α β : Type} {root : Value} {f : String → Option Value} {key : String} {default : Value} {field : Option α}

/-- A step before others, which do not depend on what it gives. -/
theorem staysInTables_bind {x : Except ReadStop α} {g : α → Except ReadStop β} {p : Prop}
    (h : ∀ a, StaysInTables (g a) ↔ p) : StaysInTables (x >>= g) ↔ StaysInTables x ∧ (Returns x → p) := by
  cases x with
  | error stop => simp [StaysInTables, Returns, bind, Except.bind]
  | ok a =>
    have hx : StaysInTables (.ok a : Except ReadStop α) := nofun
    have hreturns : Returns (.ok a : Except ReadStop α) := ⟨a, rfl⟩
    simp only [hx, hreturns, true_and, true_imp_iff]
    exact h a

theorem staysInTables_pure (a : α) : StaysInTables (pure a : Except ReadStop α) := by
  simp [StaysInTables, pure, Except.pure]

theorem staysInTables_error {stop : ReadStop} (h : stop ≠ .endOfTable) :
    StaysInTables (.error stop : Except ReadStop α) := fun heq => h (Except.error.inj heq)

theorem not_returns_error {stop : ReadStop} : ¬ Returns (.error stop : Except ReadStop α) := by
  simp [Returns]

theorem staysInTables_accessed (x : Except LogicError α) : StaysInTables (accessed x) := by
  cases x <;> simp [StaysInTables, accessed, Except.mapError]

theorem returns_accessed {x : Except LogicError α} : Returns (accessed x) ↔ Returns x := by
  cases x <;> simp [Returns, accessed, Except.mapError]

/-- The member is missing or converts. -/
def Converts (convert : Value → Except LogicError α) (member : Option Value) : Prop :=
  ∀ v, member = some v → Returns (convert v)

def NameFound (table : NameTable α) (member : Option Value) : Prop :=
  ∀ text, member = some (.string text) → text ∈ table.names

/-- A member that is there is a text. -/
def OfText (member : Option Value) : Prop := ∀ v, member = some v → ∃ text, v = .string text

theorem staysInTables_readMember (hroot : Holds root f) {read : Value → Except ReadStop (Option α)} :
    StaysInTables (readMember root key default field read) ↔ ∀ v, f key = some v → StaysInTables (read v) := by
  rw [readMember_of_holds hroot]
  cases f key <;> simp [StaysInTables]

theorem returns_readMember (hroot : Holds root f) {read : Value → Except ReadStop (Option α)} :
    Returns (readMember root key default field read) ↔ ∀ v, f key = some v → Returns (read v) := by
  rw [readMember_of_holds hroot]
  cases f key <;> simp [Returns]

/-- A text or a flag is read without a table. -/
theorem readMember_converts (hroot : Holds root f) {convert : Value → Except LogicError α} :
    StaysInTables (readMember root key default field fun v => return some (← accessed (convert v))) ∧
      (Returns (readMember root key default field fun v => return some (← accessed (convert v))) ↔
        Converts convert (f key)) := by
  rw [staysInTables_readMember hroot, returns_readMember hroot]
  refine ⟨fun v _ => ?_, forall_congr' fun v => imp_congr_right fun _ => ?_⟩
  · cases convert v <;> simp [StaysInTables, accessed, Except.mapError, bind, Except.bind, pure, Except.pure]
  · cases convert v <;> simp [Returns, accessed, Except.mapError, bind, Except.bind, pure, Except.pure]

theorem readMember_text {field : Option (List UInt8)} (hroot : Holds root f) :
    StaysInTables (readMember root key default field readText) ∧
      (Returns (readMember root key default field readText) ↔ Converts Value.asString (f key)) :=
  readMember_converts hroot

theorem readMember_flag {field : Option Bool} (hroot : Holds root f) :
    StaysInTables (readMember root key default field readFlag) ∧
      (Returns (readMember root key default field readFlag) ↔ Converts Value.asBool (f key)) :=
  readMember_converts hroot

theorem getKeyFromValue_cases (table : NameTable α) (text : List UInt8) :
    (∃ key, getKeyFromValue table text = .ok key) ∧ text ∈ table.names ∨
      getKeyFromValue table text = .error .endOfTable ∧ text ∉ table.names := by
  unfold getKeyFromValue
  cases hfound : table.find? fun pair => pair.2 = text with
  | none =>
    refine .inr ⟨rfl, fun hmem => ?_⟩
    obtain ⟨pair, hpair, rfl⟩ := List.mem_map.mp hmem
    simpa using List.find?_eq_none.mp hfound pair hpair
  | some found =>
    have htext : found.2 = text := by simpa using List.find?_some hfound
    exact .inl ⟨⟨found.1, rfl⟩, List.mem_map.mpr ⟨found, List.mem_of_find?_eq_some hfound, htext⟩⟩

/-- A name is read exactly if it is in its table, and looking it up stays there exactly then. -/
theorem readMember_name (hroot : Holds root f) (table : NameTable α) (htext : OfText (f key)) :
    (StaysInTables (readMember root key default field (readName table)) ↔ NameFound table (f key)) ∧
      (Returns (readMember root key default field (readName table)) ↔ NameFound table (f key)) := by
  rw [staysInTables_readMember hroot, returns_readMember hroot]
  have hname : ∀ text, (StaysInTables (readName table (.string text)) ↔ text ∈ table.names) ∧
      (Returns (readName table (.string text)) ↔ text ∈ table.names) := by
    intro text
    change (StaysInTables (do return some (← getKeyFromValue table text)) ↔ _) ∧
      (Returns (do return some (← getKeyFromValue table text) : Except ReadStop (Option α)) ↔ _)
    obtain ⟨⟨a, ha⟩, hmem⟩ | ⟨hend, hmem⟩ := getKeyFromValue_cases table text
    · rw [ha]
      exact ⟨iff_of_true nofun hmem, iff_of_true ⟨some a, rfl⟩ hmem⟩
    · rw [hend]
      exact ⟨iff_of_false (fun h => h rfl) hmem, iff_of_false nofun hmem⟩
  constructor
  · refine ⟨fun h text hkey => (hname text).1.mp (h _ hkey), fun h v hkey => ?_⟩
    obtain ⟨text, rfl⟩ := htext v hkey
    exact (hname text).1.mpr (h text hkey)
  · refine ⟨fun h text hkey => (hname text).2.mp (h _ hkey), fun h v hkey => ?_⟩
    obtain ⟨text, rfl⟩ := htext v hkey
    exact (hname text).2.mpr (h text hkey)

end steps

/-! The formats -/

section formats
variable {root : Value} {f : String → Option Value} {field : Option (List FileFormat)}

def textArray (texts : List (List UInt8)) : Value := .array (texts.map .string)

/-- A member that is there is an array of texts. -/
def OfTexts (member : Option Value) : Prop := ∀ v, member = some v → ∃ texts, v = textArray texts

/-- Once there is a first text and a last index, the text of the element at 0 is looked for. -/
def FormatFound (arrayEnd : ArrayEnd) (member : Option Value) : Prop :=
  ∀ texts text, member = some (textArray texts) → firstText arrayEnd (textArray texts) = .ok text → text ≠ [] →
    (arrayEnd.index (textArray texts)).isSome → texts.headD [] ∈ fileFormatStrings.names

/-- The formats are passed over. -/
def FormatsPassed (arrayEnd : ArrayEnd) (member : Option Value) : Prop :=
  ∀ v, member = some v → firstText arrayEnd v = .ok []

theorem textArray_inj {texts texts' : List (List UInt8)} : textArray texts = textArray texts' ↔ texts = texts' := by
  rw [textArray, textArray, Value.array.injEq]
  exact (List.map_injective_iff.mpr fun _ _ => Value.string.inj).eq_iff

theorem staysInTables_firstText (arrayEnd : ArrayEnd) (v : Value) : StaysInTables (firstText arrayEnd v) := by
  rw [firstText]
  cases v.elements with
  | cons first rest => exact staysInTables_accessed first.asString
  | nil =>
    cases arrayEnd.begin v with
    | none => exact nofun
    | some first => exact staysInTables_accessed first.asString

/-- The first round: a text that is no name, or an optional without a value. -/
theorem formatsLoop_textArray (texts : List (List UInt8)) (rounds : Nat) :
    texts.headD [] ∈ fileFormatStrings.names ∧
        formatsLoop (textArray texts) (rounds + 1) 0 none = .error .badOptionalAccess ∨
      texts.headD [] ∉ fileFormatStrings.names ∧
        formatsLoop (textArray texts) (rounds + 1) 0 none = .error .endOfTable := by
  have hloop : formatsLoop (textArray texts) (rounds + 1) 0 none =
      getKeyFromValue fileFormatStrings (texts.headD []) >>= fun _ => .error .badOptionalAccess := by
    cases texts <;> rfl
  rw [hloop]
  obtain ⟨⟨format, hformat⟩, hmem⟩ | ⟨hend, hmem⟩ := getKeyFromValue_cases fileFormatStrings (texts.headD [])
  · exact .inl ⟨hmem, by rw [hformat]; rfl⟩
  · exact .inr ⟨hmem, by rw [hend]; rfl⟩

theorem readFormats_textArray (field : Option (List FileFormat)) (arrayEnd : ArrayEnd) (texts : List (List UInt8)) :
    (StaysInTables (readFormats arrayEnd field (textArray texts)) ↔
        ∀ text, firstText arrayEnd (textArray texts) = .ok text → text ≠ [] →
          (arrayEnd.index (textArray texts)).isSome → texts.headD [] ∈ fileFormatStrings.names) ∧
      (Returns (readFormats arrayEnd field (textArray texts)) ↔ firstText arrayEnd (textArray texts) = .ok []) := by
  have hstays := staysInTables_firstText arrayEnd (textArray texts)
  rw [readFormats]
  cases hfirst : firstText arrayEnd (textArray texts) with
  | error stop =>
    rw [hfirst] at hstays
    have hstop : stop ≠ .endOfTable := fun h => hstays (congrArg Except.error h)
    simp only [bind, Except.bind, staysInTables_error hstop, not_returns_error, reduceCtorEq]
    simp
  | ok text =>
    simp only [bind, Except.bind, Except.ok.injEq, forall_eq']
    by_cases hempty : text = []
    · simp [hempty, StaysInTables, Returns, pure, Except.pure]
    · rw [if_pos (List.length_pos_iff.mpr hempty)]
      cases arrayEnd.index (textArray texts) with
      | none => simp [hempty, StaysInTables, Returns]
      | some lastIndex =>
        obtain ⟨hfound, hloop⟩ | ⟨hfound, hloop⟩ := formatsLoop_textArray texts lastIndex.toNat
        · simp only [Option.elim_some, hloop, hfound, not_returns_error, false_iff]
          exact ⟨iff_of_true (staysInTables_error (by decide)) fun _ _ => trivial, hempty⟩
        · simp only [Option.elim_some, hloop, hfound, not_returns_error, false_iff]
          exact ⟨iff_of_false (fun h => h rfl) fun h => h hempty rfl, hempty⟩

theorem readMember_formats (hroot : Holds root f) (arrayEnd : ArrayEnd) (htexts : OfTexts (f "supportedFormats")) :
    (StaysInTables (readMember root "supportedFormats" .null field (readFormats arrayEnd field)) ↔
        FormatFound arrayEnd (f "supportedFormats")) ∧
      (Returns (readMember root "supportedFormats" .null field (readFormats arrayEnd field)) ↔
        FormatsPassed arrayEnd (f "supportedFormats")) := by
  rw [staysInTables_readMember hroot, returns_readMember hroot]
  cases hmember : f "supportedFormats" with
  | none => simp [FormatFound, FormatsPassed]
  | some v =>
    obtain ⟨texts, rfl⟩ := htexts v hmember
    obtain ⟨hstays, hreturns⟩ := readFormats_textArray field arrayEnd texts
    simp only [FormatFound, FormatsPassed, Option.some.injEq, forall_eq', hstays, hreturns, and_true]
    refine ⟨fun h texts' text heq => ?_, fun h text => h texts text rfl⟩
    obtain rfl := textArray_inj.mp heq
    exact h text

end formats

/-- Texts under the keys of the enumerations. -/
structure EnumerationTexts (f : String → Option Value) : Prop where
  supportedFormats : OfTexts (f "supportedFormats")
  colorFormat : OfText (f "colorFormat")
  colorEncoding : OfText (f "colorEncoding")
  unit : OfText (f "unit")
  axisConvention : OfText (f "axisConvention")
  topology : OfText (f "topology")

/-- Each name is in its table, up to the member where an accessor throws or the reading of the formats stops. -/
def NamesFound (arrayEnd : ArrayEnd) (f : String → Option Value) : Prop :=
  Converts Value.asString (f "assetName") → Converts Value.asString (f "assetUuid") →
    FormatFound arrayEnd (f "supportedFormats") ∧
      (FormatsPassed arrayEnd (f "supportedFormats") →
        NameFound colorFormatStrings (f "colorFormat") ∧ NameFound colorEncodingStrings (f "colorEncoding") ∧
          (Converts Value.asBool (f "allowInstances") → Converts Value.asBool (f "flattenHierarchy") →
            Converts Value.asBool (f "allowNegativeTransforms") →
              NameFound unitStrings (f "unit") ∧ NameFound axisConventionStrings (f "axisConvention") ∧
                NameFound exportTopologyStrings (f "topology")))

theorem deserialize_staysInTables (target : MeshExportSchema) (arrayEnd : ArrayEnd) {root : Value}
    {f : String → Option Value} (hroot : Holds root f) (h : EnumerationTexts f) :
    StaysInTables (target.deserialize arrayEnd root) ↔ NamesFound arrayEnd f := by
  have hget : accessed (root.get "assetName" (.string [])) = .ok ((f "assetName").getD (.string [])) := by
    rw [hroot.get]
    rfl
  have hname : Returns (((f "assetName").getD (.string [])).asString) ↔ Converts Value.asString (f "assetName") := by
    cases f "assetName" with
    | none => exact iff_of_true ⟨[], rfl⟩ nofun
    | some v => simp [Converts]
  rw [deserialize, hget]
  refine (staysInTables_bind fun _ => staysInTables_bind fun _ => staysInTables_bind fun _ => staysInTables_bind fun _ =>
    staysInTables_bind fun _ => staysInTables_bind fun _ => staysInTables_bind fun _ => staysInTables_bind fun _ =>
    staysInTables_bind fun _ => staysInTables_bind fun _ => staysInTables_bind fun _ => staysInTables_bind fun _ =>
    staysInTables_bind fun _ => iff_true_intro (staysInTables_pure _)).trans ?_
  have hself : ∀ {p q : Prop}, p ∧ (p → q) ↔ p ∧ q := fun {p q} =>
    and_congr_right fun hp => by simp only [hp, true_imp_iff]
  simp only [staysInTables_accessed, returns_accessed, hname, (readMember_text hroot).1, (readMember_text hroot).2,
    (readMember_flag hroot).1, (readMember_flag hroot).2, (readMember_formats hroot arrayEnd h.supportedFormats).1,
    (readMember_formats hroot arrayEnd h.supportedFormats).2, (readMember_name hroot _ h.colorFormat).1,
    (readMember_name hroot _ h.colorFormat).2, (readMember_name hroot _ h.colorEncoding).1,
    (readMember_name hroot _ h.colorEncoding).2, (readMember_name hroot _ h.unit).1,
    (readMember_name hroot _ h.unit).2, (readMember_name hroot _ h.axisConvention).1,
    (readMember_name hroot _ h.axisConvention).2, (readMember_name hroot _ h.topology).1,
    (readMember_name hroot _ h.topology).2, hself, true_and, implies_true, and_true]
  rfl

theorem enumerationTexts_colorFormat (name : List UInt8) :
    EnumerationTexts fun k => [("colorFormat", Value.string name)].lookup k := by
  have hmissing : ∀ {key}, key ≠ "colorFormat" → [("colorFormat", Value.string name)].lookup key = none := fun hkey => by
    rw [lookup_cons_of_ne hkey, List.lookup_nil]
  refine ⟨fun v hv => ?_, fun v hv => ⟨name, (Option.some.inj hv).symm⟩, fun v hv => ?_, fun v hv => ?_, fun v hv => ?_,
    fun v hv => ?_⟩
  all_goals
    rw [hmissing (by decide)] at hv
    cases hv

end MeshExportSchema

open MeshExportSchema in
/-- A schema written into a fresh value comes back exactly if it has no format to read and the target has nothing that
the schema leaves out; a lookup stays in the tables of names exactly if it finds each name that is read. -/
theorem mesh_schema_read (arrayEnd : ArrayEnd) (target : MeshExportSchema) :
    (∀ schema : MeshExportSchema, ∃ v, schema.serialize .null = .ok v ∧
      (target.deserialize arrayEnd v = .ok schema ↔ schema.ComesBack target)) ∧
    ∀ (root : Value) (f : String → Option Value), Holds root f → EnumerationTexts f →
      (target.deserialize arrayEnd root ≠ .error .endOfTable ↔ NamesFound arrayEnd f) := by
  refine ⟨fun schema => ?_, fun root f hroot htexts => deserialize_staysInTables target arrayEnd hroot htexts⟩
  obtain ⟨v, hv, hholds⟩ := schema.serialize_holds
  exact ⟨v, hv, deserialize_eq_iff hholds schema.member_isUnder⟩

open MeshExportSchema in
/-- A schema with a name and an object with one color format. -/
theorem mesh_schema_read_none :
    (∀ schema : MeshExportSchema, ∃ v, schema.serialize .null = .ok v ∧
      ((ofName (text "A")).deserialize ⟨fun _ => none, fun _ => none⟩ v = .ok schema ↔
        schema.ComesBack (ofName (text "A")))) ∧
    ((ofName (text "A")).deserialize ⟨fun _ => none, fun _ => none⟩ (.object [("colorFormat", .string (text "None"))]) ≠
      .error .endOfTable ↔
        NamesFound ⟨fun _ => none, fun _ => none⟩ fun k => [("colorFormat", Value.string (text "None"))].lookup k) :=
  have h := mesh_schema_read ⟨fun _ => none, fun _ => none⟩ (ofName (text "A"))
  ⟨h.1, h.2 _ _ (holds_object _) (enumerationTexts_colorFormat (text "None"))⟩

open MeshExportSchema in
/-- The color format of the target survives, and a name of another spelling is looked for up to the end. -/
theorem mesh_schema_not_read :
    ¬ (∀ (arrayEnd : ArrayEnd) (schema target : MeshExportSchema) (v : Value), schema.serialize .null = .ok v →
      target.deserialize arrayEnd v = .ok schema) ∧
    ¬ ∀ (arrayEnd : ArrayEnd) (target : MeshExportSchema) (root : Value) (f : String → Option Value), Holds root f →
      EnumerationTexts f → target.deserialize arrayEnd root ≠ .error .endOfTable := by
  constructor
  · intro h
    have hstale := h ⟨fun _ => none, fun _ => none⟩ (ofName (text "A"))
      { ofName (text "A") with colorFormat := some .vertex } (.object [("assetName", .string (text "A"))]) rfl
    exact absurd (Except.ok.inj hstale) (by decide)
  · intro h
    have hmember : Holds (.object [("colorFormat", .string (text "NoColorFormat"))]) fun k =>
        [("colorFormat", Value.string (text "NoColorFormat"))].lookup k := holds_object _
    refine h ⟨fun _ => none, fun _ => none⟩ (ofName []) _ _ hmember ?_ rfl
    exact enumerationTexts_colorFormat (text "NoColorFormat")

end SubstanceConnector.Framework
