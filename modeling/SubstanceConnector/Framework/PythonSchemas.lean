import SubstanceConnector.Framework.Schemas
import SubstanceConnector.Framework.MeshSchema
import SubstanceConnector.Framework.PythonUuid

/-!
# Message schemas in Python

`meshimport.py` and `sbsarimport.py` on the objects that the schemas of `sendmeshschema.cpp` and `sendtoschema.cpp` write.
The constructor of a mesh message assigns its attributes one after the other until one raises: an enumeration looks its
name up without asking whether it is there (`attributes_eq`). The asset messages take their identifier from a key of their
own, or generate one.
-/

namespace SubstanceConnector.Python

open Json Framework

/-! ## Objects -/

/-- What the constructors raise. -/
inductive SchemaException where
  | keyError
  | typeError
  | attributeError
  deriving DecidableEq

/-- A dictionary loaded from JSON, or the attributes of an instance. -/
abbrev Dict := List (String × Value)

/-- `json_object.get(key, default)`; `None` is null. -/
def Dict.get (json : Dict) (key : String) (default : Value) : Value := (json.lookup key).getD default

/-- `to_json`, which writes the attributes. -/
def toJson (attributes : Dict) : Value := .object attributes

/-- The attributes that are set before an assignment raises. -/
def assign : List (String × Except SchemaException Value) → Dict
  | (name, .ok v) :: rest => (name, v) :: assign rest
  | (_, .error _) :: _ => []
  | [] => []

/-! ## Enumerations -/

/-- The members of an `Enum`, with their values. -/
abbrev PyEnum := List (List UInt8 × Nat)

namespace PyEnum

def names (enum : PyEnum) : List (List UInt8) := enum.map Prod.fst

/-- `Enumeration[key].name`. -/
def nameOf (enum : PyEnum) : Value → Except SchemaException Value
  | .string key => if key ∈ enum.names then .ok (.string key) else .error .keyError
  | .array _ => .error .typeError
  | .object _ => .error .typeError
  | _ => .error .keyError

/-- The members numbered from 0. -/
def numbered (names : List (List UInt8)) : PyEnum := names.zipIdx

end PyEnum

def fileFormat : PyEnum :=
  .numbered [text "fbx", text "glb", text "gltf", text "igs", text "jt", text "obj", text "step", text "stl", text "stp",
    text "usd", text "usda", text "usdz", text "usdc"]

def colorFormat : PyEnum := .numbered [text "NoColorFormat", text "Vertex", text "Texture"]

def colorEncoding : PyEnum := .numbered [text "Linear", text "SRGB"]

def axisConvention : PyEnum := .numbered [text "ForceYUp_XRight_mZForward", text "ForceZUp_XRight_YForward"]

def unit : PyEnum :=
  .numbered [text "Millimeters", text "Centimeters", text "Meters", text "Kilometers", text "Inches", text "Feet",
    text "Yards", text "Miles"]

def exportTopology : PyEnum := .numbered [text "Triangles", text "Quads"]

/-! ## Mesh messages -/

/-- A string with the names of an enumeration. -/
def nameSchema (enum : PyEnum) : PropertySchema := .string (some (enum.names.map .string))

/-- `MESH_IMPORT_SCHEMA`. The color encodings are listed by their values. -/
def meshImportSchema : ObjectSchema where
  properties :=
    [("assetName", .string none),
      ("assetUuid", .string none),
      ("supportedFormats", .array (nameSchema fileFormat)),
      ("colorFormat", nameSchema colorFormat),
      ("colorEncoding", .string (some (colorEncoding.map fun pair =>
        .number ((Numeral.shortest 10 pair.2).map digitChar) (pair.2 ≠ 0)))),
      ("allowNegativeTransforms", .boolean),
      ("allowInstances", .boolean),
      ("flattenHierarchy", .boolean),
      ("axisConvention", nameSchema axisConvention),
      ("unit", nameSchema unit),
      ("topology", nameSchema exportTopology),
      ("requestUv", .boolean),
      ("enableUdims", .boolean)]
  required := ["assetName"]

/-- What `for` goes through; the characters of a text are its bytes, the keys of an object ASCII. -/
def iterate : Value → Except SchemaException (List Value)
  | .array elements => .ok elements
  | .string text => .ok (text.map fun c => .string [c])
  | .object members => .ok (members.map fun member => .string (text member.1))
  | _ => .error .typeError

namespace MeshImportMessageSchema

/-- The names of the formats, in a list. -/
def formatNames (formats : Value) : Except SchemaException Value := do
  return .array (← (← iterate formats).mapM fileFormat.nameOf)

/-- The assignments from the first enumeration on. -/
def later (json : Dict) : List (String × Except SchemaException Value) :=
  [("colorFormat", colorFormat.nameOf (json.get "colorFormat" .null)),
    ("colorEncoding", colorEncoding.nameOf (json.get "colorEncoding" .null)),
    ("allowNegativeTransforms", .ok (json.get "allowNegativeTransforms" .null)),
    ("allowInstances", .ok (json.get "allowInstances" .null)),
    ("flattenHierarchy", .ok (json.get "flattenHierarchy" .null)),
    ("axisConvention", axisConvention.nameOf (json.get "axisConvention" .null)),
    ("unit", unit.nameOf (json.get "unit" .null)),
    ("topology", exportTopology.nameOf (json.get "topology" .null)),
    ("requestUv", .ok (json.get "requestUv" .null)),
    ("enableUdims", .ok (json.get "enableUdims" .null))]

/-- The assignments of the constructor. -/
def assignments (json : Dict) : List (String × Except SchemaException Value) :=
  [("assetName", .ok (json.get "assetName" .null)), ("assetUuid", .ok (json.get "assetUuid" .null))] ++
    (match json.get "supportedFormats" .null with
      | .null => []
      | formats => [("supportedFormats", formatNames formats)]) ++
    later json

/-- The attributes of an instance: an exception is printed, and the attributes after it are not set. -/
def attributes (json : Dict) : Dict := assign (assignments json)

def isValid (attributes : Dict) : Bool := meshImportSchema.accepts (toJson attributes)

end MeshImportMessageSchema

/-! ## The attributes of a mesh message -/

theorem assign_ok (set : Dict) (rest : List (String × Except SchemaException Value)) :
    assign (set.map (fun entry => (entry.1, .ok entry.2)) ++ rest) = set ++ assign rest := by
  induction set with
  | nil => rfl
  | cons entry set ih => exact congrArg (entry :: ·) ih

theorem PyEnum.nameOf_of_mem {enum : PyEnum} {key : List UInt8} (h : key ∈ enum.names) :
    enum.nameOf (.string key) = .ok (.string key) := if_pos h

namespace MeshImportMessageSchema
variable {schema : MeshExportSchema} {json : Dict}

/-- The attributes that are set whatever the message holds. -/
def named (schema : MeshExportSchema) : Dict :=
  [("assetName", .string schema.assetName), ("assetUuid", (schema.assetUuid.map .string).getD .null)] ++
    ((MeshExportSchema.formatsMember schema.supportedFormats).map fun formats => ("supportedFormats", formats)).toList

theorem fileFormat_mem (format : FileFormat) : fileFormatStrings.nameOf format ∈ fileFormat.names := by
  cases format <;> decide

theorem formatNames_eq (formats : List FileFormat) :
    formatNames (.array (MeshExportSchema.formatNames formats)) = .ok (.array (MeshExportSchema.formatNames formats)) := by
  have hmap : (MeshExportSchema.formatNames formats).mapM fileFormat.nameOf =
      .ok (MeshExportSchema.formatNames formats) := by
    induction formats with
    | nil => rfl
    | cons format formats ih =>
      have hname : fileFormat.nameOf (.string (fileFormatStrings.nameOf format)) = .ok (.string _) :=
        PyEnum.nameOf_of_mem (fileFormat_mem format)
      simp only [MeshExportSchema.formatNames, List.map_cons, Function.comp_apply, List.mapM_cons, hname] at ih ⊢
      rw [ih]
      rfl
  simp only [formatNames, iterate, bind, Except.bind, hmap]
  rfl

theorem attributes_named (h : schema.IsUnder fun key => json.lookup key) :
    attributes json = named schema ++ assign (later json) := by
  have hname : json.get "assetName" .null = .string schema.assetName := by
    rw [Dict.get, h.assetName, Option.getD_some]
  have huuid : json.get "assetUuid" .null = (schema.assetUuid.map .string).getD .null := by
    rw [Dict.get, h.assetUuid]
  have hformats : json.get "supportedFormats" .null =
      (MeshExportSchema.formatsMember schema.supportedFormats).getD .null := by
    rw [Dict.get, h.supportedFormats]
  have hassignments : assignments json = (named schema).map (fun entry => (entry.1, .ok entry.2)) ++ later json := by
    rw [assignments, named, hname, huuid, hformats]
    obtain ⟨hnone, -⟩ | ⟨first, rest, hsome⟩ := MeshExportSchema.formatsMember_cases schema.supportedFormats
    · rw [hnone]
      rfl
    · rw [hsome]
      have hnames := formatNames_eq (first :: rest)
      simp only [MeshExportSchema.formatsMember, Option.getD_some, Option.map_some, Option.toList_some, hnames]
      rfl
  rw [attributes, hassignments, assign_ok]

/-- Without a color format, or with one that the enumeration does not have, no attribute is set any more. -/
theorem later_stops (h : schema.IsUnder fun key => json.lookup key)
    (hformat : schema.colorFormat = none ∨ schema.colorFormat = some .none) : assign (later json) = [] := by
  have hget : json.get "colorFormat" .null =
      (schema.colorFormat.map (.string ∘ colorFormatStrings.nameOf)).getD .null := by
    rw [Dict.get, h.colorFormat]
  rw [later, hget]
  obtain hformat | hformat := hformat <;> rw [hformat] <;> rfl

/-- With another color format it is set, and the encoding after it if there is one. -/
theorem later_format (h : schema.IsUnder fun key => json.lookup key) {format : ColorFormat}
    (hformat : schema.colorFormat = some format) (hne : format ≠ .none) :
    ∃ rest, assign (later json) = ("colorFormat", .string (colorFormatStrings.nameOf format)) :: rest ∧
      (schema.colorEncoding = none → rest = []) ∧
      ∀ encoding, schema.colorEncoding = some encoding →
        rest.lookup "colorEncoding" = some (.string (colorEncodingStrings.nameOf encoding)) := by
  have hget : json.get "colorFormat" .null = .string (colorFormatStrings.nameOf format) := by
    rw [Dict.get, h.colorFormat, hformat]
    rfl
  have hname : colorFormat.nameOf (.string (colorFormatStrings.nameOf format)) =
      .ok (.string (colorFormatStrings.nameOf format)) := by
    apply PyEnum.nameOf_of_mem
    cases format with
    | none => exact absurd rfl hne
    | vertex => decide
    | texture => decide
  have hencoding : json.get "colorEncoding" .null =
      (schema.colorEncoding.map (.string ∘ colorEncodingStrings.nameOf)).getD .null := by
    rw [Dict.get, h.colorEncoding]
  refine ⟨assign (later json).tail, ?_, fun hnone => ?_, fun encoding hsome => ?_⟩
  · rw [later, hget, hname]
    rfl
  · rw [later, hencoding, hnone]
    rfl
  · rw [later, hencoding, hsome]
    have hmem : colorEncodingStrings.nameOf encoding ∈ colorEncoding.names := by cases encoding <;> decide
    simp only [List.tail_cons, Option.map_some, Option.getD_some, Function.comp_apply, PyEnum.nameOf_of_mem hmem, assign]
    exact List.lookup_cons_self

/-- The attributes have the members of a message. -/
def Keeps (json attributes : Dict) : Prop := ∀ key v, json.lookup key = some v → attributes.lookup key = some v

/-- An identifier, no color format or one that the enumeration has, and nothing after it. -/
def Understood (schema : MeshExportSchema) : Prop :=
  schema.assetUuid.isSome ∧ schema.colorFormat ≠ some .none ∧ schema.colorEncoding = none ∧
    schema.allowNegativeTransforms = none ∧ schema.allowInstances = none ∧ schema.flattenHierarchy = none ∧
    schema.axisConvention = none ∧ schema.unit = none ∧ schema.topology = none ∧ schema.requestUv = none ∧
    schema.enableUdims = none

theorem lookup_named {key : String} (hname : key ≠ "assetName") (huuid : key ≠ "assetUuid")
    (hformats : key ≠ "supportedFormats") : (named schema).lookup key = none := by
  rw [List.lookup_eq_none_iff]
  intro entry hentry
  rw [bne_iff_ne]
  rintro rfl
  obtain hmem | hmem := List.mem_append.mp hentry
  · simp at hmem
    obtain rfl | rfl := hmem
    · exact hname rfl
    · exact huuid rfl
  · simp at hmem
    obtain ⟨formats, -, rfl⟩ := hmem
    exact hformats rfl

/-- What follows the attributes that are always set, when there is no encoding. -/
theorem later_cases (h : schema.IsUnder fun key => json.lookup key) (hencoding : schema.colorEncoding = none) :
    assign (later json) = [] ∨
      ∃ format, schema.colorFormat = some format ∧ format ≠ .none ∧
        assign (later json) = [("colorFormat", .string (colorFormatStrings.nameOf format))] := by
  by_cases hformat : schema.colorFormat = none ∨ schema.colorFormat = some .none
  · exact .inl (later_stops h hformat)
  · obtain ⟨hsome, hne⟩ := not_or.mp hformat
    obtain ⟨format, hformat⟩ := Option.ne_none_iff_exists'.mp hsome
    have hne' : format ≠ .none := fun heq => hne (heq ▸ hformat)
    obtain ⟨rest, hlater, hrest, -⟩ := later_format h hformat hne'
    refine .inr ⟨format, hformat, hne', ?_⟩
    rw [hlater, hrest hencoding]

/-- An encoding is lost, or is a name where the schema lists values. -/
theorem encoding_missing (h : schema.IsUnder fun key => json.lookup key) (hkeeps : Keeps json (attributes json))
    (hvalid : isValid (attributes json) = true) : schema.colorEncoding = none := by
  by_contra hne
  obtain ⟨encoding, hencoding⟩ := Option.ne_none_iff_exists'.mp hne
  have hlookup := hkeeps "colorEncoding" _ (h.colorEncoding.trans (by rw [hencoding]; rfl))
  by_cases hformat : schema.colorFormat = none ∨ schema.colorFormat = some .none
  · rw [attributes_named h, later_stops h hformat, List.append_nil,
      lookup_named (by decide) (by decide) (by decide)] at hlookup
    cases hlookup
  · have haccepts := (ObjectSchema.accepts_iff.mp hvalid).2 ("colorEncoding", _) (by simp [meshImportSchema]; rfl) _ hlookup
    cases encoding <;> cases haccepts

/-- A key that is neither always set nor the color format's has no attribute when there is no encoding. -/
theorem lookup_attributes (h : schema.IsUnder fun key => json.lookup key) (hencoding : schema.colorEncoding = none)
    {key : String} (hname : key ≠ "assetName") (huuid : key ≠ "assetUuid") (hformats : key ≠ "supportedFormats")
    (hformat : key ≠ "colorFormat") : (attributes json).lookup key = none := by
  rw [attributes_named h, List.lookup_append, lookup_named hname huuid hformats, Option.none_or]
  obtain hlater | ⟨format, -, -, hlater⟩ := later_cases h hencoding
  · rw [hlater, List.lookup_nil]
  · rw [hlater, lookup_cons_of_ne hformat, List.lookup_nil]

theorem understood_of_keeps (h : schema.IsUnder fun key => json.lookup key) (hkeeps : Keeps json (attributes json))
    (hvalid : isValid (attributes json) = true) : Understood schema := by
  have huuid : schema.assetUuid.isSome := by
    have hlookup : (attributes json).lookup "assetUuid" = some ((schema.assetUuid.map .string).getD .null) := by
      rw [attributes_named h]
      rfl
    have haccepts := (ObjectSchema.accepts_iff.mp hvalid).2 ("assetUuid", .string none) (by simp [meshImportSchema]) _ hlookup
    cases huuid : schema.assetUuid with
    | none =>
      rw [huuid] at haccepts
      cases haccepts
    | some uuid => rfl
  have hformat : schema.colorFormat ≠ some .none := by
    intro hformat
    have hlookup := hkeeps "colorFormat" _ (h.colorFormat.trans (by rw [hformat]; rfl))
    rw [attributes_named h, later_stops h (.inr hformat), List.append_nil,
      lookup_named (by decide) (by decide) (by decide)] at hlookup
    cases hlookup
  have hencoding := encoding_missing h hkeeps hvalid
  -- What has no attribute has no member, since the attributes keep the members.
  have hmissing : ∀ {key : String} {α : Type} {x : Option α} {write : α → Value}, json.lookup key = x.map write →
      key ≠ "assetName" → key ≠ "assetUuid" → key ≠ "supportedFormats" → key ≠ "colorFormat" → x = none := by
    intro key α x write hkey h₁ h₂ h₃ h₄
    cases x with
    | none => rfl
    | some a =>
      have hlookup := hkeeps key _ hkey
      rw [lookup_attributes h hencoding h₁ h₂ h₃ h₄] at hlookup
      cases hlookup
  exact ⟨huuid, hformat, hencoding,
    hmissing h.allowNegativeTransforms (by decide) (by decide) (by decide) (by decide),
    hmissing h.allowInstances (by decide) (by decide) (by decide) (by decide),
    hmissing h.flattenHierarchy (by decide) (by decide) (by decide) (by decide),
    hmissing h.axisConvention (by decide) (by decide) (by decide) (by decide),
    hmissing h.unit (by decide) (by decide) (by decide) (by decide),
    hmissing h.topology (by decide) (by decide) (by decide) (by decide),
    hmissing h.requestUv (by decide) (by decide) (by decide) (by decide),
    hmissing h.enableUdims (by decide) (by decide) (by decide) (by decide)⟩

theorem lookup_supportedFormats (h : schema.IsUnder fun key => json.lookup key) (hencoding : schema.colorEncoding = none) :
    (attributes json).lookup "supportedFormats" = MeshExportSchema.formatsMember schema.supportedFormats := by
  rw [attributes_named h, List.lookup_append, named, List.lookup_append]
  obtain ⟨hnone, -⟩ | ⟨first, rest, hsome⟩ := MeshExportSchema.formatsMember_cases schema.supportedFormats
  · rw [hnone]
    obtain hlater | ⟨format, -, -, hlater⟩ := later_cases h hencoding <;> rw [hlater] <;> rfl
  · rw [hsome]
    rfl

theorem lookup_colorFormat (h : schema.IsUnder fun key => json.lookup key) (hformat : schema.colorFormat ≠ some .none) :
    (attributes json).lookup "colorFormat" = schema.colorFormat.map (.string ∘ colorFormatStrings.nameOf) := by
  rw [attributes_named h, List.lookup_append, lookup_named (by decide) (by decide) (by decide), Option.none_or]
  by_cases hmissing : schema.colorFormat = none
  · rw [later_stops h (.inl hmissing), hmissing]
    rfl
  · obtain ⟨format, hsome⟩ := Option.ne_none_iff_exists'.mp hmissing
    obtain ⟨rest, hlater, hrest, -⟩ := later_format h hsome fun heq => hformat (heq ▸ hsome)
    rw [hlater, hsome]
    rfl

theorem lookup_assetName (h : schema.IsUnder fun key => json.lookup key) :
    (attributes json).lookup "assetName" = some (.string schema.assetName) := by
  rw [attributes_named h]
  rfl

theorem lookup_assetUuid (h : schema.IsUnder fun key => json.lookup key) :
    (attributes json).lookup "assetUuid" = some ((schema.assetUuid.map .string).getD .null) := by
  rw [attributes_named h]
  rfl

theorem isUnder_of_member (hjson : ∀ key, json.lookup key = schema.member key) :
    schema.IsUnder fun key => json.lookup key := by
  rw [funext hjson]
  exact schema.member_isUnder

theorem keeps_of_understood (hjson : ∀ key, json.lookup key = schema.member key) (hunderstood : Understood schema) :
    Keeps json (attributes json) := by
  have h := isUnder_of_member hjson
  obtain ⟨-, hformat, hencoding, hrest⟩ := hunderstood
  intro key v hkey
  rw [hjson] at hkey
  have hmem := MeshExportSchema.mem_of_member hkey
  simp [MeshExportSchema.fields, hencoding, hrest] at hmem
  obtain ⟨rfl, rfl⟩ | ⟨rfl, uuid, huuid, rfl⟩ | ⟨rfl, hv⟩ | ⟨rfl, format, hsome, rfl⟩ := hmem
  · exact lookup_assetName h
  · rw [lookup_assetUuid h, huuid]
    rfl
  · rw [lookup_supportedFormats h hencoding, hv]
  · rw [lookup_colorFormat h hformat, hsome]
    rfl

theorem accepts_names (enum : PyEnum) {name : List UInt8} (h : name ∈ enum.names) :
    (nameSchema enum).accepts (.string name) = true := by
  simp only [nameSchema, PropertySchema.accepts, Option.all_some, List.any_map, List.any_eq_true]
  exact ⟨name, h, by simp [Value.isText]⟩

theorem valid_of_understood (h : schema.IsUnder fun key => json.lookup key) (hunderstood : Understood schema) :
    isValid (attributes json) = true := by
  obtain ⟨huuid, hformat, hencoding, -⟩ := hunderstood
  apply ObjectSchema.accepts_iff.mpr
  constructor
  · intro key hkey
    rw [List.mem_singleton.mp hkey, lookup_assetName h]
    rfl
  · intro property hproperty v hlookup
    simp only [meshImportSchema, List.mem_cons, List.not_mem_nil, or_false] at hproperty
    obtain rfl | rfl | rfl | rfl | hrest := hproperty
    · rw [lookup_assetName h] at hlookup
      cases hlookup
      rfl
    · obtain ⟨uuid, huuid⟩ := Option.isSome_iff_exists.mp huuid
      rw [lookup_assetUuid h, huuid] at hlookup
      cases hlookup
      rfl
    · rw [lookup_supportedFormats h hencoding] at hlookup
      obtain ⟨hnone, -⟩ | ⟨first, rest, hsome⟩ := MeshExportSchema.formatsMember_cases schema.supportedFormats
      · rw [hnone] at hlookup
        cases hlookup
      · rw [hsome] at hlookup
        cases hlookup
        simp only [PropertySchema.accepts, MeshExportSchema.formatNames, List.all_map, List.all_eq_true]
        exact fun format _ => accepts_names fileFormat (fileFormat_mem format)
    · rw [lookup_colorFormat h hformat] at hlookup
      obtain ⟨format, hsome, rfl⟩ := Option.map_eq_some_iff.mp hlookup
      apply accepts_names
      cases format with
      | none => exact absurd hsome hformat
      | vertex => decide
      | texture => decide
    · have hkey : property.1 ≠ "assetName" ∧ property.1 ≠ "assetUuid" ∧ property.1 ≠ "supportedFormats" ∧
          property.1 ≠ "colorFormat" := by
        obtain rfl | rfl | rfl | rfl | rfl | rfl | rfl | rfl | rfl := hrest <;> simp
      rw [lookup_attributes h hencoding hkey.1 hkey.2.1 hkey.2.2.1 hkey.2.2.2] at hlookup
      cases hlookup

end MeshImportMessageSchema

open MeshImportMessageSchema in
/-- The instance built from a message has all its members and is valid exactly if the message is understood, and every
name that an enumeration has is in the table of the other endpoint, but for `NoColorFormat`. -/
theorem mesh_messages (schema : MeshExportSchema) :
    (∃ v json, schema.serialize .null = .ok v ∧ v.members = .ok json ∧
      (Keeps json (attributes json) ∧ isValid (attributes json) = true ↔ Understood schema)) ∧
    (∀ name ∈ colorFormat.names, name ∈ colorFormatStrings.names ↔ name ≠ text "NoColorFormat") ∧
    (∀ name ∈ colorEncoding.names, name ∈ colorEncodingStrings.names) ∧
    (∀ name ∈ axisConvention.names, name ∈ axisConventionStrings.names) ∧
    (∀ name ∈ unit.names, name ∈ unitStrings.names) ∧
    (∀ name ∈ exportTopology.names, name ∈ exportTopologyStrings.names) ∧
    ∀ name ∈ fileFormat.names, name ∈ fileFormatStrings.names := by
  obtain ⟨v, hv, json, hmembers, hjson⟩ := schema.serialize_holds
  have h := isUnder_of_member hjson
  refine ⟨⟨v, json, hv, hmembers, fun hmessage => ?_, fun hunderstood => ?_⟩, by decide, by decide, by decide, by decide,
    by decide, by decide⟩
  · exact understood_of_keeps h hmessage.1 hmessage.2
  · exact ⟨keeps_of_understood hjson hunderstood, valid_of_understood h hunderstood⟩

open MeshImportMessageSchema in
/-- A unit without a color format is lost, and a color format has no name at the other endpoint. -/
theorem mesh_message_lost :
    ¬ (∀ (schema : MeshExportSchema) (v : Value) (json : Dict), schema.serialize .null = .ok v →
      v.members = .ok json → Keeps json (attributes json) ∧ isValid (attributes json) = true) ∧
    ¬ ∀ name ∈ colorFormat.names, name ∈ colorFormatStrings.names := by
  refine ⟨fun h => ?_, by decide⟩
  have hkeeps := (h { MeshExportSchema.ofName (text "A") with assetUuid := some (text "1"), unit := some .meters }
    (.object [("unit", .string (text "Meters")), ("assetUuid", .string (text "1")), ("assetName", .string (text "A"))])
    _ rfl rfl).1 "unit" (.string (text "Meters")) rfl
  cases hkeeps

/-! ## Asset messages -/

/-- The identifier of an asset: what is under `id`, or what `uuid.uuid4()` generates. -/
def assetUuid (json : Dict) (generated : UUID) : Value :=
  match json.get "id" (.string []) with
  | .string [] => .string generated.str
  | id => id

/-- The constructor of an asset message, with the default of its type. -/
def assetMessage (defaultType : List UInt8) (json : Dict) (generated : UUID) : Dict :=
  [("path", json.get "path" .null),
    ("name", json.get "name" (.string [])),
    ("uuid", assetUuid json generated),
    ("type", json.get "type" (.string defaultType)),
    ("take_file_ownership", json.get "take_file_ownership" (.boolean false))]

/-- A call of a constructor with one parameter. -/
def construct (init : Dict → UUID → Dict) (arguments : List Value) (generated : UUID) : Except SchemaException Dict :=
  match arguments with
  | [argument] =>
    match argument with
    | .object json => .ok (init json generated)
    | _ => .error .attributeError
  | _ => .error .typeError

/-- `from_string`, on what it loads. -/
def fromLoaded (init : Dict → UUID → Dict) (json : Dict) (generated : UUID) : Except SchemaException Dict :=
  construct init [json.get "path" .null, json.get "id" (.string []), json.get "name" (.string []), json.get "type" .null]
    generated

def SendAssetMessageSchema.init : Dict → UUID → Dict := assetMessage (text "mesh")

def SendAssetMessageSchema.fromString : Dict → UUID → Except SchemaException Dict := fromLoaded SendAssetMessageSchema.init

def SBSARImportMessageSchema.init : Dict → UUID → Dict := assetMessage (text "material")

def SBSARImportMessageSchema.fromString : Dict → UUID → Except SchemaException Dict :=
  fromLoaded SBSARImportMessageSchema.init

/-- A constructor that takes the dictionary alone raises on the four arguments of `from_string`. -/
theorem fromLoaded_raises (init : Dict → UUID → Dict) (json : Dict) (generated : UUID) :
    fromLoaded init json generated = .error .typeError := rfl

/-- Attributes with the five values of a schema, whose text is read back as the schema. -/
def Carries (schema target : SendToSchema) (attributes : Dict) : Prop :=
  schema.IsUnder (fun key => attributes.lookup key) ∧ target.deserialize (toJson attributes) = .ok schema

theorem assetMessage_carries (defaultType : List UInt8) {schema : SendToSchema} {json : Dict} (generated : UUID)
    (h : schema.IsUnder fun key => json.lookup key) (target : SendToSchema) :
    Carries schema target (assetMessage defaultType json generated) ↔ assetUuid json generated = .string schema.uuid := by
  have hget : ∀ {key v} (default : Value), json.lookup key = some v → json.get key default = v := fun default hkey => by
    rw [Dict.get, hkey, Option.getD_some]
  constructor
  · rintro ⟨hunder, -⟩
    exact Option.some.inj hunder.uuid
  · intro huuid
    have hunder : schema.IsUnder fun key => (assetMessage defaultType json generated).lookup key := by
      simp only [assetMessage, huuid, hget _ h.path, hget _ h.name, hget _ h.type, hget _ h.takeFileOwnership]
      constructor <;> rfl
    exact ⟨hunder, SendToSchema.deserialize_of_isUnder target (holds_object _) hunder⟩

/-- The member `id` is the identifier of the asset; or it is absent or empty, and what is generated happens to be. -/
def Identifies (schema : SendToSchema) (json : Dict) (generated : UUID) : Prop :=
  json.lookup "id" = some (.string schema.uuid) ∧ schema.uuid ≠ [] ∨
    (json.lookup "id" = none ∨ json.lookup "id" = some (.string [])) ∧ generated.str = schema.uuid

theorem assetUuid_eq_iff (schema : SendToSchema) (json : Dict) (generated : UUID) :
    assetUuid json generated = .string schema.uuid ↔ Identifies schema json generated := by
  unfold assetUuid Identifies Dict.get
  cases hid : json.lookup "id" with
  | none => simp
  | some id =>
    cases id with
    | string bytes =>
      cases bytes with
      | nil => simp
      | cons byte bytes =>
        simp only [Option.getD_some, Value.string.injEq, Option.some.injEq, reduceCtorEq, or_self, false_and, or_false]
        exact ⟨fun hbytes => ⟨hbytes, hbytes ▸ List.cons_ne_nil _ _⟩, fun hbytes => hbytes.1⟩
    | _ => simp

/-- Built directly, a message carries the asset exactly if the member `id` is its identifier, or what is generated in its
place is; built from a text it does not come to be. -/
theorem asset_messages {schema : SendToSchema} {json : Dict} (h : schema.IsUnder fun key => json.lookup key)
    (target : SendToSchema) (generated : UUID) :
    ((Carries schema target (SendAssetMessageSchema.init json generated) ↔ Identifies schema json generated) ∧
      (Carries schema target (SBSARImportMessageSchema.init json generated) ↔ Identifies schema json generated)) ∧
    (¬ ∃ attributes, SendAssetMessageSchema.fromString json generated = .ok attributes ∧
        Carries schema target attributes) ∧
      ¬ ∃ attributes, SBSARImportMessageSchema.fromString json generated = .ok attributes ∧
        Carries schema target attributes := by
  have hraises : ∀ {init : Dict → UUID → Dict},
      ¬ ∃ attributes, fromLoaded init json generated = .ok attributes ∧ Carries schema target attributes := by
    intro init hbuilt
    obtain ⟨attributes, hattributes, -⟩ := hbuilt
    rw [fromLoaded_raises] at hattributes
    cases hattributes
  have hcarries : ∀ defaultType,
      Carries schema target (assetMessage defaultType json generated) ↔ Identifies schema json generated :=
    fun defaultType => (assetMessage_carries defaultType generated h target).trans (assetUuid_eq_iff schema json generated)
  exact ⟨⟨hcarries _, hcarries _⟩, hraises, hraises⟩

/-- An asset and the object that is sent for it. -/
def sentAsset : SendToSchema :=
  ⟨true, text "/tmp/rock.sbsar", text "rock", text "685dd700-9d31-455d-98a4-431bb039819a", text "material"⟩

def sentObject : Dict :=
  [("path", .string sentAsset.path), ("name", .string sentAsset.name), ("uuid", .string sentAsset.uuid),
    ("type", .string sentAsset.type), ("take_file_ownership", .boolean true)]

theorem sentObject_isUnder : sentAsset.IsUnder fun key => sentObject.lookup key := by
  constructor <;> rfl

/-- The object of an asset, with an identifier generated. -/
theorem asset_messages_sent :
    ((Carries sentAsset sentAsset (SendAssetMessageSchema.init sentObject ⟨0, by decide⟩) ↔
        Identifies sentAsset sentObject ⟨0, by decide⟩) ∧
      (Carries sentAsset sentAsset (SBSARImportMessageSchema.init sentObject ⟨0, by decide⟩) ↔
        Identifies sentAsset sentObject ⟨0, by decide⟩)) ∧
    (¬ ∃ attributes, SendAssetMessageSchema.fromString sentObject ⟨0, by decide⟩ = .ok attributes ∧
        Carries sentAsset sentAsset attributes) ∧
      ¬ ∃ attributes, SBSARImportMessageSchema.fromString sentObject ⟨0, by decide⟩ = .ok attributes ∧
        Carries sentAsset sentAsset attributes :=
  asset_messages sentObject_isUnder sentAsset ⟨0, by decide⟩

/-- With another identifier generated the asset does not arrive under its own, and `from_string` raises. -/
theorem asset_not_carried :
    sentAsset.IsUnder (fun key => sentObject.lookup key) ∧ sentAsset.uuid ≠ [] ∧
      ¬ Carries sentAsset sentAsset (SendAssetMessageSchema.init sentObject ⟨0, by decide⟩) ∧
      ¬ Carries sentAsset sentAsset (SBSARImportMessageSchema.init sentObject ⟨0, by decide⟩) ∧
      SendAssetMessageSchema.fromString sentObject ⟨0, by decide⟩ = .error .typeError ∧
      SBSARImportMessageSchema.fromString sentObject ⟨0, by decide⟩ = .error .typeError := by
  have huuid : assetUuid sentObject ⟨0, by decide⟩ ≠ .string sentAsset.uuid := fun h => by
    have hstr : UUID.str ⟨0, by decide⟩ ≠ sentAsset.uuid := by decide +kernel
    exact hstr (Value.string.inj h)
  refine ⟨sentObject_isUnder, by decide, ?_, ?_, rfl, rfl⟩
  · exact fun h => huuid ((assetMessage_carries _ _ sentObject_isUnder sentAsset).mp h)
  · exact fun h => huuid ((assetMessage_carries _ _ sentObject_isUnder sentAsset).mp h)

end SubstanceConnector.Python
