import SubstanceConnector.Library.Json

/-!
# The mesh export schema

`sendmeshschema.cpp`. A schema is written member by member, the fields without a value and an empty list of formats
without any. Reading stops where the source leaves its own tables and arrays: a name that is in no table is looked for up
to the end of the table, and what is found there is used; the last index of the formats is read through the end of their
array. What such a read of an array gives is a parameter, since the array ends there.
-/

namespace SubstanceConnector.Framework

open Json

/-! ## Names of enumerators -/

inductive ColorEncoding where
  | linear
  | srgb
  deriving DecidableEq

inductive ColorFormat where
  | none
  | vertex
  | texture
  deriving DecidableEq

inductive FileFormat where
  | fbx
  | glb
  | gltf
  | igs
  | jt
  | obj
  | step
  | stl
  | stp
  | usd
  | usda
  | usdz
  | usdc
  deriving DecidableEq

inductive AxisConvention where
  | forceYUpXRightmZForward
  | forceZUpXRightYForward
  deriving DecidableEq

inductive MeshUnit where
  | millimeters
  | centimeters
  | meters
  | kilometers
  | inches
  | feet
  | yards
  | miles
  deriving DecidableEq

inductive ExportTopology where
  | triangles
  | quads
  deriving DecidableEq

/-- `std::map<T, std::string>`. -/
abbrev NameTable (α : Type) := List (α × List UInt8)

def colorEncodingStrings : NameTable ColorEncoding := [(.linear, text "Linear"), (.srgb, text "SRGB")]

def colorFormatStrings : NameTable ColorFormat :=
  [(.none, text "None"), (.vertex, text "Vertex"), (.texture, text "Texture")]

def fileFormatStrings : NameTable FileFormat :=
  [(.fbx, text "fbx"), (.glb, text "glb"), (.gltf, text "gltf"), (.igs, text "igs"), (.jt, text "jt"),
    (.obj, text "obj"), (.step, text "step"), (.stl, text "stl"), (.stp, text "stp"), (.usd, text "usd"),
    (.usda, text "usda"), (.usdz, text "usdz"), (.usdc, text "usdc")]

def axisConventionStrings : NameTable AxisConvention :=
  [(.forceYUpXRightmZForward, text "ForceYUp_XRight_mZForward"),
    (.forceZUpXRightYForward, text "ForceZUp_XRight_YForward")]

def unitStrings : NameTable MeshUnit :=
  [(.millimeters, text "Millimeters"), (.centimeters, text "Centimeters"), (.meters, text "Meters"),
    (.kilometers, text "Kilometers"), (.inches, text "Inches"), (.feet, text "Feet"), (.yards, text "Yards"),
    (.miles, text "Miles")]

def exportTopologyStrings : NameTable ExportTopology := [(.triangles, text "Triangles"), (.quads, text "Quads")]

namespace NameTable

variable {α : Type} [DecidableEq α]

def names (table : NameTable α) : List (List UInt8) := table.map Prod.snd

/-- `table[key]`: the empty text for a key that is not in the table. -/
def nameOf (table : NameTable α) (key : α) : List UInt8 := (table.lookup key).getD []

/-- Every key has a name, no two the same. -/
structure Complete (table : NameTable α) : Prop where
  listed (key : α) : (table.lookup key).isSome
  nodup : table.names.Nodup

end NameTable

theorem colorEncodingStrings_complete : colorEncodingStrings.Complete := ⟨by rintro ⟨⟩ <;> rfl, by decide⟩

theorem colorFormatStrings_complete : colorFormatStrings.Complete := ⟨by rintro ⟨⟩ <;> rfl, by decide⟩

theorem fileFormatStrings_complete : fileFormatStrings.Complete := ⟨by rintro ⟨⟩ <;> rfl, by decide⟩

theorem axisConventionStrings_complete : axisConventionStrings.Complete := ⟨by rintro ⟨⟩ <;> rfl, by decide⟩

theorem unitStrings_complete : unitStrings.Complete := ⟨by rintro ⟨⟩ <;> rfl, by decide⟩

theorem exportTopologyStrings_complete : exportTopologyStrings.Complete := ⟨by rintro ⟨⟩ <;> rfl, by decide⟩

/-! ## The schema -/

/-- `mesh_export_schema`. -/
@[ext] structure MeshExportSchema where
  assetName : List UInt8
  assetUuid : Option (List UInt8)
  supportedFormats : Option (List FileFormat)
  colorFormat : Option ColorFormat
  colorEncoding : Option ColorEncoding
  allowNegativeTransforms : Option Bool
  allowInstances : Option Bool
  flattenHierarchy : Option Bool
  axisConvention : Option AxisConvention
  unit : Option MeshUnit
  topology : Option ExportTopology
  requestUv : Option Bool
  enableUdims : Option Bool
  deriving DecidableEq

/-- Why a reading does not return: an exception of the accessors or of an optional without a value, or a read through
the end of a table of names or of an array. -/
inductive ReadStop where
  | logicError (e : LogicError)
  | badOptionalAccess
  | endOfTable
  | endOfArray
  deriving DecidableEq

/-- What the reads at the end of an array give: `*begin()` when there is no element, and `end().index()`. There is no
result where the read does not return. -/
structure ArrayEnd where
  begin : Value → Option Value
  index : Value → Option UInt32

namespace MeshExportSchema

/-- A schema with nothing but a name. -/
def ofName (assetName : List UInt8) : MeshExportSchema :=
  ⟨assetName, none, none, none, none, none, none, none, none, none, none, none, none⟩

def formatNames (formats : List FileFormat) : List Value := formats.map (.string ∘ fileFormatStrings.nameOf)

/-- The member of the formats: an empty list has none. -/
def formatsMember : Option (List FileFormat) → Option Value
  | some (format :: formats) => some (.array (formatNames (format :: formats)))
  | _ => none

def appendFormats (root : Value) : Option (List FileFormat) → Except LogicError Value
  | some formats => root.appendAll "supportedFormats" (formatNames formats)
  | none => .ok root

def serialize (schema : MeshExportSchema) (root : Value) : Except LogicError Value := do
  let root ← root.set "assetName" (.string schema.assetName)
  let root ← root.setOptional "assetUuid" (schema.assetUuid.map .string)
  let root ← appendFormats root schema.supportedFormats
  let root ← root.setOptional "colorFormat" (schema.colorFormat.map (.string ∘ colorFormatStrings.nameOf))
  let root ← root.setOptional "colorEncoding" (schema.colorEncoding.map (.string ∘ colorEncodingStrings.nameOf))
  let root ← root.setOptional "allowNegativeTransforms" (schema.allowNegativeTransforms.map .boolean)
  let root ← root.setOptional "allowInstances" (schema.allowInstances.map .boolean)
  let root ← root.setOptional "flattenHierarchy" (schema.flattenHierarchy.map .boolean)
  let root ← root.setOptional "axisConvention" (schema.axisConvention.map (.string ∘ axisConventionStrings.nameOf))
  let root ← root.setOptional "unit" (schema.unit.map (.string ∘ unitStrings.nameOf))
  let root ← root.setOptional "topology" (schema.topology.map (.string ∘ exportTopologyStrings.nameOf))
  let root ← root.setOptional "enableUdims" (schema.enableUdims.map .boolean)
  root.setOptional "requestUv" (schema.requestUv.map .boolean)

/-- An accessor, which may throw. -/
def accessed {α : Type} (x : Except LogicError α) : Except ReadStop α := x.mapError .logicError

def getKeyFromValue {α : Type} (valueMap : NameTable α) (value : List UInt8) : Except ReadStop α :=
  match valueMap.find? fun pair => pair.2 = value with
  | some found => .ok found.1
  | none => .error .endOfTable

/-- `if (root.isMember(key)) field = read(root.get(key, default))`. -/
def readMember {α : Type} (root : Value) (key : String) (default : Value) (field : Option α)
    (read : Value → Except ReadStop (Option α)) : Except ReadStop (Option α) := do
  if ← accessed (root.isMember key) then read (← accessed (root.get key default)) else return field

def readText (v : Value) : Except ReadStop (Option (List UInt8)) := return some (← accessed v.asString)

def readFlag (v : Value) : Except ReadStop (Option Bool) := return some (← accessed v.asBool)

def readName {α : Type} (valueMap : NameTable α) (v : Value) : Except ReadStop (Option α) := do
  return some (← getKeyFromValue valueMap (← accessed v.asString))

/-- `(*formats_array.begin()).asString()`. -/
def firstText (arrayEnd : ArrayEnd) (formatsArray : Value) : Except ReadStop (List UInt8) := do
  let first ← match formatsArray.elements, arrayEnd.begin formatsArray with
    | first :: _, _ => .ok first
    | [], some v => .ok v
    | [], none => .error .endOfArray
  accessed first.asString

/-- The loop over the indices up to the last one; no round gets past the value of the empty optional, so that the index
does not reach its bound. -/
def formatsLoop (formatsArray : Value) : Nat → Nat → Option (List FileFormat) →
    Except ReadStop (Option (List FileFormat))
  | 0, _, supportedFormats => .ok supportedFormats
  | rounds + 1, index, supportedFormats => do
    let element ← accessed (formatsArray.element index)
    let currentValue ← getKeyFromValue fileFormatStrings (← accessed element.asString)
    let formats ← supportedFormats.elim (.error .badOptionalAccess) .ok
    formatsLoop formatsArray rounds (index + 1) (some (formats ++ [currentValue]))

/-- The formats; `supportedFormats = {}` leaves the optional without a value. -/
def readFormats (arrayEnd : ArrayEnd) (supportedFormats : Option (List FileFormat)) (formatsArray : Value) :
    Except ReadStop (Option (List FileFormat)) := do
  if 0 < (← firstText arrayEnd formatsArray).length then
    let lastIndex ← (arrayEnd.index formatsArray).elim (.error .endOfArray) .ok
    formatsLoop formatsArray (lastIndex.toNat + 1) 0 none
  else return supportedFormats

def deserialize (target : MeshExportSchema) (arrayEnd : ArrayEnd) (root : Value) :
    Except ReadStop MeshExportSchema := do
  let assetName ← accessed (← accessed (root.get "assetName" (.string []))).asString
  let assetUuid ← readMember root "assetUuid" (.string []) target.assetUuid readText
  let supportedFormats ← readMember root "supportedFormats" .null target.supportedFormats
    (readFormats arrayEnd target.supportedFormats)
  let colorFormat ← readMember root "colorFormat" (.string []) target.colorFormat (readName colorFormatStrings)
  let colorEncoding ← readMember root "colorEncoding" (.string []) target.colorEncoding (readName colorEncodingStrings)
  let allowInstances ← readMember root "allowInstances" (.string []) target.allowInstances readFlag
  let flattenHierarchy ← readMember root "flattenHierarchy" (.string []) target.flattenHierarchy readFlag
  let allowNegativeTransforms ← readMember root "allowNegativeTransforms" (.string [])
    target.allowNegativeTransforms readFlag
  let unit ← readMember root "unit" (.string []) target.unit (readName unitStrings)
  let axisConvention ← readMember root "axisConvention" (.string []) target.axisConvention (readName axisConventionStrings)
  let topology ← readMember root "topology" (.string []) target.topology (readName exportTopologyStrings)
  let enableUdims ← readMember root "enableUdims" (.string []) target.enableUdims readFlag
  let requestUv ← readMember root "requestUv" (.string []) target.requestUv readFlag
  return { target with
    assetName, assetUuid, supportedFormats, colorFormat, colorEncoding, allowInstances, flattenHierarchy,
    allowNegativeTransforms, unit, axisConvention, topology, enableUdims, requestUv }

/-! ## Writing -/

/-- The fields with a value, each under its key. -/
def fields (schema : MeshExportSchema) : List (String × Option Value) :=
  [("assetName", some (.string schema.assetName)),
    ("assetUuid", schema.assetUuid.map .string),
    ("supportedFormats", formatsMember schema.supportedFormats),
    ("colorFormat", schema.colorFormat.map (.string ∘ colorFormatStrings.nameOf)),
    ("colorEncoding", schema.colorEncoding.map (.string ∘ colorEncodingStrings.nameOf)),
    ("allowNegativeTransforms", schema.allowNegativeTransforms.map .boolean),
    ("allowInstances", schema.allowInstances.map .boolean),
    ("flattenHierarchy", schema.flattenHierarchy.map .boolean),
    ("axisConvention", schema.axisConvention.map (.string ∘ axisConventionStrings.nameOf)),
    ("unit", schema.unit.map (.string ∘ unitStrings.nameOf)),
    ("topology", schema.topology.map (.string ∘ exportTopologyStrings.nameOf)),
    ("enableUdims", schema.enableUdims.map .boolean),
    ("requestUv", schema.requestUv.map .boolean)]

/-- The member under a key of an object written from a schema. -/
def member (schema : MeshExportSchema) : String → Option Value := withFields schema.fields fun _ => none

theorem nodup_fields (schema : MeshExportSchema) : (schema.fields.map Prod.fst).Nodup := by
  simp [fields]

theorem appendFormats_eq {root : Value} {f : String → Option Value} (hroot : Holds root f)
    (hmissing : f "supportedFormats" = none) (formats : Option (List FileFormat)) :
    appendFormats root formats = root.setOptional "supportedFormats" (formatsMember formats) := by
  obtain _ | _ | ⟨format, formats⟩ := formats
  · rfl
  · rfl
  · exact hroot.appendAll hmissing _ _

theorem serialize_eq (schema : MeshExportSchema) (root : Value) :
    schema.serialize root = (do
      let root ← root.setAll (schema.fields.take 2)
      let root ← appendFormats root schema.supportedFormats
      root.setAll (schema.fields.drop 3)) := by
  simp only [serialize, Value.setAll, fields, List.take, List.drop, List.foldlM_cons, List.foldlM_nil, bind_assoc,
    bind_pure]
  rfl

theorem serialize_holds (schema : MeshExportSchema) : ∃ v, schema.serialize .null = .ok v ∧ Holds v schema.member := by
  obtain ⟨v, hv, hholds⟩ := Writes.setAll schema.nodup_fields .null _ holds_null
  have hnodup : ((schema.fields.take 2).map Prod.fst).Nodup := by simp [fields]
  obtain ⟨start, hstart, hholds'⟩ := Writes.setAll hnodup .null _ holds_null
  have hmissing : withFields (schema.fields.take 2) (fun _ => none) "supportedFormats" = none := by
    simp [fields, withFields, List.lookup_cons]
  have happend := appendFormats_eq hholds' hmissing schema.supportedFormats
  have hsplit : Value.null.setAll schema.fields = (do
      let root ← Value.null.setAll (schema.fields.take 2)
      let root ← root.setOptional "supportedFormats" (formatsMember schema.supportedFormats)
      root.setAll (schema.fields.drop 3)) := by
    rw [← List.take_append_drop 2 schema.fields, Value.setAll_append]
    rfl
  replace hstart : Value.null.setAll (schema.fields.take 2) = .ok start := hstart
  replace hv : Value.null.setAll schema.fields = .ok v := hv
  refine ⟨v, ?_, hholds⟩
  rw [serialize_eq, ← hv, hsplit, hstart]
  simp only [bind, Except.bind, happend]

theorem member_of_mem {schema : MeshExportSchema} {key : String} {x : Option Value} (h : (key, x) ∈ schema.fields) :
    schema.member key = x := by
  have hlookup : schema.fields.lookup key = some x := lookup_of_mem schema.nodup_fields h
  simp [member, withFields, hlookup]

theorem mem_of_member {schema : MeshExportSchema} {key : String} {v : Value} (h : schema.member key = some v) :
    (key, some v) ∈ schema.fields := by
  apply mem_of_lookup
  cases hfound : schema.fields.lookup key with
  | none => simp [member, withFields, hfound] at h
  | some x =>
    simp only [member, withFields, hfound, Option.getD_some, Option.or_none] at h
    rw [h]

/-- The keys of the schema lead to its fields. -/
structure IsUnder (schema : MeshExportSchema) (f : String → Option Value) : Prop where
  assetName : f "assetName" = some (.string schema.assetName)
  assetUuid : f "assetUuid" = schema.assetUuid.map .string
  supportedFormats : f "supportedFormats" = formatsMember schema.supportedFormats
  colorFormat : f "colorFormat" = schema.colorFormat.map (.string ∘ colorFormatStrings.nameOf)
  colorEncoding : f "colorEncoding" = schema.colorEncoding.map (.string ∘ colorEncodingStrings.nameOf)
  allowNegativeTransforms : f "allowNegativeTransforms" = schema.allowNegativeTransforms.map .boolean
  allowInstances : f "allowInstances" = schema.allowInstances.map .boolean
  flattenHierarchy : f "flattenHierarchy" = schema.flattenHierarchy.map .boolean
  axisConvention : f "axisConvention" = schema.axisConvention.map (.string ∘ axisConventionStrings.nameOf)
  unit : f "unit" = schema.unit.map (.string ∘ unitStrings.nameOf)
  topology : f "topology" = schema.topology.map (.string ∘ exportTopologyStrings.nameOf)
  enableUdims : f "enableUdims" = schema.enableUdims.map .boolean
  requestUv : f "requestUv" = schema.requestUv.map .boolean

theorem member_isUnder (schema : MeshExportSchema) : schema.IsUnder schema.member := by
  constructor <;> exact member_of_mem (by simp [fields])

/-! ## Reading -/

section reading
variable {α : Type} {root v : Value} {f : String → Option Value} {key : String} {default : Value} {field x : Option α}
  {read : Value → Except ReadStop (Option α)} {write : α → Value}

theorem getKeyFromValue_nameOf [DecidableEq α] {table : NameTable α} (h : table.Complete) (key : α) :
    getKeyFromValue table (table.nameOf key) = .ok key := by
  obtain ⟨name, hname⟩ := Option.isSome_iff_exists.mp (h.listed key)
  have hmem : (key, name) ∈ table := mem_of_lookup hname
  have hnameOf : table.nameOf key = name := by rw [NameTable.nameOf, hname, Option.getD_some]
  obtain ⟨found, hfound⟩ : ∃ found, table.find? (fun pair => pair.2 = name) = some found := by
    rw [← Option.isSome_iff_exists, List.find?_isSome]
    exact ⟨_, hmem, by simp⟩
  have hfoundName : found.2 = name := by simpa using List.find?_some hfound
  have heq : found = (key, name) :=
    List.inj_on_of_nodup_map h.nodup (List.mem_of_find?_eq_some hfound) hmem hfoundName
  rw [getKeyFromValue, hnameOf, hfound, heq]

theorem readName_nameOf [DecidableEq α] {table : NameTable α} (h : table.Complete) (key : α) :
    readName table (.string (table.nameOf key)) = .ok (some key) := by
  change (do return some (← getKeyFromValue table (table.nameOf key)) : Except ReadStop (Option α)) = _
  rw [getKeyFromValue_nameOf h]
  rfl

theorem readMember_of_holds (hroot : Holds root f) (key : String) (default : Value) (field : Option α)
    (read : Value → Except ReadStop (Option α)) :
    readMember root key default field read = (f key).elim (.ok field) read := by
  rw [readMember, hroot.isMember, hroot.get]
  cases f key <;> rfl

/-- A field with a value is read back, and one without is left as it was. -/
theorem readMember_written (hroot : Holds root f) (hkey : f key = x.map write)
    (hread : ∀ a, read (write a) = .ok (some a)) :
    readMember root key default field read = .ok (x.or field) := by
  rw [readMember_of_holds hroot, hkey]
  cases x with
  | none => rfl
  | some a => exact hread a

end reading

/-- The first round looks for a name and then finds the optional without a value. -/
theorem formatsLoop_stops (formatsArray : Value) (rounds : Nat) :
    ∃ stop, formatsLoop formatsArray (rounds + 1) 0 none = .error stop := by
  rw [formatsLoop]
  cases accessed (formatsArray.element 0) with
  | error stop => exact ⟨stop, rfl⟩
  | ok element =>
    cases htext : accessed element.asString with
    | error stop => exact ⟨stop, by simp [htext, bind, Except.bind]⟩
    | ok text =>
      cases hname : getKeyFromValue fileFormatStrings text with
      | error stop => exact ⟨stop, by simp [htext, hname, bind, Except.bind]⟩
      | ok format => exact ⟨.badOptionalAccess, by simp [htext, hname, bind, Except.bind]⟩

/-- A list with a format does not come back. -/
theorem readFormats_stops (arrayEnd : ArrayEnd) (old : Option (List FileFormat)) (format : FileFormat)
    (formats : List FileFormat) :
    ∃ stop, readFormats arrayEnd old (.array (formatNames (format :: formats))) = .error stop := by
  have hlength : ∀ format, 0 < (fileFormatStrings.nameOf format).length := by rintro ⟨⟩ <;> decide
  have hfirst : firstText arrayEnd (.array (formatNames (format :: formats))) = .ok (fileFormatStrings.nameOf format) := rfl
  simp only [readFormats, hfirst, bind, Except.bind, hlength, if_true]
  cases arrayEnd.index (.array (formatNames (format :: formats))) with
  | none => exact ⟨.endOfArray, rfl⟩
  | some lastIndex => exact formatsLoop_stops _ lastIndex.toNat

/-- What is read from an object written from a schema, once its formats are. -/
def writtenOver (schema target : MeshExportSchema) (supportedFormats : Option (List FileFormat)) : MeshExportSchema where
  assetName := schema.assetName
  assetUuid := schema.assetUuid.or target.assetUuid
  supportedFormats := supportedFormats
  colorFormat := schema.colorFormat.or target.colorFormat
  colorEncoding := schema.colorEncoding.or target.colorEncoding
  allowNegativeTransforms := schema.allowNegativeTransforms.or target.allowNegativeTransforms
  allowInstances := schema.allowInstances.or target.allowInstances
  flattenHierarchy := schema.flattenHierarchy.or target.flattenHierarchy
  axisConvention := schema.axisConvention.or target.axisConvention
  unit := schema.unit.or target.unit
  topology := schema.topology.or target.topology
  requestUv := schema.requestUv.or target.requestUv
  enableUdims := schema.enableUdims.or target.enableUdims

theorem deserialize_member {schema : MeshExportSchema} (target : MeshExportSchema) (arrayEnd : ArrayEnd) {v : Value}
    {f : String → Option Value} (hv : Holds v f) (h : schema.IsUnder f) :
    target.deserialize arrayEnd v = (formatsMember schema.supportedFormats).elim (.ok target.supportedFormats)
      (readFormats arrayEnd target.supportedFormats) >>= fun formats => .ok (schema.writtenOver target formats) := by
  have hname : v.get "assetName" (.string []) = .ok (.string schema.assetName) := by
    rw [hv.get, h.assetName, Option.getD_some]
  have htext : ∀ a : List UInt8, readText (.string a) = .ok (some a) := fun _ => rfl
  have hflag : ∀ a : Bool, readFlag (.boolean a) = .ok (some a) := fun _ => rfl
  have hformats := readMember_of_holds hv "supportedFormats" .null target.supportedFormats
    (readFormats arrayEnd target.supportedFormats)
  rw [h.supportedFormats] at hformats
  simp only [deserialize, hname, hformats, readMember_written hv h.assetUuid htext,
    readMember_written hv h.colorFormat (readName_nameOf colorFormatStrings_complete),
    readMember_written hv h.colorEncoding (readName_nameOf colorEncodingStrings_complete),
    readMember_written hv h.allowInstances hflag, readMember_written hv h.flattenHierarchy hflag,
    readMember_written hv h.allowNegativeTransforms hflag,
    readMember_written hv h.unit (readName_nameOf unitStrings_complete),
    readMember_written hv h.axisConvention (readName_nameOf axisConventionStrings_complete),
    readMember_written hv h.topology (readName_nameOf exportTopologyStrings_complete),
    readMember_written hv h.enableUdims hflag, readMember_written hv h.requestUv hflag]
  rfl

/-! ## When a schema comes back -/

theorem or_eq_left_iff {α : Type} {x y : Option α} : x.or y = x ↔ (x = none → y = none) := by
  cases x <;> simp

/-- There is no format to read, and what the schema leaves out the target does not have. -/
def ComesBack (schema target : MeshExportSchema) : Prop :=
  (schema.assetUuid = none → target.assetUuid = none) ∧
  (schema.supportedFormats.getD [] = [] ∧ target.supportedFormats = schema.supportedFormats) ∧
  (schema.colorFormat = none → target.colorFormat = none) ∧
  (schema.colorEncoding = none → target.colorEncoding = none) ∧
  (schema.allowNegativeTransforms = none → target.allowNegativeTransforms = none) ∧
  (schema.allowInstances = none → target.allowInstances = none) ∧
  (schema.flattenHierarchy = none → target.flattenHierarchy = none) ∧
  (schema.axisConvention = none → target.axisConvention = none) ∧
  (schema.unit = none → target.unit = none) ∧
  (schema.topology = none → target.topology = none) ∧
  (schema.requestUv = none → target.requestUv = none) ∧
  (schema.enableUdims = none → target.enableUdims = none)

theorem formatsMember_cases (formats : Option (List FileFormat)) :
    formatsMember formats = none ∧ formats.getD [] = [] ∨ ∃ first rest, formats = some (first :: rest) := by
  obtain _ | _ | ⟨first, rest⟩ := formats
  · exact .inl ⟨rfl, rfl⟩
  · exact .inl ⟨rfl, rfl⟩
  · exact .inr ⟨first, rest, rfl⟩

theorem deserialize_eq_iff {schema target : MeshExportSchema} {arrayEnd : ArrayEnd} {v : Value}
    {f : String → Option Value} (hv : Holds v f) (h : schema.IsUnder f) :
    target.deserialize arrayEnd v = .ok schema ↔ schema.ComesBack target := by
  rw [deserialize_member target arrayEnd hv h]
  obtain ⟨hnone, hempty⟩ | ⟨first, rest, hformats⟩ := formatsMember_cases schema.supportedFormats
  · rw [hnone]
    change Except.ok (schema.writtenOver target target.supportedFormats) = _ ↔ _
    rw [Except.ok.injEq, MeshExportSchema.ext_iff]
    simp [writtenOver, ComesBack, or_eq_left_iff, hempty]
  · obtain ⟨stop, hstop⟩ := readFormats_stops arrayEnd target.supportedFormats first rest
    rw [hformats]
    change readFormats arrayEnd _ _ >>= _ = _ ↔ _
    rw [hstop]
    simp [ComesBack, hformats, bind, Except.bind]

end MeshExportSchema

end SubstanceConnector.Framework
