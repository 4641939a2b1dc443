import SubstanceConnector.Library.Json
import SubstanceConnector.Framework.Uuid

/-!
# Message schemas

`connectionschema.cpp` and `sendtoschema.cpp`: each schema writes its fields into a JSON value and reads them back under
the same keys, whatever its object held before (`schemas_round_trip`). The features are written one by one through the
text of their identifiers; without any feature the member is null, which reads back as no feature.
-/

namespace SubstanceConnector.Framework

open Json

/-! ## The connection -/

/-- `connection_schema`. -/
@[ext] structure ConnectionSchema where
  displayName : List UInt8
  idName : List UInt8
  connectorVersion : List UInt8
  availableFeatures : List Uuid
  deriving DecidableEq

namespace ConnectionSchema

/-- `featureValue`, null as long as nothing is appended. -/
def featureValue (features : List Uuid) : Except LogicError Value :=
  features.foldlM (fun value feature => value.append (.string (uuidToString feature))) .null

def serialize (schema : ConnectionSchema) (root : Value) : Except LogicError Value := do
  let root ← root.set "display_name" (.string schema.displayName)
  let root ← root.set "id_name" (.string schema.idName)
  let root ← root.set "connector_version" (.string schema.connectorVersion)
  let featureValue ← featureValue schema.availableFeatures
  root.set "available_features" featureValue

/-- The transformation of the elements. `unset` is what each call of `uuidFromString` finds in its uninitialized word. -/
def featuresIds (unset : Nat → Nat → UInt32) (elements : List Value) : Except LogicError (List Uuid) :=
  elements.zipIdx.mapM fun element => do return uuidFromString (unset element.2) (← element.1.asString)

def deserialize (target : ConnectionSchema) (unset : Nat → Nat → UInt32) (root : Value) :
    Except LogicError ConnectionSchema := do
  let displayName ← (← root.get "display_name" (.string [])).asString
  let idName ← (← root.get "id_name" (.string [])).asString
  let connectorVersion ← (← root.get "connector_version" (.string [])).asString
  let featureArray ← root.get "available_features" .null
  let featuresIds ← featuresIds unset featureArray.elements
  return { target with displayName, idName, connectorVersion, availableFeatures := featuresIds }

theorem append_features (features : List Uuid) (value : Value) (written : List Value)
    (hvalue : value = .null ∧ written = [] ∨ value = .array written) :
    ∃ value', features.foldlM (fun value feature => value.append (.string (uuidToString feature))) value = .ok value' ∧
      value'.elements = written ++ features.map fun feature => .string (uuidToString feature) := by
  induction features generalizing value written with
  | nil =>
    obtain ⟨rfl, rfl⟩ | rfl := hvalue
    · exact ⟨.null, rfl, rfl⟩
    · exact ⟨.array written, rfl, (List.append_nil written).symm⟩
  | cons feature features ih =>
    have happend : value.append (.string (uuidToString feature)) =
        .ok (.array (written ++ [.string (uuidToString feature)])) := by
      obtain ⟨rfl, rfl⟩ | rfl := hvalue <;> rfl
    obtain ⟨value', hfold, helements⟩ := ih _ _ (.inr rfl)
    refine ⟨value', ?_, ?_⟩
    · rw [List.foldlM_cons, happend]
      exact hfold
    · rw [helements, List.append_assoc]
      rfl

theorem featureValue_elements (features : List Uuid) : ∃ value, featureValue features = .ok value ∧
    value.elements = features.map fun feature => .string (uuidToString feature) :=
  append_features features .null [] (.inl ⟨rfl, rfl⟩)

/-- What is read from the texts of identifiers are the identifiers, in their order. -/
theorem featuresIds_map (unset : Nat → Nat → UInt32) (features : List Uuid) :
    featuresIds unset (features.map fun feature => .string (uuidToString feature)) = .ok features := by
  suffices h : ∀ start, ((features.map fun feature => Value.string (uuidToString feature)).zipIdx start).mapM
      (fun element => do return uuidFromString (unset element.2) (← element.1.asString)) =
        (.ok features : Except LogicError (List Uuid)) from h 0
  induction features with
  | nil => exact fun _ => rfl
  | cons feature features ih =>
    intro start
    have hread : (do return uuidFromString (unset start) (← (Value.string (uuidToString feature)).asString) :
        Except LogicError Uuid) = .ok feature :=
      congrArg Except.ok (uuidFromString_uuidToString (unset start) feature)
    simp only [List.map_cons, List.zipIdx_cons, List.mapM_cons, hread, ih]
    rfl

/-- The four keys of the schema lead to its fields. -/
structure IsUnder (schema : ConnectionSchema) (f : String → Option Value) : Prop where
  displayName : f "display_name" = some (.string schema.displayName)
  idName : f "id_name" = some (.string schema.idName)
  connectorVersion : f "connector_version" = some (.string schema.connectorVersion)
  availableFeatures : ∃ value, f "available_features" = some value ∧
    value.elements = schema.availableFeatures.map fun feature => .string (uuidToString feature)

theorem serialize_isUnder (schema : ConnectionSchema) {root : Value} {f : String → Option Value} (hroot : Holds root f) :
    ∃ v g, schema.serialize root = .ok v ∧ Holds v g ∧ schema.IsUnder g := by
  obtain ⟨value, hvalue, helements⟩ := featureValue_elements schema.availableFeatures
  obtain ⟨v, hv, hholds⟩ := ((Writes.set "display_name" (.string schema.displayName)).seq
    ((Writes.set "id_name" (.string schema.idName)).seq
      ((Writes.set "connector_version" (.string schema.connectorVersion)).seq
        (Writes.set "available_features" value)))) root f hroot
  refine ⟨v, _, ?_, hholds, by simp, by simp, by simp, value, by simp, helements⟩
  rw [← hv]
  simp only [serialize, hvalue]
  rfl

theorem deserialize_of_isUnder {schema : ConnectionSchema} (target : ConnectionSchema) (unset : Nat → Nat → UInt32)
    {root : Value} {f : String → Option Value} (hroot : Holds root f) (h : schema.IsUnder f) :
    target.deserialize unset root = .ok schema := by
  obtain ⟨value, hvalue, helements⟩ := h.availableFeatures
  have hfeatures : featuresIds unset value.elements = .ok schema.availableFeatures := by
    rw [helements]
    exact featuresIds_map unset schema.availableFeatures
  simp only [deserialize, hroot.get, h.displayName, h.idName, h.connectorVersion, hvalue, Option.getD_some, Value.asString,
    bind, Except.bind, hfeatures]
  rfl

end ConnectionSchema

/-! ## What is sent -/

/-- `send_to_schema`. -/
@[ext] structure SendToSchema where
  takeFileOwnership : Bool
  path : List UInt8
  name : List UInt8
  uuid : List UInt8
  type : List UInt8
  deriving DecidableEq

namespace SendToSchema

def serialize (schema : SendToSchema) (root : Value) : Except LogicError Value := do
  let root ← root.set "path" (.string schema.path)
  let root ← root.set "name" (.string schema.name)
  let root ← root.set "uuid" (.string schema.uuid)
  let root ← root.set "type" (.string schema.type)
  root.set "take_file_ownership" (.boolean schema.takeFileOwnership)

def deserialize (target : SendToSchema) (root : Value) : Except LogicError SendToSchema := do
  let path ← (← root.get "path" (.string [])).asString
  let name ← (← root.get "name" (.string [])).asString
  let uuid ← (← root.get "uuid" (.string [])).asString
  let type ← (← root.get "type" (.string [])).asString
  let takeFileOwnership ← (← root.get "take_file_ownership" (.boolean false)).asBool
  return { target with path, name, uuid, type, takeFileOwnership }

/-- The five keys of the schema lead to its fields. -/
structure IsUnder (schema : SendToSchema) (f : String → Option Value) : Prop where
  path : f "path" = some (.string schema.path)
  name : f "name" = some (.string schema.name)
  uuid : f "uuid" = some (.string schema.uuid)
  type : f "type" = some (.string schema.type)
  takeFileOwnership : f "take_file_ownership" = some (.boolean schema.takeFileOwnership)

theorem serialize_isUnder (schema : SendToSchema) {root : Value} {f : String → Option Value} (hroot : Holds root f) :
    ∃ v g, schema.serialize root = .ok v ∧ Holds v g ∧ schema.IsUnder g := by
  obtain ⟨v, hv, hholds⟩ := ((Writes.set "path" (.string schema.path)).seq
    ((Writes.set "name" (.string schema.name)).seq ((Writes.set "uuid" (.string schema.uuid)).seq
      ((Writes.set "type" (.string schema.type)).seq
        (Writes.set "take_file_ownership" (.boolean schema.takeFileOwnership)))))) root f hroot
  refine ⟨v, _, hv, hholds, ?_⟩
  constructor <;> simp

theorem deserialize_of_isUnder {schema : SendToSchema} (target : SendToSchema) {root : Value}
    {f : String → Option Value} (hroot : Holds root f) (h : schema.IsUnder f) :
    target.deserialize root = .ok schema := by
  simp only [deserialize, hroot.get, h.path, h.name, h.uuid, h.type, h.takeFileOwnership]
  rfl

end SendToSchema

/-- Written into a value that is null or an object and read back into any target, a schema comes back field by field. -/
theorem schemas_round_trip {root : Value} {f : String → Option Value} (hroot : Holds root f) :
    (∀ (schema target : ConnectionSchema) (unset : Nat → Nat → UInt32), ∃ v, schema.serialize root = .ok v ∧
      target.deserialize unset v = .ok schema) ∧
    ∀ schema target : SendToSchema, ∃ v, schema.serialize root = .ok v ∧ target.deserialize v = .ok schema := by
  constructor
  · intro schema target unset
    obtain ⟨v, g, hv, hholds, hunder⟩ := schema.serialize_isUnder hroot
    exact ⟨v, hv, ConnectionSchema.deserialize_of_isUnder target unset hholds hunder⟩
  · intro schema target
    obtain ⟨v, g, hv, hholds, hunder⟩ := schema.serialize_isUnder hroot
    exact ⟨v, hv, SendToSchema.deserialize_of_isUnder target hholds hunder⟩

/-- A fresh value is one to write into. -/
theorem schemas_round_trip_fresh :
    (∀ (schema target : ConnectionSchema) (unset : Nat → Nat → UInt32), ∃ v, schema.serialize .null = .ok v ∧
      target.deserialize unset v = .ok schema) ∧
    ∀ schema target : SendToSchema, ∃ v, schema.serialize .null = .ok v ∧ target.deserialize v = .ok schema :=
  schemas_round_trip holds_null

end SubstanceConnector.Framework
