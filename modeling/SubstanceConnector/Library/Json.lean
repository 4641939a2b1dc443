import Mathlib.Data.List.Nodup
import Mathlib.Logic.Function.Basic

/-!
# JSON values

Values with the accessors of a JSON library: an unassigned value is null, becomes an object when a member is assigned
and an array when an element is appended, and an accessor of the wrong kind throws. Members are read through lookups:
`Holds` says that a value has the members of a function, `Writes` that an operation changes them as another function
does, and a sequence of writes is read off the sequence of their functions (`Writes.seq`).

A schema for objects of strings, booleans and arrays, with enumerations and required members.
-/

namespace Json

/-- Texts are bytes, numbers are known by their text and whether they are zero. -/
inductive Value where
  | null
  | boolean (b : Bool)
  | number (text : List UInt8) (nonzero : Bool)
  | string (text : List UInt8)
  | array (elements : List Value)
  | object (members : List (String × Value))

/-- The bytes of an ASCII literal. -/
def text (literal : String) : List UInt8 := literal.toList.map Char.toUInt8

/-- What an accessor throws. -/
inductive LogicError where
  | notConvertible
  | wrongKind
  deriving DecidableEq

def insertMember (key : String) (v : Value) (members : List (String × Value)) : List (String × Value) :=
  (key, v) :: members.filter fun member => member.1 ≠ key

namespace Value

/-- Members are of an object, and null has none. -/
def members : Value → Except LogicError (List (String × Value))
  | null => .ok []
  | object members => .ok members
  | _ => .error .wrongKind

def get (v : Value) (key : String) (default : Value) : Except LogicError Value := do
  return ((← v.members).lookup key).getD default

def isMember (v : Value) (key : String) : Except LogicError Bool := do
  return ((← v.members).lookup key).isSome

/-- `root[key] = x`. -/
def set (root : Value) (key : String) (x : Value) : Except LogicError Value := do
  return object (insertMember key x (← root.members))

def append : Value → Value → Except LogicError Value
  | null, x => .ok (array [x])
  | array elements, x => .ok (array (elements ++ [x]))
  | _, _ => .error .wrongKind

/-- `root[key].append(x)`. -/
def appendTo (root : Value) (key : String) (x : Value) : Except LogicError Value := do
  let found := ((← root.members).lookup key).getD null
  root.set key (← found.append x)

/-- What the iterators from `begin()` to `end()` go through; the members of an object are in the order of their keys. -/
def elements : Value → List Value
  | array elements => elements
  | object members => (members.mergeSort fun m m' => m.1 ≤ m'.1).map Prod.snd
  | _ => []

/-- `v[index]`: null where there is no element. -/
def element : Value → Nat → Except LogicError Value
  | null, _ => .ok null
  | array elements, index => .ok (elements.getD index null)
  | _, _ => .error .wrongKind

def asString : Value → Except LogicError (List UInt8)
  | null => .ok []
  | boolean b => .ok (if b then Json.text "true" else Json.text "false")
  | number text _ => .ok text
  | string text => .ok text
  | _ => .error .notConvertible

def asBool : Value → Except LogicError Bool
  | null => .ok false
  | boolean b => .ok b
  | number _ nonzero => .ok nonzero
  | _ => .error .notConvertible

end Value

/-! ## Members -/

variable {root v x : Value} {key k : String} {f g : String → Option Value}

theorem lookup_cons_of_ne {κ β : Type} [BEq κ] [LawfulBEq κ] {k : κ} {entry : κ × β} (h : k ≠ entry.1)
    (entries : List (κ × β)) : (entry :: entries).lookup k = entries.lookup k := by
  rw [List.lookup_cons, beq_eq_false_iff_ne.mpr h]

theorem mem_of_lookup {κ β : Type} [BEq κ] [LawfulBEq κ] {entries : List (κ × β)} {k : κ} {x : β}
    (h : entries.lookup k = some x) : (k, x) ∈ entries := by
  obtain ⟨before, after, rfl, -⟩ := List.lookup_eq_some_iff.mp h
  exact List.mem_append_right before List.mem_cons_self

/-- With distinct keys every entry is the one found under its key. -/
theorem lookup_of_mem {κ β : Type} [BEq κ] [LawfulBEq κ] {entries : List (κ × β)} {k : κ} {x : β}
    (hnodup : (entries.map Prod.fst).Nodup) (h : (k, x) ∈ entries) : entries.lookup k = some x := by
  cases hfound : entries.lookup k with
  | none => simpa using List.lookup_eq_none_iff.mp hfound _ h
  | some y =>
    have heq := List.inj_on_of_nodup_map hnodup (mem_of_lookup hfound) h rfl
    rw [(Prod.mk.inj heq).2]

theorem lookup_filter_ne (members : List (String × Value)) (hk : k ≠ key) :
    (members.filter fun member => member.1 ≠ key).lookup k = members.lookup k := by
  induction members with
  | nil => rfl
  | cons member members ih =>
    obtain ⟨name, v⟩ := member
    by_cases hname : name = key
    · rw [List.filter_cons_of_neg (by simp [hname]), ih, hname, lookup_cons_of_ne hk]
    · rw [List.filter_cons_of_pos (by simp [hname]), List.lookup_cons, List.lookup_cons, ih]

theorem lookup_insertMember (key : String) (v : Value) (members : List (String × Value)) :
    (fun k => (insertMember key v members).lookup k) = Function.update (fun k => members.lookup k) key (some v) := by
  funext k
  by_cases hk : k = key
  · rw [hk, insertMember, List.lookup_cons_self, Function.update_self]
  · rw [insertMember, lookup_cons_of_ne hk, Function.update_of_ne hk]
    exact lookup_filter_ne members hk

theorem insertMember_insertMember (key : String) (v v' : Value) (members : List (String × Value)) :
    insertMember key v' (insertMember key v members) = insertMember key v' members := by
  simp only [insertMember, List.filter_cons]
  simp

/-- The elements appended one by one. -/
def Value.appendAll (root : Value) (key : String) (elements : List Value) : Except LogicError Value :=
  elements.foldlM (fun (root : Value) x => root.appendTo key x) root

theorem Value.appendTo_array (key : String) (members : List (String × Value)) (written : List Value) (x : Value) :
    (object (insertMember key (array written) members)).appendTo key x =
      .ok (object (insertMember key (array (written ++ [x])) members)) := by
  have hlookup : (insertMember key (array written) members).lookup key = some (array written) := List.lookup_cons_self
  simp only [Value.appendTo, Value.members, Value.set, bind, Except.bind, hlookup, Option.getD_some, Value.append,
    insertMember_insertMember]
  rfl

theorem Value.appendAll_array (key : String) (members : List (String × Value)) (written elements : List Value) :
    (object (insertMember key (array written) members)).appendAll key elements =
      .ok (object (insertMember key (array (written ++ elements)) members)) := by
  induction elements generalizing written with
  | nil =>
    rw [List.append_nil]
    rfl
  | cons x elements ih =>
    rw [appendAll, List.foldlM_cons, appendTo_array]
    refine (ih (written ++ [x])).trans ?_
    rw [List.append_assoc]
    rfl

/-- The members of a value are those of a function of the key. -/
def Holds (v : Value) (f : String → Option Value) : Prop :=
  ∃ members, v.members = .ok members ∧ ∀ k, members.lookup k = f k

theorem holds_null : Holds .null fun _ => none := ⟨[], rfl, fun _ => rfl⟩

theorem holds_object (members : List (String × Value)) : Holds (.object members) fun k => members.lookup k :=
  ⟨members, rfl, fun _ => rfl⟩

theorem Holds.get (h : Holds v f) (key : String) (default : Value) : v.get key default = .ok ((f key).getD default) := by
  obtain ⟨members, hmembers, hlookup⟩ := h
  rw [Value.get, hmembers, ← hlookup]
  rfl

theorem Holds.isMember (h : Holds v f) (key : String) : v.isMember key = .ok (f key).isSome := by
  obtain ⟨members, hmembers, hlookup⟩ := h
  rw [Value.isMember, hmembers, ← hlookup]
  rfl

/-! ## Writing members -/

/-- An operation on an object that does not throw and changes the members as `change` says. -/
def Writes (op : Value → Except LogicError Value) (change : (String → Option Value) → String → Option Value) : Prop :=
  ∀ root f, Holds root f → ∃ root', op root = .ok root' ∧ Holds root' (change f)

/-- Elements appended under a key without a member make an array, if there is any. -/
theorem Holds.appendAll (hroot : Holds root f) (hkey : f key = none) (x : Value) (elements : List Value) :
    root.appendAll key (x :: elements) = root.set key (.array (x :: elements)) := by
  obtain ⟨members, hmembers, hlookup⟩ := hroot
  have hset : ∀ v, root.set key v = .ok (.object (insertMember key v members)) := fun v => by
    simp only [Value.set, hmembers]
    rfl
  have happend : root.appendTo key x = .ok (.object (insertMember key (.array [x]) members)) := by
    simp only [Value.appendTo, hmembers, bind, Except.bind, (hlookup key).trans hkey, Option.getD_none, Value.append]
    exact hset _
  rw [Value.appendAll, List.foldlM_cons, happend, hset]
  exact Value.appendAll_array key members [x] elements

namespace Writes

variable {op op' : Value → Except LogicError Value} {change change' : (String → Option Value) → String → Option Value}

theorem skip : Writes .ok id := fun root _ h => ⟨root, rfl, h⟩

theorem set (key : String) (x : Value) : Writes (fun root => root.set key x) fun f => Function.update f key (some x) := by
  intro root f h
  obtain ⟨members, hmembers, hlookup⟩ := h
  refine ⟨.object (insertMember key x members), ?_, _, rfl, fun k => ?_⟩
  · show root.set key x = .ok _
    simp only [Value.set, hmembers]
    rfl
  · rw [← funext hlookup]
    exact congrFun (lookup_insertMember key x members) k

theorem seq (h : Writes op change) (h' : Writes op' change') :
    Writes (fun root => op root >>= op') (change' ∘ change) := by
  intro root f hf
  obtain ⟨middle, hop, hmiddle⟩ := h root f hf
  obtain ⟨root', hop', hroot'⟩ := h' middle _ hmiddle
  refine ⟨root', ?_, hroot'⟩
  change op root >>= op' = .ok root'
  rw [hop]
  exact hop'

end Writes

/-- `root[key] = x` if there is a value to assign. -/
def Value.setOptional (root : Value) (key : String) : Option Value → Except LogicError Value
  | some x => root.set key x
  | none => .ok root

def Value.setAll (root : Value) (fields : List (String × Option Value)) : Except LogicError Value :=
  fields.foldlM (fun root field => root.setOptional field.1 field.2) root

theorem Value.setAll_append (root : Value) (fields fields' : List (String × Option Value)) :
    root.setAll (fields ++ fields') = root.setAll fields >>= fun root => root.setAll fields' :=
  List.foldlM_append

theorem Writes.setOptional (key : String) (x : Option Value) :
    Writes (fun root => root.setOptional key x) fun f => Function.update f key (x.or (f key)) := by
  cases x with
  | none =>
    intro root f h
    refine ⟨root, rfl, ?_⟩
    simp only [Option.none_or, Function.update_eq_self]
    exact h
  | some x => exact Writes.set key x

/-- The members of `f`, except under the keys of fields with a value. -/
def withFields (fields : List (String × Option Value)) (f : String → Option Value) (k : String) : Option Value :=
  ((fields.lookup k).getD none).or (f k)

theorem withFields_cons {fields : List (String × Option Value)} (hkey : key ∉ fields.map Prod.fst) (x : Option Value)
    (f : String → Option Value) :
    withFields ((key, x) :: fields) f = withFields fields (Function.update f key (x.or (f key))) := by
  funext k
  simp only [withFields]
  by_cases hk : k = key
  · have hmissing : fields.lookup key = none := by
      rw [List.lookup_eq_none_iff]
      intro field hfield
      rw [bne_iff_ne]
      rintro rfl
      exact hkey (List.mem_map_of_mem hfield)
    rw [hk, List.lookup_cons_self, hmissing, Function.update_self]
    rfl
  · rw [lookup_cons_of_ne hk, Function.update_of_ne hk]

/-- The fields that have a value are written, under their own keys. -/
theorem Writes.setAll {fields : List (String × Option Value)} (h : (fields.map Prod.fst).Nodup) :
    Writes (fun root => root.setAll fields) (withFields fields) := by
  induction fields with
  | nil => exact Writes.skip
  | cons field fields ih =>
    obtain ⟨key, x⟩ := field
    obtain ⟨hkey, hfields⟩ := List.nodup_cons.mp h
    intro root f hf
    obtain ⟨root', hset, hholds⟩ := ((Writes.setOptional key x).seq (ih hfields)) root f hf
    refine ⟨root', ?_, ?_⟩
    · rw [← hset]
      exact List.foldlM_cons
    · rw [withFields_cons hkey]
      exact hholds

/-! ## Schemas -/

def Value.isText : Value → List UInt8 → Bool
  | string text, text' => text = text'
  | _, _ => false

/-- The schema of a member: an enumeration lists the values allowed. -/
inductive PropertySchema where
  | string (enum : Option (List Value))
  | boolean
  | array (items : PropertySchema)

namespace PropertySchema

def accepts : PropertySchema → Value → Bool
  | string enum, .string text => enum.all fun values => values.any fun v => v.isText text
  | boolean, .boolean _ => true
  | array items, .array elements => elements.all fun v => items.accepts v
  | _, _ => false

end PropertySchema

structure ObjectSchema where
  properties : List (String × PropertySchema)
  required : List String

/-- Required members are there, and each listed member that is there conforms. -/
def ObjectSchema.accepts (schema : ObjectSchema) : Value → Bool
  | .object members =>
    (schema.required.all fun key => (members.lookup key).isSome) &&
      schema.properties.all fun property => (members.lookup property.1).all property.2.accepts
  | _ => false

theorem ObjectSchema.accepts_iff {schema : ObjectSchema} {members : List (String × Value)} :
    schema.accepts (.object members) = true ↔ (∀ key ∈ schema.required, (members.lookup key).isSome) ∧
      ∀ property ∈ schema.properties, ∀ v, members.lookup property.1 = some v → property.2.accepts v = true := by
  simp only [accepts, Bool.and_eq_true, List.all_eq_true, Option.all_eq_true]

end Json
