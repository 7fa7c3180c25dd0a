import Phrasebook.Identity.Kind
import Phrasebook.Json.Value
import Phrasebook.Pattern.Parse

/-!
# Descriptors

A descriptor defines one record kind: its fields with their types and
constraints, and how its records are stored. It is data; validation, storage
and display all follow it.

## Main definitions

* `FieldType`, `FieldSpec`, `IndexSpec`, `TableSpec`, `Descriptor`
* `FieldSpec.required`, `FieldSpec.notNull`: what must be present
* `Descriptor.check`: whether a descriptor is consistent
-/
namespace Phrasebook

/-- The type of a field. -/
inductive FieldType where
  | uuid | timestamp | string | boolean
  /-- Names mapped to texts, from the allowed values of the field if it has
  any. -/
  | object
  deriving DecidableEq, Repr, Inhabited

/-- The name of a type. -/
def FieldType.name : FieldType → String
  | uuid => "uuid"
  | timestamp => "timestamp"
  | string => "string"
  | boolean => "boolean"
  | object => "object"

/-- What deleting a record does to the records that refer to it. -/
inductive OnDelete where
  /-- Refuse while references remain. -/
  | restrict
  /-- Delete the referring records too. -/
  | cascade
  deriving DecidableEq, Repr, Inhabited

/-- A field of a record. -/
structure FieldSpec where
  name : String
  type : FieldType
  label : Option String := none
  /-- Hint for a display control. -/
  control : Option String := none
  /-- May be absent on create. -/
  optional : Bool := false
  /-- Filled in when absent on create. -/
  serverAssigned : Bool := false
  /-- Cannot be changed by an update. -/
  immutable : Bool := false
  minLength : Option Nat := none
  maxLength : Option Nat := none
  pattern : Option String := none
  /-- Value of an optional field that is absent on create. -/
  default : Option Json := none
  /-- Allowed texts of the entries of an object field. -/
  values : List String := []
  /-- The kind of record this field refers to. -/
  references : Option RecordKind := none
  onDelete : OnDelete := .restrict
  /-- Column type in place of the one that follows from the field type. -/
  columnType : Option String := none
  /-- Further column options. -/
  columnOptions : Option String := none
  deriving DecidableEq, Repr, Inhabited

/-- An index of a table. -/
structure IndexSpec where
  name : String
  fields : List String
  unique : Bool := false
  deriving DecidableEq, Repr, Inhabited

/-- How the records of a kind are stored. -/
structure TableSpec where
  table : String
  charset : String
  collate : String
  indexes : List IndexSpec := []
  /-- Types of actor that changes are attributed to; changes are recorded if
  there are any. -/
  revisions : List String := []
  deriving DecidableEq, Repr, Inhabited

/-- The definition of a record kind. -/
structure Descriptor where
  kind : RecordKind
  title : String
  description : String := ""
  fields : List FieldSpec
  storage : TableSpec
  deriving DecidableEq, Repr, Inhabited

namespace FieldSpec

/-- Must be present on create. -/
def required (f : FieldSpec) : Bool := !f.optional && !f.serverAssigned

/-- Has a value in every stored record. -/
def notNull (f : FieldSpec) : Bool := !f.optional || f.default.isSome

/-- The label, or the name of a field without one. -/
def displayLabel (f : FieldSpec) : String := f.label.getD f.name

end FieldSpec

/-- Why a descriptor is inconsistent. -/
inductive DescriptorError where
  | idMutable
  | missingId
  | timeNotAssigned (field : String)
  | missingTime (field : String)
  | duplicateField (field : String)
  | badPattern (field : String)
  | valuesOutsideObject (field : String)
  | cascadeWithoutReference (field : String)
  | unknownIndexField (index field : String)
  deriving DecidableEq, Repr

/-- The message of an inconsistency. -/
def DescriptorError.message : DescriptorError → String
  | .idMutable => "'_id' must be immutable"
  | .missingId => "missing '_id' field"
  | .timeNotAssigned field => s!"'{field}' must be server assigned"
  | .missingTime field => s!"missing '{field}' field"
  | .duplicateField field => s!"duplicate field '{field}'"
  | .badPattern field => s!"field '{field}' has a bad pattern"
  | .valuesOutsideObject field => s!"only object fields take 'values' ('{field}')"
  | .cascadeWithoutReference field => s!"'{field}' cascades but references nothing"
  | .unknownIndexField index field => s!"index '{index}' names unknown field '{field}'"

namespace Descriptor

/-- The field of a name; of several the first. -/
def field? (d : Descriptor) (name : String) : Option FieldSpec :=
  d.fields.find? fun f => f.name == name

/-- Fields that must be present on create. -/
def requiredFields (d : Descriptor) : List FieldSpec := d.fields.filter (·.required)

/-- Fields filled in when absent. -/
def assignedFields (d : Descriptor) : List FieldSpec := d.fields.filter (·.serverAssigned)

/-- Fields an update may not change. -/
def immutableFields (d : Descriptor) : List FieldSpec := d.fields.filter (·.immutable)

/-- Fields that refer to another record, with the kind they refer to. -/
def referenceFields (d : Descriptor) : List (FieldSpec × RecordKind) :=
  d.fields.filterMap fun f => f.references.map fun kind => (f, kind)

/-- The table of the records. -/
def table (d : Descriptor) : String := d.storage.table

/-- The table of the recorded changes, if changes are recorded. -/
def changesTable? (d : Descriptor) : Option String :=
  if d.storage.revisions.isEmpty then none else some (d.table ++ "_changes")

/-- Whether records can be archived. -/
def archivable (d : Descriptor) : Bool := (d.field? "_archived").isSome

/-! ## Consistency -/

/-- The key never changes. -/
def checkId (d : Descriptor) : Except DescriptorError Unit :=
  match d.field? "_id" with
  | some f => if f.immutable then .ok () else .error .idMutable
  | none => .error .missingId

/-- A time is always assigned. -/
def checkTime (d : Descriptor) (name : String) : Except DescriptorError Unit :=
  match d.field? name with
  | some f => if f.serverAssigned then .ok () else .error (.timeNotAssigned name)
  | none => .error (.missingTime name)

/-- A field is consistent in itself. -/
def checkField (f : FieldSpec) : Except DescriptorError Unit :=
  if f.pattern.any fun p => !Pattern.wellFormed p then .error (.badPattern f.name)
  else if !f.values.isEmpty && f.type != .object then .error (.valuesOutsideObject f.name)
  else if f.onDelete = .cascade && f.references.isNone then
    .error (.cascadeWithoutReference f.name)
  else .ok ()

/-- Field names are distinct, and every field is consistent; `seen` holds the
names of the fields before. -/
def checkFields (seen : List String) : List FieldSpec → Except DescriptorError Unit
  | [] => .ok ()
  | f :: rest =>
    if seen.contains f.name then .error (.duplicateField f.name)
    else do
      checkField f
      checkFields (f.name :: seen) rest

/-- Indexes cover declared fields only. -/
def checkIndexes (d : Descriptor) : List IndexSpec → Except DescriptorError Unit
  | [] => .ok ()
  | index :: rest =>
    match index.fields.find? fun name => (d.field? name).isNone with
    | some name => .error (.unknownIndexField index.name name)
    | none => checkIndexes d rest

/-- Whether a descriptor is consistent. A key may be given by the client but
never changes; the times are always assigned. -/
def check (d : Descriptor) : Except DescriptorError Unit := do
  d.checkId
  d.checkTime "_created"
  d.checkTime "_updated"
  checkFields [] d.fields
  d.checkIndexes d.storage.indexes

end Descriptor
end Phrasebook
