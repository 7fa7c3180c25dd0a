import Phrasebook.Identity.Kind
import Phrasebook.Identity.RecordId
import Phrasebook.Instant
import Phrasebook.Json.Print

/-!
# Records

A record has a kind, a key, a creation and an update time, and named fields. In
its flat form, the one documents and clients see, the key and the times are
fields as well.

## Main definitions

* `Record`
* `Record.ofFields`: the record a flat form describes
* `Record.toFields`: the flat form of a record
-/
namespace Phrasebook

/-- The field of the key. -/
def idField : String := "_id"

/-- The field of the creation time. -/
def createdField : String := "_created"

/-- The field of the update time. -/
def updatedField : String := "_updated"

/-- The field that marks a record as archived. -/
def archivedField : String := "_archived"

/-- The fields a record keeps apart from its others. -/
def isIdentityField (name : String) : Bool :=
  name == idField || name == createdField || name == updatedField

/-- A record of some kind. -/
structure Record where
  kind : RecordKind
  id : RecordId
  created : Instant
  updated : Instant
  fields : Fields
  deriving DecidableEq, Repr

/-- Failures between the flat, the plain and the typed form of a record. -/
inductive RecordError where
  | kindMismatch (expected found : RecordKind)
  | missingField (kind : RecordKind) (field : String)
  | malformedField (kind : RecordKind) (field : String) (reason : String)
  | conversion (kind : RecordKind) (reason : String)
  deriving DecidableEq, Repr

/-- The message of a record failure. -/
def RecordError.message : RecordError → String
  | .kindMismatch expected found => s!"expected a {expected.name} record, found {found.name}"
  | .missingField kind field => s!"{kind.name} record is missing '{field}'"
  | .malformedField kind field reason =>
    s!"{kind.name} record has a malformed '{field}': {reason}"
  | .conversion kind reason => s!"{kind.name} record could not be converted: {reason}"

/-- The code of a record failure. -/
def RecordError.code : RecordError → String
  | .kindMismatch .. => "mouth::record::kind_mismatch"
  | .missingField .. => "mouth::record::missing_field"
  | .malformedField .. => "mouth::record::malformed_field"
  | .conversion .. => "mouth::record::conversion"

namespace Record

/-- The string a flat form holds under a name. -/
def takeString (kind : RecordKind) (fields : Fields) (name : String) :
    Except RecordError String :=
  match fields.get? name with
  | some (.str s) => .ok s
  | some other => .error (.malformedField kind name ("expected a string, found " ++ other.compact))
  | none => .error (.missingField kind name)

/-- The time a flat form holds under a name. -/
def takeInstant (kind : RecordKind) (fields : Fields) (name : String) :
    Except RecordError Instant := do
  let raw ← takeString kind fields name
  match Instant.parse raw with
  | .ok t => .ok t
  | .error e => .error (.malformedField kind name e.message)

/-- The record a flat form describes: key and times are taken out of it, every
other field stays as it is. -/
def ofFields (kind : RecordKind) (fields : Fields) : Except RecordError Record := do
  let raw ← takeString kind fields idField
  let id ← match RecordId.parse raw with
    | .ok id => .ok id
    | .error e => .error (.malformedField kind idField e.message)
  let created ← takeInstant kind fields createdField
  let updated ← takeInstant kind fields updatedField
  .ok { kind, id, created, updated,
        fields := fields.filter fun entry => !isIdentityField entry.1 }

/-- The flat form of a record; a field takes precedence over a part of the same
name. -/
def toFields (r : Record) : Fields :=
  Fields.override
    (Fields.ofList [(idField, .str r.id.text), (createdField, .str r.created.text),
      (updatedField, .str r.updated.text)])
    r.fields

/-- The flat form as a value. -/
def toJson (r : Record) : Json := .obj r.toFields

/-- The value of a name, key and times included. -/
def get? (r : Record) (name : String) : Option Json :=
  if name == idField then some (.str r.id.text)
  else if name == createdField then some (.str r.created.text)
  else if name == updatedField then some (.str r.updated.text)
  else r.fields.get? name

/-- The text of a field that holds a string. -/
def getStr? (r : Record) (name : String) : Option String := r.fields.getStr? name

/-- Whether a record is archived. -/
def isArchived (r : Record) : Bool :=
  match r.fields.get? archivedField with
  | some (.bool b) => b
  | _ => false

/-- Check that a record is of a kind. -/
def expectKind (r : Record) (expected : RecordKind) : Except RecordError Unit :=
  if r.kind = expected then .ok () else .error (.kindMismatch expected r.kind)

end Record
end Phrasebook
