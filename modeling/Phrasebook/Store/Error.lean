import Phrasebook.Identity.RecordId
import Phrasebook.Schema.Registry
import Phrasebook.Store.Table

/-!
# Store failures

Why the store refuses an operation. A valid record may still be refused; these
failures are therefore apart from those of validation.

## Main definitions

* `StoreError`, with message, code and help
* `Descriptor.violatedIndex?`: the index behind a failure of the engine
* `Descriptor.storeError`: the store failure for a failure of the engine
-/
namespace Phrasebook

/-- Why the store refuses an operation. -/
inductive StoreError where
  | duplicate (kind : RecordKind) (index : String)
  | noRecord (kind : RecordKind) (id : RecordId)
  | immutableField (kind : RecordKind) (id : RecordId) (field : String)
  | archived (kind : RecordKind) (id : RecordId)
  | inUse (kind : RecordKind) (id : RecordId) (user : RecordKind) (count : Nat)
  | unknownField (kind : RecordKind) (field : String)
  | notInstalled
  | corrupt (kind : RecordKind) (id reason : String)
  | io (reason : String)
  | registry (cause : RegistryError)
  | engine (cause : EngineError)
  deriving DecidableEq, Repr

namespace StoreError

/-- The message of a refusal. -/
def message : StoreError → String
  | duplicate kind index => s!"a {kind.name} record with the same {index} already exists"
  | noRecord kind id => s!"no {kind.name} record with id {id.text}"
  | immutableField kind id field => s!"'{field}' of {kind.name} {id.text} cannot be changed"
  | archived kind id => s!"{kind.name} {id.text} is archived"
  | inUse kind id user count =>
    s!"{kind.name} {id.text} is still used by {count} {user.name} record(s)"
  | unknownField kind field => s!"{kind.name} records have no field '{field}'"
  | notInstalled => "the store has not been installed"
  | corrupt kind id reason => s!"stored {kind.name} record {id} is unreadable: {reason}"
  | io reason => s!"could not create store directory: {reason}"
  | registry cause => cause.message
  | engine cause => "database error: " ++ cause.message

/-- The code of a refusal. -/
def code : StoreError → String
  | duplicate .. => "mouth::store::duplicate"
  | noRecord .. => "mouth::store::no_record"
  | immutableField .. => "mouth::store::immutable_field"
  | archived .. => "mouth::store::archived"
  | inUse .. => "mouth::store::in_use"
  | unknownField .. => "mouth::store::unknown_field"
  | notInstalled => "mouth::store::not_installed"
  | corrupt .. => "mouth::store::corrupt"
  | io _ => "mouth::store::io"
  | registry cause => cause.code
  | engine _ => "mouth::store::sqlite"

/-- A hint on how to mend a refusal. -/
def help? : StoreError → Option String
  | duplicate .. => some "update the existing record instead"
  | immutableField .. => some "create a new record instead"
  | inUse .. => some "delete those records first, or archive it instead"
  | notInstalled => some "run 'mouth install' first"
  | registry cause => cause.help?
  | _ => none

end StoreError

/-- The name reported for the primary key. -/
def primaryIndexName : String := "primary"

/-- Cut a text at every occurrence of a comma followed by a blank. -/
def splitColumns : List Char → List (List Char)
  | [] => [[]]
  | ',' :: ' ' :: rest => [] :: splitColumns rest
  | c :: rest =>
    match splitColumns rest with
    | [] => [[c]]
    | piece :: pieces => (c :: piece) :: pieces

/-- The part of a column name after its last point. -/
def afterLastPoint (cs : List Char) : List Char := ((Text.splitOn '.' cs).getLast?).getD cs

/-- The unique index behind a failure of the engine, as told by its text: the
columns after the last points, looked up among the declared unique indexes. -/
def Descriptor.violatedIndex? (d : Descriptor) (message : String) : Option String := do
  let rest ← Text.afterStart? "UNIQUE constraint failed: ".toList message.toList
  let columns := (splitColumns rest).map fun cs => String.ofList (afterLastPoint cs)
  if columns == ["_id"] then some primaryIndexName
  else
    let index := d.storage.indexes.find? fun i =>
      i.unique && i.fields.length == columns.length && i.fields.all columns.contains
    match index with
    | some i => some i.name
    | none => some (Text.join ", " columns)

/-- Whether a failure of the engine is a constraint that does not hold. -/
def EngineError.isConstraint : EngineError → Bool
  | notNull .. | unique .. | uniqueExpression _ => true
  | _ => false

/-- The store failure for a failure of the engine on the table of a kind. -/
def Descriptor.storeError (d : Descriptor) (e : EngineError) : StoreError :=
  match (if e.isConstraint then d.violatedIndex? e.message else none) with
  | some index => .duplicate d.kind index
  | none =>
    match e with
    | .noSuchTable _ => .notInstalled
    | _ => .engine e

end Phrasebook
