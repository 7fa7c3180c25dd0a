import Phrasebook.Record
import Phrasebook.Schema.Registry
import Phrasebook.Validation.Check

/-!
# Validation

A candidate that passes every check becomes a record: its key and times are read
or assigned, and absent fields with a default get it. An update overrides the
fields of an existing record by those of a patch, except the immutable ones.

## Main definitions

* `ValidationError`
* `Registry.validate`: the record of a candidate
* `Registry.validateUpdate`: the record after a patch
-/
namespace Phrasebook

/-- Why a candidate or a patch is refused. -/
inductive ValidationError where
  | fields (kind : RecordKind) (violations : List Violation)
  | notAMapping (kind : RecordKind)
  | nothingToUpdate (kind : RecordKind)
  | unknownKind (kind : RecordKind)
  deriving DecidableEq, Repr

namespace ValidationError

/-- The violations of a refused candidate; none when its form is wrong. -/
def violations : ValidationError → List Violation
  | fields _ vs => vs
  | _ => []

/-- The message of a refusal. -/
def message : ValidationError → String
  | fields kind vs => s!"invalid {kind.name}: " ++ Text.join "; " (vs.map (·.text))
  | notAMapping kind => s!"invalid {kind.name}: expected a mapping of field names to values"
  | nothingToUpdate kind =>
    s!"nothing to update on {kind.name}: only immutable or no fields were given"
  | unknownKind kind => s!"no schema registered for {kind.name}"

/-- The code of a refusal. -/
def code : ValidationError → String
  | fields .. => "mouth::validate::fields"
  | notAMapping _ => "mouth::validate::not_a_mapping"
  | nothingToUpdate _ => "mouth::validate::nothing_to_update"
  | unknownKind _ => "mouth::validate::unknown_kind"

end ValidationError

/-- Refuse a candidate for its violations. -/
def refuse (kind : RecordKind) (vs : List Violation) : ValidationError :=
  .fields kind (Violation.report vs)

namespace Descriptor

/-- Add that a field has the wrong type, unless something is wrong with it
already. -/
def addWrongType (d : Descriptor) (field : String) (vs : List Violation) : List Violation :=
  if vs.any fun v => v.field == field then vs
  else vs ++ [⟨field, .wrongType (d.expectedType field)⟩]

/-- The key a candidate gives as a text, if it spells one. -/
def givenId? (candidate : Fields) : Option (Except IdError RecordId) :=
  (candidate.getStr? idField).map RecordId.parse

/-- The time a candidate gives as a text, if it spells one. -/
def givenInstant? (candidate : Fields) (field : String) :
    Option (Except TimestampError Instant) :=
  (candidate.getStr? field).map Instant.parse

/-- Add a violation for a text that spells nothing. -/
def addIfBad (d : Descriptor) (field : String) (given : Option (Except ε α))
    (vs : List Violation) : List Violation :=
  match given with
  | some (.error _) => d.addWrongType field vs
  | _ => vs

/-- Everything wrong with a new candidate, the forms of its key and times
included. -/
def candidateViolations (d : Descriptor) (candidate : Fields) : List Violation :=
  d.addIfBad updatedField (givenInstant? candidate updatedField)
    (d.addIfBad createdField (givenInstant? candidate createdField)
      (d.addIfBad idField (givenId? candidate) (d.violations .create candidate)))

/-- What a text spells, if it was given and well formed. -/
def wellFormed? : Option (Except ε α) → Option α
  | some (.ok a) => some a
  | _ => none

/-- The value a new record has in a field: the given one or the default. -/
def initialValue? (candidate : Fields) (f : FieldSpec) : Option Json :=
  match candidate.get? f.name with
  | some value => some value
  | none => f.default

/-- The fields of a new record. -/
def initialFields (d : Descriptor) (candidate : Fields) : Fields :=
  d.fields.foldl (fun fields f =>
    if isIdentityField f.name then fields
    else match initialValue? candidate f with
      | some value => fields.insert f.name value
      | none => fields) []

end Descriptor

namespace Registry

/-- The descriptor of a kind, or a refusal. -/
def ruling (registry : Registry) (kind : RecordKind) : Except ValidationError Descriptor :=
  match registry.get? kind with
  | some d => .ok d
  | none => .error (.unknownKind kind)

/-- The entries of a value that must be an object. -/
def mapping (kind : RecordKind) (value : Json) : Except ValidationError Fields :=
  match value with
  | .obj entries => .ok entries
  | _ => .error (.notAMapping kind)

/-- The record of a candidate. `fresh` is its key and `now` its creation time
where it gives none; it is never updated before it is created. -/
def validate (registry : Registry) (kind : RecordKind) (input : Json) (fresh : Uuid)
    (now : Instant) : Except ValidationError Record := do
  let d ← registry.ruling kind
  let candidate ← mapping kind input
  let vs := d.candidateViolations candidate
  if vs.isEmpty then
    let created := (Descriptor.wellFormed? (Descriptor.givenInstant? candidate createdField)).getD now
    let updated :=
      (Descriptor.wellFormed? (Descriptor.givenInstant? candidate updatedField)).getD created
    .ok {
      kind
      id := (Descriptor.wellFormed? (Descriptor.givenId? candidate)).getD (.uuid fresh)
      created
      updated := updated.max created
      fields := d.initialFields candidate }
  else .error (refuse kind vs)

/-- A patch without the immutable fields. -/
def mutableChanges (d : Descriptor) (patch : Fields) : Fields :=
  d.immutableFields.foldl (fun changes f => Fields.erase f.name changes) patch

/-- The record after a patch: immutable fields of the patch are passed over, the
others override those of the record, and the update time is `now` or, if that
is later, the creation time. -/
def validateUpdate (registry : Registry) (existing : Record) (patch : Json) (now : Instant) :
    Except ValidationError Record := do
  let d ← registry.ruling existing.kind
  let candidate ← mapping existing.kind patch
  let changes := mutableChanges d candidate
  if changes.isEmpty then .error (.nothingToUpdate existing.kind)
  else
    let vs := d.violations .update changes
    if vs.isEmpty then
      .ok { existing with
        fields := existing.fields.override changes
        updated := now.max existing.created }
    else .error (refuse existing.kind vs)

end Registry
end Phrasebook
