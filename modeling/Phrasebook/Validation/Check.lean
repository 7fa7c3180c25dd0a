import Phrasebook.Json.Value
import Phrasebook.Schema.Render
import Phrasebook.Validation.Format
import Phrasebook.Validation.Violation

/-!
# Checking candidates

Every declared field is checked on its own: a candidate is accepted when each of
its values satisfies its own field, no field is undeclared and none is missing
that must be given. Entries of an object field are checked one by one.

## Main definitions

* `pathText`: how a place in a candidate is named
* `FieldSpec.violations`: what is wrong with the value of a field
* `Descriptor.violations`: what is wrong with a candidate
-/
namespace Phrasebook

/-! ## Places -/

/-- A name with the characters escaped that separate places. -/
def escapeName (name : String) : String :=
  String.ofList (name.toList.flatMap fun c =>
    if c = '~' then ['~', '0'] else if c = '/' then ['~', '1'] else [c])

/-- The dotted name of a place: escaped names, empty ones left out. -/
def pathText (names : List String) : String :=
  Text.join "." ((names.map escapeName).filter fun name => !name.isEmpty)

/-- The type declared for a place: entries of object fields are strings. -/
def Descriptor.expectedType (d : Descriptor) (path : String) : String :=
  if path.toList.contains '.' then "string"
  else match d.field? path with
    | some f => f.type.name
    | none => "object"

/-! ## Fields -/

/-- The constraint fails where the condition does not hold. -/
def demand (holds : Bool) (c : Constraint) : List Constraint := if holds then [] else [c]

/-- Constraints a text fails besides its type. -/
def FieldSpec.textFailures (f : FieldSpec) (expected : String) (s : String) :
    List Constraint :=
  let length := Text.charCount s
  (match f.type with
    | .uuid => demand (Format.isUuid s) (.wrongType expected)
    | .timestamp => demand (Format.isDateTime s) (.wrongType expected)
    | _ => []) ++
  (match f.maxLength with
    | some limit => demand (length ≤ limit) (.tooLong limit)
    | none => []) ++
  (match f.minLength with
    | some limit => demand (limit ≤ length) (.tooShort limit)
    | none => []) ++
  (match f.pattern with
    | some pattern =>
      match Pattern.parse? pattern with
      | some p => demand (p.search s) (.patternMismatch pattern)
      | none => []
    | none => [])

/-- Whether a value has the JSON type of a field type. -/
def FieldType.admits : FieldType → Json → Bool
  | .uuid, .str _ | .timestamp, .str _ | .string, .str _ => true
  | .boolean, .bool _ => true
  | .object, .obj _ => true
  | _, _ => false

/-- Constraints a value of a field fails itself. -/
def FieldSpec.failures (f : FieldSpec) (expected : String) (value : Json) : List Constraint :=
  (match value with
    | .str s => f.textFailures expected s
    | _ => []) ++
  demand (f.type.admits value) (.wrongType expected)

/-- Constraints an entry of an object field fails. -/
def FieldSpec.entryFailures (f : FieldSpec) (expected : String) (value : Json) :
    List Constraint :=
  demand (f.values.isEmpty || value.str?.any f.values.contains) (.invalidValue f.values) ++
  demand value.str?.isSome (.wrongType expected)

/-- What is wrong with an entry of an object field. -/
def FieldSpec.entryViolations (f : FieldSpec) (d : Descriptor) (key : String) (value : Json) :
    List Violation :=
  let path := pathText [f.name, key]
  (f.entryFailures (d.expectedType path) value).map (Violation.mk path)

/-- What is wrong with the value of a field: first its entries, then itself. -/
def FieldSpec.violations (f : FieldSpec) (d : Descriptor) (value : Json) : List Violation :=
  let path := pathText [f.name]
  (match f.type, value with
    | .object, .obj entries => entries.flatMap fun (key, v) => f.entryViolations d key v
    | _, _ => []) ++
  (f.failures (d.expectedType path) value).map (Violation.mk path)

/-! ## Candidates -/

/-- What is wrong with the declared fields of a candidate. -/
def Descriptor.valueViolations (d : Descriptor) (candidate : Fields) : List Violation :=
  candidate.flatMap fun (name, value) =>
    match d.field? name with
    | some f => f.violations d value
    | none => []

/-- The undeclared fields of a candidate. -/
def Descriptor.unknownViolations (d : Descriptor) (candidate : Fields) : List Violation :=
  candidate.filterMap fun (name, _) =>
    if (d.field? name).isNone then some ⟨name, .unknownField⟩ else none

/-- The fields a new candidate lacks. -/
def Descriptor.missingViolations (d : Descriptor) (mode : Mode) (candidate : Fields) :
    List Violation :=
  match mode with
  | .update => []
  | .create => d.requiredFields.filterMap fun f =>
    if candidate.has f.name then none else some ⟨f.name, .missing⟩

/-- What is wrong with a candidate. -/
def Descriptor.violations (d : Descriptor) (mode : Mode) (candidate : Fields) :
    List Violation :=
  d.valueViolations candidate ++ d.unknownViolations candidate ++
    d.missingViolations mode candidate

end Phrasebook
