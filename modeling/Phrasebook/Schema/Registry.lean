import Phrasebook.Schema.Descriptor

/-!
# The registry of descriptors

A registry holds at most one consistent descriptor for each kind, in the order
of kinds.

## Main definitions

* `Registry`, `Registry.get?`, `Registry.descriptor`
* `Registry.ofDescriptors`: the registry of consistent descriptors
* `Registry.referencing`: the fields that refer to a kind
-/
namespace Phrasebook

/-- Failures to find or accept a definition. -/
inductive RegistryError where
  | missing (kind : RecordKind)
  | malformed (file reason : String)
  | kindMismatch (file : String) (found : RecordKind)
  | invalid (kind : RecordKind) (cause : DescriptorError)
  deriving DecidableEq, Repr

namespace RegistryError

/-- The message of a failure. -/
def message : RegistryError → String
  | missing kind => s!"no definition found for record kind '{kind.name}'"
  | malformed file reason => s!"definition '{file}' could not be parsed: {reason}"
  | kindMismatch file found => s!"definition '{file}' declares kind '{found.name}'"
  | invalid kind cause => s!"definition for '{kind.name}' is inconsistent: {cause.message}"

/-- The code of a failure. -/
def code : RegistryError → String
  | missing _ => "mouth::schema::missing_definition"
  | malformed .. => "mouth::schema::malformed_definition"
  | kindMismatch .. => "mouth::schema::kind_mismatch"
  | invalid .. => "mouth::schema::invalid_definition"

/-- A hint on how to mend a failure. -/
def help? : RegistryError → Option String
  | kindMismatch .. => some "the file name must match the kind, e.g. template_sms.json"
  | _ => none

end RegistryError

/-- Descriptors in the order of their kinds, each kind once. -/
structure Registry where
  descriptors : List Descriptor
  deriving DecidableEq, Repr, Inhabited

namespace Registry

/-- The descriptor of a kind. -/
def get? (registry : Registry) (kind : RecordKind) : Option Descriptor :=
  registry.descriptors.find? fun d => d.kind == kind

/-- The descriptor of a kind, or an error naming the kind. -/
def descriptor (registry : Registry) (kind : RecordKind) : Except RegistryError Descriptor :=
  match registry.get? kind with
  | some d => .ok d
  | none => .error (.missing kind)

/-- Put a descriptor in its place, instead of one of the same kind. -/
def insert (d : Descriptor) : List Descriptor → List Descriptor
  | [] => [d]
  | e :: rest =>
    if d.kind.rank < e.kind.rank then d :: e :: rest
    else if d.kind = e.kind then d :: rest
    else e :: insert d rest

/-- Add descriptors one by one, as long as they are consistent. -/
def addAll (held : List Descriptor) : List Descriptor → Except RegistryError (List Descriptor)
  | [] => .ok held
  | d :: rest =>
    match d.check with
    | .ok _ => addAll (insert d held) rest
    | .error cause => .error (.invalid d.kind cause)

/-- The registry of consistent descriptors; of two of one kind the later one
counts. -/
def ofDescriptors (descriptors : List Descriptor) : Except RegistryError Registry :=
  (addAll [] descriptors).map Registry.mk

/-- The kinds held, in order. -/
def kinds (registry : Registry) : List RecordKind := registry.descriptors.map (·.kind)

/-- The fields that refer to a kind, with the kinds they belong to. -/
def referencing (registry : Registry) (parent : RecordKind) : List (RecordKind × FieldSpec) :=
  registry.descriptors.flatMap fun d =>
    (d.referenceFields.filter fun (_, target) => target == parent).map fun (f, _) => (d.kind, f)

end Registry
end Phrasebook
