import Phrasebook.Schema.Definition

/-!
# Descriptors as JSON Schema documents

The JSON Schema a descriptor stands for. For a new record the required fields
are listed; for an update every field is optional. Undeclared fields are
rejected either way.

## Main definitions

* `Mode`: a new record or an update
* `Descriptor.jsonSchema`
-/
namespace Phrasebook

/-- Whether a candidate is a new record or a partial update. -/
inductive Mode where
  | create | update
  deriving DecidableEq, Repr

/-- The schema keywords of a type. -/
def FieldSpec.typeKeywords (f : FieldSpec) : List (String × Json) :=
  match f.type with
  | .uuid => [("type", .str "string"), ("format", .str "uuid")]
  | .timestamp => [("type", .str "string"), ("format", .str "date-time")]
  | .string => [("type", .str "string")]
  | .boolean => [("type", .str "boolean")]
  | .object =>
    let entry := ("type", Json.str "string") ::
      if f.values.isEmpty then [] else [("enum", textList f.values)]
    [("type", .str "object"), ("additionalProperties", Json.object entry)]

/-- The schema of a field. -/
def FieldSpec.jsonSchema (f : FieldSpec) : Json :=
  Json.object (f.typeKeywords ++
    entryOf "minLength" (fun n => Json.int n) f.minLength ++
    entryOf "maxLength" (fun n => Json.int n) f.maxLength ++
    entryOf "pattern" .str f.pattern ++
    entryOf "title" .str f.label)

/-- The schema of a record. -/
def Descriptor.jsonSchema (d : Descriptor) (mode : Mode) : Json :=
  Json.object (
    [("$schema", .str "https://json-schema.org/draft/2020-12/schema"),
      ("title", .str d.title), ("description", .str d.description), ("type", .str "object"),
      ("properties", Json.object (d.fields.map fun f => (f.name, f.jsonSchema))),
      ("additionalProperties", .bool false)] ++
    match mode with
    | .create => [("required", textList (d.requiredFields.map (·.name)))]
    | .update => [])

end Phrasebook
