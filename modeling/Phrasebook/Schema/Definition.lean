import Phrasebook.Json.Decode
import Phrasebook.Schema.Descriptor

/-!
# Definitions

A definition is the JSON form of a descriptor. Reading and writing are inverse
on what descriptors hold: absent options, the restricting delete rule and empty
value lists are left out when writing, everything else is always written.

## Main definitions

* `Descriptor.ofJson`: the descriptor a definition describes
* `Descriptor.toJson`: the definition of a descriptor
-/
namespace Phrasebook

/-! ## Reading -/

/-- Kinds by full name. -/
def RecordKind.ofJson : Decoder RecordKind :=
  Json.asChoice (RecordKind.all.map fun kind => (kind.name, kind))

/-- Types by name. -/
def FieldType.ofJson : Decoder FieldType :=
  Json.asChoice ([FieldType.uuid, .timestamp, .string, .boolean, .object].map fun type =>
    (type.name, type))

/-- Delete rules by name. -/
def OnDelete.ofJson : Decoder OnDelete :=
  Json.asChoice [("restrict", .restrict), ("cascade", .cascade)]

/-- The column hints of a field. -/
def columnShape : Shape where
  name := "FieldStorage"
  fields := [Shape.optional "type" (Json.asOption Json.asString),
    Shape.optional "opts" (Json.asOption Json.asString)]

/-- Column type and column options of a field. -/
def columnOfJson : Decoder (Option String × Option String) := fun value => do
  let given ← columnShape.entries value
  let type ← given.take "type" (Json.asOption Json.asString) none
  let opts ← given.take "opts" (Json.asOption Json.asString) none
  .ok (type, opts)

/-- Any value but `null`. -/
def anyValue : Decoder Json := fun value => .ok value

/-- The fields of a field definition. -/
def fieldShape : Shape where
  name := "FieldSpec"
  fields := [
    Shape.required "name" Json.asString,
    Shape.required "type" FieldType.ofJson,
    Shape.optional "label" (Json.asOption Json.asString),
    Shape.optional "ui" (Json.asOption Json.asString),
    Shape.optional "optional" Json.asBool,
    Shape.optional "server_assigned" Json.asBool,
    Shape.optional "immutable" Json.asBool,
    Shape.optional "min" (Json.asOption Json.asCount),
    Shape.optional "max" (Json.asOption Json.asCount),
    Shape.optional "pattern" (Json.asOption Json.asString),
    Shape.optional "default" anyValue,
    Shape.optional "values" (Json.asList Json.asString),
    Shape.optional "references" (Json.asOption RecordKind.ofJson),
    Shape.optional "on_delete" OnDelete.ofJson,
    Shape.optional "storage" columnOfJson]

/-- The field a field definition describes. -/
def FieldSpec.ofJson : Decoder FieldSpec := fun value => do
  let given ← fieldShape.entries value
  let text (name : String) := given.take name (Json.asOption Json.asString) none
  let flag (name : String) := given.take name Json.asBool false
  let count (name : String) := given.take name (Json.asOption Json.asCount) none
  let (columnType, columnOptions) ← given.take "storage" columnOfJson (none, none)
  .ok {
    name := ← given.need "name" Json.asString
    type := ← given.need "type" FieldType.ofJson
    label := ← text "label"
    control := ← text "ui"
    optional := ← flag "optional"
    serverAssigned := ← flag "server_assigned"
    immutable := ← flag "immutable"
    minLength := ← count "min"
    maxLength := ← count "max"
    pattern := ← text "pattern"
    default := ← given.take "default" (Json.asOption anyValue) none
    values := ← given.take "values" (Json.asList Json.asString) []
    references := ← given.take "references" (Json.asOption RecordKind.ofJson) none
    onDelete := ← given.take "on_delete" OnDelete.ofJson .restrict
    columnType
    columnOptions }

/-- The fields of an index definition. -/
def indexShape : Shape where
  name := "IndexSpec"
  fields := [Shape.required "name" Json.asString,
    Shape.required "fields" (Json.asList Json.asString),
    Shape.optional "unique" Json.asBool]

/-- The index an index definition describes. -/
def IndexSpec.ofJson : Decoder IndexSpec := fun value => do
  let given ← indexShape.entries value
  .ok {
    name := ← given.need "name" Json.asString
    fields := ← given.need "fields" (Json.asList Json.asString)
    unique := ← given.take "unique" Json.asBool false }

/-- The fields of a table definition. -/
def tableShape : Shape where
  name := "TableStorage"
  fields := [Shape.required "table" Json.asString,
    Shape.required "charset" Json.asString,
    Shape.required "collate" Json.asString,
    Shape.optional "indexes" (Json.asList IndexSpec.ofJson),
    Shape.optional "revisions" (Json.asList Json.asString)]

/-- The table a table definition describes. -/
def TableSpec.ofJson : Decoder TableSpec := fun value => do
  let given ← tableShape.entries value
  .ok {
    table := ← given.need "table" Json.asString
    charset := ← given.need "charset" Json.asString
    collate := ← given.need "collate" Json.asString
    indexes := ← given.take "indexes" (Json.asList IndexSpec.ofJson) []
    revisions := ← given.take "revisions" (Json.asList Json.asString) [] }

/-- The fields of a definition. -/
def descriptorShape : Shape where
  name := "SchemaDescriptor"
  fields := [Shape.required "kind" RecordKind.ofJson,
    Shape.required "title" Json.asString,
    Shape.optional "description" Json.asString,
    Shape.required "fields" (Json.asList FieldSpec.ofJson),
    Shape.required "storage" TableSpec.ofJson]

/-- The descriptor a definition describes. -/
def Descriptor.ofJson : Decoder Descriptor := fun value => do
  let given ← descriptorShape.entries value
  .ok {
    kind := ← given.need "kind" RecordKind.ofJson
    title := ← given.need "title" Json.asString
    description := ← given.take "description" Json.asString ""
    fields := ← given.need "fields" (Json.asList FieldSpec.ofJson)
    storage := ← given.need "storage" TableSpec.ofJson }

/-! ## Writing -/

/-- An entry for a value that is present. -/
def entryOf (name : String) (f : α → Json) : Option α → List (String × Json)
  | some a => [(name, f a)]
  | none => []

/-- A list of texts as a value. -/
def textList (texts : List String) : Json := .arr (texts.map .str)

/-- The definition of a field. -/
def FieldSpec.toJson (f : FieldSpec) : Json :=
  Json.object (
    [("name", .str f.name), ("type", .str f.type.name), ("optional", .bool f.optional),
      ("server_assigned", .bool f.serverAssigned), ("immutable", .bool f.immutable)] ++
    entryOf "label" .str f.label ++
    entryOf "ui" .str f.control ++
    entryOf "min" (fun n => Json.int n) f.minLength ++
    entryOf "max" (fun n => Json.int n) f.maxLength ++
    entryOf "pattern" .str f.pattern ++
    entryOf "default" id f.default ++
    (if f.values.isEmpty then [] else [("values", textList f.values)]) ++
    entryOf "references" (fun kind => .str kind.name) f.references ++
    (if f.onDelete = .cascade then [("on_delete", .str "cascade")] else []) ++
    [("storage", Json.object
      (entryOf "type" .str f.columnType ++ entryOf "opts" .str f.columnOptions))])

/-- The definition of an index. -/
def IndexSpec.toJson (index : IndexSpec) : Json :=
  Json.object [("name", .str index.name), ("fields", textList index.fields),
    ("unique", .bool index.unique)]

/-- The definition of a table. -/
def TableSpec.toJson (t : TableSpec) : Json :=
  Json.object [("table", .str t.table), ("charset", .str t.charset), ("collate", .str t.collate),
    ("indexes", .arr (t.indexes.map (·.toJson))), ("revisions", textList t.revisions)]

/-- The definition of a descriptor. -/
def Descriptor.toJson (d : Descriptor) : Json :=
  Json.object [("kind", .str d.kind.name), ("title", .str d.title),
    ("description", .str d.description), ("fields", .arr (d.fields.map (·.toJson))),
    ("storage", d.storage.toJson)]

end Phrasebook
