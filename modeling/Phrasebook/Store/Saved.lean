import Phrasebook.Json.Decode
import Phrasebook.Json.Read
import Phrasebook.Store.Database

/-!
# Stores as text

The tables of a store as one JSON text: each table with its columns, its indexes
and its rows, a row being the list of its cells in column order.

## Main definitions

* `Database.saved`: the text of a store
* `Database.ofSaved?`: the store of a text
-/
namespace Phrasebook

/-- A column as a value. -/
def Column.toJson (c : Column) : Json :=
  Json.object [("name", .str c.name), ("not_null", .bool c.notNull)]

/-- An index as a value. -/
def Index.toJson (index : Index) : Json :=
  Json.object [("name", .str index.name), ("columns", .arr (index.columns.map .str)),
    ("unique", .bool index.unique)]

/-- A row as the list of its cells. -/
def rowToJson (row : Row) : Json :=
  .arr (row.map fun (_, cell) =>
    match cell with
    | some text => .str text
    | none => .null)

/-- A table as a value. -/
def Table.toJson (t : Table) : Json :=
  Json.object [("name", .str t.name), ("columns", .arr (t.columns.map Column.toJson)),
    ("indexes", .arr (t.indexes.map Index.toJson)), ("rows", .arr (t.rows.map rowToJson))]

/-- The fields of an object. -/
def fieldsOf : Decoder Fields
  | .obj fields => .ok fields
  | other => .error (.wrongType other "a map")

/-- The column of a value. -/
def Column.ofJson : Decoder Column := fun value => do
  let given ← fieldsOf value
  .ok ⟨← given.need "name" Json.asString, ← given.need "not_null" Json.asBool⟩

/-- The index of a value. -/
def Index.ofJson : Decoder Index := fun value => do
  let given ← fieldsOf value
  .ok ⟨← given.need "name" Json.asString, ← given.need "columns" (Json.asList Json.asString),
    ← given.need "unique" Json.asBool⟩

/-- The row of a list of cells. -/
def rowOfJson (columns : List Column) : Decoder Row := fun value => do
  let cells ← Json.asList (Json.asOption Json.asString) value
  .ok ((columns.map Column.name).zip cells)

/-- The table of a value. -/
def Table.ofJson : Decoder Table := fun value => do
  let given ← fieldsOf value
  let columns ← given.need "columns" (Json.asList Column.ofJson)
  .ok ⟨← given.need "name" Json.asString, columns, ← given.need "indexes" (Json.asList Index.ofJson),
    ← given.need "rows" (Json.asList (rowOfJson columns))⟩

namespace Database

/-- The store as a text. -/
def saved (db : Database) : String :=
  (Json.object [("mouth_tables", .arr (db.tables.map Table.toJson))]).compact ++ "\n"

/-- The store of a text, if the text holds one. -/
def ofSaved? (text : String) : Option Database := do
  let value ← (Json.read text).toOption
  let given ← (fieldsOf value).toOption
  let tables ← (given.need "mouth_tables" (Json.asList Table.ofJson)).toOption
  some ⟨tables⟩

end Database
end Phrasebook
