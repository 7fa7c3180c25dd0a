import Phrasebook.Schema.Descriptor

/-!
# Table definitions

The statements that create the tables of a kind: the record table with its
indexes and, when changes are recorded, the table of changes.

## Main definitions

* `Dialect`
* `FieldSpec.mysqlColumn`: the column type of a field
* `Descriptor.createTable`
-/
namespace Phrasebook

/-- Dialects of SQL. -/
inductive Dialect where
  | mysql | sqlite
  deriving DecidableEq, Repr, Inhabited

/-- Texts up to this many characters are `varchar`, longer ones `text`. -/
def varcharLimit : Nat := 255

/-- The MySQL column type of a field. -/
def FieldSpec.mysqlColumn (f : FieldSpec) : String :=
  match f.columnType with
  | some type => type
  | none =>
    match f.type with
    | .uuid => "char(36)"
    | .timestamp => "timestamp"
    | .boolean => "tinyint(1)"
    | .object => "json"
    | .string =>
      match f.maxLength with
      | some max => if max ≤ varcharLimit then s!"varchar({max})" else "text"
      | none => "text"

/-- The name of an index. SQLite index names share one namespace, so they begin
with the table. -/
def Descriptor.indexName (d : Descriptor) (index : IndexSpec) : Dialect → String
  | .mysql => index.name
  | .sqlite => d.table ++ "_" ++ index.name

/-- A name between MySQL quotes. -/
def mysqlQuoted (name : String) : String := "`" ++ name ++ "`"

/-- A name between SQLite quotes. -/
def sqliteQuoted (name : String) : String := "\"" ++ name ++ "\""

/-! ## SQLite statements -/

/-- A text column of a SQLite table. -/
structure ColumnSpec where
  name : String
  notNull : Bool
  primary : Bool
  deriving DecidableEq, Repr

/-- A statement that creates a SQLite table or index unless it exists. -/
inductive Statement where
  | table (name : String) (columns : List ColumnSpec)
  | index (unique : Bool) (name table : String) (columns : List String)
  deriving DecidableEq, Repr

/-- The text of a column. -/
def ColumnSpec.text (c : ColumnSpec) : String :=
  "    " ++ sqliteQuoted c.name ++ " TEXT" ++ (if c.notNull then " NOT NULL" else "") ++
    (if c.primary then " PRIMARY KEY" else "")

/-- The text of a statement. -/
def Statement.text : Statement → String
  | table name columns =>
    "CREATE TABLE IF NOT EXISTS " ++ sqliteQuoted name ++ " (\n" ++
      Text.join ",\n" (columns.map (·.text)) ++ "\n);\n"
  | index unique name parent columns =>
    (if unique then "CREATE UNIQUE INDEX" else "CREATE INDEX") ++ " IF NOT EXISTS " ++
      sqliteQuoted name ++ " ON " ++ sqliteQuoted parent ++
      " (" ++ Text.join ", " (columns.map sqliteQuoted) ++ ");\n"

/-! ## The tables of a kind -/

namespace Descriptor

/-- The clause after the columns of a MySQL table. -/
def mysqlOptions (d : Descriptor) : String :=
  ") ENGINE=InnoDB DEFAULT CHARSET=" ++ d.storage.charset ++ " COLLATE=" ++ d.storage.collate ++
    ";\n"

/-- A column of a MySQL table. -/
def mysqlColumnLine (f : FieldSpec) : String :=
  "  " ++ mysqlQuoted f.name ++ " " ++ f.mysqlColumn ++
    (if f.notNull then " NOT NULL" else "") ++
    match f.columnOptions with
    | some options => " " ++ options
    | none => ""

/-- An index of a MySQL table. -/
def mysqlIndexLine (index : IndexSpec) : String :=
  "  " ++ (if index.unique then "UNIQUE KEY" else "KEY") ++ " " ++ mysqlQuoted index.name ++
    " (" ++ Text.join ", " (index.fields.map mysqlQuoted) ++ ")"

/-- The MySQL record table. -/
def mysqlTable (d : Descriptor) : String :=
  "CREATE TABLE IF NOT EXISTS " ++ mysqlQuoted d.table ++ " (\n" ++
    Text.join ",\n" (d.fields.map mysqlColumnLine ++ ["  PRIMARY KEY (`_id`)"] ++
      d.storage.indexes.map mysqlIndexLine) ++
    "\n" ++ d.mysqlOptions

/-- The MySQL table of changes. -/
def mysqlChangesTable (d : Descriptor) (table : String) : String :=
  let keyType := match d.field? "_id" with
    | some f => f.mysqlColumn
    | none => "char(36)"
  "CREATE TABLE IF NOT EXISTS " ++ mysqlQuoted table ++ " (\n" ++
    "  `_id` " ++ keyType ++ " NOT NULL,\n" ++
    "  `_created` timestamp NOT NULL default CURRENT_TIMESTAMP,\n" ++
    "  `items` json NOT NULL,\n" ++
    "  KEY `i_id` (`_id`)\n" ++ d.mysqlOptions

/-- The statements creating the SQLite record table and its indexes. -/
def sqliteRecordStatements (d : Descriptor) : List Statement :=
  .table d.table (d.fields.map fun f => ⟨f.name, f.notNull, f.name == "_id"⟩) ::
    d.storage.indexes.map fun index =>
      .index index.unique (d.indexName index .sqlite) d.table index.fields

/-- The statements creating the SQLite table of changes and its index. -/
def sqliteChangeStatements (d : Descriptor) : List Statement :=
  match d.changesTable? with
  | some table =>
    [.table table [⟨"_id", true, false⟩, ⟨"_created", true, false⟩, ⟨"items", true, false⟩],
      .index false (table ++ "_i_id") table ["_id"]]
  | none => []

/-- A blank line in front of statements, if there are any. -/
def setApart (statements : List String) : List String :=
  match statements with
  | [] => []
  | first :: rest => ("\n" ++ first) :: rest

/-- The SQLite statements of a kind with their texts. -/
def sqliteBatch (d : Descriptor) : List (Statement × String) :=
  let records := d.sqliteRecordStatements
  let changes := d.sqliteChangeStatements
  (records ++ changes).zip (records.map (·.text) ++ setApart (changes.map (·.text)))

/-- The statements creating the tables of a kind, as one text. -/
def createTable (d : Descriptor) (dialect : Dialect) : String :=
  match dialect with
  | .mysql => d.mysqlTable ++
    match d.changesTable? with
    | some table => "\n" ++ d.mysqlChangesTable table
    | none => ""
  | .sqlite => String.join (d.sqliteBatch.map Prod.snd)

end Descriptor
end Phrasebook
