import Phrasebook.Schema.Ddl
import Phrasebook.Store.Table

/-!
# Databases

A database is a list of tables. Names of tables and indexes share one namespace
and are compared without regard to case; they are kept as statements write them.
Statements that create what exists are passed over.

## Main definitions

* `Database`, `Database.table`
* `Database.run`: the effect of a statement
* `Database.runBatch`: the effect of statements, all or none
-/
namespace Phrasebook

/-- Tables in the order of their creation. -/
structure Database where
  tables : List Table
  deriving DecidableEq, Repr, Inhabited

/-- Names of tables and indexes are the same in any case. -/
def sameName (a b : String) : Bool := Text.asciiLower a == Text.asciiLower b

namespace Database

/-- No tables. -/
def empty : Database := ⟨[]⟩

/-- The table of a name. -/
def table? (db : Database) (name : String) : Option Table :=
  db.tables.find? fun t => sameName t.name name

/-- The table of a name, or a failure. -/
def table (db : Database) (name : String) : Except EngineError Table :=
  match db.table? name with
  | some t => .ok t
  | none => .error (.noSuchTable name)

/-- Put a table in the place of the one of its name. -/
def put (db : Database) (t : Table) : Database :=
  ⟨db.tables.map fun u => if sameName u.name t.name then t else u⟩

/-- Remove a table. -/
def drop (db : Database) (name : String) : Except EngineError Database := do
  let _ ← db.table name
  .ok ⟨db.tables.filter fun t => !sameName t.name name⟩

/-- Whether an index of a name exists. -/
def hasIndex (db : Database) (name : String) : Bool :=
  db.tables.any fun t => t.indexes.any fun i => sameName i.name name

/-- Insert a row into a table. -/
def insert (db : Database) (name : String) (given : Assignment) :
    Except EngineError Database := do
  let t ← db.table name
  let t ← t.insert given
  .ok (db.put t)

/-- Replace values in a table; also the number of rows changed. -/
def update (db : Database) (name column text : String) (given : Assignment) :
    Except EngineError (Database × Nat) := do
  let t ← db.table name
  let (t, count) ← t.update column text given
  .ok (db.put t, count)

/-- Delete rows from a table; also their number. -/
def delete (db : Database) (name column text : String) :
    Except EngineError (Database × Nat) := do
  let t ← db.table name
  let (t, count) := t.delete column text
  .ok (db.put t, count)

/-- The number of rows of a table whose columns hold the given texts. -/
def count (db : Database) (name : String) (conditions : List (String × String)) :
    Except EngineError Nat := do
  let t ← db.table name
  .ok (t.select conditions).length

/-! ## Creating tables -/

/-- The part of a name up to the quote that ends it early. -/
def beforeQuote : List Char → List Char
  | '"' :: '"' :: rest => '"' :: '"' :: beforeQuote rest
  | '"' :: _ => []
  | c :: rest => c :: beforeQuote rest
  | [] => []

/-- The word or sign a text begins with. -/
def firstToken (cs : List Char) : List Char :=
  let word := cs.takeWhile fun c => Text.isAsciiAlnum c || c = '_' || c = '$' || c.toNat > 127
  if word.isEmpty then cs.take 1 else word

/-- The failure of a statement whose name ends early: what follows the quote is
out of place. `sql` is the text from the statement on, `lead` what stands
before the opening quote. -/
def brokenName (sql lead raw : String) : EngineError :=
  let before := lead.toList ++ '"' :: (beforeQuote raw.toList ++ ['"'])
  let token := firstToken (sql.toList.drop before.length)
  .syntaxError (String.ofList token) sql (Text.utf8Length before)

/-- A column that repeats the name of an earlier one. -/
def repeatedColumn? : List String → Option String
  | [] => none
  | c :: rest =>
    match rest.find? (sameName c) with
    | some d => some d
    | none => repeatedColumn? rest

/-- Names reserved for the engine. -/
def reserved (name : String) : Bool := Text.startsWith (Text.asciiLower name) "sqlite_"

/-- The index of a primary key. -/
def primaryIndex (table column : String) : Index :=
  ⟨"sqlite_autoindex_" ++ table ++ "_1", [column], true⟩

/-- A table without rows. -/
def freshTable (name : String) (columns : List ColumnSpec) : Table where
  name := name
  columns := columns.map fun c => ⟨c.name, c.notNull⟩
  indexes := (columns.filter (·.primary)).map fun c => primaryIndex name c.name
  rows := []

/-- Create a table unless it exists. -/
def createTable (db : Database) (name : String) (columns : List ColumnSpec) :
    Except EngineError Database :=
  if reserved name then .error (.reservedName name)
  else if (db.table? name).isSome then .ok db
  else if db.hasIndex name then .error (.nameTaken name)
  else match repeatedColumn? (columns.map (·.name)) with
    | some column => .error (.duplicateColumn column)
    | none =>
      .ok ⟨db.tables ++ [freshTable name columns]⟩

/-- Whether some row repeats the key of an earlier one. -/
def hasClash (index : Index) : List Row → Bool
  | [] => false
  | row :: rest => Table.clashes index row rest || hasClash index rest

/-- Create an index unless it exists. -/
def createIndex (db : Database) (index : Index) (name : String) :
    Except EngineError Database := do
  let t ← db.table name
  if reserved index.name then .error (.reservedName index.name)
  else if (db.table? index.name).isSome then .error (.nameTaken index.name)
  else if db.hasIndex index.name then .ok db
  else if hasClash index t.rows then .error (t.clashError index)
  else .ok (db.put { t with indexes := t.indexes ++ [index] })

/-- A name in a statement, or the failure of a broken one. -/
def readName (sql lead raw : String) : Except EngineError String :=
  match nameOf? raw with
  | some _ => .ok raw
  | none => .error (brokenName sql lead raw)

/-- The effect of a statement; `sql` is the text from the statement on. -/
def run (db : Database) (sql : String) : Statement → Except EngineError Database
  | .table raw columns => do
    let lead := String.ofList (sql.toList.takeWhile (· = '\n')) ++ "CREATE TABLE IF NOT EXISTS "
    let name ← readName sql lead raw
    let columns ← columns.mapM fun c => do
      let name ← readName sql lead c.name
      .ok { c with name }
    db.createTable name columns
  | .index unique raw table columns => do
    let lead := String.ofList (sql.toList.takeWhile (· = '\n')) ++
      (if unique then "CREATE UNIQUE INDEX" else "CREATE INDEX") ++ " IF NOT EXISTS "
    let name ← readName sql lead raw
    let table ← readName sql lead table
    if columns.isEmpty then
      let head := (sql.toList.takeWhile (· ≠ ';')).dropLast
      .error (.syntaxError ")" sql (Text.utf8Length head))
    else
      let columns ← columns.mapM (readName sql lead)
      db.createIndex { name, columns, unique } table

/-- The effect of statements one after another, each given with its text. Every
statement but the first is read from the line end of the one before it. -/
def runBatch (db : Database) (lead : String) :
    List (Statement × String) → Except EngineError Database
  | [] => .ok db
  | (statement, text) :: rest => do
    let db ← db.run (lead ++ text ++ String.join (rest.map Prod.snd)) statement
    runBatch db "\n" rest

end Database
end Phrasebook
