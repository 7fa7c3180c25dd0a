import Phrasebook.Text.Basic

/-!
# Tables

Tables of text columns as plain values. A table knows which of its columns must
not be null and which sets of columns are unique; inserting and updating fail
rather than break either. The checks of unique sets run from the last declared
to the first, the primary key being declared with the table. Names are kept as
statements write them between quotes.

## Main definitions

* `nameOf?`: the name a quoted name stands for
* `Row`, `Table`, `Table.cell`
* `Table.insert`, `Table.update`, `Table.delete`
* `Table.select`, `Table.sorted`
* `EngineError`: failures of the engine and their texts
-/
namespace Phrasebook

/-! ## Names -/

/-- The name between quotes, where a doubled quote stands for one; `none` where
a single quote ends the name early. -/
def unquote? : List Char → Option (List Char)
  | [] => some []
  | '"' :: '"' :: rest => (unquote? rest).map ('"' :: ·)
  | '"' :: _ => none
  | c :: rest => (unquote? rest).map (c :: ·)

/-- The name a quoted name stands for. -/
def nameOf? (raw : String) : Option String := (unquote? raw.toList).map String.ofList

/-- A name as failures show it. -/
def shownName (raw : String) : String := (nameOf? raw).getD raw

/-! ## Failures -/

/-- Failures of the database engine. -/
inductive EngineError where
  | noSuchTable (table : String)
  | noSuchColumn (column : String)
  | unknownInsertColumn (table column : String)
  | notNull (table column : String)
  | unique (table : String) (columns : List String)
  | uniqueExpression (index : String)
  | mismatch
  | nullText (column : String)
  | nameTaken (name : String)
  | reservedName (name : String)
  | duplicateColumn (column : String)
  | syntaxError (near sql : String) (offset : Nat)
  | notADatabase
  | cannotOpen (path : String)
  deriving DecidableEq, Repr

/-- The text of a failure. -/
def EngineError.message : EngineError → String
  | noSuchTable table => "no such table: " ++ shownName table
  | noSuchColumn column => "no such column: " ++ shownName column
  | unknownInsertColumn table column =>
    s!"table {shownName table} has no column named {shownName column}"
  | notNull table column => s!"NOT NULL constraint failed: {shownName table}.{shownName column}"
  | unique table columns => "UNIQUE constraint failed: " ++
    Text.join ", " (columns.map fun c => shownName table ++ "." ++ shownName c)
  | uniqueExpression index => s!"UNIQUE constraint failed: index '{shownName index}'"
  | mismatch => "datatype mismatch"
  | nullText column => s!"Invalid column type Null at index: 0, name: {shownName column}"
  | nameTaken name => "there is already another table or index with this name: " ++ shownName name
  | reservedName name => "object name reserved for internal use: " ++ shownName name
  | duplicateColumn column => "duplicate column name: " ++ shownName column
  | syntaxError near sql offset => s!"near \"{near}\": syntax error in {sql} at offset {offset}"
  | notADatabase => "file is not a database"
  | cannotOpen path => "unable to open database file: " ++ path

/-! ## Rows and tables -/

/-- A row: the text or null of every column, in column order. -/
abbrev Row := List (String × Option String)

/-- Values for some columns. -/
abbrev Assignment := List (String × Option String)

/-- A column of a table. -/
structure Column where
  name : String
  notNull : Bool
  deriving DecidableEq, Repr

/-- A declared index. -/
structure Index where
  name : String
  columns : List String
  unique : Bool
  deriving DecidableEq, Repr

/-- A table. -/
structure Table where
  name : String
  columns : List Column
  /-- Indexes in the order of their declaration, the primary key first. -/
  indexes : List Index
  /-- Rows in the order of their insertion. -/
  rows : List Row
  deriving DecidableEq, Repr

/-- The value given to a name; the first of several. -/
def Row.value? (row : Row) (name : String) : Option (Option String) :=
  (row.find? fun entry => entry.1 == name).map Prod.snd

/-- The content of a column in a row. The name of an absent column, being
quoted, counts as a text. -/
def Row.cell (row : Row) (column : String) : Option String :=
  (Row.value? row column).getD (some column)

namespace Table

/-- Whether a table has a column. -/
def hasColumn (t : Table) (name : String) : Bool := t.columns.any fun c => c.name == name

/-- The contents of the columns of an index in a row. -/
def keyOf (index : Index) (row : Row) : List (Option String) := index.columns.map (Row.cell row)

/-- Whether a row repeats the key of another one. Keys with a null never do. -/
def clashes (index : Index) (row : Row) (others : List Row) : Bool :=
  index.unique && (keyOf index row).all Option.isSome &&
    others.any fun other => keyOf index other == keyOf index row

/-- The failure of an index. -/
def clashError (t : Table) (index : Index) : EngineError :=
  if index.columns.all t.hasColumn then .unique t.name index.columns
  else .uniqueExpression index.name

/-- The first failure of a row among others: nulls in column order, then the
indexes from the last to the first. -/
def check (t : Table) (others : List Row) (row : Row) : Except EngineError Unit :=
  match t.columns.find? fun c => c.notNull && (Row.cell row c.name).isNone with
  | some c => .error (.notNull t.name c.name)
  | none =>
    match t.indexes.reverse.find? fun index => clashes index row others with
    | some index => .error (t.clashError index)
    | none => .ok ()

/-- The row with the given values, null where none is given. -/
def rowOf (t : Table) (given : Assignment) : Row :=
  t.columns.map fun c => (c.name, (Row.value? given c.name).getD none)

/-- Insert a row. -/
def insert (t : Table) (given : Assignment) : Except EngineError Table :=
  match given.find? fun entry => !t.hasColumn entry.1 with
  | some entry => .error (.unknownInsertColumn t.name entry.1)
  | none => do
    let row := t.rowOf given
    t.check t.rows row
    .ok { t with rows := t.rows ++ [row] }

/-- A row with some values replaced. -/
def assign (given : Assignment) (row : Row) : Row :=
  row.map fun (name, value) => (name, (Row.value? given name).getD value)

/-- Replace values in the rows a condition selects, one after another; `done`
holds the rows already passed. -/
def updateRows (t : Table) (selected : Row → Bool) (given : Assignment) (done : List Row)
    (count : Nat) : List Row → Except EngineError (List Row × Nat)
  | [] => .ok (done, count)
  | row :: rest =>
    if selected row then do
      let changed := assign given row
      t.check (done ++ rest) changed
      updateRows t selected given (done ++ [changed]) (count + 1) rest
    else updateRows t selected given (done ++ [row]) count rest

/-- Whether a column of a row holds a text. -/
def holds (column text : String) (row : Row) : Bool := Row.cell row column == some text

/-- Replace values in the rows whose column holds a text; also the number of
rows changed. -/
def update (t : Table) (column text : String) (given : Assignment) :
    Except EngineError (Table × Nat) :=
  match given.find? fun entry => !t.hasColumn entry.1 with
  | some entry => .error (.noSuchColumn entry.1)
  | none => do
    let (rows, count) ← t.updateRows (holds column text) given [] 0 t.rows
    .ok ({ t with rows }, count)

/-- Delete the rows whose column holds a text; also their number. -/
def delete (t : Table) (column text : String) : Table × Nat :=
  let kept := t.rows.filter fun row => !holds column text row
  ({ t with rows := kept }, t.rows.length - kept.length)

/-- The rows whose columns hold the given texts. -/
def select (t : Table) (conditions : List (String × String)) : List Row :=
  t.rows.filter fun row => conditions.all fun (column, text) => holds column text row

/-- Order of contents: null first, texts by their code points. -/
def compareCell : Option String → Option String → Ordering
  | none, none => .eq
  | none, some _ => .lt
  | some _, none => .gt
  | some a, some b => compare a b

/-- Order of rows by some of their columns. -/
def compareRows (columns : List String) (a b : Row) : Ordering :=
  match columns with
  | [] => .eq
  | c :: rest => (compareCell (Row.cell a c) (Row.cell b c)).then (compareRows rest a b)

/-- Rows ordered by columns; rows that agree in all of them keep their order. -/
def sorted (columns : List String) (rows : List Row) : List Row :=
  rows.mergeSort fun a b => compareRows columns a b != .gt

end Table
end Phrasebook
