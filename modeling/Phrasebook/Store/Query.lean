import Phrasebook.Store.Change
import Phrasebook.Store.Column
import Phrasebook.Store.Database
import Phrasebook.Store.Error

/-!
# Reading the store

The store is a registry together with a database, and reading it changes
neither. Lists come in the order of the first unique index and then of the key.

## Main definitions

* `Store`, `ListFilter`
* `Store.get`, `Store.findBy`, `Store.findVariant`, `Store.list`
* `Store.contents`, `Store.count`, `Store.changes`
* `Store.resolveTemplate`
-/
namespace Phrasebook

/-- Stored records of the kinds of a registry. -/
structure Store where
  registry : Registry
  database : Database
  deriving DecidableEq, Repr

/-- Which records of a kind to list. -/
structure ListFilter where
  /-- Only variants of this template. -/
  template : Option RecordId := none
  /-- Only variants in this locale. -/
  locale : Option LocaleCode := none
  /-- Also archived records. -/
  archived : Bool := false
  /-- At most this many records. -/
  limit : Option Nat := none
  deriving DecidableEq, Repr

/-! ## Rows as records -/

/-- The key a stored text spells. -/
def parseStoredId (kind : RecordKind) (raw : String) : Except StoreError RecordId :=
  match RecordId.parse raw with
  | .ok id => .ok id
  | .error e => .error (.corrupt kind raw e.message)

namespace Descriptor

/-- The field values a row holds, nulls left out. `id` is the key text seen so
far, by which an unreadable row is named. -/
def readCells (d : Descriptor) (row : Row) (id : String) (acc : Fields) :
    List FieldSpec → Except StoreError (String × Fields)
  | [] => .ok (id, acc)
  | f :: rest =>
    match Row.cell row f.name with
    | none => readCells d row id acc rest
    | some text =>
      let id := if f.name == idField then text else id
      match f.fromColumn text with
      | .ok value => readCells d row id (acc.insert f.name value) rest
      | .error e => .error (.corrupt d.kind id s!"'{f.name}': {e.message}")

/-- The record a row holds. -/
def ofRow (d : Descriptor) (row : Row) : Except StoreError Record := do
  let (id, fields) ← d.readCells row "" [] d.fields
  match Record.ofFields d.kind fields with
  | .ok r => .ok r
  | .error e => .error (.corrupt d.kind id e.message)

/-- The columns that order lists: those of the first unique index, then the
key. -/
def listOrder (d : Descriptor) : List String :=
  (match d.storage.indexes.find? (·.unique) with
    | some index => index.fields
    | none => []) ++ [idField]

end Descriptor

/-- Numbers of rows from here on, `2 ^ 63`, are no numbers to the engine. -/
def rowLimit : Nat := 9223372036854775808

namespace Store

/-- The descriptor of a kind. -/
def descriptor (s : Store) (kind : RecordKind) : Except StoreError Descriptor :=
  match s.registry.descriptor kind with
  | .ok d => .ok d
  | .error e => .error (.registry e)

/-- The table of a kind. -/
def tableOf (s : Store) (d : Descriptor) : Except StoreError Table :=
  match s.database.table d.table with
  | .ok t => .ok t
  | .error e => .error (d.storeError e)

/-- The rows of a kind whose columns hold the given texts, in order. -/
def selectRows (s : Store) (d : Descriptor) (conditions : List (String × String))
    (limit : Option Nat) : Except StoreError (List Row) := do
  match conditions.find? fun (field, _) => (d.field? field).isNone with
  | some (field, _) => .error (.unknownField d.kind field)
  | none =>
    let t ← s.tableOf d
    let rows := Table.sorted d.listOrder (t.select conditions)
    match limit with
    | none => .ok rows
    | some n => if n < rowLimit then .ok (rows.take n) else .error (.engine .mismatch)

/-- The records of a kind whose columns hold the given texts, in order. -/
def select (s : Store) (d : Descriptor) (conditions : List (String × String))
    (limit : Option Nat) : Except StoreError (List Record) := do
  let rows ← s.selectRows d conditions limit
  rows.mapM d.ofRow

/-- The record of a key. -/
def get (s : Store) (kind : RecordKind) (id : RecordId) : Except StoreError Record := do
  let d ← s.descriptor kind
  match ← s.select d [(idField, id.text)] (some 1) with
  | r :: _ => .ok r
  | [] => .error (.noRecord kind id)

/-- The first record whose field holds a text. -/
def findBy (s : Store) (kind : RecordKind) (field value : String) :
    Except StoreError (Option Record) := do
  let d ← s.descriptor kind
  let found ← s.select d [(field, value)] (some 1)
  .ok found.head?

/-- The variant of a template in a locale. -/
def findVariant (s : Store) (kind : RecordKind) (template : RecordId) (locale : LocaleCode) :
    Except StoreError (Option Record) := do
  let d ← s.descriptor kind
  let found ← s.select d [("template", template.text), ("locale", locale.text)] (some 1)
  .ok found.head?

/-- The conditions of a filter that concern a kind. -/
def filterConditions (d : Descriptor) (filter : ListFilter) : List (String × String) :=
  (match filter.template with
    | some id => if (d.field? "template").isSome then [("template", id.text)] else []
    | none => []) ++
  (match filter.locale with
    | some code => if (d.field? "locale").isSome then [("locale", code.text)] else []
    | none => []) ++
  (if d.archivable && !filter.archived then [(archivedField, "false")] else [])

/-- The records of a kind that a filter selects. -/
def list (s : Store) (kind : RecordKind) (filter : ListFilter) :
    Except StoreError (List Record) := do
  let d ← s.descriptor kind
  s.select d (filterConditions d filter) filter.limit

/-- Variants by locale, then by kind. -/
def variantLe (a b : Record) : Bool :=
  ((Table.compareCell (a.getStr? "locale") (b.getStr? "locale")).then
    (compare a.kind.rank b.kind.rank)) != .gt

/-- Every variant of a template, by locale and kind. -/
def contents (s : Store) (template : RecordId) : Except StoreError (List Record) := do
  let _ ← s.get .template template
  let found ← (s.registry.referencing .template).mapM fun (kind, f) => do
    let d ← s.descriptor kind
    s.select d [(f.name, template.text)] none
  .ok (found.flatten.mergeSort variantLe)

/-- The number of stored records of a kind. -/
def count (s : Store) (kind : RecordKind) : Except StoreError Nat := do
  let d ← s.descriptor kind
  let t ← s.tableOf d
  .ok t.rows.length

/-- A column that holds a text in every row. -/
def textOf (row : Row) (column : String) : Except StoreError String :=
  match Row.cell row column with
  | some text => .ok text
  | none => .error (.engine (.nullText column))

/-- The entry a row of a table of changes holds. -/
def entryOfRow (kind : RecordKind) (row : Row) : Except StoreError ChangeEntry := do
  let raw ← textOf row "_id"
  let created ← textOf row "_created"
  let items ← textOf row "items"
  let id ← parseStoredId kind raw
  let created ← match Instant.parse created with
    | .ok t => .ok t
    | .error e => .error (.corrupt kind raw e.message)
  let items ← match ChangeItems.read items with
    | .ok items => .ok items
    | .error e => .error (.corrupt kind raw e.message)
  .ok ⟨id, created, items⟩

/-- The history of a record, oldest entry first. -/
def changes (s : Store) (kind : RecordKind) (id : RecordId) :
    Except StoreError (List ChangeEntry) := do
  let d ← s.descriptor kind
  match d.changesTable? with
  | none => .ok []
  | some name =>
    let t ← match s.database.table name with
      | .ok t => .ok t
      | .error e => .error (d.storeError e)
    (t.select [("_id", id.text)]).mapM (entryOfRow kind)

/-! ## References to templates -/

/-- Why a reference names no template. -/
inductive ResolveError where
  | store (cause : StoreError)
  | notFound (reference : String)
  deriving DecidableEq, Repr

/-- The message of a failed reference. -/
def ResolveError.message : ResolveError → String
  | store cause => cause.message
  | notFound reference => s!"No template found matching '{reference}'"

/-- The template of a name. -/
def resolveName (s : Store) (reference : String) : Except ResolveError RecordId :=
  match s.findBy .template "name" reference with
  | .ok (some r) => .ok r.id
  | .ok none => .error (.notFound reference)
  | .error e => .error (.store e)

/-- The template a reference names: by its key if the reference spells the UUID
of a stored template, by its name otherwise. -/
def resolveTemplate (s : Store) (reference : String) : Except ResolveError RecordId :=
  match RecordId.parse reference with
  | .ok (.uuid u) =>
    match s.get .template (.uuid u) with
    | .ok _ => .ok (.uuid u)
    | .error (.noRecord ..) => s.resolveName reference
    | .error e => .error (.store e)
  | _ => s.resolveName reference

end Store
end Phrasebook
