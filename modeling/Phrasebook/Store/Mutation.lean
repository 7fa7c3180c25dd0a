import Phrasebook.Store.Query

/-!
# Changing the store

Creating, updating and deleting records. Every operation is a transaction: it
returns the changed store or an error, so a failure leaves nothing behind. Each
change of a kind with revisions is recorded, attributed to an actor.

## Main definitions

* `Store.install`, `Store.isInstalled`
* `Store.create`, `Store.update`, `Store.delete`
-/
namespace Phrasebook.Store

/-! ## Installing -/

/-- Create the tables of every kind, as far as they do not exist. -/
def install (s : Store) : Except StoreError Store :=
  match s.registry.descriptors.foldlM (fun db (d : Descriptor) => db.runBatch "" d.sqliteBatch)
      s.database with
  | .ok database => .ok { s with database }
  | .error e => .error (.engine e)

/-- Whether the table of a kind exists. -/
def isInstalled (s : Store) (kind : RecordKind) : Except StoreError Bool := do
  let d ← s.descriptor kind
  .ok (s.database.tables.any fun t => nameOf? t.name == some d.table)

/-! ## Parts of a transaction -/

/-- Record a change, if changes of the kind are recorded. -/
def writeChange (db : Database) (d : Descriptor) (id : RecordId) (items : ChangeItems)
    (now : Instant) : Except StoreError Database :=
  match d.changesTable? with
  | none => .ok db
  | some table =>
    match db.insert table
        [("_id", some id.text), ("_created", some now.text), ("items", some items.text)] with
    | .ok db => .ok db
    | .error e => .error (d.storeError e)

/-- The column texts of a record. -/
def columnsOf (r : Record) (fields : List FieldSpec) : Assignment :=
  fields.map fun f => (f.name, f.toColumn (r.get? f.name))

/-- Check that the record a field refers to is stored. -/
def checkReference (s : Store) (r : Record) (f : FieldSpec) (target : RecordKind) :
    Except StoreError Unit :=
  match r.getStr? f.name with
  | none => .ok ()
  | some raw => do
    let parent ← parseStoredId r.kind raw
    let d ← s.descriptor target
    match s.database.count d.table [(idField, parent.text)] with
    | .ok n => if 0 < n then .ok () else .error (.noRecord target parent)
    | .error e => .error (d.storeError e)

/-- Check that every record a record refers to is stored, in field order. -/
def checkReferences (s : Store) (r : Record) :
    List (FieldSpec × RecordKind) → Except StoreError Unit
  | [] => .ok ()
  | (f, target) :: rest => do
    s.checkReference r f target
    checkReferences s r rest

/-! ## Create -/

/-- Store a new record. -/
def create (s : Store) (r : Record) (actor : String) (now : Instant) :
    Except StoreError Store := do
  let d ← s.descriptor r.kind
  s.checkReferences r d.referenceFields
  let db ← match s.database.insert d.table (columnsOf r d.fields) with
    | .ok db => .ok db
    | .error e => .error (d.storeError e)
  let db ← writeChange db d r.id ⟨actor, .create, r.toFields⟩ now
  .ok { s with database := db }

/-! ## Update -/

/-- Whether two versions of a record agree in a field. -/
def sameField (a b : Record) (name : String) : Bool :=
  match a.get? name, b.get? name with
  | none, none => true
  | some x, some y => x.same y
  | _, _ => false

/-- The first immutable field that a new version changes; the update time is
assigned on every update. -/
def changedImmutable? (d : Descriptor) (existing r : Record) : Option FieldSpec :=
  (d.immutableFields.filter fun f => f.name != updatedField).find? fun f =>
    !sameField existing r f.name

/-- The fields an update writes. -/
def updatedColumns (d : Descriptor) : List FieldSpec :=
  d.fields.filter fun f => f.name != idField && f.name != createdField

/-- Replace a stored record by a new version of itself. -/
def update (s : Store) (r : Record) (actor : String) (now : Instant) :
    Except StoreError Store := do
  let existing ← s.get r.kind r.id
  let d ← s.descriptor r.kind
  if existing.isArchived then .error (.archived r.kind r.id)
  else match changedImmutable? d existing r with
    | some f => .error (.immutableField r.kind r.id f.name)
    | none =>
      match s.database.update d.table idField r.id.text (columnsOf r (updatedColumns d)) with
      | .error e => .error (d.storeError e)
      | .ok (db, count) =>
        if count == 0 then .error (.noRecord r.kind r.id)
        else do
          let db ← writeChange db d r.id ⟨actor, .update, diffFields existing r⟩ now
          .ok { s with database := db }

/-! ## Delete -/

/-- Delete the row of a key; also the number of rows deleted. -/
def deleteRow (db : Database) (d : Descriptor) (id : RecordId) :
    Except StoreError (Database × Nat) :=
  match db.delete d.table idField id.text with
  | .ok result => .ok result
  | .error e => .error (d.storeError e)

/-- The keys of the rows that refer to a record through a field, in the order of the table. That
order, and so the order in which the rows are deleted, is a choice: the query leaves it open, and
SQLite would walk the unique index that begins with the field. -/
def referringIds (db : Database) (child : Descriptor) (f : FieldSpec) (id : RecordId) :
    Except StoreError (List String) :=
  match db.table child.table with
  | .ok t => (t.select [(f.name, id.text)]).mapM fun row => textOf row idField
  | .error e => .error (child.storeError e)

/-- Delete records by their keys, one after another; also their number. -/
def deleteChildren (child : Descriptor) (actor : String) (now : Instant) (db : Database) :
    List String → Except StoreError (Database × Nat)
  | [] => .ok (db, 0)
  | raw :: rest => do
    let id ← parseStoredId child.kind raw
    let (db, _) ← deleteRow db child id
    let db ← writeChange db child id ⟨actor, .delete, []⟩ now
    let (db, n) ← deleteChildren child actor now db rest
    .ok (db, n + 1)

/-- Follow one field that refers to a kind: a restricting one refuses while
references remain, a cascading one deletes the referring records. -/
def releaseField (s : Store) (kind : RecordKind) (id : RecordId) (actor : String)
    (now : Instant) (db : Database) (childKind : RecordKind) (f : FieldSpec) :
    Except StoreError (Database × Nat) := do
  let child ← s.descriptor childKind
  match f.onDelete with
  | .restrict =>
    match db.count child.table [(f.name, id.text)] with
    | .error e => .error (child.storeError e)
    | .ok n => if 0 < n then .error (.inUse kind id childKind n) else .ok (db, 0)
  | .cascade =>
    let ids ← referringIds db child f id
    deleteChildren child actor now db ids

/-- Follow the fields that refer to a kind, one after another. -/
def releaseFields (s : Store) (kind : RecordKind) (id : RecordId) (actor : String)
    (now : Instant) (db : Database) :
    List (RecordKind × FieldSpec) → Except StoreError (Database × Nat)
  | [] => .ok (db, 0)
  | (childKind, f) :: rest => do
    let (db, n) ← s.releaseField kind id actor now db childKind f
    let (db, m) ← releaseFields s kind id actor now db rest
    .ok (db, n + m)

/-- Delete a record, and the records that refer to it by cascading fields; also
the number of records deleted. -/
def delete (s : Store) (kind : RecordKind) (id : RecordId) (actor : String) (now : Instant) :
    Except StoreError (Store × Nat) := do
  let d ← s.descriptor kind
  let (db, removed) ← s.releaseFields kind id actor now s.database (s.registry.referencing kind)
  let (db, own) ← deleteRow db d id
  if own == 0 then .error (.noRecord kind id)
  else do
    let db ← writeChange db d id ⟨actor, .delete, []⟩ now
    .ok ({ s with database := db }, removed + 1)

end Phrasebook.Store
