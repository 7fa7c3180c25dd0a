import Phrasebook.Store.Mutation

/-!
# Connections and transactions

How creating, updating and deleting talk to the database, statement by statement. A
transaction works on a copy of the tables, which nobody else sees until it is committed and
which is dropped when the transaction ends without that. Any statement may also fail for a
reason of its own.

## Main definitions

* `Connection`, `Session`: programs that talk to a connection
* `Session.query`, `Session.execute`, `Session.commit`: single statements
* `Session.transaction`: statements that take effect together or not at all
* `Session.create`, `Session.update`, `Session.delete`
-/
namespace Phrasebook

/-- A connection to a database. -/
structure Connection where
  /-- The tables that everyone sees. -/
  published : Database
  /-- The copy that a transaction works on. -/
  pending : Option Database := none
  /-- What the next statements fail with, `none` where they do not fail by themselves; later
  ones do not. -/
  faults : List (Option StoreError) := []

namespace Connection

/-- The tables that statements see. -/
def tables (c : Connection) : Database := c.pending.getD c.published

/-- Statements outside of a transaction are published at once. -/
def write (c : Connection) (db : Database) : Connection :=
  match c.pending with
  | some _ => { c with pending := some db }
  | none => { c with published := db }

end Connection

/-- A program that talks to a connection. -/
structure Session (α : Type) where
  run : Connection → Except StoreError α × Connection

namespace Session

variable {α β : Type}

/-- Answer without a statement. -/
def answer (outcome : Except StoreError α) : Session α := ⟨fun c => (outcome, c)⟩

/-- Go on with the answer, unless there is none. -/
def andThen (x : Session α) (f : α → Session β) : Session β := ⟨fun c =>
  match x.run c with
  | (.ok a, c) => (f a).run c
  | (.error e, c) => (.error e, c)⟩

instance : Monad Session where
  pure a := answer (.ok a)
  bind := andThen

/-- Stop with an error. -/
def fail (e : StoreError) : Session α := answer (.error e)

/-! ## Statements -/

/-- The next statement fails if it is to fail by itself. -/
def fault : Session Unit := ⟨fun c =>
  match c.faults with
  | [] => (.ok (), c)
  | none :: rest => (.ok (), { c with faults := rest })
  | some e :: rest => (.error e, { c with faults := rest })⟩

/-- A statement that reads. -/
def query (read : Database → Except StoreError α) : Session α := do
  fault
  ⟨fun c => (read c.tables, c)⟩

/-- A statement that writes. -/
def execute (write : Database → Except StoreError (Database × α)) : Session α := do
  fault
  ⟨fun c =>
    match write c.tables with
    | .ok (db, a) => (.ok a, c.write db)
    | .error e => (.error e, c)⟩

/-- Begin a transaction on a copy of the tables. -/
def begin : Session Unit := do
  fault
  ⟨fun c => (.ok (), { c with pending := some c.published })⟩

/-- Publish the copy. -/
def commit : Session Unit := do
  fault
  ⟨fun c => (.ok (), { c with published := c.tables, pending := none })⟩

/-- Drop the copy, if it has not been published. -/
def rollback (c : Connection) : Connection := { c with pending := none }

/-- Run statements in a transaction, which ends with them, however they end. -/
def transaction (body : Session α) : Session α := ⟨fun c =>
  match begin.run c with
  | (.error e, c) => (.error e, c)
  | (.ok (), c) =>
    let (outcome, c) := body.run c
    (outcome, rollback c)⟩

/-! ## Parts of a transaction -/

/-- The descriptor of a kind. -/
def descriptor (registry : Registry) (kind : RecordKind) : Session Descriptor :=
  answer ((Store.mk registry .empty).descriptor kind)

/-- The outcome of a statement on the table of a kind. -/
def outcome (d : Descriptor) : Except EngineError α → Except StoreError α
  | .ok a => .ok a
  | .error e => .error (d.storeError e)

/-- Record a change, if changes of the kind are recorded. -/
def writeChange (d : Descriptor) (id : RecordId) (items : ChangeItems) (now : Instant) :
    Session Unit :=
  match d.changesTable? with
  | none => pure ()
  | some _ => execute fun db => (Store.writeChange db d id items now).map (·, ())

/-! ## Create -/

/-- Check that the record a field refers to is stored. -/
def checkReference (registry : Registry) (r : Record) (f : FieldSpec) (target : RecordKind) :
    Session Unit :=
  match r.getStr? f.name with
  | none => pure ()
  | some raw => do
    let parent ← answer (parseStoredId r.kind raw)
    let d ← descriptor registry target
    let n ← query fun db => outcome d (db.count d.table [(idField, parent.text)])
    if 0 < n then pure () else fail (.noRecord target parent)

/-- Check that every record a record refers to is stored, in field order. -/
def checkReferences (registry : Registry) (r : Record) :
    List (FieldSpec × RecordKind) → Session Unit
  | [] => pure ()
  | (f, target) :: rest => do
    checkReference registry r f target
    checkReferences registry r rest

/-- Store a new record. -/
def create (registry : Registry) (r : Record) (actor : String) (now : Instant) : Session Unit := do
  let d ← descriptor registry r.kind
  transaction do
    checkReferences registry r d.referenceFields
    execute fun db =>
      (outcome d (db.insert d.table (Store.columnsOf r d.fields))).map (·, ())
    writeChange d r.id ⟨actor, .create, r.toFields⟩ now
    commit

/-! ## Update -/

/-- Write the new version of a record over the stored one, in a transaction of its own. -/
def replace (d : Descriptor) (existing r : Record) (actor : String) (now : Instant) :
    Session Unit :=
  transaction do
    let count ← execute fun db => outcome d
      (db.update d.table idField r.id.text (Store.columnsOf r (Store.updatedColumns d)))
    if count == 0 then fail (.noRecord r.kind r.id)
    else do
      writeChange d r.id ⟨actor, .update, diffFields existing r⟩ now
      commit

/-- Replace a stored record by a new version of itself. The stored record is read before the
transaction begins. -/
def update (registry : Registry) (r : Record) (actor : String) (now : Instant) : Session Unit := do
  let existing ← query fun db => (Store.mk registry db).get r.kind r.id
  let d ← descriptor registry r.kind
  if existing.isArchived then fail (.archived r.kind r.id)
  else match Store.changedImmutable? d existing r with
    | some f => fail (.immutableField r.kind r.id f.name)
    | none => replace d existing r actor now

/-! ## Delete -/

/-- Delete records by their keys, one after another; also their number. -/
def deleteChildren (child : Descriptor) (actor : String) (now : Instant) :
    List String → Session Nat
  | [] => pure 0
  | raw :: rest => do
    let id ← answer (parseStoredId child.kind raw)
    let _ ← execute fun db => Store.deleteRow db child id
    writeChange child id ⟨actor, .delete, []⟩ now
    let n ← deleteChildren child actor now rest
    pure (n + 1)

/-- Follow one field that refers to a kind. -/
def releaseField (registry : Registry) (kind : RecordKind) (id : RecordId) (actor : String)
    (now : Instant) (childKind : RecordKind) (f : FieldSpec) : Session Nat := do
  let child ← descriptor registry childKind
  match f.onDelete with
  | .restrict => do
    let n ← query fun db => outcome child (db.count child.table [(f.name, id.text)])
    if 0 < n then fail (.inUse kind id childKind n) else pure 0
  | .cascade => do
    let keys ← query fun db => Store.referringIds db child f id
    deleteChildren child actor now keys

/-- Follow the fields that refer to a kind, one after another. -/
def releaseFields (registry : Registry) (kind : RecordKind) (id : RecordId) (actor : String)
    (now : Instant) : List (RecordKind × FieldSpec) → Session Nat
  | [] => pure 0
  | (childKind, f) :: rest => do
    let n ← releaseField registry kind id actor now childKind f
    let m ← releaseFields registry kind id actor now rest
    pure (n + m)

/-- Delete a record, and the records that refer to it by cascading fields; also the number of
records deleted. -/
def delete (registry : Registry) (kind : RecordKind) (id : RecordId) (actor : String)
    (now : Instant) : Session Nat := do
  let d ← descriptor registry kind
  transaction do
    let removed ← releaseFields registry kind id actor now (registry.referencing kind)
    let own ← execute fun db => Store.deleteRow db d id
    if own == 0 then fail (.noRecord kind id)
    else do
      writeChange d id ⟨actor, .delete, []⟩ now
      commit
      pure (removed + 1)

end Session
end Phrasebook
