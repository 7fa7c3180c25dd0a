import Mathlib.Logic.Function.Basic
import Phrasebook.Proofs.Tables
import Phrasebook.Schema.Builtin
import Phrasebook.Store.Mutation

/-!
# Installed stores

A store over the shipped definitions whose tables have been created holds, for
each kind, a table of records and, where changes are recorded, a journal. Both are
seen as functions of the kind; writing one of them changes the function at one
kind and leaves the other function alone.

## Main definitions

* `Descriptor.shipped`: the shipped definition of a kind
* `Database.records`, `Database.journal`: the rows of a kind
* `Database.Installed`: every table is there, with its columns and indexes
-/
namespace Phrasebook

/-! ## The shipped definitions by kind -/

/-- The shipped definition of a kind. -/
def Descriptor.shipped : RecordKind → Descriptor
  | .locale => .locale
  | .template => .template
  | .email => .email
  | .sms => .sms

@[simp] theorem Descriptor.kind_shipped (kind : RecordKind) : (shipped kind).kind = kind := by
  cases kind <;> rfl

@[simp] theorem Registry.get?_builtin (kind : RecordKind) :
    Registry.builtin.get? kind = some (.shipped kind) := by
  cases kind <;> rfl

@[simp] theorem Registry.descriptor_builtin (kind : RecordKind) :
    Registry.builtin.descriptor kind = .ok (.shipped kind) := by
  cases kind <;> rfl

/-- The name of the journal of a kind, whether or not it keeps one. -/
def journalName (kind : RecordKind) : String := (Descriptor.shipped kind).table ++ "_changes"

/-- A kind whose changes are recorded. -/
def RecordKind.Recorded (kind : RecordKind) : Prop :=
  (Descriptor.shipped kind).storage.revisions ≠ []

instance (kind : RecordKind) : Decidable kind.Recorded := inferInstanceAs (Decidable (_ ≠ _))

theorem Descriptor.changesTable?_shipped (kind : RecordKind) :
    (shipped kind).changesTable? = if kind.Recorded then some (journalName kind) else none := by
  cases kind <;> rfl

/-! ## Names of tables -/

theorem sameName_iff {a b : String} :
    sameName a b = true ↔ Text.asciiLower a = Text.asciiLower b := by
  simp [sameName]

@[simp] theorem sameName_self (a : String) : sameName a a = true := by simp [sameName]

theorem sameName_comm (a b : String) : sameName a b = sameName b a := by
  simp only [sameName, Bool.beq_comm]

/-- Names that are the same are the same as any other name. -/
theorem sameName_congr {a b : String} (h : sameName a b = true) (c : String) :
    sameName c a = sameName c b := by
  simp only [sameName, sameName_iff.mp h]

/-- The names of the shipped tables are in lower case. -/
theorem asciiLower_table (kind : RecordKind) :
    Text.asciiLower (Descriptor.shipped kind).table = (Descriptor.shipped kind).table := by
  cases kind <;> decide

theorem asciiLower_journalName (kind : RecordKind) :
    Text.asciiLower (journalName kind) = journalName kind := by
  cases kind <;> decide

/-- Tables of two kinds have different names. -/
theorem sameName_table (kind other : RecordKind) :
    sameName (Descriptor.shipped kind).table (Descriptor.shipped other).table =
      decide (kind = other) := by
  simp only [sameName, asciiLower_table]
  cases kind <;> cases other <;> decide

theorem sameName_journal (kind other : RecordKind) :
    sameName (journalName kind) (journalName other) = decide (kind = other) := by
  simp only [sameName, asciiLower_journalName]
  cases kind <;> cases other <;> decide

/-- No table of records is named like a journal. -/
theorem sameName_table_journal (kind other : RecordKind) :
    sameName (Descriptor.shipped kind).table (journalName other) = false := by
  simp only [sameName, asciiLower_table, asciiLower_journalName]
  cases kind <;> cases other <;> decide

/-! ## Finding a table and putting it in its place -/

namespace Database

variable {db : Database} {t : Table} {name other : String}

theorem sameName_of_table? (h : db.table? name = some t) : sameName t.name name = true := by
  simpa using List.find?_some h

theorem table_eq_ok_iff : db.table name = .ok t ↔ db.table? name = some t := by
  unfold table
  cases db.table? name <;> simp

theorem table?_congr (h : sameName name other = true) : db.table? name = db.table? other := by
  simp only [table?, sameName_congr h]

/-- Putting a table replaces the one of its name and no other. -/
theorem table?_put (db : Database) (t : Table) (name : String) :
    (db.put t).table? name =
      if sameName t.name name = true then (db.table? name).map fun _ => t else db.table? name := by
  simp only [table?, put, List.find?_map, sameName_iff]
  induction db.tables with
  | nil => simp
  | cons u rest ih =>
    by_cases hu : Text.asciiLower u.name = Text.asciiLower t.name
    · by_cases hn : Text.asciiLower t.name = Text.asciiLower name <;>
        simp_all [sameName]
    · by_cases hn : Text.asciiLower t.name = Text.asciiLower name <;>
        by_cases hun : Text.asciiLower u.name = Text.asciiLower name <;>
        simp_all [sameName]

end Database

/-! ## Tables of a kind -/

/-- The table of records of a descriptor with the given rows. -/
def Descriptor.recordTable (d : Descriptor) (rows : List Row) : Table where
  name := d.table
  columns := d.fields.map fun f => ⟨f.name, f.notNull⟩
  indexes := Database.primaryIndex d.table "_id" :: d.storage.indexes.map fun index =>
    ⟨d.indexName index .sqlite, index.fields, index.unique⟩
  rows := rows

@[simp] theorem Descriptor.recordTable_name (d : Descriptor) (rows : List Row) :
    (d.recordTable rows).name = d.table := rfl

/-- A journal of a name with the given rows. -/
def journalTable (name : String) (rows : List Row) : Table where
  name := name
  columns := [⟨"_id", true⟩, ⟨"_created", true⟩, ⟨"items", true⟩]
  indexes := [⟨name ++ "_i_id", ["_id"], false⟩]
  rows := rows

@[simp] theorem journalTable_name (name : String) (rows : List Row) :
    (journalTable name rows).name = name := rfl

namespace Database

/-- The stored rows of a kind, in the order of their insertion. -/
def records (db : Database) (kind : RecordKind) : List Row :=
  ((db.table? (Descriptor.shipped kind).table).map Table.rows).getD []

/-- The recorded changes of a kind, oldest first. -/
def journal (db : Database) (kind : RecordKind) : List Row :=
  ((db.table? (journalName kind)).map Table.rows).getD []

/-- Every kind has its table of records, and every recorded kind its journal. -/
structure Installed (db : Database) : Prop where
  records_table : ∀ kind, db.table? (Descriptor.shipped kind).table =
    some ((Descriptor.shipped kind).recordTable (db.records kind))
  journal_table : ∀ kind, kind.Recorded → db.table? (journalName kind) =
    some (journalTable (journalName kind) (db.journal kind))

/-- Replace the records of a kind. -/
def putRecords (db : Database) (kind : RecordKind) (rows : List Row) : Database :=
  db.put ((Descriptor.shipped kind).recordTable rows)

/-- Replace the journal of a kind. -/
def putJournal (db : Database) (kind : RecordKind) (rows : List Row) : Database :=
  db.put (journalTable (journalName kind) rows)

section Put

variable {db : Database} (h : db.Installed) (kind : RecordKind) (rows : List Row)
include h

theorem Installed.records_putRecords :
    (db.putRecords kind rows).records = Function.update db.records kind rows := by
  funext other
  simp only [records, putRecords, table?_put, Descriptor.recordTable_name, sameName_table,
    decide_eq_true_eq]
  by_cases heq : kind = other
  · subst heq
    simp [h.records_table, Descriptor.recordTable]
  · simp [heq, Ne.symm heq, Function.update_of_ne, records]

omit h in
@[simp] theorem journal_putRecords : (db.putRecords kind rows).journal = db.journal := by
  funext other
  simp [journal, putRecords, table?_put, sameName_table_journal]

theorem Installed.putRecords : (db.putRecords kind rows).Installed where
  records_table other := by
    rw [h.records_putRecords]
    simp only [Database.putRecords, table?_put, Descriptor.recordTable_name, sameName_table,
      decide_eq_true_eq]
    by_cases heq : kind = other
    · subst heq
      simp [h.records_table]
    · simp [heq, Ne.symm heq, Function.update_of_ne, h.records_table]
  journal_table other hrec := by
    rw [journal_putRecords]
    simp [Database.putRecords, table?_put, sameName_table_journal, h.journal_table other hrec]

omit h in
@[simp] theorem records_putJournal : (db.putJournal kind rows).records = db.records := by
  funext other
  simp [records, putJournal, table?_put, sameName_comm (journalName kind),
    sameName_table_journal]

theorem Installed.journal_putJournal (hrec : kind.Recorded) :
    (db.putJournal kind rows).journal = Function.update db.journal kind rows := by
  funext other
  simp only [journal, putJournal, table?_put, journalTable_name, sameName_journal,
    decide_eq_true_eq]
  by_cases heq : kind = other
  · subst heq
    simp [h.journal_table kind hrec, journalTable]
  · simp [heq, Ne.symm heq, Function.update_of_ne, journal]

theorem Installed.putJournal (hrec : kind.Recorded) : (db.putJournal kind rows).Installed where
  records_table other := by
    rw [records_putJournal]
    simp [Database.putJournal, table?_put, sameName_comm (journalName kind),
      sameName_table_journal, h.records_table]
  journal_table other hother := by
    rw [h.journal_putJournal kind rows hrec]
    simp only [Database.putJournal, table?_put, journalTable_name, sameName_journal,
      decide_eq_true_eq]
    by_cases heq : kind = other
    · subst heq
      simp [h.journal_table kind hrec]
    · simp [heq, Ne.symm heq, Function.update_of_ne, h.journal_table other hother]

end Put
end Database
end Phrasebook
