import Phrasebook.Proofs.Runs

/-!
# What a database consists of

The tables of a database are those of the shipped kinds, and their rows are all that
operations change. A database of a run is therefore known when the rows and the journal of
every kind are: an operation that is shown to change some of them changes nothing else.

## Main definitions

* `Database.ofRows`: the database of given rows and journals
* `Database.Composed`: a database has no content but the rows and the journals of its kinds
-/
namespace Phrasebook

/-- The tables of a kind with the given rows; the journal counts if changes are recorded. -/
def Descriptor.tablesOf (kind : RecordKind) (records journal : List Row) : List Table :=
  (shipped kind).recordTable records ::
    if kind.Recorded then [journalTable (journalName kind) journal] else []

namespace Database

/-- The database of the given rows and journals. -/
def ofRows (records journal : RecordKind → List Row) : Database :=
  ⟨RecordKind.all.flatMap fun kind => Descriptor.tablesOf kind (records kind) (journal kind)⟩

/-- A database has no content but the rows and the journals of its kinds. -/
def Composed (db : Database) : Prop := db = ofRows db.records db.journal

variable {db : Database} {kind : RecordKind} {records journal : RecordKind → List Row}

/-- Putting a table acts on the tables of each kind. -/
theorem put_ofRows {t : Table} {records' journal' : RecordKind → List Row}
    (h : ∀ kind, (Descriptor.tablesOf kind (records kind) (journal kind)).map
      (fun u => if sameName u.name t.name then t else u) =
        Descriptor.tablesOf kind (records' kind) (journal' kind)) :
    (ofRows records journal).put t = ofRows records' journal' := by
  simp only [put, ofRows, List.map_flatMap, h]

theorem putRecords_ofRows (kind : RecordKind) (rows : List Row) :
    (ofRows records journal).putRecords kind rows =
      ofRows (Function.update records kind rows) journal := by
  refine put_ofRows fun other => ?_
  by_cases heq : other = kind
  · subst heq
    by_cases hrec : other.Recorded <;>
      simp [Descriptor.tablesOf, hrec, sameName_comm (journalName other), sameName_table_journal]
  · by_cases hrec : other.Recorded <;>
      simp [Descriptor.tablesOf, hrec, heq, sameName_table, sameName_comm (journalName other),
        sameName_table_journal]

theorem putJournal_ofRows (hrec : kind.Recorded) (rows : List Row) :
    (ofRows records journal).putJournal kind rows =
      ofRows records (Function.update journal kind rows) := by
  refine put_ofRows fun other => ?_
  by_cases heq : other = kind
  · subst heq
    simp [Descriptor.tablesOf, hrec, sameName_table_journal]
  · by_cases hother : other.Recorded <;>
      simp [Descriptor.tablesOf, hother, heq, sameName_journal, sameName_table_journal]

/-- The journals of kinds whose changes are not recorded are left out. -/
theorem ofRows_congr {records' journal' : RecordKind → List Row}
    (hrecords : ∀ kind, records kind = records' kind)
    (hjournal : ∀ kind : RecordKind, kind.Recorded → journal kind = journal' kind) :
    ofRows records journal = ofRows records' journal' := by
  have htables : ∀ kind, Descriptor.tablesOf kind (records kind) (journal kind) =
      Descriptor.tablesOf kind (records' kind) (journal' kind) := by
    intro kind
    by_cases hrec : kind.Recorded
    · rw [hrecords, hjournal kind hrec]
    · simp [Descriptor.tablesOf, hrec, hrecords]
  simp only [ofRows, htables]

theorem composed_initial : initial.Composed :=
  ofRows_congr (fun kind => (records_initial kind).symm) fun _ hrec => (journal_initial hrec).symm

namespace Composed

theorem putRecords (h : db.Composed) (hinstalled : db.Installed) (kind : RecordKind)
    (rows : List Row) : (db.putRecords kind rows).Composed := by
  rw [Composed, hinstalled.records_putRecords, journal_putRecords, ← putRecords_ofRows, ← h]

theorem putJournal (h : db.Composed) (hinstalled : db.Installed) (hrec : kind.Recorded)
    (rows : List Row) : (db.putJournal kind rows).Composed := by
  rw [Composed, records_putJournal, hinstalled.journal_putJournal kind rows hrec,
    ← putJournal_ofRows hrec, ← h]

theorem note (h : db.Composed) (hinstalled : db.Installed) (e : ChangeEntry) :
    (db.note kind e).Composed := by
  unfold Database.note
  split
  · next hrec => exact h.putJournal hinstalled hrec _
  · exact h

/-- What a database of known rows and journals is. -/
theorem eq_ofRows (h : db.Composed) (hrecords : ∀ kind, db.records kind = records kind)
    (hjournal : ∀ kind : RecordKind, kind.Recorded → db.journal kind = journal kind) :
    db = ofRows records journal :=
  h.trans (ofRows_congr hrecords hjournal)

end Composed
end Database

namespace Store

variable {s s' : Store} {contents contents' : Contents} {op : Operation}

theorem composed_added (h : s.database.Composed) (hinstalled : s.database.Installed) (r : Record)
    (actor : String) (now : Instant) : (s.added r actor now).database.Composed :=
  (h.putRecords hinstalled _ _).note (hinstalled.putRecords _ _) _

theorem composed_delete (h : s.database.Composed) (hinstalled : s.database.Installed)
    (hreg : s.registry = .builtin) {kind : RecordKind} {id : RecordId} {actor : String}
    {now : Instant} {n : Nat} (hrun : s.delete kind id actor now = .ok (s', n)) :
    s'.database.Composed :=
  (delete_keeps (fun hinstalled h _ _ e => (h.putRecords hinstalled _ _).note
    (installed_withoutRow hinstalled) e) hreg hinstalled h hrun).2

/-- No operation leaves anything but rows and journals. -/
theorem Step.composed (hstep : Step s contents op s' contents') (hholds : s.Holds contents)
    (h : s.database.Composed) : s'.database.Composed := by
  have hinstalled := hholds.database.installed
  cases hstep with
  | failed fails => exact h
  | created references check succeeds => exact composed_added h hinstalled _ _ _
  | updated mem id_eq reads unarchived unchanged succeeds =>
    exact (h.putRecords hinstalled _ _).note (hinstalled.putRecords _ _) _
  | deleted mem succeeds drops => exact composed_delete h hinstalled hholds.registry_eq succeeds

/-- After every run there are records in a database of rows and journals. -/
theorem holds_run (ops : List Operation) :
    ∃ contents, (initial.run ops).Holds contents ∧ (initial.run ops).database.Composed :=
  run_induction (P := fun s _ => s.database.Composed) (Q := fun _ => True)
    Database.composed_initial (fun _ hholds h hstep => hstep.composed hholds h) ops
    fun _ _ => trivial

end Store
end Phrasebook
