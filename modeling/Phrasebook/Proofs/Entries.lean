import Phrasebook.Proofs.ChangeText
import Phrasebook.Proofs.Differences
import Phrasebook.Proofs.FlatForms
import Phrasebook.Proofs.Mutations

/-!
# Entries of a journal

The history of a record is the entries of its key in the journal of its kind, as they
were written.

## Main definitions

* `ChangeEntry.Readable`: an entry that is read back from its row
-/
namespace Phrasebook

/-! ## Flat forms -/

namespace Record.Conforms

variable {r : Record}

/-- The key and the times of a flat form aside are the fields of the record. -/
theorem filter_toFields (h : r.Conforms) :
    r.toFields.filter (fun entry => !isIdentityField entry.1) = r.fields :=
  have hflat : r.Flat := h.get?_identity
  filter_eq_fields r.sorted_toFields h.sorted hflat (hflat.get?_toFields h.sorted)

/-- A flat form is plain, and no deeper than its fields. -/
theorem plain_toFields (h : r.Conforms) :
    (Json.obj r.toFields).Plain ∧ (Json.obj r.toFields).height ≤ 2 := by
  have hvalue : ∀ entry ∈ r.toFields, entry.2.Plain ∧ entry.2.height ≤ 1 := by
    intro entry hentry
    rcases Fields.mem_override hentry with hentry | hentry
    · obtain ⟨f, -, -, hstores⟩ := h.stores_of_get? (h.sorted.get?_eq_some_iff.mpr hentry)
      exact FieldSpec.plain_of_stores hstores
    · rcases Fields.mem_override hentry with hentry | hentry
      · simp only [List.mem_cons, List.not_mem_nil, or_false] at hentry
        rcases hentry with rfl | rfl | rfl <;> exact ⟨.str _, Nat.zero_le 1⟩
      · cases hentry
  refine ⟨.obj (Fields.sorted_ofList _).override fun entry hentry => (hvalue entry hentry).1, ?_⟩
  exact Nat.succ_le_succ (Json.heightEntries_le_iff.mpr fun entry hentry => (hvalue entry hentry).2)

end Record.Conforms

/-! ## Entries -/

/-- The time of an entry has a text that is read back, and its fields are plain values. -/
structure ChangeEntry.Readable (e : ChangeEntry) : Prop where
  parse_created : Instant.parse e.created.text = .ok e.created
  plain : (Json.obj e.items.fields).Plain
  height_le : (Json.obj e.items.fields).height ≤ 3

namespace Store

variable {s : Store} {kind : RecordKind} {e : ChangeEntry} {entries : List ChangeEntry}

/-- An entry is read back from the row that keeps it. -/
theorem entryOfRow_row (kind : RecordKind) (h : e.Readable) : entryOfRow kind e.row = .ok e := by
  have hid : textOf e.row "_id" = .ok e.id.text := rfl
  have hcreated : textOf e.row "_created" = .ok e.created.text := rfl
  have hitems : textOf e.row "items" = .ok e.items.text := rfl
  have hread := ChangeItems.read_text h.plain (Nat.lt_of_le_of_lt h.height_le (by decide))
  simp only [entryOfRow, hid, hcreated, hitems, parseStoredId, RecordId.parse_text,
    h.parse_created, hread, bind, Except.bind]

/-- The history of a key is its entries in the journal of the kind. -/
theorem changes_eq (hreg : s.registry = .builtin) (h : s.database.Installed)
    (hrec : kind.Recorded) (id : RecordId)
    (hjournal : s.database.journal kind = entries.map ChangeEntry.row)
    (hreadable : ∀ e ∈ entries, e.Readable) :
    s.changes kind id = .ok (entries.filter fun e => decide (e.id = id)) := by
  have hid : ∀ e : ChangeEntry, Table.holds "_id" id.text e.row = decide (e.id = id) := by
    intro e
    have hcell : Row.cell e.row "_id" = some e.id.text := rfl
    simp [Table.holds, hcell, beq_eq_decide]
  have hrows : (journalTable (journalName kind) (s.database.journal kind)).select
      [("_id", id.text)] =
      (entries.filter fun e => decide (e.id = id)).map ChangeEntry.row := by
    simp only [Table.select, journalTable, hjournal, List.all_cons, List.all_nil, Bool.and_true,
      List.filter_map]
    congr 1
    exact List.filter_congr fun e _ => hid e
  rw [changes, descriptor_of_builtin hreg]
  simp only [bind, Except.bind, Descriptor.changesTable?_shipped, if_pos hrec, Database.table,
    h.journal_table kind hrec, hrows]
  refine mapM_eq_ok_iff.mpr (List.forall₂_map_left_iff.mpr (List.forall₂_same.mpr ?_))
  intro e he
  exact entryOfRow_row kind (hreadable e (List.mem_of_mem_filter he))

end Store
end Phrasebook
