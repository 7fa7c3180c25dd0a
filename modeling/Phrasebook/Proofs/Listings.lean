import Phrasebook.Proofs.ByteOrder
import Phrasebook.Proofs.Updates

/-!
# What a listing answers

A listing reads the stored rows that pass its filter, in the order of their bytes in the
columns of the first unique index and then of the key. That order is strict, so the listing is
the same for the same rows, in whatever order they were stored.

## Main definitions

* `Row.Before`: the order of lists
* `ListFilter.Passes`: a stored record passes a filter
* `ListFilter.Listed`: the rows of the records that a filter lists, in order
-/
namespace Phrasebook

/-- A row comes before another one in the order of the bytes of some columns. -/
def Row.Before (columns : List String) (a b : Row) : Prop := a.key columns < b.key columns

/-- A stored record passes a filter: its row has the texts that are asked for, in the columns that
its kind has, and it is not archived unless archived records are asked for too. -/
structure ListFilter.Passes (filter : ListFilter) (kind : RecordKind) (row : Row) (r : Record) :
    Prop where
  template : ∀ id, filter.template = some id →
    ((Descriptor.shipped kind).field? "template").isSome = true →
      Row.cell row "template" = some id.text
  locale : ∀ code, filter.locale = some code →
    ((Descriptor.shipped kind).field? "locale").isSome = true →
      Row.cell row "locale" = some code.text
  archived : filter.archived = true ∨ r.isArchived = false

/-- The stored rows of a kind whose records a filter lists, each once, in order. -/
structure ListFilter.Listed (filter : ListFilter) (kind : RecordKind) (stored rows : List Row) :
    Prop where
  mem_iff : ∀ row, row ∈ rows ↔ row ∈ stored ∧
    ∃ r, (Descriptor.shipped kind).ofRow row = .ok r ∧ filter.Passes kind row r
  sorted : rows.Pairwise (Row.Before (Descriptor.shipped kind).listOrder)

/-! ## Strict orders -/

/-- Sorting puts elements into strict order if no two of them compare as equal. -/
theorem pairwise_mergeSort_lt {α : Type} {cmp : α → α → Ordering} [Std.TransCmp cmp]
    {xs : List α} (h : xs.Pairwise fun a b => cmp a b ≠ .eq) :
    (xs.mergeSort fun a b => cmp a b != .gt).Pairwise fun a b => cmp a b = .lt := by
  have htrans : ∀ a b c, (cmp a b != .gt) = true → (cmp b c != .gt) = true →
      (cmp a c != .gt) = true := by
    intro a b c
    simp only [bne_iff_ne, ne_eq, ← Ordering.isLE_iff_ne_gt]
    exact Std.TransCmp.isLE_trans
  have htotal : ∀ a b, (cmp a b != .gt || cmp b a != .gt) = true := by
    intro a b
    have hswap : cmp b a = (cmp a b).swap := Std.OrientedCmp.eq_swap
    rw [hswap]
    cases cmp a b <;> rfl
  have hle := List.pairwise_mergeSort htrans htotal xs
  have hperm := List.mergeSort_perm xs fun a b => cmp a b != .gt
  have hne := hperm.symm.pairwise h fun hab hba => hab (Std.OrientedCmp.eq_symm hba)
  refine hle.imp₂ (fun a b hab hdiffer => ?_) hne
  cases hcase : cmp a b with
  | lt => rfl
  | eq => exact absurd hcase hdiffer
  | gt => simp [hcase] at hab

namespace Row.Before

variable {columns : List String} {a b : Row} {rows rows' : List Row}

theorem iff_compare : a.Before columns b ↔ Table.compareRows columns a b = .lt :=
  Table.compareRows_eq_lt.symm

theorem asymm (h : a.Before columns b) : ¬ b.Before columns a := by
  intro hba
  rw [iff_compare] at h hba
  rw [Table.compareRows_swap, h] at hba
  cases hba

theorem nodup (h : rows.Pairwise (Row.Before columns)) : rows.Nodup :=
  h.imp fun {a b} hab heq => by
    subst heq
    exact hab.asymm hab

/-- Sorting puts rows into strict order if no two of them agree in all columns. -/
theorem pairwise_sorted (h : rows.Pairwise fun a b => Table.compareRows columns a b ≠ .eq) :
    (Table.sorted columns rows).Pairwise (Row.Before columns) :=
  (pairwise_mergeSort_lt h).imp iff_compare.mpr

end Row.Before

/-- Rows of records that are read back are read as these records. -/
theorem Record.eq_of_forall₂_ofRow {kind : RecordKind} {records listed : List Record}
    (hback : ∀ r ∈ records, (Descriptor.shipped kind).ofRow r.row = .ok r)
    (hread : List.Forall₂ (fun row r => (Descriptor.shipped kind).ofRow row = .ok r)
      (records.map Record.row) listed) : listed = records := by
  rw [List.forall₂_map_left_iff, ← mapM_eq_ok_iff, mapM_ok_self hback] at hread
  exact (Except.ok.inj hread).symm

/-! ## Filters -/

namespace ListFilter

variable {filter : ListFilter} {kind : RecordKind}

/-- The conditions of a filter on the cells of a row. -/
theorem selects_iff {row : Row} : filter.selects kind row = true ↔
    (∀ id, filter.template = some id → ((Descriptor.shipped kind).field? "template").isSome = true →
      Row.cell row "template" = some id.text) ∧
    (∀ code, filter.locale = some code → ((Descriptor.shipped kind).field? "locale").isSome = true →
      Row.cell row "locale" = some code.text) ∧
    ((Descriptor.shipped kind).archivable = true → filter.archived = false →
      Row.cell row archivedField = some "false") := by
  simp only [selects, Store.filterConditions, List.all_append, Bool.and_eq_true, and_assoc]
  refine and_congr ?_ (and_congr ?_ ?_)
  · cases filter.template with
    | none => simp
    | some id =>
      cases ((Descriptor.shipped kind).field? "template").isSome <;> simp [Table.holds]
  · cases filter.locale with
    | none => simp
    | some code => cases ((Descriptor.shipped kind).field? "locale").isSome <;> simp [Table.holds]
  · cases (Descriptor.shipped kind).archivable <;> cases filter.archived <;> simp [Table.holds]

end ListFilter

namespace Record.Conforms

variable {r stored : Record}

/-- Records of a kind without an archive field are not archived. -/
theorem isArchived_of_not_archivable (h : r.Conforms)
    (hkind : (Descriptor.shipped r.kind).archivable = false) : r.isArchived = false := by
  cases hget : r.fields.get? archivedField with
  | none => simp [isArchived, hget]
  | some value =>
    obtain ⟨-, f, hf, hname⟩ := h.declared archivedField value hget
    have hfield := Descriptor.field?_shipped hf
    rw [hname] at hfield
    have hsome : (Descriptor.shipped r.kind).archivable = true := by
      rw [Descriptor.archivable, ← archivedField, hfield]
      rfl
    rw [hkind] at hsome
    cases hsome

/-- A record of a kind with an archive field is archived unless the cell says `false`. -/
theorem cell_archived (h : r.Conforms) (hkind : (Descriptor.shipped r.kind).archivable = true) :
    Row.cell r.row archivedField = some "false" ↔ r.isArchived = false := by
  obtain ⟨f, hf⟩ := Option.isSome_iff_exists.mp hkind
  obtain ⟨hfield, hname⟩ := Descriptor.mem_of_field? hf
  have hname : f.name = archivedField := hname
  obtain ⟨value, hget, hstores⟩ := h.get? hfield
  rw [Descriptor.type_archived r.kind f hfield hname] at hstores
  rw [← hname, cell_row hfield, hget]
  rw [hname, get?_eq_fields rfl] at hget
  cases value with
  | bool b => cases b <;> simp [isArchived, hget, FieldSpec.toColumn] <;> decide
  | _ => cases hstores

/-- The conditions on the row of a record are those on the record read from it. -/
theorem selects_iff_passes {filter : ListFilter} (h : stored.Conforms)
    (hreads : (Descriptor.shipped stored.kind).ofRow stored.row = .ok r) :
    filter.selects stored.kind stored.row = true ↔ filter.Passes stored.kind stored.row r := by
  obtain ⟨-, -, -, -, hfields⟩ := h.ofRow_row_iff.mp hreads
  have harchived : r.isArchived = stored.isArchived := by rw [isArchived, hfields, isArchived]
  have hcase : ((Descriptor.shipped stored.kind).archivable = true → filter.archived = false →
      Row.cell stored.row archivedField = some "false") ↔
      filter.archived = true ∨ r.isArchived = false := by
    rw [harchived]
    cases hkind : (Descriptor.shipped stored.kind).archivable with
    | false => simp [h.isArchived_of_not_archivable hkind]
    | true => cases filter.archived <;> simp [h.cell_archived hkind]
  rw [ListFilter.selects_iff, hcase]
  exact ⟨fun ⟨htemplate, hlocale, harchived⟩ => ⟨htemplate, hlocale, harchived⟩,
    fun hpasses => ⟨hpasses.template, hpasses.locale, hpasses.archived⟩⟩

end Record.Conforms

/-! ## Listings -/

namespace Store

variable {s : Store} {contents : Contents} {kind : RecordKind} {filter : ListFilter}

/-- The rows that are selected are in strict order. -/
theorem Holds.pairwise_sorted (h : s.Holds contents) (kind : RecordKind) (p : Row → Bool) :
    (Table.sorted (Descriptor.shipped kind).listOrder
      ((s.database.records kind).filter p)).Pairwise
        (Row.Before (Descriptor.shipped kind).listOrder) := by
  refine Row.Before.pairwise_sorted (List.Pairwise.filter _ ?_)
  rw [h.database.records_eq, List.pairwise_map]
  refine (h.database.pairwise_id kind).imp fun {a b} hid heq => hid ?_
  have hkey := Table.compareRows_eq_eq.mp heq idField (List.mem_append_right _ (by simp))
  simpa using hkey

/-- The rows that a listing reads are those of the records that pass the filter, in strict
order. -/
theorem Holds.listed (h : s.Holds contents) (hconforming : contents.Conforming)
    (hreads : ∀ row ∈ s.database.records kind, ∃ r, (Descriptor.shipped kind).ofRow row = .ok r) :
    filter.Listed kind (s.database.records kind)
      (Table.sorted (Descriptor.shipped kind).listOrder
        ((s.database.records kind).filter (filter.selects kind))) := by
  constructor
  · intro row
    rw [Table.sorted, List.mem_mergeSort, List.mem_filter]
    refine and_congr_right fun hrow => ?_
    obtain ⟨r, hread⟩ := hreads row hrow
    rw [h.database.records_eq] at hrow
    obtain ⟨stored, hstored, rfl⟩ := List.mem_map.mp hrow
    have hconforms := hconforming kind stored hstored
    obtain rfl := h.database.kind_eq kind stored hstored
    rw [hconforms.selects_iff_passes hread]
    constructor
    · intro hpasses
      exact ⟨r, hread, hpasses⟩
    · rintro ⟨r', hread', hpasses⟩
      rw [hread] at hread'
      exact Except.ok.inj hread' ▸ hpasses
  · exact h.pairwise_sorted kind _

theorem count_eq (hreg : s.registry = .builtin) (h : s.database.Installed) (kind : RecordKind) :
    s.count kind = .ok (s.database.records kind).length := by
  simp only [count, descriptor_of_builtin hreg, bind, Except.bind, tableOf, Database.table,
    h.records_table]
  rfl

end Store
end Phrasebook
