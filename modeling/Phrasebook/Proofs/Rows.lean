import Phrasebook.Proofs.Consistent
import Phrasebook.Proofs.Fields
import Phrasebook.Proofs.Installed

/-!
# Rows of records

The row of a record has one cell for each declared field, and an update makes of
it the row of another record. Reading the cells of a row back decodes them name by
name.

## Main definitions

* `Record.row`: the row of a record
* `Record.revised`, `Record.applied`: what an update makes of stored records
-/
namespace Phrasebook

/-! ## Declared fields -/

namespace Descriptor

theorem nodup_shipped (kind : RecordKind) : ((shipped kind).fields.map FieldSpec.name).Nodup := by
  cases kind <;> decide

/-- A declared field is the field of its name. -/
theorem find?_shipped {kind : RecordKind} {f : FieldSpec} (h : f ∈ (shipped kind).fields) :
    (shipped kind).fields.find? (fun g => g.name == f.name) = some f :=
  find?_of_mem (nodup_shipped kind) h

/-- The field of a name among those whose names satisfy a condition. -/
theorem find?_filter (fields : List FieldSpec) (p : String → Bool) (name : String) :
    (fields.filter fun f => p f.name).find? (fun f => f.name == name) =
      if p name then fields.find? fun f => f.name == name else none := by
  induction fields with
  | nil => simp
  | cons f rest ih =>
    rw [List.filter_cons]
    by_cases hp : p f.name <;> by_cases hn : f.name = name <;> simp_all

theorem field?_shipped {kind : RecordKind} {f : FieldSpec} (h : f ∈ (shipped kind).fields) :
    (shipped kind).field? f.name = some f := find?_shipped h

/-- Declared fields of one name are the same. -/
theorem eq_of_name {kind : RecordKind} {f g : FieldSpec} (hf : f ∈ (shipped kind).fields)
    (hg : g ∈ (shipped kind).fields) (h : f.name = g.name) : f = g := by
  have hfind := field?_shipped hf
  rw [h, field?_shipped hg] at hfind
  exact (Option.some.inj hfind).symm

/-- An archive field is a truth value. -/
theorem type_archived (kind : RecordKind) : ∀ f ∈ (shipped kind).fields,
    f.name = archivedField → f.type = .boolean := by
  cases kind <;> decide

end Descriptor

/-! ## Filling in fields -/

namespace FieldSpec

/-- Give each field its value, if it has one. -/
def fill (value? : FieldSpec → Option Json) (acc : Fields) (fields : List FieldSpec) : Fields :=
  fields.foldl (fun acc f =>
    match value? f with
    | some value => acc.insert f.name value
    | none => acc) acc

variable {value? : FieldSpec → Option Json} {acc : Fields} {fields : List FieldSpec} {name : String}

theorem sorted_fill (h : acc.Sorted) : (fill value? acc fields).Sorted := by
  refine List.foldlRecOn fields _ h fun acc hacc f _ => ?_
  split
  · exact hacc.insert
  · exact hacc

/-- Fields filled in have the value of the field of their name. -/
theorem get?_fill (hnodup : (fields.map FieldSpec.name).Nodup) :
    (fill value? acc fields).get? name =
      ((fields.find? fun f => f.name == name).bind value?).or (acc.get? name) := by
  induction fields generalizing acc with
  | nil => rfl
  | cons f rest ih =>
    obtain ⟨hfirst, hrest⟩ := List.nodup_cons.mp hnodup
    rw [fill, List.foldl_cons, ← fill, ih hrest]
    by_cases hname : f.name = name
    · subst hname
      have hnone : (rest.find? fun g => g.name == f.name) = none := by
        refine List.find?_eq_none.mpr fun g hg heq => hfirst ?_
        exact beq_iff_eq.mp heq ▸ List.mem_map_of_mem hg
      cases hvalue : value? f <;> simp [hnone, hvalue]
    · cases hvalue : value? f <;> simp [hname]

end FieldSpec

/-! ## Rows -/

/-- The row of a record. -/
def Record.row (r : Record) : Row :=
  (Descriptor.shipped r.kind).fields.map fun f => (f.name, f.toColumn (r.get? f.name))

variable {r : Record} {f : FieldSpec}

theorem isIdentityField_iff {name : String} : isIdentityField name = true ↔
    name = idField ∨ name = createdField ∨ name = updatedField := by
  simp [isIdentityField, or_assoc]

theorem Record.get?_eq_fields {name : String} (h : isIdentityField name = false) :
    r.get? name = r.fields.get? name := by
  have hnames : name ≠ idField ∧ name ≠ createdField ∧ name ≠ updatedField := by
    simpa [isIdentityField, and_assoc] using h
  simp [Record.get?, hnames]

/-- What is left of fields with the values of a record, without the key and the times, are the
fields of the record. -/
theorem Record.filter_eq_fields {fields : Fields} (hfields : fields.Sorted)
    (hsorted : r.fields.Sorted)
    (hidentity : ∀ name, isIdentityField name = true → r.fields.get? name = none)
    (h : ∀ name, fields.get? name = r.get? name) :
    (fields.filter fun entry => !isIdentityField entry.1) = r.fields := by
  refine (hfields.filter _).ext hsorted fun name => ?_
  rw [Fields.get?_filter fun name => !isIdentityField name, h]
  cases hname : isIdentityField name with
  | true => simp [hidentity name hname]
  | false => simp [get?_eq_fields hname]

/-- The cell of a declared field holds the column text of its value. -/
theorem Record.cell_row (h : f ∈ (Descriptor.shipped r.kind).fields) :
    Row.cell r.row f.name = f.toColumn (r.get? f.name) := by
  rw [Row.cell, Record.row, Row.value?_map, Descriptor.find?_shipped h]
  rfl

/-- Every column that is given for declared fields is there. -/
theorem Descriptor.hasColumn_columnsOf (d : Descriptor) (r : Record) (rows : List Row)
    {fields : List FieldSpec} (h : ∀ f ∈ fields, f ∈ d.fields) :
    ∀ entry ∈ Store.columnsOf r fields, (d.recordTable rows).hasColumn entry.1 = true := by
  intro entry hentry
  obtain ⟨f, hf, rfl⟩ := List.mem_map.mp hentry
  simpa [Table.hasColumn, recordTable] using ⟨f, h f hf, rfl⟩

/-- Inserting the columns of a record makes its row. -/
theorem Record.rowOf_columnsOf (rows : List Row) :
    ((Descriptor.shipped r.kind).recordTable rows).rowOf
      (Store.columnsOf r (Descriptor.shipped r.kind).fields) = r.row := by
  simp only [Table.rowOf, Descriptor.recordTable, List.map_map, Record.row]
  refine List.map_congr_left fun f hf => ?_
  simp [Store.columnsOf, Row.value?_map, Descriptor.find?_shipped hf]

/-- The columns an update writes are those of the record, but for the key and the
creation time. -/
theorem Record.value?_updatedColumns (h : f ∈ (Descriptor.shipped r.kind).fields) :
    Row.value? (Store.columnsOf r (Store.updatedColumns (Descriptor.shipped r.kind))) f.name =
      if f.name = idField ∨ f.name = createdField then none
      else some (f.toColumn (r.get? f.name)) := by
  have hfilter := Descriptor.find?_filter (Descriptor.shipped r.kind).fields
    (fun name => name != idField && name != createdField) f.name
  rw [Store.columnsOf, Store.updatedColumns, Row.value?_map, hfilter, Descriptor.find?_shipped h]
  by_cases hid : f.name = idField <;> by_cases hcreated : f.name = createdField <;>
    simp [hid, hcreated]

/-- What an update by `r` makes of a stored record: the key and the creation time
stay. -/
def Record.revised (r stored : Record) : Record :=
  { r with id := stored.id, created := stored.created }

/-- What an update by `r` makes of any record of its kind. -/
def Record.applied (r stored : Record) : Record :=
  if stored.id = r.id then r.revised stored else stored

@[simp] theorem Record.id_applied (r stored : Record) : (r.applied stored).id = stored.id := by
  unfold applied
  split <;> rfl

/-- An update by a record of the same kind turns rows of records into such. -/
theorem Record.assign_row {stored : Record} (h : stored.kind = r.kind) :
    Table.assign (Store.columnsOf r (Store.updatedColumns (Descriptor.shipped r.kind))) stored.row =
      (r.revised stored).row := by
  have hkind : (r.revised stored).kind = r.kind := rfl
  simp only [Table.assign, Record.row, List.map_map, h, hkind]
  refine List.map_congr_left fun f hf => ?_
  simp only [Function.comp_apply, Record.value?_updatedColumns hf, Prod.mk.injEq, true_and]
  by_cases hid : f.name = idField
  · simp [Record.get?, Record.revised, hid]
  · by_cases hcreated : f.name = createdField <;> simp [Record.get?, Record.revised, hid, hcreated]

/-! ## Reading rows -/

/-- The value that the cell of a field stands for. -/
def FieldSpec.read? (row : Row) (f : FieldSpec) : Option Json :=
  (Row.cell row f.name).bind fun text => (f.fromColumn text).toOption

namespace Descriptor

/-- Cells are read if each of them stands for a value. -/
theorem readCells_ok_iff {d : Descriptor} {row : Row} {id : String} {acc result : Fields}
    {fields : List FieldSpec} : (∃ key, d.readCells row id acc fields = .ok (key, result)) ↔
      (∀ f ∈ fields, ∀ text, Row.cell row f.name = some text →
        ∃ value, f.fromColumn text = .ok value) ∧
        result = FieldSpec.fill (FieldSpec.read? row) acc fields := by
  induction fields generalizing id acc with
  | nil => simp [readCells, FieldSpec.fill, eq_comm]
  | cons f rest ih =>
    rw [readCells, List.forall_mem_cons, FieldSpec.fill, List.foldl_cons, ← FieldSpec.fill]
    cases hcell : Row.cell row f.name with
    | none => simp [ih, FieldSpec.read?, hcell]
    | some text =>
      cases hvalue : f.fromColumn text with
      | error e => simp [hvalue]
      | ok value => simp [hvalue, ih, FieldSpec.read?, hcell, Except.toOption]

/-- A row holds a record if its cells can be read and spell one. -/
theorem ofRow_eq_ok_iff {d : Descriptor} {row : Row} {r : Record} : d.ofRow row = .ok r ↔
    (∀ f ∈ d.fields, ∀ text, Row.cell row f.name = some text →
      ∃ value, f.fromColumn text = .ok value) ∧
      Record.ofFields d.kind (FieldSpec.fill (FieldSpec.read? row) [] d.fields) = .ok r := by
  rw [ofRow]
  cases hread : d.readCells row "" [] d.fields with
  | error e =>
    have hunreadable : ¬ ∀ f ∈ d.fields, ∀ text, Row.cell row f.name = some text →
        ∃ value, f.fromColumn text = .ok value := by
      intro hreadable
      obtain ⟨key, hok⟩ := readCells_ok_iff.mpr ⟨hreadable, rfl⟩
      rw [hread] at hok
      cases hok
    simp only [bind, Except.bind, reduceCtorEq, false_iff, not_and]
    exact fun hreadable => absurd hreadable hunreadable
  | ok result =>
    obtain ⟨key, fields⟩ := result
    obtain ⟨hreadable, rfl⟩ := readCells_ok_iff.mp ⟨key, hread⟩
    simp only [bind, Except.bind]
    cases hfields : Record.ofFields d.kind (FieldSpec.fill (FieldSpec.read? row) [] d.fields) with
    | error e => simp
    | ok record => simpa using fun _ => hreadable

end Descriptor

/-! ## Flat forms -/

theorem Record.takeString_eq_ok_iff {kind : RecordKind} {fields : Fields} {name text : String} :
    takeString kind fields name = .ok text ↔ fields.get? name = some (.str text) := by
  unfold takeString
  split
  · next s hget => simp [hget]
  · next other hother hget => simpa [hget] using fun h => hother text h
  · next hget => simp [hget]

theorem Record.takeInstant_eq_ok_iff {kind : RecordKind} {fields : Fields} {name : String}
    {t : Instant} : takeInstant kind fields name = .ok t ↔
      ∃ text, fields.get? name = some (.str text) ∧ Instant.parse text = .ok t := by
  simp only [takeInstant, bind_eq_ok_iff, takeString_eq_ok_iff]
  refine exists_congr fun text => and_congr_right fun _ => ?_
  cases Instant.parse text <;> simp

/-- A flat form describes the record whose key and times it spells and whose fields are its
others. -/
theorem Record.ofFields_eq_ok_iff {kind : RecordKind} {fields : Fields} {r : Record} :
    ofFields kind fields = .ok r ↔
      (∃ text, fields.get? idField = some (.str text) ∧ RecordId.parse text = .ok r.id) ∧
      (∃ text, fields.get? createdField = some (.str text) ∧ Instant.parse text = .ok r.created) ∧
      (∃ text, fields.get? updatedField = some (.str text) ∧ Instant.parse text = .ok r.updated) ∧
      r.kind = kind ∧ r.fields = fields.filter fun entry => !isIdentityField entry.1 := by
  simp only [ofFields, bind_eq_ok_iff, takeString_eq_ok_iff]
  constructor
  · rintro ⟨text, htext, h⟩
    cases hid : RecordId.parse text with
    | error e => simp [hid, bind, Except.bind] at h
    | ok id =>
      simp only [hid, bind_eq_ok_iff, takeInstant_eq_ok_iff, Except.ok.injEq] at h
      obtain ⟨_, rfl, created, hcreated, updated, hupdated, rfl⟩ := h
      exact ⟨⟨text, htext, hid⟩, hcreated, hupdated, rfl, rfl⟩
  · rintro ⟨⟨text, htext, hid⟩, hcreated, hupdated, rfl, hfields⟩
    refine ⟨text, htext, ?_⟩
    simp only [hid, bind_eq_ok_iff, takeInstant_eq_ok_iff, Except.ok.injEq, ← hfields]
    exact ⟨r.id, rfl, r.created, hcreated, r.updated, hupdated, rfl⟩

/-- A record read from a row of a kind is of that kind. -/
theorem Descriptor.kind_of_ofRow {kind : RecordKind} {row : Row} {r : Record}
    (h : (shipped kind).ofRow row = .ok r) : r.kind = kind := by
  obtain ⟨-, hfields⟩ := ofRow_eq_ok_iff.mp h
  obtain ⟨-, -, -, hkind, -⟩ := Record.ofFields_eq_ok_iff.mp hfields
  exact hkind.trans (kind_shipped kind)

/-- A record read from a row has the values that the cells stand for. -/
theorem Descriptor.get?_ofRow {kind : RecordKind} {row : Row} {existing : Record}
    (h : (shipped kind).ofRow row = .ok existing) (name : String) :
    existing.fields.get? name = if isIdentityField name then none
      else ((shipped kind).field? name).bind (FieldSpec.read? row) := by
  obtain ⟨-, hfields⟩ := ofRow_eq_ok_iff.mp h
  obtain ⟨-, -, -, -, hrest⟩ := Record.ofFields_eq_ok_iff.mp hfields
  rw [hrest, Fields.get?_filter fun n => !isIdentityField n,
    FieldSpec.get?_fill (nodup_shipped kind), field?]
  cases isIdentityField name <;> simp

end Phrasebook
