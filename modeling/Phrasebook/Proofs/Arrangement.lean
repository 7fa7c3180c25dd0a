import Phrasebook.Proofs.Consistent
import Phrasebook.Proofs.Statements
import Phrasebook.Proofs.Upkeep

/-!
# Arrangement of tables

What the tables of a registry look like once they are installed, and after every run since:
which sets of columns are unique in the table of a kind, and, where every kind has a table
of its own, that this table has a column for each field and that changes can be recorded.

## Main definitions

* `Statement.keys`: the sets of columns that a statement makes unique in a table
* `Database.Keyed`: the unique sets of columns are those of the first statements
* `Database.Arranged`: the tables have the columns of their kinds
-/
namespace Phrasebook

open Statement (First)

/-! ## Statements of a kind -/

/-- The columns of the table of a kind. -/
def Descriptor.columnSpecs (d : Descriptor) : List ColumnSpec :=
  d.fields.map fun f => ⟨f.name, f.notNull, f.name == "_id"⟩

/-- The columns of a journal. -/
def journalSpecs : List ColumnSpec :=
  [⟨"_id", true, false⟩, ⟨"_created", true, false⟩, ⟨"items", true, false⟩]

theorem Descriptor.mem_statements {d : Descriptor} {st : Statement} : st ∈ d.statements ↔
    st = .table d.table d.columnSpecs ∨
      (∃ u ∈ d.storage.indexes,
        st = .index u.unique (d.indexName u .sqlite) d.table u.fields) ∨
      ∃ name ∈ d.changesTable?,
        st = .table name journalSpecs ∨ st = .index false (name ++ "_i_id") name ["_id"] := by
  have hchanges : st ∈ d.sqliteChangeStatements ↔ ∃ name ∈ d.changesTable?,
      st = .table name journalSpecs ∨ st = .index false (name ++ "_i_id") name ["_id"] := by
    unfold sqliteChangeStatements
    split
    · next name hname => simp [hname, journalSpecs]
    · next hnone => simp [hnone]
  rw [statements, List.mem_append, hchanges, sqliteRecordStatements, List.mem_cons, or_assoc,
    List.mem_map]
  simp only [columnSpecs, eq_comm]

theorem Registry.mem_statements {registry : Registry} {st : Statement} :
    st ∈ registry.statements ↔ ∃ d ∈ registry.descriptors, st ∈ d.statements :=
  List.mem_flatMap

/-- The sets of columns that a statement makes unique in the table of a name. -/
def Statement.keys (name : String) : Statement → List (List String)
  | .table other columns =>
    if sameName other name then (columns.filter (·.primary)).map fun c => [c.name] else []
  | .index unique _ parent columns => if unique && sameName parent name then [columns] else []

namespace Statement

variable {name other parent : String} {key columns : List String} {specs : List ColumnSpec}
  {unique : Bool}

theorem mem_keys_table : key ∈ (table other specs).keys name ↔
    sameName other name = true ∧ ∃ c ∈ specs, c.primary = true ∧ [c.name] = key := by
  unfold keys
  split <;> simp_all [and_assoc]

theorem mem_keys_index : key ∈ (index unique other parent columns).keys name ↔
    unique = true ∧ sameName parent name = true ∧ key = columns := by
  unfold keys
  split <;> simp_all [and_assoc]

end Statement

section Apart

variable {registry : Registry} {ds : List Descriptor} {d : Descriptor} {st : Statement}
  (hreg : Registry.ofDescriptors ds = .ok registry) (hapart : registry.Apart)
  (hd : d ∈ registry.descriptors) (hst : st ∈ registry.statements)
include hreg hapart hd hst

/-- Of all statements only those of a kind are about its table. -/
theorem Registry.statement_cases :
    (∀ {name columns}, st = .table name columns → sameName name d.table = true →
      columns = d.columnSpecs) ∧
    ∀ {unique name parent columns}, st = .index unique name parent columns →
      sameName parent d.table = true → ∃ u ∈ d.storage.indexes, columns = u.fields := by
  obtain ⟨e, he, hst⟩ := Registry.mem_statements.mp hst
  have hsame : sameName e.table d.table = true → e = d := fun hname =>
    Registry.eq_of_kind hreg he hd (hapart.records e he d hd hname)
  have hother : ∀ name ∈ e.changesTable?, sameName name d.table = false :=
    hapart.changes e he d hd
  rcases Descriptor.mem_statements.mp hst with rfl | ⟨u, hu, rfl⟩ | ⟨table, htable, rfl | rfl⟩
  · refine ⟨fun heq hname => ?_, nofun⟩
    cases heq
    rw [hsame hname]
  · refine ⟨nofun, fun heq hname => ?_⟩
    cases heq
    rw [← hsame hname]
    exact ⟨u, hu, rfl⟩
  · refine ⟨fun heq hname => ?_, nofun⟩
    cases heq
    rw [hother table htable] at hname
    cases hname
  · refine ⟨nofun, fun heq hname => ?_⟩
    cases heq
    rw [hother table htable] at hname
    cases hname

/-- The unique columns of the table of a kind are fields of the kind. -/
theorem Registry.declared_of_key {key : List String} (hkey : key ∈ st.keys d.table) :
    ∀ name ∈ key, ∃ f ∈ d.fields, f.name = name := by
  obtain ⟨htable, hindex⟩ := Registry.statement_cases hreg hapart hd hst
  intro name hname
  cases st with
  | table other columns =>
    obtain ⟨hsame, c, hc, -, rfl⟩ := Statement.mem_keys_table.mp hkey
    rw [htable rfl hsame] at hc
    obtain ⟨f, hf, rfl⟩ := List.mem_map.mp hc
    exact ⟨f, hf, (List.mem_singleton.mp hname).symm⟩
  | index unique other parent columns =>
    obtain ⟨-, hsame, rfl⟩ := Statement.mem_keys_index.mp hkey
    obtain ⟨u, hu, rfl⟩ := hindex rfl hsame
    have hconsistent := Registry.consistent_of_mem hreg hd
    obtain ⟨f, hf⟩ := Option.isSome_iff_exists.mp (hconsistent.indexed u hu name hname)
    exact ⟨f, Descriptor.mem_of_field? hf⟩

omit hreg in
/-- Of all statements only those of journals are about a journal. -/
theorem Registry.journal_cases {journal : String} (hjournal : journal ∈ d.changesTable?) :
    (∀ {name columns}, st = .table name columns → sameName name journal = true →
      columns = journalSpecs) ∧
    ∀ {unique name parent columns}, st = .index unique name parent columns →
      sameName parent journal = true → unique = false := by
  obtain ⟨e, he, hst⟩ := Registry.mem_statements.mp hst
  have hother : sameName e.table journal = false := by
    rw [sameName_comm]
    exact hapart.changes d hd e he journal hjournal
  rcases Descriptor.mem_statements.mp hst with rfl | ⟨u, hu, rfl⟩ | ⟨table, htable, rfl | rfl⟩
  · refine ⟨fun heq hname => ?_, nofun⟩
    cases heq
    rw [hother] at hname
    cases hname
  · refine ⟨nofun, fun heq hname => ?_⟩
    cases heq
    rw [hother] at hname
    cases hname
  · refine ⟨fun heq _ => ?_, nofun⟩
    cases heq
    rfl
  · refine ⟨nofun, fun heq _ => ?_⟩
    cases heq
    rfl

end Apart

/-! ## Unique columns -/

namespace Database

variable {db db' : Database} {registry : Registry} {statements : List Statement} {t : Table}
  {name : String}

/-- The unique indexes of a table are those of the first statements. -/
theorem CreatedBy.mem_keys (h : db.CreatedBy statements) (ht : db.table? name = some t)
    (key : List String) : (∃ index ∈ t.indexes, index.unique = true ∧ index.columns = key) ↔
      ∃ st, First statements st ∧ key ∈ st.keys name := by
  obtain ⟨specs, hcreated⟩ := h.of_table? ht
  have hname := sameName_of_table? ht
  constructor
  · rintro ⟨index, hindex, hunique, rfl⟩
    rcases (hcreated.mem_indexes index).mp hindex with ⟨c, hc, hprimary, rfl⟩ | ⟨parent, hst, hsame⟩
    · exact ⟨_, hcreated.first, Statement.mem_keys_table.mpr ⟨hname, c, hc, hprimary, rfl⟩⟩
    · rw [sameName_congr hname] at hsame
      exact ⟨_, hst, Statement.mem_keys_index.mpr ⟨hunique, hsame, rfl⟩⟩
  · rintro ⟨st, hst, hkey⟩
    cases st with
    | table other columns =>
      obtain ⟨hsame, c, hc, hprimary, rfl⟩ := Statement.mem_keys_table.mp hkey
      have heq := hcreated.first.unique hst (by
        rw [Statement.name, Statement.name, sameName_comm, sameName_congr hname, hsame])
      cases heq
      exact ⟨_, (hcreated.mem_indexes _).mpr (.inl ⟨c, hc, hprimary, rfl⟩), rfl, rfl⟩
    | index unique other parent columns =>
      obtain ⟨hunique, hsame, rfl⟩ := Statement.mem_keys_index.mp hkey
      rw [← sameName_congr hname] at hsame
      exact ⟨⟨other, key, unique⟩, (hcreated.mem_indexes _).mpr (.inr ⟨parent, hst, hsame⟩),
        hunique, rfl⟩

/-- In the table of every kind the rows are distinct, and the unique columns are those of the
first statements. -/
def Keyed (db : Database) (registry : Registry) : Prop :=
  ∀ d ∈ registry.descriptors, ∃ t, db.table? d.table = some t ∧ t.Distinct t.rows ∧
    ∀ key, (∃ index ∈ t.indexes, index.unique = true ∧ index.columns = key) ↔
      ∃ st, First registry.statements st ∧ key ∈ st.keys d.table

/-- Every kind has a table. -/
theorem CreatedBy.exists_table_of_mem {d : Descriptor} (h : db.CreatedBy registry.statements)
    (hd : d ∈ registry.descriptors) :
    ∃ t specs, db.table? d.table = some t ∧ t.CreatedBy registry.statements specs := by
  have hst : .table d.table d.columnSpecs ∈ registry.statements :=
    Registry.mem_statements.mpr ⟨d, hd, Descriptor.mem_statements.mpr (.inl rfl)⟩
  exact h.exists_table hst

theorem CreatedBy.keyed (h : db.CreatedBy registry.statements) : db.Keyed registry := by
  intro d hd
  obtain ⟨t, specs, ht, hcreated⟩ := h.exists_table_of_mem hd
  refine ⟨t, ht, fun index _ => ?_, h.mem_keys ht⟩
  rw [hcreated.rows_eq]
  exact List.Pairwise.nil

theorem Keyed.evolves (h : db.Keyed registry) (hevolves : db.Evolves db') :
    db'.Keyed registry := by
  intro d hd
  obtain ⟨t, ht, hdistinct, hkeys⟩ := h d hd
  obtain ⟨t', ht', hevolved⟩ := hevolves d.table t ht
  exact ⟨t', ht', hevolved.distinct hdistinct, by simpa only [hevolved.indexes_eq] using hkeys⟩

/-! ## Tables of kinds -/

/-- Every kind has a table with a column for each field, and a journal to record changes in
if they are recorded. -/
structure Arranged (db : Database) (registry : Registry) : Prop where
  records : ∀ d ∈ registry.descriptors, ∃ t, db.table? d.table = some t ∧
    t.columns = d.fields.map fun f => ⟨f.name, f.notNull⟩
  journals : ∀ d ∈ registry.descriptors, ∀ name ∈ d.changesTable?, ∃ t,
    db.table? name = some t ∧ t.columns = journalSpecs.map (fun c => ⟨c.name, c.notNull⟩) ∧
      ∀ index ∈ t.indexes, index.unique = false

theorem CreatedBy.arranged {ds : List Descriptor} (h : db.CreatedBy registry.statements)
    (hreg : Registry.ofDescriptors ds = .ok registry) (hapart : registry.Apart) :
    db.Arranged registry := by
  refine ⟨fun d hd => ?_, fun d hd name hname => ?_⟩
  · obtain ⟨t, columns, ht, hcreated⟩ := h.exists_table_of_mem hd
    have hcolumns := (Registry.statement_cases hreg hapart hd hcreated.first.mem).1 rfl
      (sameName_of_table? ht)
    refine ⟨t, ht, ?_⟩
    rw [hcreated.columns_eq, hcolumns, Descriptor.columnSpecs, List.map_map]
    rfl
  · have hst : .table name journalSpecs ∈ registry.statements :=
      Registry.mem_statements.mpr
        ⟨d, hd, Descriptor.mem_statements.mpr (.inr (.inr ⟨name, hname, .inl rfl⟩))⟩
    obtain ⟨t, columns, ht, hcreated⟩ := h.exists_table hst
    have hcolumns := (Registry.journal_cases hapart hd hcreated.first.mem hname).1 rfl
      (sameName_of_table? ht)
    subst hcolumns
    refine ⟨t, ht, hcreated.columns_eq, fun index hindex => ?_⟩
    rcases (hcreated.mem_indexes index).mp hindex with ⟨c, hc, hprimary, -⟩ | ⟨parent, hst, hsame⟩
    · have hnone : ∀ c ∈ journalSpecs, c.primary = false := by decide
      rw [hnone c hc] at hprimary
      cases hprimary
    · rw [sameName_congr (sameName_of_table? ht)] at hsame
      exact (Registry.journal_cases hapart hd hst.mem hname).2 rfl hsame

theorem Arranged.evolves (h : db.Arranged registry) (hevolves : db.Evolves db') :
    db'.Arranged registry := by
  refine ⟨fun d hd => ?_, fun d hd name hname => ?_⟩
  · obtain ⟨t, ht, hcolumns⟩ := h.records d hd
    obtain ⟨t', ht', hevolved⟩ := hevolves d.table t ht
    exact ⟨t', ht', hevolved.columns_eq.trans hcolumns⟩
  · obtain ⟨t, ht, hcolumns, hindexes⟩ := h.journals d hd name hname
    obtain ⟨t', ht', hevolved⟩ := hevolves name t ht
    exact ⟨t', ht', hevolved.columns_eq.trans hcolumns, hevolved.indexes_eq ▸ hindexes⟩

/-- Changes can always be recorded. -/
theorem Arranged.exists_writeChange (h : db.Arranged registry) {d : Descriptor}
    (hd : d ∈ registry.descriptors) (id : RecordId) (items : ChangeItems) (now : Instant) :
    ∃ db', Store.writeChange db d id items now = .ok db' := by
  unfold Store.writeChange
  split
  · exact ⟨db, rfl⟩
  · next name hname =>
    obtain ⟨t, ht, hcolumns, hindexes⟩ := h.journals d hd name hname
    have hinsert : ∃ t', t.insert [("_id", some id.text), ("_created", some now.text),
        ("items", some items.text)] = .ok t' := by
      refine ⟨_, Table.insert_eq_ok_iff.mpr ⟨?_, Table.check_eq_ok_iff.mpr ⟨?_, ?_⟩, rfl⟩⟩
      · simp [Table.hasColumn, hcolumns, journalSpecs]
      · simp [Table.rowOf, hcolumns, journalSpecs, Row.cell, Row.value?_cons]
      · intro index hindex other _ hagree
        exact Bool.false_ne_true ((hindexes index hindex).symm.trans hagree.1)
    obtain ⟨t', ht'⟩ := hinsert
    refine ⟨db.put t', ?_⟩
    simp [Database.insert, table_eq_ok_iff.mpr ht, ht', bind, Except.bind]

end Database

/-! ## Rows of records -/

section Rows

variable {d : Descriptor} {t : Table} {f : FieldSpec}

/-- A row with a cell for each field has the cell of the field under its name. -/
theorem Descriptor.Consistent.cell_map (h : d.Consistent) (hf : f ∈ d.fields)
    (text : FieldSpec → Option String) :
    Row.cell (d.fields.map fun g => (g.name, text g)) f.name = text f := by
  rw [Row.cell, Row.value?_map, find?_of_mem h.nodup hf]
  rfl

/-- The row made for a record has a cell for each field. -/
theorem Descriptor.Consistent.rowOf_columnsOf (h : d.Consistent)
    (ht : t.columns = d.fields.map fun f => ⟨f.name, f.notNull⟩) (r : Record) :
    t.rowOf (Store.columnsOf r d.fields) =
      d.fields.map fun f => (f.name, f.toColumn (r.get? f.name)) := by
  rw [Table.rowOf, ht, List.map_map]
  refine List.map_congr_left fun f hf => ?_
  simp [Store.columnsOf, Row.value?_map, find?_of_mem h.nodup hf]

theorem Table.hasColumn_columnsOf (ht : t.columns = d.fields.map fun f => ⟨f.name, f.notNull⟩)
    (r : Record) : ∀ entry ∈ Store.columnsOf r d.fields, t.hasColumn entry.1 = true := by
  intro entry hentry
  obtain ⟨f, hf, rfl⟩ := List.mem_map.mp hentry
  simpa [hasColumn, ht] using ⟨f, hf, rfl⟩

end Rows
end Phrasebook
