import Mathlib.Data.List.Nodup
import Phrasebook.Proofs.Installed
import Phrasebook.Proofs.Results

/-!
# Installing

Installing into an empty database runs the statements of every kind and makes the
tables of that kind, because the names that the kinds take are all different. Installing
again changes nothing.

## Main definitions

* `Database.Fresh`: a name of no table and no index
* `Store.initial`: the store of an installation, which has no rows
-/
namespace Phrasebook

namespace Database

/-! ## Creating tables -/

/-- A text without quotes stands for itself. -/
theorem nameOf?_of_notMem {name : String} (h : '"' ∉ name.toList) : nameOf? name = some name := by
  have hchars : ∀ cs : List Char, '"' ∉ cs → unquote? cs = some cs := by
    intro cs hcs
    fun_induction unquote? cs with
    | case1 => rfl
    | case2 => simp at hcs
    | case3 => simp at hcs
    | case4 c rest _ _ ih => simp [ih (by simp_all)]
  simp [nameOf?, hchars _ h]

/-- The names of tables and indexes. -/
def names (db : Database) : List String :=
  db.tables.flatMap fun t => t.name :: t.indexes.map Index.name

/-- A name of no table and no index. -/
def Fresh (db : Database) (name : String) : Prop := ∀ taken ∈ db.names, sameName taken name = false

variable {db : Database} {name : String}

theorem Fresh.table? (h : db.Fresh name) : db.table? name = none := by
  refine List.find?_eq_none.mpr fun t ht => ?_
  simp [h t.name (List.mem_flatMap.mpr ⟨t, ht, List.mem_cons_self⟩)]

theorem Fresh.hasIndex (h : db.Fresh name) : db.hasIndex name = false := by
  simp only [Database.hasIndex, List.any_eq_false, Bool.not_eq_true]
  intro t ht i hi
  exact h i.name (List.mem_flatMap.mpr
    ⟨t, ht, List.mem_cons_of_mem _ (List.mem_map_of_mem hi)⟩)

/-- Creating a table of a fresh name puts it after the others. -/
theorem createTable_of_fresh {columns : List ColumnSpec} (h : db.Fresh name)
    (hreserved : reserved name = false) (hcolumns : repeatedColumn? (columns.map (·.name)) = none) :
    db.createTable name columns = .ok ⟨db.tables ++ [freshTable name columns]⟩ := by
  simp [createTable, hreserved, h.table?, h.hasIndex, hcolumns]

/-- Creating an index of a fresh name on an empty table, the last one. -/
theorem createIndex_of_fresh {old : List Table} {t : Table} {index : Index}
    (ht : Fresh ⟨old⟩ t.name) (hrows : t.rows = []) (h : Fresh ⟨old ++ [t]⟩ index.name)
    (hreserved : reserved index.name = false) :
    (Database.mk (old ++ [t])).createIndex index t.name =
      .ok ⟨old ++ [{ t with indexes := t.indexes ++ [index] }]⟩ := by
  have hfind : (Database.mk (old ++ [t])).table? t.name = some t := by
    have hnone : old.find? (fun u => sameName u.name t.name) = none := ht.table?
    simp [Database.table?, List.find?_append, hnone]
  have hput : ∀ t' : Table, t'.name = t.name →
      (Database.mk (old ++ [t])).put t' = ⟨old ++ [t']⟩ := by
    intro t' hname
    have hmap : old.map (fun u => if sameName u.name t.name then t' else u) = old := by
      refine (List.map_congr_left fun u hu => ?_).trans (List.map_id old)
      have := List.find?_eq_none.mp ht.table? u hu
      simp_all
    simp [put, hname, hmap]
  have hclash : hasClash index t.rows = false := by simp [hrows, hasClash]
  have htable : (Database.mk (old ++ [t])).table t.name = .ok t := by simp [table, hfind]
  simp [createIndex, htable, bind, Except.bind, hreserved, h.table?, h.hasIndex, hclash, hput]

/-! ## Running statements -/

/-- A name in lower case that needs no care between quotes. -/
def Plain (name : String) : Prop :=
  (name.toList.all fun c => c != '"' && c.toLower == c) = true

instance (name : String) : Decidable (Plain name) := inferInstanceAs (Decidable (_ = true))

theorem plain_iff : Plain name ↔ ∀ c ∈ name.toList, c ≠ '"' ∧ c.toLower = c := by
  simp [Plain]

theorem readName_of_plain {sql lead : String} (h : Plain name) :
    readName sql lead name = .ok name := by
  have hquote : '"' ∉ name.toList := fun hmem => (plain_iff.mp h _ hmem).1 rfl
  simp [readName, nameOf?_of_notMem hquote]

theorem Plain.asciiLower (h : Plain name) : Text.asciiLower name = name := by
  rw [Text.asciiLower, List.map_congr_left fun c hc => (plain_iff.mp h c hc).2, List.map_id',
    String.ofList_toList]

theorem run_table {sql : String} {columns : List ColumnSpec} (h : Plain name)
    (hcolumns : ∀ c ∈ columns, Plain c.name) :
    db.run sql (.table name columns) = db.createTable name columns := by
  have hread : ∀ lead : String, columns.mapM (fun c => do
      let name ← readName sql lead c.name
      (.ok { c with name } : Except EngineError ColumnSpec)) = .ok columns := fun lead =>
    mapM_ok_self fun c hc => by
      rw [readName_of_plain (hcolumns c hc)]
      rfl
  simp only [run, readName_of_plain h, bind, Except.bind] at hread ⊢
  rw [hread]

theorem run_index {sql table : String} {unique : Bool} {columns : List String} (h : Plain name)
    (htable : Plain table) (hcolumns : ∀ c ∈ columns, Plain c) (hne : columns ≠ []) :
    db.run sql (.index unique name table columns) =
      db.createIndex ⟨name, columns, unique⟩ table := by
  have hread : ∀ lead : String, columns.mapM (readName sql lead) = .ok columns := fun lead =>
    mapM_ok_self fun c hc => readName_of_plain (hcolumns c hc)
  have hempty : columns.isEmpty = false := by simpa using hne
  simp [run, readName_of_plain h, readName_of_plain htable, bind, Except.bind, hempty, hread]

variable {statement : Statement} {lead text : String} {rest : List (Statement × String)}

theorem runBatch_cons {db' : Database} (h : ∀ sql, db.run sql statement = .ok db') :
    db.runBatch lead ((statement, text) :: rest) = db'.runBatch "\n" rest := by
  simp [runBatch, h, bind, Except.bind]

/-- Plain names are the same only if they are equal. -/
theorem sameName_of_ne {a b : String} (ha : Plain a) (hb : Plain b) (h : a ≠ b) :
    sameName a b = false := by
  simpa [sameName, ha.asciiLower, hb.asciiLower] using h

end Database

/-- The tables of a kind without rows. -/
def Descriptor.emptyTables (kind : RecordKind) : List Table :=
  (Descriptor.shipped kind).recordTable [] ::
    if kind.Recorded then [journalTable (journalName kind) []] else []

namespace Database

/-- The tables of the shipped kinds without rows. -/
def initial : Database := ⟨RecordKind.all.flatMap Descriptor.emptyTables⟩

/-- The names that the tables of a kind take. -/
def namesOf (kind : RecordKind) : List String := names ⟨Descriptor.emptyTables kind⟩

theorem nodup_allNames : (RecordKind.all.flatMap namesOf).Nodup := by decide +kernel

theorem nodup_namesOf (kind : RecordKind) : (namesOf kind).Nodup := by
  refine (List.nodup_flatMap.mp nodup_allNames).1 kind ?_
  cases kind <;> decide

/-- The columns of a journal. -/
def journalColumns : List String := ["_id", "_created", "items"]

/-- All names in the statements of a kind are plain. -/
theorem plain_shipped (kind : RecordKind) :
    (∀ name ∈ namesOf kind, Plain name) ∧
      (∀ f ∈ (Descriptor.shipped kind).fields, Plain f.name) ∧
        ∀ name ∈ journalColumns, Plain name := by
  cases kind <;> decide +kernel

theorem plain_namesOf (kind : RecordKind) : ∀ name ∈ namesOf kind, Plain name :=
  (plain_shipped kind).1

variable {db : Database}

/-- The names in a list of tables are those in its parts. -/
theorem fresh_append {old new : List Table} {name : String} :
    Fresh ⟨old ++ new⟩ name ↔ Fresh ⟨old⟩ name ∧ Fresh ⟨new⟩ name := by
  simp only [Fresh, names, List.flatMap_append, List.forall_mem_append]

/-- Names of kinds are the same only if they are equal. -/
theorem sameName_namesOf (kind other : RecordKind) {a b : String} (ha : a ∈ namesOf kind)
    (hb : b ∈ namesOf other) (h : a ≠ b) : sameName a b = false :=
  sameName_of_ne (plain_namesOf kind a ha) (plain_namesOf other b hb) h

/-- The unique index of a kind besides its key. -/
def shippedIndex (kind : RecordKind) : Index :=
  ((Descriptor.shipped kind).recordTable []).indexes.getLast (by simp [Descriptor.recordTable])

/-- A table of records before its index is created. -/
def unindexed (kind : RecordKind) : Table :=
  { (Descriptor.shipped kind).recordTable [] with
    indexes := [primaryIndex (Descriptor.shipped kind).table "_id"] }

/-- A journal before its index is created. -/
def unindexedJournal (kind : RecordKind) : Table :=
  { journalTable (journalName kind) [] with indexes := [] }

theorem recordTable_eq (kind : RecordKind) : (Descriptor.shipped kind).recordTable [] =
    { unindexed kind with indexes := (unindexed kind).indexes ++ [shippedIndex kind] } := by
  cases kind <;> rfl

/-- The names of a kind, each other than those before it. -/
theorem namesOf_eq (kind : RecordKind) :
    namesOf kind = [(Descriptor.shipped kind).table,
      (primaryIndex (Descriptor.shipped kind).table "_id").name, (shippedIndex kind).name] ++
        if kind.Recorded then [journalName kind, journalName kind ++ "_i_id"] else [] := by
  cases kind <;> rfl

theorem reserved_eq_false (kind : RecordKind) : reserved (Descriptor.shipped kind).table = false ∧
    reserved (shippedIndex kind).name = false ∧ reserved (journalName kind) = false ∧
    reserved (journalName kind ++ "_i_id") = false := by
  cases kind <;> decide +kernel

theorem repeatedColumn?_shipped (kind : RecordKind) :
    repeatedColumn? ((Descriptor.shipped kind).fields.map FieldSpec.name) = none := by
  cases kind <;> decide

/-- The statements that create the tables of a kind. -/
theorem sqliteBatch_shipped (kind : RecordKind) : ∃ first second rest,
    (Descriptor.shipped kind).sqliteBatch =
      (.table (Descriptor.shipped kind).table ((Descriptor.shipped kind).fields.map fun f =>
        ⟨f.name, f.notNull, f.name == "_id"⟩), first) ::
      (.index true (shippedIndex kind).name (Descriptor.shipped kind).table
        (shippedIndex kind).columns, second) :: rest ∧
      if kind.Recorded then ∃ third fourth, rest =
        [(.table (journalName kind) [⟨"_id", true, false⟩, ⟨"_created", true, false⟩,
          ⟨"items", true, false⟩], third),
        (.index false (journalName kind ++ "_i_id") (journalName kind) ["_id"], fourth)]
      else rest = [] := by
  cases kind
  · exact ⟨_, _, _, rfl, rfl⟩
  · exact ⟨_, _, _, rfl, _, _, rfl⟩
  · exact ⟨_, _, _, rfl, _, _, rfl⟩
  · exact ⟨_, _, _, rfl, _, _, rfl⟩

theorem shippedIndex_eq (kind : RecordKind) :
    shippedIndex kind = ⟨(shippedIndex kind).name, (shippedIndex kind).columns, true⟩ := by
  cases kind <;> rfl

theorem plain_shippedIndex (kind : RecordKind) :
    (shippedIndex kind).columns ≠ [] ∧ ∀ c ∈ (shippedIndex kind).columns, Plain c := by
  have hfields : (shippedIndex kind).columns ≠ [] ∧
      (shippedIndex kind).columns ⊆ (Descriptor.shipped kind).fields.map FieldSpec.name := by
    cases kind <;> decide
  refine ⟨hfields.1, fun c hc => ?_⟩
  obtain ⟨f, hf, rfl⟩ := List.mem_map.mp (hfields.2 hc)
  exact (plain_shipped kind).2.1 f hf

section Kind

variable {kind : RecordKind} (h : ∀ name ∈ namesOf kind, db.Fresh name)
include h

/-- Creating the table of records of a kind. -/
theorem createTable_shipped :
    db.createTable (Descriptor.shipped kind).table ((Descriptor.shipped kind).fields.map fun f =>
      ⟨f.name, f.notNull, f.name == "_id"⟩) = .ok ⟨db.tables ++ [unindexed kind]⟩ := by
  have hfresh : freshTable (Descriptor.shipped kind).table
      ((Descriptor.shipped kind).fields.map fun f => ⟨f.name, f.notNull, f.name == "_id"⟩) =
      unindexed kind := by
    cases kind <;> rfl
  rw [← hfresh]
  refine createTable_of_fresh (h _ (by simp [namesOf_eq])) (reserved_eq_false kind).1 ?_
  simpa [Function.comp_def] using repeatedColumn?_shipped kind

/-- Creating its unique index. -/
theorem createIndex_shipped :
    (Database.mk (db.tables ++ [unindexed kind])).createIndex (shippedIndex kind)
      (Descriptor.shipped kind).table =
      .ok ⟨db.tables ++ [(Descriptor.shipped kind).recordTable []]⟩ := by
  have htable : (unindexed kind).name ∈ namesOf kind := by
    simp [namesOf_eq, unindexed, Descriptor.recordTable]
  have hindex : (shippedIndex kind).name ∈ namesOf kind := by simp [namesOf_eq]
  have hnodup := nodup_namesOf kind
  simp only [namesOf_eq, List.cons_append, List.nil_append, List.nodup_cons, List.mem_cons,
    not_or] at hnodup
  rw [recordTable_eq]
  refine createIndex_of_fresh (h _ htable) rfl ?_ (reserved_eq_false kind).2.1
  refine fresh_append.mpr ⟨h _ hindex, fun taken htaken => ?_⟩
  have htaken : taken = (Descriptor.shipped kind).table ∨
      taken = (primaryIndex (Descriptor.shipped kind).table "_id").name := by
    simpa [names, unindexed, Descriptor.recordTable] using htaken
  rcases htaken with rfl | rfl
  · exact sameName_namesOf kind kind htable hindex hnodup.1.2.1
  · exact sameName_namesOf kind kind (by simp [namesOf_eq]) hindex hnodup.2.1.1

/-- The names of the tables of a kind are none of the further ones. -/
theorem fresh_journal (hrec : kind.Recorded) {name : String}
    (hname : name = journalName kind ∨ name = journalName kind ++ "_i_id") :
    Fresh ⟨db.tables ++ [(Descriptor.shipped kind).recordTable []]⟩ name := by
  have hmem : name ∈ namesOf kind := by rcases hname with rfl | rfl <;> simp [namesOf_eq, hrec]
  have hnodup := nodup_namesOf kind
  rw [namesOf_eq, if_pos hrec] at hnodup
  have hapart := (List.nodup_append.mp hnodup).2.2
  refine fresh_append.mpr ⟨h _ hmem, fun taken htaken => ?_⟩
  have htaken : taken ∈ [(Descriptor.shipped kind).table,
      (primaryIndex (Descriptor.shipped kind).table "_id").name, (shippedIndex kind).name] := by
    rw [recordTable_eq] at htaken
    simpa [names, unindexed, Descriptor.recordTable] using htaken
  refine sameName_namesOf kind kind
    (by rw [namesOf_eq]; exact List.mem_append_left _ htaken) hmem ?_
  exact hapart taken htaken name (by simpa using hname)

/-- Creating the journal of a kind. -/
theorem createTable_journal (hrec : kind.Recorded) :
    (Database.mk (db.tables ++ [(Descriptor.shipped kind).recordTable []])).createTable
      (journalName kind) [⟨"_id", true, false⟩, ⟨"_created", true, false⟩, ⟨"items", true, false⟩] =
      .ok ⟨db.tables ++ [(Descriptor.shipped kind).recordTable []] ++ [unindexedJournal kind]⟩ := by
  refine createTable_of_fresh (fresh_journal h hrec (.inl rfl)) (reserved_eq_false kind).2.2.1 ?_
  decide

/-- Creating its index. -/
theorem createIndex_journal (hrec : kind.Recorded) :
    (Database.mk (db.tables ++ [(Descriptor.shipped kind).recordTable []] ++
      [unindexedJournal kind])).createIndex ⟨journalName kind ++ "_i_id", ["_id"], false⟩
      (journalName kind) = .ok ⟨db.tables ++ Descriptor.emptyTables kind⟩ := by
  have htables : db.tables ++ Descriptor.emptyTables kind =
      db.tables ++ [(Descriptor.shipped kind).recordTable []] ++
        [journalTable (journalName kind) []] := by
    simp [Descriptor.emptyTables, hrec]
  have hnodup := nodup_namesOf kind
  rw [namesOf_eq, if_pos hrec] at hnodup
  have hne : journalName kind ≠ journalName kind ++ "_i_id" := by
    simpa using (List.nodup_append.mp hnodup).2.1
  rw [htables]
  refine createIndex_of_fresh (t := unindexedJournal kind) (fresh_journal h hrec (.inl rfl)) rfl ?_
    (reserved_eq_false kind).2.2.2
  refine fresh_append.mpr ⟨fresh_journal h hrec (.inr rfl), fun taken htaken => ?_⟩
  have htaken : taken = journalName kind := by
    simpa [names, unindexedJournal, journalTable] using htaken
  rw [htaken]
  exact sameName_namesOf kind kind (by simp [namesOf_eq, hrec])
    (by simp [namesOf_eq, hrec]) hne

/-- The statements of a kind create its tables after the others. -/
theorem runBatch_shipped :
    db.runBatch "" (Descriptor.shipped kind).sqliteBatch =
      .ok ⟨db.tables ++ Descriptor.emptyTables kind⟩ := by
  obtain ⟨hplain, hfields, hcolumns⟩ := plain_shipped kind
  obtain ⟨first, second, rest, hbatch, hrest⟩ := sqliteBatch_shipped kind
  have hrecords : ∀ sql, db.run sql (.table (Descriptor.shipped kind).table
      ((Descriptor.shipped kind).fields.map fun f => ⟨f.name, f.notNull, f.name == "_id"⟩)) =
      .ok ⟨db.tables ++ [unindexed kind]⟩ := by
    intro sql
    rw [run_table (hplain _ (by simp [namesOf_eq])) (by simpa using hfields)]
    exact createTable_shipped h
  have hindex : ∀ sql, (Database.mk (db.tables ++ [unindexed kind])).run sql
      (.index true (shippedIndex kind).name (Descriptor.shipped kind).table
        (shippedIndex kind).columns) =
      .ok ⟨db.tables ++ [(Descriptor.shipped kind).recordTable []]⟩ := by
    intro sql
    rw [run_index (hplain _ (by simp [namesOf_eq])) (hplain _ (by simp [namesOf_eq]))
      (plain_shippedIndex kind).2 (plain_shippedIndex kind).1, ← shippedIndex_eq]
    exact createIndex_shipped h
  rw [hbatch, runBatch_cons hrecords, runBatch_cons hindex]
  split at hrest
  · next hrec =>
    obtain ⟨third, fourth, rfl⟩ := hrest
    have hjournal : ∀ sql,
        (Database.mk (db.tables ++ [(Descriptor.shipped kind).recordTable []])).run
        sql (.table (journalName kind) [⟨"_id", true, false⟩, ⟨"_created", true, false⟩,
          ⟨"items", true, false⟩]) =
        .ok ⟨db.tables ++ [(Descriptor.shipped kind).recordTable []] ++
          [unindexedJournal kind]⟩ := by
      intro sql
      rw [run_table (hplain _ (by simp [namesOf_eq, hrec])) (by simpa [journalColumns] using hcolumns)]
      exact createTable_journal h hrec
    have hjournalIndex : ∀ sql, (Database.mk (db.tables ++
        [(Descriptor.shipped kind).recordTable []] ++ [unindexedJournal kind])).run sql
        (.index false (journalName kind ++ "_i_id") (journalName kind) ["_id"]) =
        .ok ⟨db.tables ++ Descriptor.emptyTables kind⟩ := by
      intro sql
      rw [run_index (hplain _ (by simp [namesOf_eq, hrec])) (hplain _ (by simp [namesOf_eq, hrec]))
        (by simpa using hcolumns _ List.mem_cons_self) (by simp)]
      exact createIndex_journal h hrec
    rw [runBatch_cons hjournal, runBatch_cons hjournalIndex, runBatch]
  · next hrec => simp [hrest, runBatch, Descriptor.emptyTables, hrec]

end Kind

/-! ## Installing -/

/-- Each kind finds its names fresh among the tables of the other kinds. -/
theorem runBatch_all {done todo : List RecordKind}
    (h : ((done ++ todo).flatMap namesOf).Nodup) :
    (todo.map Descriptor.shipped).foldlM (fun db (d : Descriptor) => db.runBatch "" d.sqliteBatch)
      (Database.mk (done.flatMap Descriptor.emptyTables)) =
      .ok ⟨(done ++ todo).flatMap Descriptor.emptyTables⟩ := by
  induction todo generalizing done with
  | nil => simp [pure, Except.pure]
  | cons kind rest ih =>
    have hfresh : ∀ name ∈ namesOf kind,
        Fresh ⟨done.flatMap Descriptor.emptyTables⟩ name := by
      intro name hname taken htaken
      have htaken : taken ∈ done.flatMap namesOf := by
        simpa [names, namesOf, List.flatMap_assoc] using htaken
      obtain ⟨other, hother, hmem⟩ := List.mem_flatMap.mp htaken
      rw [List.flatMap_append, List.flatMap_cons] at h
      have hne := (List.nodup_append.mp h).2.2 taken htaken name (List.mem_append_left _ hname)
      exact sameName_namesOf other kind hmem hname hne
    rw [List.map_cons, List.foldlM_cons, runBatch_shipped hfresh]
    have happend : done ++ kind :: rest = (done ++ [kind]) ++ rest := by simp
    have hdone : done.flatMap Descriptor.emptyTables ++ Descriptor.emptyTables kind =
        (done ++ [kind]).flatMap Descriptor.emptyTables := by simp
    rw [happend] at h ⊢
    simp only [bind, Except.bind, hdone]
    exact ih h

theorem initial_tables : initial.tables =
    [(Descriptor.shipped .locale).recordTable [],
      (Descriptor.shipped .template).recordTable [], journalTable (journalName .template) [],
      (Descriptor.shipped .email).recordTable [], journalTable (journalName .email) [],
      (Descriptor.shipped .sms).recordTable [], journalTable (journalName .sms) []] := rfl

theorem table?_initial (kind : RecordKind) :
    initial.table? (Descriptor.shipped kind).table =
      some ((Descriptor.shipped kind).recordTable []) := by
  have hjournal : ∀ a b, sameName (journalName a) (Descriptor.shipped b).table = false := by
    intro a b
    rw [sameName_comm]
    exact sameName_table_journal b a
  simp only [table?, initial_tables, List.find?_cons, Descriptor.recordTable_name,
    journalTable_name, hjournal, sameName_table]
  cases kind <;> rfl

theorem table?_initial_journal {kind : RecordKind} (h : kind.Recorded) :
    initial.table? (journalName kind) = some (journalTable (journalName kind) []) := by
  simp only [table?, initial_tables, List.find?_cons, Descriptor.recordTable_name,
    journalTable_name, sameName_table_journal, sameName_journal]
  cases kind with
  | locale => exact absurd rfl h
  | template | email | sms => rfl

@[simp] theorem records_initial (kind : RecordKind) : initial.records kind = [] := by
  simp [records, table?_initial, Descriptor.recordTable]

theorem journal_initial {kind : RecordKind} (h : kind.Recorded) : initial.journal kind = [] := by
  simp [journal, table?_initial_journal h, journalTable]

theorem installed_initial : initial.Installed where
  records_table kind := by rw [table?_initial, records_initial]
  journal_table kind h := by rw [table?_initial_journal h, journal_initial h]

end Database

namespace Store

/-- The store of an installation, without rows. -/
def initial : Store := ⟨.builtin, .initial⟩

theorem install_eq_ok {s : Store} {db : Database}
    (h : s.registry.descriptors.foldlM (fun db (d : Descriptor) => db.runBatch "" d.sqliteBatch)
      s.database = .ok db) : install s = .ok { s with database := db } := by
  unfold install
  rw [h]

/-- Installing into an empty database makes the tables of every kind. -/
theorem install_empty : install ⟨.builtin, .empty⟩ = .ok initial := by
  have hrun := @Database.runBatch_all [] RecordKind.all (by simpa using Database.nodup_allNames)
  rw [List.nil_append, List.flatMap_nil] at hrun
  have hkinds : Registry.builtin.descriptors = RecordKind.all.map Descriptor.shipped := rfl
  rw [← hkinds] at hrun
  exact @install_eq_ok ⟨.builtin, .empty⟩ _ hrun

end Store

/-! ## Installing again -/

namespace Database

variable {db db' : Database}

/-- Creating a table that exists does nothing. -/
theorem createTable_of_isSome {name : String} {columns : List ColumnSpec}
    (h : (db.table? name).isSome = true) (hrun : db.createTable name columns = .ok db') :
    db' = db := by
  unfold createTable at hrun
  split at hrun
  · cases hrun
  · exact (Except.ok.inj hrun).symm

/-- Creating an index that exists does nothing, if it succeeds. -/
theorem createIndex_of_hasIndex {index : Index} {name : String}
    (h : db.hasIndex index.name = true) (hrun : db.createIndex index name = .ok db') :
    db' = db := by
  obtain ⟨t, -, hrun⟩ := bind_eq_ok_iff.mp hrun
  split at hrun
  · cases hrun
  · split at hrun
    · cases hrun
    · exact (Except.ok.inj hrun).symm

/-- Statements that do nothing one by one do nothing together. -/
theorem runBatch_of_run {statements : List (Statement × String)}
    (h : ∀ statement ∈ statements, ∀ sql db', db.run sql statement.1 = .ok db' → db' = db)
    {lead : String} (hrun : db.runBatch lead statements = .ok db') : db' = db := by
  induction statements generalizing lead with
  | nil => exact (Except.ok.inj hrun).symm
  | cons statement rest ih =>
    obtain ⟨hfirst, hrest⟩ := List.forall_mem_cons.mp h
    obtain ⟨db₁, hstatement, hstatements⟩ := bind_eq_ok_iff.mp hrun
    obtain rfl := hfirst _ db₁ hstatement
    exact ih hrest hstatements

theorem hasIndex_of_table? {name : String} {t : Table} {index : Index}
    (h : db.table? name = some t) (hindex : index ∈ t.indexes) : db.hasIndex index.name = true :=
  List.any_eq_true.mpr ⟨t, List.mem_of_find?_eq_some h,
    List.any_eq_true.mpr ⟨index, hindex, sameName_self _⟩⟩

/-- The statements of a kind do nothing when its tables exist. -/
theorem Installed.runBatch_kept (h : db.Installed) (kind : RecordKind)
    (hrun : db.runBatch "" (Descriptor.shipped kind).sqliteBatch = .ok db') : db' = db := by
  obtain ⟨hplain, hfields, hcolumns⟩ := plain_shipped kind
  obtain ⟨first, second, rest, hbatch, hrest⟩ := sqliteBatch_shipped kind
  have htable : (Descriptor.shipped kind).table ∈ namesOf kind := by simp [namesOf_eq]
  have hindex : shippedIndex kind ∈
      ((Descriptor.shipped kind).recordTable (db.records kind)).indexes := by
    have hlast : shippedIndex kind ∈ ((Descriptor.shipped kind).recordTable []).indexes := by
      rw [recordTable_eq]
      exact List.mem_append_right _ (List.mem_singleton_self _)
    exact hlast
  rw [hbatch] at hrun
  refine runBatch_of_run (fun statement hstatement sql db' hrun => ?_) hrun
  rcases List.mem_cons.mp hstatement with rfl | hstatement
  · rw [run_table (hplain _ htable) (by simpa using hfields)] at hrun
    exact createTable_of_isSome (by simp [h.records_table]) hrun
  rcases List.mem_cons.mp hstatement with rfl | hstatement
  · rw [run_index (hplain _ (by simp [namesOf_eq])) (hplain _ htable)
      (plain_shippedIndex kind).2 (plain_shippedIndex kind).1, ← shippedIndex_eq] at hrun
    exact createIndex_of_hasIndex (hasIndex_of_table? (h.records_table kind) hindex) hrun
  split at hrest
  · next hrec =>
    obtain ⟨third, fourth, rfl⟩ := hrest
    have hjournal : journalName kind ∈ namesOf kind := by simp [namesOf_eq, hrec]
    rcases List.mem_pair.mp hstatement with rfl | rfl
    · rw [run_table (hplain _ hjournal) (by simpa [journalColumns] using hcolumns)] at hrun
      exact createTable_of_isSome (by simp [h.journal_table kind hrec]) hrun
    · rw [run_index (hplain _ (by simp [namesOf_eq, hrec])) (hplain _ hjournal)
        (by simpa using hcolumns _ List.mem_cons_self) (by simp)] at hrun
      exact createIndex_of_hasIndex
        (hasIndex_of_table? (h.journal_table kind hrec) (List.mem_singleton_self _)) hrun
  · rw [hrest] at hstatement
    cases hstatement

end Database

namespace Store

variable {s s' : Store}

/-- Installing into an installed store does nothing, if it succeeds. -/
theorem install_installed (hreg : s.registry = .builtin) (h : s.database.Installed)
    (hrun : s.install = .ok s') : s' = s := by
  have hfold : ∀ (kinds : List RecordKind) (db' : Database),
      (kinds.map Descriptor.shipped).foldlM
        (fun db (d : Descriptor) => db.runBatch "" d.sqliteBatch) s.database = .ok db' →
      db' = s.database := by
    intro kinds
    induction kinds with
    | nil => exact fun db' hdb => (Except.ok.inj hdb).symm
    | cons kind rest ih =>
      intro db' hdb
      rw [List.map_cons, List.foldlM_cons] at hdb
      obtain ⟨db₁, hfirst, hdb⟩ := bind_eq_ok_iff.mp hdb
      obtain rfl := h.runBatch_kept kind hfirst
      exact ih db' hdb
  unfold install at hrun
  split at hrun
  · next db hdb =>
    have hkinds : s.registry.descriptors = RecordKind.all.map Descriptor.shipped := by
      rw [hreg]
      rfl
    rw [hkinds] at hdb
    obtain rfl := hfold RecordKind.all db hdb
    exact (Except.ok.inj hrun).symm
  · cases hrun

end Store
end Phrasebook
