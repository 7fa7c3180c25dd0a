import Mathlib.Data.List.Nodup
import Phrasebook.Proofs.Installation
import Phrasebook.Proofs.Keys
import Phrasebook.Proofs.Rows

/-!
# What the operations do

A store holds records: each kind has the rows of its records, and no two of them
agree on a unique index. An operation that succeeds leaves a store that holds other
records, and writes one journal entry for each record it has created, changed or
removed.

## Main definitions

* `Database.Holds`, `Store.Holds`: the records of every kind
* `Database.note`: an entry in the journal of a kind
* `Contents.dropping`: records without those that are dropped
-/
namespace Phrasebook

/-! ## Journals -/

/-- The row that keeps an entry. -/
def ChangeEntry.row (e : ChangeEntry) : Row :=
  [("_id", some e.id.text), ("_created", some e.created.text), ("items", some e.items.text)]

/-- The entry for a new record. -/
def Record.creation (r : Record) (actor : String) (now : Instant) : ChangeEntry :=
  ⟨r.id, now, ⟨actor, .create, r.toFields⟩⟩

/-- The entry for a new version of a record. -/
def Record.revision (r existing : Record) (actor : String) (now : Instant) : ChangeEntry :=
  ⟨r.id, now, ⟨actor, .update, diffFields existing r⟩⟩

/-- The entry for a record that is gone. -/
def Record.removal (r : Record) (actor : String) (now : Instant) : ChangeEntry :=
  ⟨r.id, now, ⟨actor, .delete, []⟩⟩

namespace Database

variable {db : Database} {kind other : RecordKind} {e : ChangeEntry}

/-- Write an entry, if changes of the kind are recorded. -/
def note (db : Database) (kind : RecordKind) (e : ChangeEntry) : Database :=
  if kind.Recorded then db.putJournal kind (db.journal kind ++ [e.row]) else db

@[simp] theorem records_note : (db.note kind e).records = db.records := by
  unfold note
  split <;> simp

theorem Installed.note (h : db.Installed) : (db.note kind e).Installed := by
  unfold Database.note
  split
  · next hrec => exact h.putJournal kind _ hrec
  · exact h

theorem Installed.journal_note (h : db.Installed) (hrec : other.Recorded) :
    (db.note kind e).journal other =
      if other = kind then db.journal other ++ [e.row] else db.journal other := by
  unfold Database.note
  by_cases heq : other = kind
  · subst heq
    simp [hrec, h.journal_putJournal]
  · by_cases hkind : kind.Recorded <;> simp [hkind, h.journal_putJournal, heq]

end Database

/-- Recording a change writes its entry. -/
theorem Store.writeChange_shipped {db : Database} (h : db.Installed) (kind : RecordKind)
    (id : RecordId) (items : ChangeItems) (now : Instant) :
    writeChange db (.shipped kind) id items now = .ok (db.note kind ⟨id, now, items⟩) := by
  unfold writeChange Database.note
  rw [Descriptor.changesTable?_shipped]
  by_cases hrec : kind.Recorded
  · have hinsert : (journalTable (journalName kind) (db.journal kind)).insert
        [("_id", some id.text), ("_created", some now.text), ("items", some items.text)] =
        .ok (journalTable (journalName kind)
          (db.journal kind ++ [(ChangeEntry.mk id now items).row])) := by
      have hrow : (journalTable (journalName kind) (db.journal kind)).rowOf
          [("_id", some id.text), ("_created", some now.text), ("items", some items.text)] =
          (ChangeEntry.mk id now items).row := rfl
      refine Table.insert_eq_ok_iff.mpr ⟨?_, ?_, by rw [hrow]; rfl⟩
      · simp [Table.hasColumn, journalTable]
      · rw [hrow]
        refine Table.check_eq_ok_iff.mpr ⟨?_, ?_⟩
        · simp [journalTable, ChangeEntry.row, Row.cell, Row.value?_cons]
        · simp [journalTable, Table.Agree]
    simp [hrec, Database.insert, Database.table, h.journal_table kind hrec, bind, Except.bind,
      hinsert, Database.putJournal]
  · simp [hrec]

/-! ## Records of a store -/

/-- The records of every kind, in the order of their creation. -/
abbrev Contents := RecordKind → List Record

/-- The records that remain when some are dropped. -/
def Contents.dropping (contents : Contents) (dropped : Record → Bool) : Contents :=
  fun kind => (contents kind).filter fun r => !dropped r

/-- The cell of the key. -/
@[simp] theorem Record.cell_id (r : Record) : Row.cell r.row idField = some r.id.text := by
  obtain ⟨kind, id, created, updated, fields⟩ := r
  cases kind <;> rfl

theorem Record.holds_id {r : Record} {id : RecordId} :
    Table.holds idField id.text r.row = decide (r.id = id) := by
  simp [Table.holds, beq_eq_decide]

theorem Record.holds_id_comp (id : RecordId) :
    Table.holds idField id.text ∘ row = fun r => decide (r.id = id) :=
  funext fun _ => holds_id

theorem Descriptor.primaryIndex_mem (kind : RecordKind) :
    Database.primaryIndex (shipped kind).table idField ∈ ((shipped kind).recordTable []).indexes :=
  List.mem_cons_self

/-- Rows agree on the primary index if they have the same key. -/
theorem Table.agree_primary {table : String} {a b : Row} :
    Agree (Database.primaryIndex table idField) a b ↔
      (Row.cell a idField).isSome = true ∧ Row.cell a idField = Row.cell b idField := by
  have hkey : ∀ row : Row,
      keyOf (Database.primaryIndex table idField) row = [Row.cell row idField] :=
    fun row => rfl
  have hunique : (Database.primaryIndex table idField).unique = true := rfl
  rw [Agree, hkey, hkey, hunique]
  simp

/-- The tables hold the rows of the records, which keep the constraints. -/
structure Database.Holds (db : Database) (contents : Contents) : Prop where
  installed : db.Installed
  records_eq : ∀ kind, db.records kind = (contents kind).map Record.row
  kind_eq : ∀ kind, ∀ r ∈ contents kind, r.kind = kind
  distinct : ∀ kind, ((Descriptor.shipped kind).recordTable []).Distinct (db.records kind)

/-- A store over the shipped definitions that holds records. -/
structure Store.Holds (s : Store) (contents : Contents) : Prop where
  registry_eq : s.registry = .builtin
  database : s.database.Holds contents

theorem Store.holds_initial : Store.initial.Holds fun _ => [] where
  registry_eq := rfl
  database :=
    { installed := Database.installed_initial
      records_eq := by simp [Store.initial]
      kind_eq := by simp
      distinct := by simp [Store.initial, Table.Distinct] }

namespace Database.Holds

variable {db : Database} {contents : Contents} {kind : RecordKind}

/-- Two records of a kind have different keys. -/
theorem pairwise_id (h : db.Holds contents) (kind : RecordKind) :
    (contents kind).Pairwise fun a b => a.id ≠ b.id := by
  have hdistinct := h.distinct kind _ (Descriptor.primaryIndex_mem kind)
  rw [h.records_eq, List.pairwise_map] at hdistinct
  refine hdistinct.imp fun {a b} hagree hid => hagree (Table.agree_primary.mpr ?_)
  simp [hid]

/-- Records of a kind with the same key are the same. -/
theorem eq_of_id (h : db.Holds contents) {a b : Record} (ha : a ∈ contents kind)
    (hb : b ∈ contents kind) (hid : a.id = b.id) : a = b := by
  have hnodup : ((contents kind).map Record.id).Nodup := List.pairwise_map.mpr (h.pairwise_id kind)
  exact List.inj_on_of_nodup_map hnodup ha hb hid

theorem filter_id (h : db.Holds contents) {r : Record} (hmem : r ∈ contents kind) :
    (contents kind).filter (fun stored => decide (stored.id = r.id)) = [r] := by
  have hne := h.pairwise_id kind
  generalize contents kind = rs at hmem hne
  induction rs with
  | nil => cases hmem
  | cons first rest ih =>
    obtain ⟨hfirst, hrest⟩ := List.pairwise_cons.mp hne
    rcases List.mem_cons.mp hmem with rfl | hmem
    · have hnone : rest.filter (fun stored => decide (stored.id = r.id)) = [] := by
        refine List.filter_eq_nil_iff.mpr fun stored hstored => ?_
        simpa using (hfirst stored hstored).symm
      simp [hnone]
    · rw [List.filter_cons_of_neg (by simpa using hfirst r hmem)]
      exact ih hmem hrest

/-- The rows of a key are those of the records with that key. -/
theorem rows_of_id (h : db.Holds contents) (kind : RecordKind) (id : RecordId) :
    (db.records kind).filter (Table.holds idField id.text) =
      ((contents kind).filter fun stored => decide (stored.id = id)).map Record.row := by
  rw [h.records_eq, List.filter_map, Record.holds_id_comp]

theorem note (h : db.Holds contents) (e : ChangeEntry) : (db.note kind e).Holds contents where
  installed := h.installed.note
  records_eq := by rw [records_note]; exact h.records_eq
  kind_eq := h.kind_eq
  distinct := by rw [records_note]; exact h.distinct

/-- Replacing the rows of a kind by those of other records. -/
theorem putRecords (h : db.Holds contents) {rs : List Record} (hkind : ∀ r ∈ rs, r.kind = kind)
    (hdistinct : ((Descriptor.shipped kind).recordTable []).Distinct (rs.map Record.row)) :
    (db.putRecords kind (rs.map Record.row)).Holds (Function.update contents kind rs) where
  installed := h.installed.putRecords kind _
  records_eq other := by
    rw [h.installed.records_putRecords]
    by_cases heq : other = kind
    · subst heq; simp
    · simp [Function.update_of_ne heq, h.records_eq]
  kind_eq other := by
    by_cases heq : other = kind
    · subst heq; simpa using hkind
    · simpa [Function.update_of_ne heq] using h.kind_eq other
  distinct other := by
    rw [h.installed.records_putRecords]
    by_cases heq : other = kind
    · subst heq; simpa using hdistinct
    · simpa [Function.update_of_ne heq] using h.distinct other

end Database.Holds

/-! ## Create -/

namespace Store

variable {s s' : Store} {contents : Contents} {r : Record} {actor : String} {now : Instant}

theorem descriptor_of_builtin (h : s.registry = .builtin) (kind : RecordKind) :
    s.descriptor kind = .ok (.shipped kind) := by
  simp [descriptor, h]

/-- The store with one record more. -/
def added (s : Store) (r : Record) (actor : String) (now : Instant) : Store :=
  ⟨s.registry, (s.database.putRecords r.kind (s.database.records r.kind ++ [r.row])).note r.kind
    (r.creation actor now)⟩

/-- When its references are stored, creating a record is a matter of checking its row. -/
theorem create_eq (hreg : s.registry = .builtin) (h : s.database.Installed)
    (hrefs : s.checkReferences r (Descriptor.shipped r.kind).referenceFields = .ok ()) :
    s.create r actor now =
      match ((Descriptor.shipped r.kind).recordTable []).check (s.database.records r.kind) r.row with
      | .ok _ => .ok (s.added r actor now)
      | .error failure => .error ((Descriptor.shipped r.kind).storeError failure) := by
  have hcolumns := Descriptor.hasColumn_columnsOf (.shipped r.kind) r (s.database.records r.kind)
    fun f (hf : f ∈ (Descriptor.shipped r.kind).fields) => hf
  have hinsert : ((Descriptor.shipped r.kind).recordTable (s.database.records r.kind)).insert
      (columnsOf r (Descriptor.shipped r.kind).fields) =
      (((Descriptor.shipped r.kind).recordTable []).check (s.database.records r.kind) r.row).map
        fun _ => (Descriptor.shipped r.kind).recordTable (s.database.records r.kind ++ [r.row]) := by
    rw [Table.insert_eq hcolumns, Record.rowOf_columnsOf]
    rfl
  rw [create, descriptor_of_builtin hreg]
  simp only [bind, Except.bind, hrefs, Database.insert, Database.table, h.records_table, hinsert]
  cases ((Descriptor.shipped r.kind).recordTable []).check (s.database.records r.kind) r.row with
  | error failure => rfl
  | ok _ =>
    have hwrite := writeChange_shipped
      (h.putRecords r.kind (s.database.records r.kind ++ [r.row])) r.kind r.id
      ⟨actor, .create, r.toFields⟩ now
    rw [Database.putRecords] at hwrite
    simp only [Except.map, hwrite]
    rfl

/-- A record is created if its references are stored and its row keeps the
constraints. -/
theorem create_eq_ok_iff (hreg : s.registry = .builtin) (h : s.database.Installed) :
    s.create r actor now = .ok s' ↔
      s.checkReferences r (Descriptor.shipped r.kind).referenceFields = .ok () ∧
      ((Descriptor.shipped r.kind).recordTable []).check (s.database.records r.kind) r.row =
        .ok () ∧
      s' = s.added r actor now := by
  cases hrefs : s.checkReferences r (Descriptor.shipped r.kind).referenceFields with
  | error e => simp [create, descriptor_of_builtin hreg, hrefs, bind, Except.bind]
  | ok _ =>
    rw [create_eq hreg h hrefs]
    cases ((Descriptor.shipped r.kind).recordTable []).check (s.database.records r.kind) r.row with
    | error failure => simp
    | ok _ => simp [eq_comm]

/-- A reference that spells a key is checked by looking for a row of the key. -/
theorem checkReference_of_parse (hreg : s.registry = .builtin) (h : s.database.Installed)
    {f : FieldSpec} {target : RecordKind} {raw : String} {parent : RecordId}
    (hraw : r.getStr? f.name = some raw) (hparse : RecordId.parse raw = .ok parent) :
    s.checkReference r f target =
      if (s.database.records target).any (Table.holds idField parent.text) then .ok ()
      else .error (.noRecord target parent) := by
  have hcount : 0 < (((Descriptor.shipped target).recordTable (s.database.records target)).select
      [(idField, parent.text)]).length ↔
      (s.database.records target).any (Table.holds idField parent.text) = true := by
    simp [Table.select, Descriptor.recordTable, List.length_pos_iff_exists_mem]
  rw [checkReference, hraw]
  simp only [parseStoredId, hparse, descriptor_of_builtin hreg, bind, Except.bind, Database.count,
    Database.table, h.records_table, hcount]

/-- A reference is checked by looking up the key it spells. -/
theorem Holds.checkReference_eq_ok_iff (h : s.Holds contents) {f : FieldSpec}
    {target : RecordKind} : s.checkReference r f target = .ok () ↔
      ∀ raw, r.getStr? f.name = some raw →
        ∃ parent ∈ contents target, RecordId.parse raw = .ok parent.id := by
  cases hraw : r.getStr? f.name with
  | none => simp [checkReference, hraw]
  | some raw =>
    cases hparse : RecordId.parse raw with
    | error e => simp [checkReference, hraw, parseStoredId, hparse, bind, Except.bind]
    | ok parent =>
      rw [checkReference_of_parse h.registry_eq h.database.installed hraw hparse,
        h.database.records_eq]
      simp [hparse, Record.holds_id, eq_comm (a := parent)]

/-- References are checked by looking up the keys they spell. -/
theorem Holds.checkReferences_eq_ok_iff (h : s.Holds contents)
    {refs : List (FieldSpec × RecordKind)} : s.checkReferences r refs = .ok () ↔
      ∀ ref ∈ refs, ∀ raw, r.getStr? ref.1.name = some raw →
        ∃ parent ∈ contents ref.2, RecordId.parse raw = .ok parent.id := by
  induction refs with
  | nil => simp [checkReferences]
  | cons ref rest ih =>
    obtain ⟨f, target⟩ := ref
    rw [List.forall_mem_cons, ← ih, ← h.checkReference_eq_ok_iff, checkReferences]
    cases s.checkReference r f target <;> simp [bind, Except.bind]

theorem Holds.added (h : s.Holds contents)
    (hcheck : ((Descriptor.shipped r.kind).recordTable []).check
      ((contents r.kind).map Record.row) r.row = .ok ()) :
    (s.added r actor now).Holds (Function.update contents r.kind (contents r.kind ++ [r])) where
  registry_eq := h.registry_eq
  database := by
    have hrows : s.database.records r.kind ++ [r.row] =
        (contents r.kind ++ [r]).map Record.row := by
      rw [h.database.records_eq, List.map_append]
      rfl
    rw [Store.added, hrows]
    refine (h.database.putRecords ?_ ?_).note _
    · intro stored hstored
      rcases List.mem_append.mp hstored with hstored | hstored
      · exact h.database.kind_eq _ stored hstored
      · rw [List.mem_singleton.mp hstored]
    · rw [List.map_append]
      refine Table.Distinct.append ?_ hcheck
      rw [← h.database.records_eq]
      exact h.database.distinct r.kind

/-- Creating a record leaves a store that holds it after the others. -/
theorem Holds.create (h : s.Holds contents) (hrun : s.create r actor now = .ok s') :
    s'.Holds (Function.update contents r.kind (contents r.kind ++ [r])) := by
  obtain ⟨-, hcheck, rfl⟩ := (create_eq_ok_iff h.registry_eq h.database.installed).mp hrun
  rw [h.database.records_eq] at hcheck
  exact h.added hcheck

theorem journal_added (h : s.database.Installed) {kind : RecordKind} (hrec : kind.Recorded) :
    (s.added r actor now).database.journal kind =
      if kind = r.kind then s.database.journal kind ++
        [(r.creation actor now).row]
      else s.database.journal kind := by
  rw [added, (h.putRecords r.kind _).journal_note hrec, Database.journal_putRecords]

/-! ## Read -/

/-- As many as are asked for. -/
def upTo {α : Type} (limit : Option Nat) (xs : List α) : List α :=
  match limit with
  | some n => xs.take n
  | none => xs

/-- Selecting by declared columns reads the rows that hold the texts in order, as many as are
asked for. -/
theorem select_eq (h : s.database.Installed) (kind : RecordKind)
    {conditions : List (String × String)} {limit : Option Nat}
    (hdeclared : ∀ c ∈ conditions, ((Descriptor.shipped kind).field? c.1).isSome = true)
    (hlimit : ∀ n, limit = some n → n < rowLimit) :
    s.select (.shipped kind) conditions limit =
      (upTo limit (Table.sorted (Descriptor.shipped kind).listOrder
        ((s.database.records kind).filter fun row =>
          conditions.all fun (column, text) => Table.holds column text row))).mapM
        (Descriptor.shipped kind).ofRow := by
  have hnone : conditions.find? (fun (field, _) => ((Descriptor.shipped kind).field? field).isNone) =
      none :=
    List.find?_eq_none.mpr fun c hc => by simpa [Option.isSome_iff_ne_none] using hdeclared c hc
  simp only [bind, Except.bind, select, selectRows, hnone, tableOf, Database.table,
    h.records_table, Table.select, Descriptor.recordTable]
  cases limit with
  | none => rfl
  | some n => simp only [if_pos (hlimit n rfl), upTo]

/-- Selecting one record by declared columns reads the first row that holds the texts. -/
theorem select_first (h : s.database.Installed) (kind : RecordKind)
    {conditions : List (String × String)}
    (hdeclared : ∀ c ∈ conditions, ((Descriptor.shipped kind).field? c.1).isSome = true) :
    s.select (.shipped kind) conditions (some 1) =
      match Table.sorted (Descriptor.shipped kind).listOrder
        ((s.database.records kind).filter fun row =>
          conditions.all fun (column, text) => Table.holds column text row) with
      | [] => .ok []
      | row :: _ => ((Descriptor.shipped kind).ofRow row).map fun r => [r] := by
  have hlimit : ∀ n, some 1 = some n → n < rowLimit := by
    rintro _ ⟨⟩
    decide
  rw [select_eq h kind hdeclared hlimit, upTo]
  split
  · next hnone =>
    rw [hnone]
    rfl
  · next row rest hsome =>
    simp only [hsome, List.take_succ_cons, List.take_zero, List.mapM_cons, List.mapM_nil]
    cases (Descriptor.shipped kind).ofRow row <;> rfl

/-- The record of a key is the one that the first row of the key holds. -/
theorem get_eq (hreg : s.registry = .builtin) (h : s.database.Installed) (kind : RecordKind)
    (id : RecordId) : s.get kind id =
      match Table.sorted (Descriptor.shipped kind).listOrder
        ((s.database.records kind).filter (Table.holds idField id.text)) with
      | [] => .error (.noRecord kind id)
      | row :: _ => (Descriptor.shipped kind).ofRow row := by
  have hfield : ((Descriptor.shipped kind).field? idField).isSome = true := by
    cases kind <;> rfl
  have hdeclared : ∀ c ∈ [(idField, id.text)],
      ((Descriptor.shipped kind).field? c.1).isSome = true :=
    List.forall_mem_singleton.mpr hfield
  have hselect := select_first h kind hdeclared
  simp only [List.all_cons, List.all_nil, Bool.and_true] at hselect
  rw [get, descriptor_of_builtin hreg]
  simp only [bind, Except.bind, hselect]
  cases Table.sorted (Descriptor.shipped kind).listOrder
      ((s.database.records kind).filter (Table.holds idField id.text)) with
  | nil => rfl
  | cons row rest => cases hread : (Descriptor.shipped kind).ofRow row <;> simp [hread, Except.map]

/-- Reading the key of a record reads its row. -/
theorem Holds.get_of_mem (h : s.Holds contents) {kind : RecordKind} (hmem : r ∈ contents kind) :
    s.get kind r.id = (Descriptor.shipped kind).ofRow r.row := by
  rw [get_eq h.registry_eq h.database.installed, h.database.rows_of_id,
    h.database.filter_id hmem]
  simp [Table.sorted]

theorem Holds.get_of_forall (h : s.Holds contents) {kind : RecordKind} {id : RecordId}
    (hid : ∀ stored ∈ contents kind, stored.id ≠ id) :
    s.get kind id = .error (.noRecord kind id) := by
  have hnone : (contents kind).filter (fun stored => decide (stored.id = id)) = [] :=
    List.filter_eq_nil_iff.mpr fun stored hstored => by simpa using hid stored hstored
  rw [get_eq h.registry_eq h.database.installed, h.database.rows_of_id, hnone]
  simp [Table.sorted]

/-! ## Update -/

/-- The store with a new version of a record. -/
def replaced (s : Store) (r existing : Record) (actor : String) (now : Instant) : Store :=
  ⟨s.registry, (s.database.putRecords r.kind ((s.database.records r.kind).map
    (Table.revise (Table.holds idField r.id.text)
      (columnsOf r (updatedColumns (Descriptor.shipped r.kind)))))).note r.kind
    (r.revision existing actor now)⟩

/-- Updating the row of a key makes rows of records from rows of records. -/
theorem Holds.revise_rows (h : s.Holds contents) (r : Record) :
    (s.database.records r.kind).map (Table.revise (Table.holds idField r.id.text)
      (columnsOf r (updatedColumns (Descriptor.shipped r.kind)))) =
      ((contents r.kind).map r.applied).map Record.row := by
  rw [h.database.records_eq, List.map_map, List.map_map]
  refine List.map_congr_left fun stored hstored => ?_
  have hkind := h.database.kind_eq r.kind stored hstored
  simp only [Function.comp_apply, Table.revise, Record.holds_id, Record.applied, decide_eq_true_eq]
  split
  · exact Record.assign_row hkind
  · rfl

/-- Updating a table that is there replaces its rows. -/
theorem database_update_ok {db db' : Database} (h : db.Installed) {kind : RecordKind}
    {column text : String} {given : Assignment} {n : Nat}
    (hrun : db.update (Descriptor.shipped kind).table column text given = .ok (db', n)) :
    db' = db.putRecords kind
        ((db.records kind).map (Table.revise (Table.holds column text) given)) ∧
      (((Descriptor.shipped kind).recordTable []).Distinct (db.records kind) →
        ((Descriptor.shipped kind).recordTable []).Distinct
          ((db.records kind).map (Table.revise (Table.holds column text) given))) := by
  rw [Database.update, Database.table, h.records_table] at hrun
  simp only [bind, Except.bind] at hrun
  cases hupdate :
      ((Descriptor.shipped kind).recordTable (db.records kind)).update column text given with
  | error e => simp [hupdate] at hrun
  | ok result =>
    obtain ⟨t, count⟩ := result
    simp only [hupdate, Except.ok.injEq, Prod.mk.injEq] at hrun
    obtain ⟨rfl, -, hdistinct, -⟩ := Table.update_ok hupdate
    exact ⟨hrun.1.symm, hdistinct⟩

/-- An update that succeeds has read a row of the key and replaces the rows of the key. -/
theorem update_ok (hreg : s.registry = .builtin) (h : s.database.Installed)
    (hrun : s.update r actor now = .ok s') :
    ∃ row ∈ s.database.records r.kind, Row.cell row idField = some r.id.text ∧
      ∃ existing, (Descriptor.shipped r.kind).ofRow row = .ok existing ∧
        existing.isArchived = false ∧
        changedImmutable? (Descriptor.shipped r.kind) existing r = none ∧
        s' = s.replaced r existing actor now ∧
        (((Descriptor.shipped r.kind).recordTable []).Distinct (s.database.records r.kind) →
          ((Descriptor.shipped r.kind).recordTable []).Distinct (s'.database.records r.kind)) := by
  rw [update, get_eq hreg h, descriptor_of_builtin hreg] at hrun
  cases hrows : Table.sorted (Descriptor.shipped r.kind).listOrder
      ((s.database.records r.kind).filter (Table.holds idField r.id.text)) with
  | nil => simp [hrows, bind, Except.bind] at hrun
  | cons row rest =>
    have hrow : row ∈ (s.database.records r.kind).filter (Table.holds idField r.id.text) :=
      List.mem_mergeSort.mp (hrows ▸ List.mem_cons_self)
    obtain ⟨hmem, hkey⟩ := List.mem_filter.mp hrow
    refine ⟨row, hmem, by simpa [Table.holds] using hkey, ?_⟩
    simp only [hrows] at hrun
    cases hreads : (Descriptor.shipped r.kind).ofRow row with
    | error e => simp [hreads, bind, Except.bind] at hrun
    | ok existing =>
      simp only [hreads, bind, Except.bind] at hrun
      split at hrun
      · cases hrun
      · next harchived =>
        split at hrun
        · cases hrun
        · next hchanged =>
          split at hrun
          · cases hrun
          · next db count hupdate =>
            obtain ⟨rfl, hdistinct⟩ := database_update_ok h hupdate
            split at hrun
            · cases hrun
            · rw [writeChange_shipped (h.putRecords r.kind _)] at hrun
              cases hrun
              refine ⟨existing, rfl, by simpa using harchived, hchanged, rfl, fun hd => ?_⟩
              rw [Database.records_note, h.records_putRecords, Function.update_self]
              exact hdistinct hd

/-- An update that succeeds has read the stored record and replaces its row. -/
theorem Holds.update_ok (h : s.Holds contents) (hrun : s.update r actor now = .ok s') :
    ∃ stored ∈ contents r.kind, stored.id = r.id ∧
      ∃ existing, (Descriptor.shipped r.kind).ofRow stored.row = .ok existing ∧
        existing.isArchived = false ∧
        changedImmutable? (Descriptor.shipped r.kind) existing r = none ∧
        s' = s.replaced r existing actor now ∧
        s'.Holds (Function.update contents r.kind ((contents r.kind).map r.applied)) := by
  have hinstalled := h.database.installed
  obtain ⟨row, hrow, hkey, existing, hreads, harchived, hchanged, rfl, hdistinct⟩ :=
    Store.update_ok h.registry_eq hinstalled hrun
  rw [h.database.records_eq] at hrow
  obtain ⟨stored, hmem, rfl⟩ := List.mem_map.mp hrow
  have hid : stored.id = r.id := by simpa using hkey
  refine ⟨stored, hmem, hid, existing, hreads, harchived, hchanged, rfl, h.registry_eq, ?_⟩
  have hrows := hdistinct (h.database.distinct r.kind)
  rw [replaced, Database.records_note, hinstalled.records_putRecords, Function.update_self,
    h.revise_rows] at hrows
  rw [replaced, h.revise_rows]
  refine (h.database.putRecords ?_ hrows).note _
  intro revised hrevised
  obtain ⟨stored, hstored, rfl⟩ := List.mem_map.mp hrevised
  rw [Record.applied]
  split
  · rfl
  · exact h.database.kind_eq r.kind stored hstored

theorem journal_replaced (h : s.database.Installed) {existing : Record} {kind : RecordKind}
    (hrec : kind.Recorded) :
    (s.replaced r existing actor now).database.journal kind =
      if kind = r.kind then s.database.journal kind ++ [(r.revision existing actor now).row]
      else s.database.journal kind := by
  rw [replaced, (h.putRecords r.kind _).journal_note hrec, Database.journal_putRecords]

end Store
end Phrasebook
