import Phrasebook.Proofs.Installed
import Phrasebook.Proofs.Keys
import Phrasebook.Proofs.Registries

/-!
# References between records

A deletion takes the records along that refer to the deleted one by a cascading field, and
is refused while others refer to it. References to the records taken along are not followed:
every reference of the store still leads to a record just when none leads to those.

## Main definitions

* `Registry.Apart`: every kind has a table for its records alone
* `Reference`, `Store.references`: what the rows of a store refer to
* `Store.Intact`: every reference leads to a stored record
* `Store.TakesAlong`: what a deletion removes besides the record itself
-/
namespace Phrasebook

/-! ## Texts of keys -/

namespace RecordId

/-- A text is read as the key of another text. -/
def Spells (raw key : String) : Prop := ∃ id, parse raw = .ok id ∧ id.text = key

/-- A text is the text of a key. -/
def Canonical (text : String) : Prop := ∃ id : RecordId, id.text = text

variable {raw key text : String}

theorem Spells.canonical (h : Spells raw key) : Canonical key := by
  obtain ⟨id, -, hkey⟩ := h
  exact ⟨id, hkey⟩

/-- The text of a key spells itself and nothing else. -/
theorem Canonical.spells_iff (h : Canonical text) : Spells text key ↔ text = key := by
  obtain ⟨id, rfl⟩ := h
  simp [Spells]

instance : Decidable (Spells raw key) := decidable_of_iff _ map_eq_ok_iff

instance : Decidable (Canonical text) :=
  decidable_of_iff (Spells text text) ⟨Spells.canonical, fun h => h.spells_iff.mpr rfl⟩

end RecordId

/-- A row has a key in its canonical text. -/
def Row.Keyed (row : Row) : Prop := ∃ key ∈ Row.cell row idField, RecordId.Canonical key

instance (row : Row) : Decidable row.Keyed :=
  inferInstanceAs (Decidable (∃ key ∈ Row.cell row idField, RecordId.Canonical key))

/-! ## Tables of a registry -/

/-- Every kind has a table for its records alone. -/
structure Registry.Apart (registry : Registry) : Prop where
  /-- No two kinds share a table. -/
  records : ∀ d ∈ registry.descriptors, ∀ e ∈ registry.descriptors,
    sameName d.table e.table = true → d.kind = e.kind
  /-- Changes are recorded elsewhere. -/
  changes : ∀ d ∈ registry.descriptors, ∀ e ∈ registry.descriptors,
    ∀ name ∈ d.changesTable?, sameName name e.table = false

theorem Registry.apart_builtin : builtin.Apart :=
  ⟨by decide +kernel, by decide +kernel⟩

/-! ## Rows of a table -/

/-- The rows of the table of a name. -/
def Database.rowsOf (db : Database) (name : String) : List Row :=
  ((db.table? name).map Table.rows).getD []

namespace Database

variable {db db' : Database} {t t' : Table} {name other : String}

/-- A row is inserted into the table of the name. -/
theorem insert_ok {given : Assignment} (h : db.insert name given = .ok db') :
    ∃ t t', db.table? name = some t ∧ t.insert given = .ok t' ∧ db' = db.put t' := by
  obtain ⟨t, ht, h⟩ := bind_eq_ok_iff.mp h
  obtain ⟨t', hinsert, h⟩ := bind_eq_ok_iff.mp h
  cases h
  exact ⟨t, t', table_eq_ok_iff.mp ht, hinsert, rfl⟩

/-- Replacing a table replaces its rows and no others. -/
theorem rowsOf_put (h : db.table? name = some t) (hname : t'.name = t.name) :
    (db.put t').rowsOf other = if sameName name other then t'.rows else db.rowsOf other := by
  have hself := sameName_iff.mp (sameName_of_table? h)
  have hsame : sameName t'.name other = sameName name other := by
    rw [hname, sameName, sameName, hself]
  rw [rowsOf, table?_put, hsame]
  split
  · next hother => simp [← table?_congr hother, h]
  · rfl

/-- Of the rows of every kind those with certain keys are removed, and no others. -/
def Removes (db : Database) (registry : Registry) (gone : RecordKind → String → Prop)
    (db' : Database) : Prop :=
  ∀ d ∈ registry.descriptors, ∀ row, row ∈ db'.rowsOf d.table ↔
    row ∈ db.rowsOf d.table ∧ ∀ key, Row.cell row idField = some key → ¬ gone d.kind key

variable {registry : Registry} {gone gone' : RecordKind → String → Prop} {db'' : Database}

theorem Removes.of_none (h : ∀ kind key, ¬ gone kind key) : db.Removes registry gone db :=
  fun _ _ _ => by simp [h]

theorem Removes.trans (h : db.Removes registry gone db') (h' : db'.Removes registry gone' db'') :
    db.Removes registry (fun kind key => gone kind key ∨ gone' kind key) db'' := by
  intro d hd row
  rw [h' d hd, h d hd, and_assoc, ← forall_and]
  simp only [← imp_and, not_or]

theorem Removes.congr (h : db.Removes registry gone db')
    (hgone : ∀ kind key, gone kind key ↔ gone' kind key) : db.Removes registry gone' db' := by
  intro d hd row
  simp only [h d hd, hgone]

end Database

/-! ## References -/

/-- A row refers to a key. -/
structure Reference where
  /-- The kind of the row. -/
  kind : RecordKind
  row : Row
  /-- The field that refers. -/
  field : FieldSpec
  /-- The kind referred to. -/
  target : RecordKind
  key : String
  deriving DecidableEq, Repr

/-- The references of the rows of a kind by one of its fields. -/
def Database.referencesBy (db : Database) (d : Descriptor) (f : FieldSpec)
    (target : RecordKind) : List Reference :=
  (db.rowsOf d.table).filterMap fun row =>
    (Row.cell row f.name).map fun key => ⟨d.kind, row, f, target, key⟩

namespace Store

/-- All references of the stored rows. -/
def references (s : Store) : List Reference :=
  s.registry.descriptors.flatMap fun d =>
    d.referenceFields.flatMap fun (f, target) => s.database.referencesBy d f target

/-- A row of a kind has a key. -/
def Stores (s : Store) (kind : RecordKind) (key : String) : Prop :=
  ∃ d ∈ s.registry.descriptors, d.kind = kind ∧
    ∃ row ∈ s.database.rowsOf d.table, Row.cell row idField = some key

/-- Every reference is the text of the key of a stored record. -/
def Intact (s : Store) : Prop :=
  ∀ ref ∈ s.references, RecordId.Canonical ref.key ∧ s.Stores ref.target ref.key

instance (s : Store) (kind : RecordKind) (key : String) : Decidable (s.Stores kind key) :=
  inferInstanceAs (Decidable (∃ d ∈ _, _ ∧ ∃ row ∈ _, _))

instance (s : Store) : Decidable s.Intact :=
  inferInstanceAs (Decidable (∀ ref ∈ _, _ ∧ _))

end Store

/-- The deletion of a record follows the reference. -/
structure Reference.Follows (ref : Reference) (kind : RecordKind) (id : RecordId) : Prop where
  target_eq : ref.target = kind
  key_eq : ref.key = id.text
  cascade : ref.field.onDelete = .cascade

instance (ref : Reference) (kind : RecordKind) (id : RecordId) :
    Decidable (ref.Follows kind id) :=
  decidable_of_iff (ref.target = kind ∧ ref.key = id.text ∧ ref.field.onDelete = .cascade)
    ⟨fun h => ⟨h.1, h.2.1, h.2.2⟩, fun h => ⟨h.target_eq, h.key_eq, h.cascade⟩⟩

/-- Deleting a record removes a key with it: the row of a reference that is followed spells
the key. -/
def Store.TakesAlong (s : Store) (kind : RecordKind) (id : RecordId) (child : RecordKind)
    (key : String) : Prop :=
  ∃ ref ∈ s.references, ref.Follows kind id ∧ ref.kind = child ∧
    ∃ raw ∈ Row.cell ref.row idField, RecordId.Spells raw key

instance (s : Store) (kind child : RecordKind) (id : RecordId) (key : String) :
    Decidable (s.TakesAlong kind id child key) :=
  inferInstanceAs (Decidable (∃ ref ∈ s.references, ref.Follows kind id ∧ ref.kind = child ∧
    ∃ raw ∈ Row.cell ref.row idField, RecordId.Spells raw key))

theorem Store.mem_references {s : Store} {ref : Reference} : ref ∈ s.references ↔
    ∃ d ∈ s.registry.descriptors, d.kind = ref.kind ∧
      (ref.field, ref.target) ∈ d.referenceFields ∧ ref.row ∈ s.database.rowsOf d.table ∧
      Row.cell ref.row ref.field.name = some ref.key := by
  simp only [references, Database.referencesBy, List.mem_flatMap, List.mem_filterMap,
    Option.map_eq_some_iff, Prod.exists]
  constructor
  · rintro ⟨d, hd, f, target, href, row, hrow, key, hkey, rfl⟩
    exact ⟨d, hd, rfl, href, hrow, hkey⟩
  · rintro ⟨d, hd, hkind, href, hrow, hkey⟩
    exact ⟨d, hd, ref.field, ref.target, href, ref.row, hrow, ref.key, hkey, by rw [hkind]⟩

namespace Store

variable {s s' : Store} {gone : RecordKind → String → Prop} {kind child : RecordKind}
  {id : RecordId} {key : String} {ref : Reference}

theorem TakesAlong.canonical (h : s.TakesAlong kind id child key) : RecordId.Canonical key := by
  obtain ⟨ref, -, -, -, raw, -, hspells⟩ := h
  exact hspells.canonical

/-- The references that are left are those of the rows whose keys stay. -/
theorem mem_references_iff (hreg : s'.registry = s.registry)
    (h : s.database.Removes s.registry gone s'.database) : ref ∈ s'.references ↔
      ref ∈ s.references ∧ ∀ key, Row.cell ref.row idField = some key → ¬ gone ref.kind key := by
  simp only [mem_references, hreg]
  constructor
  · rintro ⟨d, hd, hkind, hfield, hrow, hcell⟩
    obtain ⟨hrow, hstays⟩ := (h d hd ref.row).mp hrow
    exact ⟨⟨d, hd, hkind, hfield, hrow, hcell⟩, hkind ▸ hstays⟩
  · rintro ⟨⟨d, hd, hkind, hfield, hrow, hcell⟩, hstays⟩
    exact ⟨d, hd, hkind, hfield, (h d hd ref.row).mpr ⟨hrow, hkind ▸ hstays⟩, hcell⟩

theorem stores_iff (hreg : s'.registry = s.registry)
    (h : s.database.Removes s.registry gone s'.database) :
    s'.Stores kind key ↔ s.Stores kind key ∧ ¬ gone kind key := by
  simp only [Stores, hreg]
  constructor
  · rintro ⟨d, hd, rfl, row, hrow, hcell⟩
    obtain ⟨hrow, hstays⟩ := (h d hd row).mp hrow
    exact ⟨⟨d, hd, rfl, row, hrow, hcell⟩, hstays key hcell⟩
  · rintro ⟨⟨d, hd, rfl, row, hrow, hcell⟩, hstays⟩
    refine ⟨d, hd, rfl, row, (h d hd row).mpr ⟨hrow, fun key' hcell' => ?_⟩, hcell⟩
    rw [hcell] at hcell'
    cases hcell'
    exact hstays

end Store

/-! ## Parts of a deletion -/

/-- The keys spelled by the rows that hold a key in one of some cascading fields. -/
def Database.Follows (db : Database) (registry : Registry) (id : RecordId)
    (refs : List (RecordKind × FieldSpec)) (kind : RecordKind) (key : String) : Prop :=
  ∃ d ∈ registry.descriptors, d.kind = kind ∧ ∃ f, (d.kind, f) ∈ refs ∧ f.onDelete = .cascade ∧
    ∃ row ∈ db.rowsOf d.table, Row.cell row f.name = some id.text ∧
      ∃ raw, Row.cell row idField = some raw ∧ RecordId.Spells raw key

namespace Database

variable {db db₁ : Database} {registry : Registry} {id : RecordId}
  {ref : RecordKind × FieldSpec} {refs rest : List (RecordKind × FieldSpec)} {kind : RecordKind}
  {key : String}

theorem Follows.canonical (h : db.Follows registry id refs kind key) :
    RecordId.Canonical key := by
  obtain ⟨d, -, -, f, -, -, row, -, -, raw, -, hspells⟩ := h
  exact hspells.canonical

/-- Later fields are followed in what the first one has left; all the same, the keys that go
are those that the rows before spell. -/
theorem follows_cons (h : db.Removes registry (db.Follows registry id [ref]) db₁) :
    db.Follows registry id (ref :: rest) kind key ↔
      db.Follows registry id [ref] kind key ∨ db₁.Follows registry id rest kind key := by
  constructor
  · rintro ⟨d, hd, rfl, f, hf, hcascade, row, hrow, hcell, raw, hraw, hspells⟩
    -- A row that is gone already spelled no other key than its own, which went with it.
    by_cases hgone : db.Follows registry id [ref] d.kind raw
    · rw [hgone.canonical.spells_iff] at hspells
      exact .inl (hspells ▸ hgone)
    · rcases List.mem_cons.mp hf with heq | hf
      · exact .inl ⟨d, hd, rfl, f, List.mem_singleton.mpr heq, hcascade, row, hrow, hcell, raw,
          hraw, hspells⟩
      · have hstays : row ∈ db₁.rowsOf d.table := by
          refine (h d hd row).mpr ⟨hrow, fun key hkey => ?_⟩
          rw [hraw] at hkey
          cases hkey
          exact hgone
        exact .inr ⟨d, hd, rfl, f, hf, hcascade, row, hstays, hcell, raw, hraw, hspells⟩
  · rintro (⟨d, hd, hkind, f, hf, hrest⟩ | ⟨d, hd, hkind, f, hf, hcascade, row, hrow, hcell⟩)
    · exact ⟨d, hd, hkind, f, List.mem_cons.mpr (.inl (List.mem_singleton.mp hf)), hrest⟩
    · exact ⟨d, hd, hkind, f, List.mem_cons_of_mem _ hf, hcascade, row,
        ((h d hd row).mp hrow).1, hcell⟩

end Database

namespace Store

theorem deleteRow_ok {db db' : Database} {d : Descriptor} {id : RecordId} {n : Nat}
    (h : deleteRow db d id = .ok (db', n)) :
    ∃ t, db.table? d.table = some t ∧ db' = db.put (t.delete idField id.text).1 := by
  rw [deleteRow, Database.delete] at h
  cases htable : db.table d.table with
  | error e => simp [htable, bind, Except.bind] at h
  | ok t =>
    simp only [htable, bind, Except.bind] at h
    cases h
    exact ⟨t, Database.table_eq_ok_iff.mp htable, rfl⟩

/-- Recording a change does nothing, if a kind keeps no changes, or adds a row to its
changes. -/
theorem writeChange_ok {db db' : Database} {d : Descriptor} {id : RecordId} {items : ChangeItems}
    {now : Instant} (h : writeChange db d id items now = .ok db') :
    db' = db ∨ ∃ name ∈ d.changesTable?, ∃ given, db.insert name given = .ok db' := by
  unfold writeChange at h
  split at h
  · cases h
    exact .inl rfl
  · next name hname =>
    split at h
    · next hinsert =>
      cases h
      exact .inr ⟨name, hname, _, hinsert⟩
    · cases h

/-- Recording a change leaves tables of other names alone. -/
theorem rowsOf_writeChange {db db' : Database} {d : Descriptor} {id : RecordId}
    {items : ChangeItems} {now : Instant} {name : String}
    (h : writeChange db d id items now = .ok db')
    (hname : ∀ table ∈ d.changesTable?, sameName table name = false) :
    db'.rowsOf name = db.rowsOf name := by
  rcases writeChange_ok h with rfl | ⟨table, htable, given, hinsert⟩
  · rfl
  · obtain ⟨t, t', ht, hrow, rfl⟩ := Database.insert_ok hinsert
    have hself : t'.name = t.name := by rw [(Table.insert_eq_ok_iff.mp hrow).2.2]
    rw [Database.rowsOf_put ht hself, hname table htable]
    rfl

theorem parseStoredId_eq_ok_iff {kind : RecordKind} {raw : String} {id : RecordId} :
    parseStoredId kind raw = .ok id ↔ RecordId.parse raw = .ok id := by
  unfold parseStoredId
  cases RecordId.parse raw <;> simp

theorem textOf_eq_ok_iff {row : Row} {column text : String} :
    textOf row column = .ok text ↔ Row.cell row column = some text := by
  unfold textOf
  cases Row.cell row column <;> simp

/-- The referring keys are those of the rows that hold the key, none of which is null. -/
theorem referringIds_ok {db : Database} {d : Descriptor} {f : FieldSpec} {id : RecordId}
    {keys : List String} (h : referringIds db d f id = .ok keys) :
    (∀ row ∈ db.rowsOf d.table, Row.cell row f.name = some id.text →
      ∃ raw ∈ keys, Row.cell row idField = some raw) ∧
    ∀ raw ∈ keys, ∃ row ∈ db.rowsOf d.table,
      Row.cell row f.name = some id.text ∧ Row.cell row idField = some raw := by
  unfold referringIds at h
  split at h
  · next t htable =>
    have hrows : db.rowsOf d.table = t.rows := by
      simp [Database.rowsOf, Database.table_eq_ok_iff.mp htable]
    have hselect : ∀ row, row ∈ t.select [(f.name, id.text)] ↔
        row ∈ db.rowsOf d.table ∧ Row.cell row f.name = some id.text := by
      simp [Table.select, Table.holds, hrows]
    constructor
    · intro row hrow hcell
      obtain ⟨raw, hraw, htext⟩ := exists_value_of_mem h ((hselect row).mpr ⟨hrow, hcell⟩)
      exact ⟨raw, hraw, textOf_eq_ok_iff.mp htext⟩
    · intro raw hraw
      obtain ⟨row, hrow, htext⟩ := exists_step_of_mem h hraw
      obtain ⟨hmem, hcell⟩ := (hselect row).mp hrow
      exact ⟨row, hmem, hcell, textOf_eq_ok_iff.mp htext⟩
  · cases h

section Accepted

variable {s s' : Store} {ds : List Descriptor} {db db' : Database} {d : Descriptor}
  {kind : RecordKind} {f : FieldSpec} {id : RecordId} {actor : String} {now : Instant} {n : Nat}
  (hreg : Registry.ofDescriptors ds = .ok s.registry) (hapart : s.registry.Apart)

include hreg in
theorem descriptor_of_mem (hd : d ∈ s.registry.descriptors) : s.descriptor d.kind = .ok d := by
  rw [descriptor, Registry.descriptor, Registry.get?_of_mem hreg hd]

theorem mem_of_descriptor (h : s.descriptor kind = .ok d) :
    d ∈ s.registry.descriptors ∧ d.kind = kind := by
  rw [descriptor, Registry.descriptor] at h
  cases hget : s.registry.get? kind with
  | none => simp [hget] at h
  | some e =>
    rw [hget] at h
    cases h
    exact ⟨List.mem_of_find?_eq_some hget, by simpa using List.find?_some hget⟩

include hreg hapart

/-- Deleting the row of a key and recording it removes that key. -/
theorem removes_row {items : ChangeItems} {db'' : Database} (hd : d ∈ s.registry.descriptors)
    (hrow : deleteRow db d id = .ok (db', n))
    (hchange : writeChange db' d id items now = .ok db'') :
    db.Removes s.registry (fun kind key => kind = d.kind ∧ key = id.text) db'' := by
  obtain ⟨t, ht, rfl⟩ := deleteRow_ok hrow
  intro e he row
  rw [rowsOf_writeChange hchange (hapart.changes d hd e he),
    Database.rowsOf_put ht (by rw [Table.delete_rows]), Table.delete_rows]
  by_cases hkind : e.kind = d.kind
  · obtain rfl := Registry.eq_of_kind hreg he hd hkind
    have hrows : db.rowsOf e.table = t.rows := by simp [Database.rowsOf, ht]
    simp only [sameName_self, if_true, List.mem_filter, hrows, Table.holds, Bool.not_eq_true',
      beq_eq_false_iff_ne, ne_eq, true_and]
    refine and_congr_right fun _ => ⟨fun hne key hkey heq => hne (heq ▸ hkey), fun h hkey => ?_⟩
    exact h id.text hkey rfl
  · have hother : sameName d.table e.table = false :=
      Bool.eq_false_iff.mpr fun hsame => hkind (hapart.records d hd e he hsame).symm
    simp [hother, hkind]

/-- Deleting records by their keys removes the keys that are spelled. -/
theorem removes_deleteChildren (hd : d ∈ s.registry.descriptors) {keys : List String}
    (hrun : deleteChildren d actor now db keys = .ok (db', n)) :
    db.Removes s.registry
      (fun kind key => kind = d.kind ∧ ∃ raw ∈ keys, RecordId.Spells raw key) db' := by
  induction keys generalizing db n with
  | nil =>
    cases hrun
    exact .of_none (by simp)
  | cons raw rest ih =>
    simp only [deleteChildren, bind_eq_ok_iff, parseStoredId_eq_ok_iff] at hrun
    obtain ⟨id, hid, ⟨db₁, m⟩, hrow, db₂, hchange, ⟨db₃, k⟩, hrest, hrun⟩ := hrun
    cases hrun
    have hfirst := removes_row hreg hapart hd hrow hchange
    refine (hfirst.trans (ih hrest)).congr fun kind key => ?_
    have hspells : RecordId.Spells raw key ↔ key = id.text := by
      simp [RecordId.Spells, hid, eq_comm]
    simp [hspells, ← and_or_left]

omit hapart in
/-- Following a restricting field removes nothing, and succeeds only if nothing refers. -/
theorem releaseField_ok_of_restrict (hd : d ∈ s.registry.descriptors) (hf : f.onDelete = .restrict)
    (hrun : s.releaseField kind id actor now db d.kind f = .ok (db', n)) :
    db' = db ∧ ∀ row ∈ db.rowsOf d.table, Row.cell row f.name ≠ some id.text := by
  rw [releaseField, descriptor_of_mem hreg hd] at hrun
  simp only [bind, Except.bind, hf] at hrun
  split at hrun
  · cases hrun
  · next count hcount =>
    split at hrun
    · cases hrun
    · next hzero =>
      cases hrun
      refine ⟨rfl, fun row hrow hcell => hzero ?_⟩
      obtain ⟨t, ht, hlength⟩ := bind_eq_ok_iff.mp hcount
      cases hlength
      refine List.length_pos_of_mem (a := row) ?_
      simpa [Table.select, Table.holds, hcell, Database.rowsOf,
        Database.table_eq_ok_iff.mp ht] using hrow

/-- Following a cascading field removes the keys that refer. -/
theorem releaseField_removes_of_cascade (hd : d ∈ s.registry.descriptors)
    (hf : f.onDelete = .cascade)
    (hrun : s.releaseField kind id actor now db d.kind f = .ok (db', n)) :
    db.Removes s.registry (db.Follows s.registry id [(d.kind, f)]) db' := by
  rw [releaseField, descriptor_of_mem hreg hd] at hrun
  simp only [hf] at hrun
  obtain ⟨e, he, hrun⟩ := bind_eq_ok_iff.mp hrun
  cases he
  obtain ⟨keys, hkeys, hrun⟩ := bind_eq_ok_iff.mp hrun
  obtain ⟨hfound, hrefer⟩ := referringIds_ok hkeys
  refine (removes_deleteChildren hreg hapart hd hrun).congr fun other key => ?_
  constructor
  · rintro ⟨rfl, raw, hraw, hspells⟩
    obtain ⟨row, hrow, hcell, hkey⟩ := hrefer raw hraw
    exact ⟨d, hd, rfl, f, List.mem_singleton_self _, hf, row, hrow, hcell, raw, hkey, hspells⟩
  · rintro ⟨e, he, rfl, g, hg, -, row, hrow, hcell, raw, hkey, hspells⟩
    obtain ⟨hkind, rfl⟩ := Prod.mk.inj (List.mem_singleton.mp hg)
    obtain rfl := Registry.eq_of_kind hreg he hd hkind
    obtain ⟨raw', hraw, hkey'⟩ := hfound row hrow hcell
    rw [hkey] at hkey'
    cases hkey'
    exact ⟨rfl, raw, hraw, hspells⟩

/-- Following a cascading field removes the keys that refer, and behind a restricting one
nothing refers. -/
theorem releaseField_removes (hd : d ∈ s.registry.descriptors)
    (hrun : s.releaseField kind id actor now db d.kind f = .ok (db', n)) :
    db.Removes s.registry (db.Follows s.registry id [(d.kind, f)]) db' ∧
      (f.onDelete = .restrict →
        ∀ row ∈ db'.rowsOf d.table, Row.cell row f.name ≠ some id.text) := by
  cases hf : f.onDelete with
  | restrict =>
    obtain ⟨rfl, hnone⟩ := releaseField_ok_of_restrict hreg hd hf hrun
    refine ⟨.of_none ?_, fun _ => hnone⟩
    rintro other key ⟨e, -, -, g, hg, hcascade, -⟩
    obtain ⟨-, rfl⟩ := Prod.mk.inj (List.mem_singleton.mp hg)
    rw [hf] at hcascade
    cases hcascade
  | cascade =>
    exact ⟨releaseField_removes_of_cascade hreg hapart hd hf hrun,
      fun hrestrict => by cases hrestrict⟩

/-- Following fields one after another removes what each of them would remove first. -/
theorem releaseFields_removes {refs : List (RecordKind × FieldSpec)}
    (hrefs : ∀ ref ∈ refs, ∃ d ∈ s.registry.descriptors, d.kind = ref.1)
    (hrun : s.releaseFields kind id actor now db refs = .ok (db', n)) :
    db.Removes s.registry (db.Follows s.registry id refs) db' ∧
      ∀ d ∈ s.registry.descriptors, ∀ f, (d.kind, f) ∈ refs → f.onDelete = .restrict →
        ∀ row ∈ db'.rowsOf d.table, Row.cell row f.name ≠ some id.text := by
  induction refs generalizing db n with
  | nil =>
    cases hrun
    exact ⟨.of_none (by simp [Database.Follows]), by simp⟩
  | cons ref rest ih =>
    obtain ⟨other, f⟩ := ref
    obtain ⟨⟨d, hd, hkind⟩, hrest⟩ := List.forall_mem_cons.mp hrefs
    cases hkind
    obtain ⟨⟨db₁, m⟩, hfirst, hrun⟩ := bind_eq_ok_iff.mp hrun
    obtain ⟨⟨db₂, k⟩, hothers, hrun⟩ := bind_eq_ok_iff.mp hrun
    cases hrun
    obtain ⟨hremoves, hrestrict⟩ := releaseField_removes hreg hapart hd hfirst
    obtain ⟨hremoves', hrestrict'⟩ := ih hrest hothers
    refine ⟨(hremoves.trans hremoves').congr fun _ _ => (Database.follows_cons hremoves).symm,
      fun e he g hg hg' row hrow => ?_⟩
    rcases List.mem_cons.mp hg with heq | hg
    · obtain ⟨hkind, rfl⟩ := Prod.mk.inj heq
      obtain rfl := Registry.eq_of_kind hreg he hd hkind
      -- Rows only go: what referred to nothing when it was checked does so in the end.
      exact hrestrict hg' row ((hremoves' e he row).mp hrow).1
    · exact hrestrict' e he g hg hg' row hrow

omit hapart in
theorem takesAlong_iff {child : RecordKind} {key : String} : s.TakesAlong kind id child key ↔
    s.database.Follows s.registry id (s.registry.referencing kind) child key := by
  constructor
  · rintro ⟨ref, href, hfollows, rfl, raw, hraw, hspells⟩
    obtain ⟨d, hd, hkind, hfield, hrow, hcell⟩ := mem_references.mp href
    rw [hfollows.target_eq] at hfield
    rw [hfollows.key_eq] at hcell
    exact ⟨d, hd, hkind, ref.field, Registry.mem_referencing.mpr ⟨d, hd, rfl, hfield⟩,
      hfollows.cascade, ref.row, hrow, hcell, raw, hraw, hspells⟩
  · rintro ⟨d, hd, rfl, f, hf, hcascade, row, hrow, hcell, raw, hraw, hspells⟩
    obtain ⟨e, he, hkind, hfield⟩ := Registry.mem_referencing.mp hf
    obtain rfl := Registry.eq_of_kind hreg he hd hkind
    have href : ⟨e.kind, row, f, kind, id.text⟩ ∈ s.references :=
      mem_references.mpr ⟨e, hd, rfl, hfield, hrow, hcell⟩
    exact ⟨_, href, ⟨rfl, rfl, hcascade⟩, rfl, raw, hraw, hspells⟩

/-- A deletion removes the record and what it takes along, and nothing else; a restricting
field refers to the record no longer. -/
theorem delete_removes (hrun : s.delete kind id actor now = .ok (s', n)) :
    s'.registry = s.registry ∧
      s.database.Removes s.registry
        (fun other key => s.TakesAlong kind id other key ∨ other = kind ∧ key = id.text)
        s'.database ∧
      ∀ ref ∈ s'.references, ref.target = kind → ref.key = id.text → ref.Follows kind id := by
  obtain ⟨d, hd, hrun⟩ := bind_eq_ok_iff.mp hrun
  obtain ⟨⟨db, removed⟩, hrelease, hrun⟩ := bind_eq_ok_iff.mp hrun
  obtain ⟨⟨db₁, own⟩, hrow, hrun⟩ := bind_eq_ok_iff.mp hrun
  dsimp only at hrun
  split at hrun
  · cases hrun
  · obtain ⟨db₂, hchange, hrun⟩ := bind_eq_ok_iff.mp hrun
    cases hrun
    obtain ⟨hmem, rfl⟩ := mem_of_descriptor hd
    have hrefs : ∀ ref ∈ s.registry.referencing d.kind,
        ∃ e ∈ s.registry.descriptors, e.kind = ref.1 := by
      intro ref href
      obtain ⟨e, he, hkind, -⟩ := Registry.mem_referencing.mp href
      exact ⟨e, he, hkind⟩
    obtain ⟨hremoves, hrestrict⟩ := releaseFields_removes hreg hapart hrefs hrelease
    have hown := removes_row hreg hapart hmem hrow hchange
    refine ⟨rfl, (hremoves.trans hown).congr fun other key => ?_, fun ref href htarget hkey => ?_⟩
    · rw [takesAlong_iff hreg]
    · obtain ⟨e, he, -, hfield, hrow, hcell⟩ := mem_references.mp href
      rw [htarget] at hfield
      rw [hkey] at hcell
      refine ⟨htarget, hkey, ?_⟩
      cases hf : ref.field.onDelete with
      | cascade => rfl
      | restrict =>
        have hstayed : ref.row ∈ db.rowsOf e.table := ((hown e he ref.row).mp hrow).1
        exact absurd hcell (hrestrict e he ref.field
          (Registry.mem_referencing.mpr ⟨e, he, rfl, hfield⟩) hf ref.row hstayed)

/-- A deletion leaves every reference with a stored record, if it has found the rows of the
records taken along by their keys and nothing that stays refers to those. -/
theorem Intact.delete (h : s.Intact) (hrun : s.delete kind id actor now = .ok (s', n))
    (hkeyed : ∀ ref ∈ s.references, ref.Follows kind id → ref.row.Keyed)
    (hfree : ∀ ref ∈ s'.references, ¬ s.TakesAlong kind id ref.target ref.key) : s'.Intact := by
  obtain ⟨hsame, hremoves, hfollows⟩ := delete_removes hreg hapart hrun
  intro ref href
  obtain ⟨hbefore, hstays⟩ := (mem_references_iff hsame hremoves).mp href
  obtain ⟨hcanonical, hstores⟩ := h ref hbefore
  refine ⟨hcanonical, (stores_iff hsame hremoves).mpr ⟨hstores, ?_⟩⟩
  rintro (htakes | ⟨htarget, hkey⟩)
  · exact hfree ref href htakes
  · have hf := hfollows ref href htarget hkey
    obtain ⟨key, hcell, hkey⟩ := hkeyed ref hbefore hf
    exact hstays key hcell (.inl ⟨ref, hbefore, hf, rfl, key, hcell, hkey.spells_iff.mpr rfl⟩)

/-- Every reference still leads to a stored record after a deletion just when the rows of the
records taken along were found by their keys and nothing that stays refers to those. -/
theorem intact_delete_iff (h : s.Intact) (hrun : s.delete kind id actor now = .ok (s', n)) :
    s'.Intact ↔ (∀ ref ∈ s.references, ref.Follows kind id → ref.row.Keyed) ∧
      ∀ ref ∈ s'.references, ¬ s.TakesAlong kind id ref.target ref.key := by
  constructor
  · intro hintact
    obtain ⟨hsame, hremoves, -⟩ := delete_removes hreg hapart hrun
    -- A row that stays refers to a stored key, and so to none of the keys that went.
    have hleads : ∀ ref ∈ s'.references,
        ¬ (s.TakesAlong kind id ref.target ref.key ∨ ref.target = kind ∧ ref.key = id.text) :=
      fun ref href => ((stores_iff hsame hremoves).mp (hintact ref href).2).2
    refine ⟨fun ref href hf => ?_, fun ref href htakes => hleads ref href (.inl htakes)⟩
    by_contra hkey
    have hstays : ref ∈ s'.references := by
      refine (mem_references_iff hsame hremoves).mpr ⟨href, fun key hcell hgone => ?_⟩
      refine hkey ⟨key, hcell, ?_⟩
      rcases hgone with htakes | ⟨-, rfl⟩
      · exact htakes.canonical
      · exact ⟨id, rfl⟩
    exact hleads ref hstays (.inr ⟨hf.target_eq, hf.key_eq⟩)
  · rintro ⟨hkeyed, hfree⟩
    exact h.delete hreg hapart hrun hkeyed hfree

end Accepted

end Store

/-! ## A chain of references -/

/-- A key that repeats one digit. -/
def RecordId.repeating (digit : Nat) : RecordId :=
  .uuid ⟨List.replicate 32 ⟨digit % 16, Nat.mod_lt digit (Nat.succ_pos 15)⟩,
    List.length_replicate⟩

/-- A field that refers to records of a kind. -/
def FieldSpec.link (target : RecordKind) (onDelete : OnDelete) : FieldSpec where
  name := target.shortName
  type := .uuid
  references := some target
  onDelete := onDelete

/-- A definition of a kind by fields that refer to other kinds. -/
def Descriptor.linked (kind : RecordKind) (links : List FieldSpec) : Descriptor where
  kind := kind
  title := kind.name
  fields := [.generatedId, .createdTime, .updatedTime] ++ links
  storage := { table := kind.shortName, charset := "utf8mb4", collate := "utf8mb4_general_ci" }

/-- The row of a record that refers to other ones. -/
def Row.linked (digit : Nat) (links : List (RecordKind × Nat)) : Row :=
  [(idField, some (RecordId.repeating digit).text), (createdField, some (Instant.mk 0 0).text),
      (updatedField, some (Instant.mk 0 0).text)] ++
    links.map fun (target, other) => (target.shortName, some (RecordId.repeating other).text)

/-- Emails go with their templates, and SMS messages with emails. -/
def Descriptor.chain : List Descriptor :=
  [.linked .template [], .linked .email [.link .template .cascade],
    .linked .sms [.link .email .cascade]]

/-- The tables of the chain with some rows each. -/
def Database.chain (templates emails messages : List Row) : Database :=
  ⟨List.zipWith Descriptor.recordTable Descriptor.chain [templates, emails, messages]⟩

/-- Two templates with an email each, and a message that refers to the second email. -/
def Store.chain : Store where
  registry := ⟨Descriptor.chain⟩
  database := .chain [.linked 1 [], .linked 2 []]
    [.linked 3 [(.template, 1)], .linked 4 [(.template, 2)]] [.linked 5 [(.email, 4)]]

/-- Deleting the first template takes its email along, to which nothing refers. -/
theorem Store.intact_chain : ∃ s' n,
    Store.chain.delete .template (.repeating 1) "ann" ⟨0, 0⟩ = .ok (s', n) ∧ s'.Intact := by
  let left : Database := .chain [.linked 2 []] [.linked 4 [(.template, 2)]]
    [.linked 5 [(.email, 4)]]
  have haccepted : Registry.ofDescriptors Descriptor.chain = .ok chain.registry := by
    decide +kernel
  have hapart : chain.registry.Apart := ⟨by decide +kernel, by decide +kernel⟩
  have hrun : chain.delete .template (.repeating 1) "ann" ⟨0, 0⟩ =
      .ok (⟨chain.registry, left⟩, 2) := by
    decide +kernel
  refine ⟨_, _, hrun, ?_⟩
  exact (intact_delete_iff haccepted hapart (by decide +kernel) hrun).mpr
    ⟨by decide +kernel, by decide +kernel⟩

/-- Deleting the second template takes its email along, but not the message that refers to
the email. -/
theorem Store.not_intact_chain :
    Registry.ofDescriptors Descriptor.chain = .ok chain.registry ∧ chain.Intact ∧
      ∃ s' n, chain.delete .template (.repeating 2) "ann" ⟨0, 0⟩ = .ok (s', n) ∧ ¬ s'.Intact := by
  let left : Database := .chain [.linked 1 []] [.linked 3 [(.template, 1)]]
    [.linked 5 [(.email, 4)]]
  have hrun : chain.delete .template (.repeating 2) "ann" ⟨0, 0⟩ =
      .ok (⟨chain.registry, left⟩, 2) := by
    decide +kernel
  exact ⟨by decide +kernel, by decide +kernel, _, _, hrun, by decide +kernel⟩

end Phrasebook
