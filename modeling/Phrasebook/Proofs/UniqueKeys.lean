import Phrasebook.Proofs.Arrangement
import Phrasebook.Proofs.Rows

/-!
# Unique indexes

No two stored rows of a kind ever agree on an index that the kind declares unique, as long
as a statement that takes effect makes some of the fields of the index unique. Where every
kind has tables of its own this is also necessary: an index that is passed over because its
name is taken leaves room for two rows that agree on it.

## Main definitions

* `Store.Unique`: no two rows of a kind agree on a unique index
* `Registry.Enforced`: every unique index is made good by a statement that takes effect
-/
namespace Phrasebook

open Statement (First)

/-- The index that is declared for the table of a kind. -/
def Descriptor.declaredIndex (d : Descriptor) (u : IndexSpec) : Index :=
  ⟨d.indexName u .sqlite, u.fields, u.unique⟩

/-- No two rows of a kind hold the same texts in all fields of a unique index of the kind. -/
def Store.Unique (s : Store) : Prop :=
  ∀ d ∈ s.registry.descriptors, ∀ u ∈ d.storage.indexes,
    (s.database.rowsOf d.table).Pairwise fun a b => ¬ Table.Agree (d.declaredIndex u) a b

/-- A first statement makes some of the fields of the index unique. -/
def Registry.Enforces (registry : Registry) (d : Descriptor) (u : IndexSpec) : Prop :=
  ∃ st ∈ registry.statements, First registry.statements st ∧ ∃ key ∈ st.keys d.table, key ⊆ u.fields

/-- Every index declared unique is enforced. -/
def Registry.Enforced (registry : Registry) : Prop :=
  ∀ d ∈ registry.descriptors, ∀ u ∈ d.storage.indexes, u.unique = true → registry.Enforces d u

instance (index : Index) (a b : Row) : Decidable (Table.Agree index a b) :=
  inferInstanceAs (Decidable (_ ∧ _ ∧ _))

instance (s : Store) : Decidable s.Unique := inferInstanceAs (Decidable (∀ d ∈ _, ∀ u ∈ _, _))

instance (registry : Registry) (d : Descriptor) (u : IndexSpec) :
    Decidable (registry.Enforces d u) :=
  inferInstanceAs (Decidable (∃ st ∈ _, _ ∧ ∃ key ∈ _, _))

instance (registry : Registry) : Decidable registry.Enforced :=
  inferInstanceAs (Decidable (∀ d ∈ _, ∀ u ∈ _, _ → _))

/-! ## Enforced indexes -/

/-- Distinct rows of tables whose unique columns enforce an index do not agree on it. -/
theorem Database.Keyed.unique {s : Store} (h : s.database.Keyed s.registry)
    (henforced : s.registry.Enforced) : s.Unique := by
  intro d hd u hu
  obtain ⟨t, ht, hdistinct, hkeys⟩ := h d hd
  have hrows : s.database.rowsOf d.table = t.rows := by simp [rowsOf, ht]
  rw [hrows]
  by_cases hunique : u.unique = true
  · obtain ⟨st, -, hfirst, key, hkey, hsub⟩ := henforced d hd u hu hunique
    obtain ⟨index, hindex, hindexed, rfl⟩ := (hkeys key).mpr ⟨st, hfirst, hkey⟩
    refine (hdistinct index hindex).imp fun hne hagree => hne ?_
    exact hagree.mono hindexed hsub
  · exact List.pairwise_of_forall fun _ _ hagree => hunique hagree.1

/-- Where all names differ every index is enforced, by its own statement. -/
theorem Registry.enforced_of_names {registry : Registry}
    (h : registry.statements.Pairwise fun a b => sameName a.name b.name = false) :
    registry.Enforced := by
  intro d hd u hu hunique
  have hst : .index u.unique (d.indexName u .sqlite) d.table u.fields ∈ registry.statements :=
    mem_statements.mpr ⟨d, hd, Descriptor.mem_statements.mpr (.inr (.inl ⟨u, hu, rfl⟩))⟩
  refine ⟨_, hst, ?_, u.fields, by simp [Statement.keys, hunique], fun _ => id⟩
  obtain ⟨first, hfirst, hname⟩ := Statement.exists_first hst
  have hsymm : Std.Symm fun a b : Statement => sameName a.name b.name = false :=
    ⟨fun a b hab => sameName_comm a.name b.name ▸ hab⟩
  have heq : first = .index u.unique (d.indexName u .sqlite) d.table u.fields := by
    by_contra hne
    rw [h.forall hfirst.mem hst hne] at hname
    cases hname
  exact heq ▸ hfirst

/-! ## Records that agree on some fields -/

/-- The value of a field in one of two records that agree just on some fields besides the
key. -/
def markedValue (shared : List String) (mark : Bool) (name : String) : Json :=
  if name == idField then .str (RecordId.repeating mark.toNat).text
  else if name == createdField || name == updatedField then
    .str (Instant.mk (mark || shared.contains name).toNat 0).text
  else .bool (mark || shared.contains name)

/-- One of two records that agree just on some fields besides the key. -/
def Descriptor.marked (d : Descriptor) (shared : List String) (mark : Bool) : Record where
  kind := d.kind
  id := .repeating mark.toNat
  created := ⟨(mark || shared.contains createdField).toNat, 0⟩
  updated := ⟨(mark || shared.contains updatedField).toNat, 0⟩
  fields := FieldSpec.fill (fun f =>
    if isIdentityField f.name then none else some (markedValue shared mark f.name)) [] d.fields

section Marked

variable {d : Descriptor} {shared : List String} {mark : Bool} {f : FieldSpec} {name : String}

theorem markedValue_of_field (h : isIdentityField name = false) :
    markedValue shared mark name = .bool (mark || shared.contains name) := by
  obtain ⟨⟨hid, hcreated⟩, hupdated⟩ : (name ≠ idField ∧ name ≠ createdField) ∧
      name ≠ updatedField := by simpa [isIdentityField] using h
  simp [markedValue, hid, hcreated, hupdated]

/-- A marked record has the marked value in every field of its kind. -/
theorem Descriptor.Consistent.get?_marked (h : d.Consistent) (hf : f ∈ d.fields) :
    (d.marked shared mark).get? f.name = some (markedValue shared mark f.name) := by
  by_cases hidentity : isIdentityField f.name = true
  · unfold Record.get? markedValue marked
    simp only [isIdentityField, Bool.or_eq_true, beq_iff_eq] at hidentity
    rcases hidentity with (hname | hname) | hname <;>
      simp [hname, idField, createdField, updatedField]
  · rw [Record.get?_eq_fields (by simpa using hidentity), marked, FieldSpec.get?_fill h.nodup,
      find?_of_mem h.nodup hf]
    simp [hidentity]

/-- None of its fields holds a text that could refer to a record. -/
theorem Descriptor.Consistent.getStr?_marked (h : d.Consistent) (name : String) :
    (d.marked shared mark).getStr? name = none := by
  have hget : (d.marked shared mark).fields.get? name =
      (d.fields.find? fun f => f.name == name).bind fun f =>
        if isIdentityField f.name then none else some (markedValue shared mark f.name) := by
    rw [marked, FieldSpec.get?_fill h.nodup, Fields.get?_nil, Option.or_none]
  rw [Record.getStr?, Fields.getStr?, hget]
  cases d.fields.find? fun f => f.name == name with
  | none => rfl
  | some f =>
    by_cases hidentity : isIdentityField f.name = true
    · simp [hidentity]
    · have hfield : isIdentityField f.name = false := by simpa using hidentity
      simp [hfield, markedValue_of_field hfield]

theorem FieldSpec.isSome_markedValue : (f.toColumn (some (markedValue shared mark name))).isSome := by
  unfold markedValue
  split
  · by_cases hobject : f.type = .object <;> simp [toColumn, hobject]
  · split
    · by_cases hobject : f.type = .object <;> simp [toColumn, hobject]
    · rfl

/-- The marked values of a shared name are the same. -/
theorem markedValue_of_mem (hname : name ∈ shared) (hid : name ≠ idField) :
    markedValue shared true name = markedValue shared false name := by
  simp [markedValue, hid, hname]

/-- The marked values of other names differ, as texts of columns as well. -/
theorem FieldSpec.markedValue_ne (hname : name ∉ shared) :
    f.toColumn (some (markedValue shared true name)) ≠
      f.toColumn (some (markedValue shared false name)) := by
  have hnot : shared.contains name = false := by simpa using hname
  unfold markedValue
  simp only [hnot, Bool.or_false]
  split
  · by_cases hobject : f.type = .object <;> simp only [toColumn, hobject] <;> decide +kernel
  · split
    · by_cases hobject : f.type = .object <;> simp only [toColumn, hobject] <;> decide +kernel
    · have hne : (Json.bool true).compact ≠ (Json.bool false).compact := by decide +kernel
      simpa [toColumn] using hne

/-- The row of a marked record. -/
def Descriptor.markedRow (d : Descriptor) (shared : List String) (mark : Bool) : Row :=
  d.fields.map fun f => (f.name, f.toColumn (some (markedValue shared mark f.name)))

/-- The rows of the two records agree on an index of shared fields. -/
theorem Descriptor.Consistent.agree_markedRow {index : Index} (h : d.Consistent)
    (hunique : index.unique = true) (hid : idField ∉ index.columns)
    (hdeclared : ∀ name ∈ index.columns, (d.field? name).isSome = true) :
    Table.Agree index (d.markedRow index.columns true) (d.markedRow index.columns false) := by
  have hfield : ∀ name ∈ index.columns, ∃ f ∈ d.fields, f.name = name := by
    intro name hname
    obtain ⟨f, hf⟩ := Option.isSome_iff_exists.mp (hdeclared name hname)
    exact ⟨f, mem_of_field? hf⟩
  refine ⟨hunique, ?_, List.map_inj_left.mpr fun name hname => ?_⟩
  · rw [Table.keyOf, List.all_map, List.all_eq_true]
    intro name hname
    obtain ⟨f, hf, rfl⟩ := hfield name hname
    rw [Function.comp_apply, markedRow, h.cell_map hf]
    exact FieldSpec.isSome_markedValue
  · obtain ⟨f, hf, rfl⟩ := hfield name hname
    have hne : f.name ≠ idField := fun heq => hid (heq ▸ hname)
    rw [markedRow, markedRow, h.cell_map hf, h.cell_map hf, markedValue_of_mem hname hne]

/-- They agree on no index with a field that is not shared. -/
theorem Descriptor.Consistent.not_agree_markedRow {index : Index} (h : d.Consistent)
    (hf : f ∈ d.fields) (hcolumn : f.name ∈ index.columns) (hname : f.name ∉ shared) :
    ¬ Table.Agree index (d.markedRow shared false) (d.markedRow shared true) := by
  intro hagree
  have hsame := List.map_inj_left.mp hagree.2.2 f.name hcolumn
  rw [markedRow, markedRow, h.cell_map hf, h.cell_map hf] at hsame
  exact FieldSpec.markedValue_ne hname hsame.symm

/-- The row of a marked record may join rows that agree with it on no index. -/
theorem Descriptor.Consistent.insert_marked {t : Table} (h : d.Consistent)
    (ht : t.columns = d.fields.map fun f => ⟨f.name, f.notNull⟩)
    (hfree : ∀ index ∈ t.indexes, ∀ other ∈ t.rows,
      ¬ Table.Agree index (d.markedRow shared mark) other) :
    t.insert (Store.columnsOf (d.marked shared mark) d.fields) =
      .ok { t with rows := t.rows ++ [d.markedRow shared mark] } := by
  have hrow : t.rowOf (Store.columnsOf (d.marked shared mark) d.fields) =
      d.markedRow shared mark := by
    rw [h.rowOf_columnsOf ht]
    exact List.map_congr_left fun f hf => by rw [h.get?_marked hf]
  refine Table.insert_eq_ok_iff.mpr ⟨Table.hasColumn_columnsOf ht _, ?_, by rw [hrow]⟩
  rw [hrow]
  refine Table.check_eq_ok_iff.mpr ⟨fun c hc _ => ?_, hfree⟩
  rw [ht] at hc
  obtain ⟨f, hf, rfl⟩ := List.mem_map.mp hc
  rw [markedRow, h.cell_map hf]
  exact FieldSpec.isSome_markedValue

end Marked

/-! ## Creating two records that agree -/

namespace Store

variable {s : Store} {ds : List Descriptor} {d : Descriptor} {t t' : Table} {r : Record}
  {u : IndexSpec}

theorem checkReferences_of_none {refs : List (FieldSpec × RecordKind)}
    (h : ∀ name, r.getStr? name = none) : s.checkReferences r refs = .ok () := by
  induction refs with
  | nil => rfl
  | cons ref rest ih =>
    obtain ⟨f, target⟩ := ref
    simp only [checkReferences, checkReference, h]
    exact ih

/-- A record whose row may join the others is created. -/
theorem exists_create (actor : String) (now : Instant) (harranged : s.database.Arranged s.registry)
    (hd : d ∈ s.registry.descriptors) (hkind : s.descriptor r.kind = .ok d)
    (hother : ∀ name ∈ d.changesTable?, sameName name d.table = false)
    (hrefs : s.checkReferences r d.referenceFields = .ok ())
    (ht : s.database.table? d.table = some t)
    (hinsert : t.insert (columnsOf r d.fields) = .ok t') :
    ∃ s', s.create r actor now = .ok s' ∧ s'.database.rowsOf d.table = t'.rows := by
  have hdb : s.database.insert d.table (columnsOf r d.fields) = .ok (s.database.put t') := by
    simp [Database.insert, Database.table_eq_ok_iff.mpr ht, hinsert, bind, Except.bind]
  obtain ⟨db, hchange⟩ := (harranged.evolves (Database.evolves_insert hdb)).exists_writeChange hd
    r.id ⟨actor, .create, r.toFields⟩ now
  have hname : t'.name = t.name := (Table.evolves_insert hinsert).name_eq
  refine ⟨{ s with database := db }, ?_, ?_⟩
  · simp [create, hkind, hrefs, hdb, hchange, bind, Except.bind]
  · rw [rowsOf_writeChange hchange hother, Database.rowsOf_put ht hname, if_pos (sameName_self _)]

/-- A marked record whose row agrees with no row on an index is created, and its row joins
the others. -/
theorem exists_create_marked {shared : List String} {mark : Bool}
    (hreg : Registry.ofDescriptors ds = .ok s.registry) (hapart : s.registry.Apart)
    (harranged : s.database.Arranged s.registry) (hd : d ∈ s.registry.descriptors)
    (ht : s.database.table? d.table = some t)
    (hfree : ∀ index ∈ t.indexes, ∀ other ∈ t.rows,
      ¬ Table.Agree index (d.markedRow shared mark) other) :
    ∃ s', s.create (d.marked shared mark) "" ⟨0, 0⟩ = .ok s' ∧
      s'.database.rowsOf d.table = t.rows ++ [d.markedRow shared mark] := by
  have hconsistent := Registry.consistent_of_mem hreg hd
  obtain ⟨t', ht', hcolumns⟩ := harranged.records d hd
  obtain rfl : t = t' := Option.some.inj (ht.symm.trans ht')
  exact exists_create "" ⟨0, 0⟩ harranged hd (descriptor_of_mem hreg hd) (hapart.changes d hd d hd)
    (checkReferences_of_none hconsistent.getStr?_marked) ht
    (hconsistent.insert_marked hcolumns hfree)

/-- Create two records that agree just on some fields. -/
def agreeing (d : Descriptor) (shared : List String) : List Operation :=
  [true, false].map fun mark => .create (d.marked shared mark) "" ⟨0, 0⟩

section Unenforced

variable (hreg : Registry.ofDescriptors ds = .ok s.registry) (hapart : s.registry.Apart)
  (hcreated : s.database.CreatedBy s.registry.statements) (hd : d ∈ s.registry.descriptors)
  (ht : s.database.table? d.table = some t) (hnot : ¬ s.registry.Enforces d u)
include hreg hapart hcreated hd ht hnot

/-- Every unique index of the table covers a field that is not one of the index that is not
enforced. -/
theorem exists_unshared {index : Index} (hindex : index ∈ t.indexes)
    (hunique : index.unique = true) : ∃ f ∈ d.fields, f.name ∈ index.columns ∧ f.name ∉ u.fields := by
  obtain ⟨st, hfirst, hkey⟩ := (hcreated.mem_keys ht _).mp ⟨index, hindex, hunique, rfl⟩
  have hnotsub : ¬ index.columns ⊆ u.fields := fun hsub =>
    hnot ⟨st, hfirst.mem, hfirst, _, hkey, hsub⟩
  obtain ⟨name, hname, hnotmem⟩ : ∃ name ∈ index.columns, name ∉ u.fields := by
    simpa [List.subset_def] using hnotsub
  obtain ⟨f, hf, rfl⟩ := Registry.declared_of_key hreg hapart hd hfirst.mem hkey name hname
  exact ⟨f, hf, hname, hnotmem⟩

/-- The key, which is unique by itself, is none of its fields. -/
theorem idField_notMem : idField ∉ u.fields := by
  obtain ⟨specs, hmade⟩ := hcreated.of_table? ht
  have hspecs := (Registry.statement_cases hreg hapart hd hmade.first.mem).1 rfl
    (Database.sameName_of_table? ht)
  obtain ⟨f, hf, -⟩ := (Registry.consistent_of_mem hreg hd).key
  obtain ⟨hmem, hname⟩ := Descriptor.mem_of_field? hf
  have hprimary : Database.primaryIndex t.name idField ∈ t.indexes := by
    refine (hmade.mem_indexes _).mpr (.inl ⟨⟨f.name, f.notNull, true⟩, ?_, rfl, ?_⟩)
    · rw [hspecs]
      exact List.mem_map.mpr ⟨f, hmem, by rw [hname]; rfl⟩
    · rw [hname]
  obtain ⟨g, -, hg, hnotmem⟩ := exists_unshared hreg hapart hcreated hd ht hnot hprimary rfl
  rwa [List.mem_singleton.mp hg] at hnotmem

/-- Then two records that agree on the index can be created one after the other. -/
theorem not_unique_agreeing (hu : u ∈ d.storage.indexes) (hunique : u.unique = true) :
    ¬ (s.run (agreeing d u.fields)).Unique := by
  have hconsistent := Registry.consistent_of_mem hreg hd
  have harranged := hcreated.arranged hreg hapart
  -- The table is empty when the first record is created, and has its row afterwards.
  have hempty := hcreated.rows_of_table? ht
  obtain ⟨s₁, hcreate₁, hrows₁⟩ := exists_create_marked hreg hapart harranged hd ht
    (show ∀ index ∈ t.indexes, ∀ other ∈ t.rows,
      ¬ Table.Agree index (d.markedRow u.fields true) other by simp [hempty])
  have hevolves := evolves_create hcreate₁
  have hsame : s₁.registry = s.registry := hevolves.registry_eq
  obtain ⟨t₁, ht₁, hevolved⟩ := hevolves.database d.table t ht
  have hrows : t₁.rows = [d.markedRow u.fields true] := by
    simpa [Database.rowsOf, ht₁, hempty] using hrows₁
  -- The second record differs from it in a field of every index of the table.
  have hfree : ∀ index ∈ t₁.indexes, ∀ other ∈ t₁.rows,
      ¬ Table.Agree index (d.markedRow u.fields false) other := by
    intro index hindex other hmem hagree
    rw [hevolved.indexes_eq] at hindex
    rw [hrows, List.mem_singleton] at hmem
    rw [hmem] at hagree
    obtain ⟨f, hf, hcolumn, hname⟩ :=
      exists_unshared hreg hapart hcreated hd ht hnot hindex hagree.1
    exact hconsistent.not_agree_markedRow hf hcolumn hname hagree
  obtain ⟨s₂, hcreate₂, hrows₂⟩ := exists_create_marked (hsame ▸ hreg) (hsame ▸ hapart)
    (hsame ▸ harranged.evolves hevolves.database) (hsame ▸ hd) ht₁ hfree
  have hrun : s.run (agreeing d u.fields) = s₂ := by
    rw [run, agreeing, List.map_cons, List.map_cons, List.map_nil, List.foldl_cons,
      List.foldl_cons, List.foldl_nil,
      after_of_perform (show s.perform (.create _ _ _) = .ok s₁ from hcreate₁),
      after_of_perform (show s₁.perform (.create _ _ _) = .ok s₂ from hcreate₂)]
  rw [hrun]
  intro hall
  have hd₂ : d ∈ s₂.registry.descriptors := (evolves_create hcreate₂).registry_eq ▸ hsame ▸ hd
  have hpair := hall d hd₂ u hu
  rw [hrows₂, hrows] at hpair
  have hid := idField_notMem hreg hapart hcreated hd ht hnot
  have hagree : Table.Agree (d.declaredIndex u) (d.markedRow u.fields true)
      (d.markedRow u.fields false) :=
    hconsistent.agree_markedRow hunique hid (hconsistent.indexed u hu)
  exact List.pairwise_pair.mp hpair hagree

end Unenforced

/-- After every run no two rows of a kind agree on a unique index, if every unique index is
enforced; and only then, if every kind has tables of its own. -/
theorem unique_run_iff_enforced {ds : List Descriptor} {registry : Registry}
    (hreg : Registry.ofDescriptors ds = .ok registry)
    (hinstall : install ⟨registry, .empty⟩ = .ok s) :
    (registry.Enforced → ∀ ops, (s.run ops).Unique) ∧
      (registry.Apart → (∀ ops, (s.run ops).Unique) → registry.Enforced) := by
  obtain ⟨hsame, hcreated⟩ := createdBy_install rfl hinstall
  obtain rfl : s.registry = registry := hsame
  refine ⟨fun henforced ops => ?_, fun hapart hall d hd u hu hunique => ?_⟩
  · have hevolves := s.evolves_run ops
    refine Database.Keyed.unique ?_ (hevolves.registry_eq ▸ henforced)
    exact hevolves.registry_eq ▸ hcreated.keyed.evolves hevolves.database
  · by_contra hnot
    obtain ⟨t, ht, -⟩ := hcreated.keyed d hd
    exact not_unique_agreeing hreg hapart hcreated hd ht hnot hu hunique (hall _)

/-- The shipped definitions enforce all their unique indexes: no two names are the same. -/
theorem unique_builtin : install ⟨.builtin, .empty⟩ = .ok initial ∧
    ∀ ops, (initial.run ops).Unique :=
  ⟨install_empty, (unique_run_iff_enforced Registry.ofDescriptors_builtin install_empty).1
    (Registry.enforced_of_names (by decide +kernel))⟩

end Store

/-! ## An index that is passed over -/

/-- A definition of records with a name and one index. -/
def Descriptor.named (kind : RecordKind) (table : String) (index : IndexSpec) : Descriptor where
  kind := kind
  title := kind.name
  fields := [.generatedId, .createdTime, .updatedTime, { name := "name", type := .string }]
  storage := { table, charset := "utf8mb4", collate := "utf8mb4_general_ci", indexes := [index] }

/-- Two definitions whose indexes get the same name, the second one being unique. -/
def Registry.overlapping : Registry :=
  ⟨[.named .locale "mouth" ⟨"template_ui_name", ["name"], false⟩,
    .named .template "mouth_template" ⟨"ui_name", ["name"], true⟩]⟩

/-- The second index is never created, as its name is taken. -/
example : ¬ Registry.overlapping.Enforced := by decide +kernel

/-- A template of a name. -/
def Record.welcome (digit : Nat) : Record where
  kind := .template
  id := .repeating digit
  created := ⟨0, 0⟩
  updated := ⟨0, 0⟩
  fields := [("name", .str "welcome")]

/-- Its table lacks the index, and two templates of one name are stored. -/
theorem Store.not_unique_overlapping :
    Registry.ofDescriptors Registry.overlapping.descriptors = .ok .overlapping ∧
      ∃ s, install ⟨.overlapping, .empty⟩ = .ok s ∧
        ¬ (s.run [.create (.welcome 1) "ann" ⟨0, 0⟩, .create (.welcome 2) "ann" ⟨0, 0⟩]).Unique := by
  let s : Store := ⟨.overlapping,
    ⟨[(Descriptor.named .locale "mouth" ⟨"template_ui_name", ["name"], false⟩).recordTable [],
      { (Descriptor.named .template "mouth_template" ⟨"ui_name", ["name"], true⟩).recordTable [] with
        indexes := [Database.primaryIndex "mouth_template" "_id"] }]⟩⟩
  exact ⟨by decide +kernel, s, by decide +kernel, by decide +kernel⟩

end Phrasebook
