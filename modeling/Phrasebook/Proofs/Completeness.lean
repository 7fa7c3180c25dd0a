import Phrasebook.Proofs.Arrangement
import Phrasebook.Proofs.Made

/-!
# Columns that cannot be null

A column that cannot be null has a value in every validated record exactly if each of these
fields must be given or has a default, for every kind that accepts a candidate. Storing a
validated record then never fails for a null, where every kind has tables of its own.

## Main definitions

* `Descriptor.Completes`: a record has a value for every column that cannot be null
* `Registry.Filled`: every such field must be given or has a default
-/
namespace Phrasebook

/-- A record has a value for every column that cannot be null. -/
def Descriptor.Completes (d : Descriptor) (r : Record) : Prop :=
  ∀ f ∈ d.fields, f.notNull = true → ∃ value, r.get? f.name = some value ∧ value ≠ .null

/-- A field whose column cannot be null must be given or has a default, unless it is the key
or a time. -/
def FieldSpec.Filled (f : FieldSpec) : Prop :=
  f.notNull = true → isIdentityField f.name = false →
    f.required = true ∨ ∃ value ∈ f.default, value ≠ .null

instance (f : FieldSpec) : Decidable f.Filled := inferInstanceAs (Decidable (_ → _ → _))

/-- So are all fields of the kinds that can have records. -/
def Registry.Filled (registry : Registry) : Prop :=
  ∀ d ∈ registry.descriptors, d.Usable → ∀ f ∈ d.fields, f.Filled

/-! ## Validated records -/

section Validated

variable {d : Descriptor} {candidate : Fields} {fresh : Uuid} {now : Instant} {f : FieldSpec}
  {r : Record}

/-- The key and the times of a record always have a value. -/
theorem Record.get?_identity {name : String} (r : Record) (h : isIdentityField name = true) :
    ∃ s, r.get? name = some (.str s) := by
  rcases isIdentityField_iff.mp h with rfl | rfl | rfl <;> exact ⟨_, rfl⟩

/-- What a field accepts is not null. -/
theorem FieldSpec.Accepts.ne_null {value : Json} (h : f.Accepts d value) : value ≠ .null := by
  rintro rfl
  have hadmits := h.admits
  cases htype : f.type <;> simp [htype, FieldType.admits] at hadmits

/-- A field of a new record has its initial value. -/
theorem Descriptor.Consistent.get?_recordOf (h : d.Consistent) (hf : f ∈ d.fields)
    (hidentity : isIdentityField f.name = false) :
    (d.recordOf candidate fresh now).get? f.name = initialValue? candidate f := by
  rw [Record.get?_eq_fields hidentity]
  refine (get?_initialFields h.nodup).trans ?_
  rw [hidentity, h.field?_of_mem hf]
  rfl

/-- The record of an accepted candidate is complete if its fields are filled. -/
theorem Descriptor.Consistent.completes_recordOf (h : d.Consistent)
    (hnil : d.candidateViolations candidate = []) (hfilled : ∀ f ∈ d.fields, f.Filled) :
    d.Completes (d.recordOf candidate fresh now) := by
  intro f hf hnotNull
  have haccepted := (candidateViolations_eq_nil_iff.mp hnil).1
  cases hidentity : isIdentityField f.name with
  | true =>
    obtain ⟨s, hs⟩ := (d.recordOf candidate fresh now).get?_identity hidentity
    exact ⟨_, hs, nofun⟩
  | false =>
    rw [h.get?_recordOf hf hidentity, initialValue?]
    cases hgiven : candidate.get? f.name with
    | some value =>
      obtain ⟨g, -, haccepts⟩ := accepts_of_mem haccepted (Fields.mem_of_get? hgiven)
      exact ⟨value, rfl, haccepts.ne_null⟩
    | none =>
      rcases hfilled f hf hnotNull hidentity with hrequired | hdefault
      · obtain ⟨value, hvalue⟩ := has_of_required haccepted hf hrequired
        rw [hgiven] at hvalue
        cases hvalue
      · exact hdefault

/-- A patch that is accepted leaves a complete record complete. -/
theorem Descriptor.Completes.changed {changes : Fields} (h : d.Completes r)
    (hsorted : changes.Sorted) (hnil : d.violations .update changes = []) :
    d.Completes (r.changed changes now) := by
  intro f hf hnotNull
  obtain ⟨old, hold, hne⟩ := h f hf hnotNull
  cases hidentity : isIdentityField f.name with
  | true =>
    obtain ⟨s, hs⟩ := (r.changed changes now).get?_identity hidentity
    exact ⟨_, hs, nofun⟩
  | false =>
    rw [Record.get?_eq_fields hidentity] at hold ⊢
    rw [Record.changed, Fields.get?_override hsorted, hold]
    cases hnew : changes.get? f.name with
    | none => exact ⟨old, rfl, hne⟩
    | some value =>
      obtain ⟨g, -, haccepts⟩ := accepts_of_mem hnil (Fields.mem_of_get? hnew)
      exact ⟨value, rfl, haccepts.ne_null⟩

/-- A candidate is still accepted without a field that need not be given. -/
theorem Descriptor.Consistent.accepted_erase (h : d.Consistent) (hf : f ∈ d.fields)
    (hidentity : isIdentityField f.name = false) (hrequired : f.required = false)
    (hnil : d.candidateViolations candidate = []) :
    d.candidateViolations (Fields.erase f.name candidate) = [] := by
  have hget : ∀ name, name ≠ f.name →
      (Fields.erase f.name candidate).get? name = candidate.get? name := by
    intro name hname
    rw [Fields.erase, Fields.get?_filter fun other => other != f.name]
    simp [hname]
  obtain ⟨hviolations, hid, hcreated, hupdated⟩ := candidateViolations_eq_nil_iff.mp hnil
  obtain ⟨haccepts, hhas⟩ := violations_eq_nil_iff.mp hviolations
  have hsame : ∀ name, isIdentityField name = true →
      (Fields.erase f.name candidate).getStr? name = candidate.getStr? name := by
    intro name hname
    have hne : name ≠ f.name := fun heq => by simp [← heq, hname] at hidentity
    rw [Fields.getStr?, Fields.getStr?, hget name hne]
  refine candidateViolations_eq_nil_iff.mpr ⟨violations_eq_nil_iff.mpr ⟨?_, ?_⟩, ?_, ?_, ?_⟩
  · exact fun name value hmem => haccepts name value (List.mem_filter.mp hmem).1
  · intro hmode g hg hgiven
    have hne : g.name ≠ f.name := by
      intro hname
      have hsome := h.field?_of_mem hg
      rw [hname, h.field?_of_mem hf] at hsome
      cases hsome
      simp [hrequired] at hgiven
    rw [Fields.has, hget g.name hne]
    exact hhas hmode g hg hgiven
  · rwa [givenId?, hsame idField rfl]
  · rwa [givenInstant?, hsame createdField rfl]
  · rwa [givenInstant?, hsame updatedField rfl]

/-- If all its records are complete, the fields of a usable definition are filled. -/
theorem Descriptor.Consistent.filled_of_completes (h : d.Consistent) (husable : d.Usable)
    (hall : ∀ candidate, (Json.obj candidate).WellFormed → d.candidateViolations candidate = [] →
      d.Completes (d.recordOf candidate .sample ⟨0, 0⟩)) : ∀ f ∈ d.fields, f.Filled := by
  intro f hf hnotNull hidentity
  cases hrequired : f.required with
  | true => exact .inl rfl
  | false =>
    obtain ⟨candidate, hwellFormed, hnil⟩ := husable
    have herased : (Json.obj (Fields.erase f.name candidate)).WellFormed :=
      .obj (hwellFormed.sorted.filter _) fun entry hentry =>
        hwellFormed.of_mem entry (List.mem_filter.mp hentry).1
    have hcomplete := hall _ herased (h.accepted_erase hf hidentity hrequired hnil) f hf hnotNull
    have hnone : (Fields.erase f.name candidate).get? f.name = none := by
      rw [Fields.erase, Fields.get?_filter fun other => other != f.name]
      simp
    rw [h.get?_recordOf hf hidentity, initialValue?, hnone] at hcomplete
    exact .inr hcomplete

end Validated

/-- A made record is complete if all definitions are filled. -/
theorem Registry.Makes.completes {registry : Registry} {ds : List Descriptor} {d : Descriptor}
    {r : Record} (hreg : ofDescriptors ds = .ok registry) (hfilled : registry.Filled)
    (h : registry.Makes r) (hget : registry.get? r.kind = some d) : d.Completes r := by
  induction h with
  | @create kind input fresh now r wellFormed valid =>
    obtain ⟨e, candidate, he, rfl, hnil, rfl⟩ := validate_ok_iff.mp valid
    obtain ⟨hmem, hkind⟩ := kind_of_get? he
    obtain rfl : e = d := Option.some.inj ((hkind ▸ he).symm.trans hget)
    exact (consistent_of_mem hreg hmem).completes_recordOf hnil
      (hfilled e hmem ⟨candidate, wellFormed, hnil⟩)
  | patch _ wellFormed valid ih =>
    obtain ⟨e, candidate, he, rfl, -, hnil, rfl⟩ := validateUpdate_ok_iff.mp valid
    obtain rfl : e = d := Option.some.inj (he.symm.trans hget)
    exact (ih hget).changed (sorted_mutableChanges wellFormed.sorted) hnil

/-! ## Storing complete records -/

/-- A value that is not null has a text. -/
theorem FieldSpec.isSome_toColumn {f : FieldSpec} {value : Json} (h : value ≠ .null) :
    (f.toColumn (some value)).isSome = true := by
  cases value with
  | null => exact absurd rfl h
  | str s =>
    rw [toColumn]
    split <;> rfl
  | _ => rfl

/-- Only the engine refuses nulls. -/
theorem Descriptor.storeError_eq_engine {d : Descriptor} {e cause : EngineError}
    (h : d.storeError e = .engine cause) : e = cause := by
  unfold storeError at h
  split at h
  · cases h
  · split at h
    · cases h
    · exact StoreError.engine.inj h

/-- The row made for a complete record has no forbidden null. -/
theorem Descriptor.Completes.isSome_cell {d : Descriptor} {r : Record} {t : Table}
    (h : d.Completes r) (hd : d.Consistent)
    (ht : t.columns = d.fields.map fun f => ⟨f.name, f.notNull⟩) : ∀ c ∈ t.columns,
      c.notNull = true → (Row.cell (t.rowOf (Store.columnsOf r d.fields)) c.name).isSome = true := by
  intro c hc hnotNull
  rw [ht] at hc
  obtain ⟨f, hf, rfl⟩ := List.mem_map.mp hc
  obtain ⟨value, hvalue, hne⟩ := h f hf hnotNull
  rw [hd.rowOf_columnsOf ht, hd.cell_map hf, hvalue]
  exact FieldSpec.isSome_toColumn hne

/-- An update by a complete record writes no forbidden null. -/
theorem Descriptor.Completes.value?_ne {d : Descriptor} {r : Record} {t : Table}
    (h : d.Completes r) (hd : d.Consistent)
    (ht : t.columns = d.fields.map fun f => ⟨f.name, f.notNull⟩) : ∀ c ∈ t.columns,
      c.notNull = true →
        Row.value? (Store.columnsOf r (Store.updatedColumns d)) c.name ≠ some none := by
  intro c hc hnotNull hnone
  rw [ht] at hc
  obtain ⟨f, hf, rfl⟩ := List.mem_map.mp hc
  obtain ⟨value, hvalue, hne⟩ := h f hf hnotNull
  rw [Store.columnsOf, Row.value?_map, Option.map_eq_some_iff] at hnone
  obtain ⟨g, hg, hcolumn⟩ := hnone
  have hname : g.name = f.name := by simpa using List.find?_some hg
  have hfield := hd.field?_of_mem (List.mem_filter.mp (List.mem_of_find?_eq_some hg)).1
  rw [hname, hd.field?_of_mem hf] at hfield
  cases hfield
  rw [hvalue] at hcolumn
  have hsome := f.isSome_toColumn hne
  rw [hcolumn] at hsome
  cases hsome

namespace Store

variable {s : Store} {d : Descriptor} {r : Record} {ds : List Descriptor}

/-- No row of a kind has a forbidden null. -/
def Full (s : Store) : Prop :=
  ∀ d ∈ s.registry.descriptors, ∃ t, s.database.table? d.table = some t ∧ t.Full t.rows

theorem Full.evolves {s' : Store} (h : s.Full) (hevolves : s.Evolves s') : s'.Full := by
  intro d hd
  obtain ⟨t, ht, hfull⟩ := h d (hevolves.registry_eq ▸ hd)
  obtain ⟨t', ht', hevolved⟩ := hevolves.database d.table t ht
  exact ⟨t', ht', hevolved.full hfull⟩

theorem full_of_createdBy (h : s.database.CreatedBy s.registry.statements) : s.Full := by
  intro d hd
  obtain ⟨t, ht, -⟩ := h.keyed d hd
  refine ⟨t, ht, fun row hrow => ?_⟩
  rw [h.rows_of_table? ht] at hrow
  cases hrow

/-! ### Refusals

Of all that creating and updating do, only writing the row is ever refused for a null. -/

section Refusals

variable (table column : String)

theorem storeError_ne_notNull {e : EngineError} (h : e ≠ .notNull table column) :
    d.storeError e ≠ .engine (.notNull table column) :=
  fun herror => h (Descriptor.storeError_eq_engine herror)

theorem descriptor_ne_notNull {kind : RecordKind} :
    s.descriptor kind ≠ .error (.engine (.notNull table column)) := by
  unfold descriptor
  split <;> nofun

theorem table_ne_notNull {db : Database} {name : String} :
    db.table name ≠ .error (.notNull table column) := by
  unfold Database.table
  split <;> nofun

theorem checkReference_ne_notNull {f : FieldSpec} {target : RecordKind} :
    s.checkReference r f target ≠ .error (.engine (.notNull table column)) := by
  intro h
  unfold checkReference at h
  split at h
  · cases h
  · rcases bind_eq_error_iff.mp h with h | ⟨parent, -, h⟩
    · unfold parseStoredId at h
      split at h <;> cases h
    · rcases bind_eq_error_iff.mp h with h | ⟨e, -, h⟩
      · exact descriptor_ne_notNull table column h
      · split at h
        · split at h <;> cases h
        · next cause hcount =>
          refine storeError_ne_notNull table column ?_ (Except.error.inj h)
          rcases bind_eq_error_iff.mp hcount with htable | ⟨t, -, hcount⟩
          · rintro rfl
            exact table_ne_notNull table column htable
          · cases hcount

theorem checkReferences_ne_notNull {refs : List (FieldSpec × RecordKind)} :
    s.checkReferences r refs ≠ .error (.engine (.notNull table column)) := by
  induction refs with
  | nil => nofun
  | cons ref rest ih =>
    obtain ⟨f, target⟩ := ref
    intro h
    rcases bind_eq_error_iff.mp h with h | ⟨⟨⟩, -, h⟩
    · exact checkReference_ne_notNull table column h
    · exact ih h

theorem readCells_ne_notNull {row : Row} {id : String} {acc : Fields} {fields : List FieldSpec} :
    d.readCells row id acc fields ≠ .error (.engine (.notNull table column)) := by
  induction fields generalizing id acc with
  | nil => nofun
  | cons f rest ih =>
    rw [Descriptor.readCells]
    cases Row.cell row f.name with
    | none => exact ih
    | some text =>
      cases hread : f.fromColumn text with
      | error e => simp [hread]
      | ok value => simpa only [hread] using ih

theorem ofRow_ne_notNull {row : Row} :
    d.ofRow row ≠ .error (.engine (.notNull table column)) := by
  intro h
  rcases bind_eq_error_iff.mp h with h | ⟨⟨id, fields⟩, -, h⟩
  · exact readCells_ne_notNull table column h
  · dsimp only at h
    split at h <;> cases h

theorem selectRows_ne_notNull {conditions : List (String × String)} {limit : Option Nat} :
    s.selectRows d conditions limit ≠ .error (.engine (.notNull table column)) := by
  intro h
  unfold selectRows at h
  split at h
  · cases h
  · rcases bind_eq_error_iff.mp h with h | ⟨t, -, h⟩
    · unfold tableOf at h
      split at h
      · cases h
      · next cause htable =>
        refine storeError_ne_notNull table column ?_ (Except.error.inj h)
        rintro rfl
        exact table_ne_notNull table column htable
    · split at h
      · cases h
      · split at h <;> cases h

theorem get_ne_notNull {kind : RecordKind} {id : RecordId} :
    s.get kind id ≠ .error (.engine (.notNull table column)) := by
  intro h
  rcases bind_eq_error_iff.mp h with h | ⟨d, -, h⟩
  · exact descriptor_ne_notNull table column h
  · rcases bind_eq_error_iff.mp h with h | ⟨records, -, h⟩
    · rcases bind_eq_error_iff.mp h with h | ⟨rows, -, h⟩
      · exact selectRows_ne_notNull table column h
      · obtain ⟨row, -, hrow⟩ := exists_mem_of_mapM_error h
        exact ofRow_ne_notNull table column hrow
    · split at h <;> cases h

end Refusals

/-! ### Writing complete records -/

section Writing

variable {actor : String} {now : Instant}
  (hreg : Registry.ofDescriptors ds = .ok s.registry) (harranged : s.database.Arranged s.registry)
  (hget : s.registry.get? r.kind = some d) (hr : d.Completes r) (table column : String)
include hreg harranged hget hr

/-- A complete record is never refused for a null when it is created. -/
theorem create_ne_notNull : s.create r actor now ≠ .error (.engine (.notNull table column)) := by
  obtain ⟨hd, -⟩ := Registry.kind_of_get? hget
  obtain ⟨t, ht, hcolumns⟩ := harranged.records d hd
  have hkind : s.descriptor r.kind = .ok d := by simp [descriptor, Registry.descriptor, hget]
  have hinsert : s.database.insert d.table (columnsOf r d.fields) ≠
      .error (.notNull table column) := by
    simp only [Database.insert, Database.table_eq_ok_iff.mpr ht, bind, Except.bind]
    cases hrow : t.insert (columnsOf r d.fields) with
    | ok u => simp
    | error e =>
      rintro ⟨⟩
      exact Table.insert_ne_notNull table column
        (hr.isSome_cell (Registry.consistent_of_mem hreg hd) hcolumns) hrow
  intro h
  rcases bind_eq_error_iff.mp h with h | ⟨e, he, h⟩
  · exact descriptor_ne_notNull table column h
  · obtain rfl : d = e := Except.ok.inj (hkind.symm.trans he)
    rcases bind_eq_error_iff.mp h with h | ⟨⟨⟩, -, h⟩
    · exact checkReferences_ne_notNull table column h
    · dsimp only at h
      split at h
      · next db hdb =>
        obtain ⟨db', hchange⟩ := (harranged.evolves
          (Database.evolves_insert hdb)).exists_writeChange hd r.id ⟨actor, .create, r.toFields⟩ now
        simp [hchange, bind, Except.bind] at h
      · next cause hfail =>
        exact storeError_ne_notNull table column (fun heq => hinsert (heq ▸ hfail))
          (Except.error.inj h)

/-- Nor is it when it is updated, as long as no stored row has a forbidden null. -/
theorem update_ne_notNull (hfull : s.Full) :
    s.update r actor now ≠ .error (.engine (.notNull table column)) := by
  obtain ⟨hd, -⟩ := Registry.kind_of_get? hget
  obtain ⟨t, ht, hcolumns⟩ := harranged.records d hd
  have hkind : s.descriptor r.kind = .ok d := by simp [descriptor, Registry.descriptor, hget]
  have hrows : t.Full t.rows := by
    obtain ⟨u, hu, hrows⟩ := hfull d hd
    rwa [Option.some.inj (ht.symm.trans hu)]
  have hupdate : s.database.update d.table idField r.id.text (columnsOf r (updatedColumns d)) ≠
      .error (.notNull table column) := by
    simp only [Database.update, Database.table_eq_ok_iff.mpr ht, bind, Except.bind]
    cases hrow : t.update idField r.id.text (columnsOf r (updatedColumns d)) with
    | ok result => simp
    | error e =>
      rintro ⟨⟩
      exact hrows.update_ne_notNull table column
        (hr.value?_ne (Registry.consistent_of_mem hreg hd) hcolumns) hrow
  intro h
  rcases bind_eq_error_iff.mp h with h | ⟨existing, -, h⟩
  · exact get_ne_notNull table column h
  · rcases bind_eq_error_iff.mp h with h | ⟨e, he, h⟩
    · exact descriptor_ne_notNull table column h
    · obtain rfl : d = e := Except.ok.inj (hkind.symm.trans he)
      split at h
      · cases h
      · split at h
        · cases h
        · split at h
          · next cause hfail =>
            exact storeError_ne_notNull table column (fun heq => hupdate (heq ▸ hfail))
              (Except.error.inj h)
          · next db n hdb =>
            split at h
            · cases h
            · obtain ⟨db', hchange⟩ := (harranged.evolves
                (Database.evolves_update hdb)).exists_writeChange hd r.id
                  ⟨actor, .update, diffFields existing r⟩ now
              simp [hchange, bind, Except.bind] at h

end Writing

/-! ## Every registry -/

/-- Validated records have a value for every column that cannot be null exactly if all these
fields must be given or have a default. Then no record that validation makes is ever refused
for a null, if every kind has tables of its own. -/
theorem completes_iff_filled {registry : Registry} (hreg : Registry.ofDescriptors ds = .ok registry) :
    ((∀ (kind : RecordKind) (input : Json) (fresh : Uuid) (now : Instant) (r : Record)
        (d : Descriptor), input.WellFormed → registry.validate kind input fresh now = .ok r →
          registry.get? kind = some d → d.Completes r) ↔ registry.Filled) ∧
    (registry.Filled → registry.Apart → ∀ s, install ⟨registry, .empty⟩ = .ok s →
      ∀ (ops : List Operation) (r : Record) (actor : String) (now : Instant)
        (table column : String), registry.Makes r →
          (s.run ops).create r actor now ≠ .error (.engine (.notNull table column)) ∧
          (s.run ops).update r actor now ≠ .error (.engine (.notNull table column))) := by
  refine ⟨⟨fun hall d hd husable => ?_, fun hfilled => ?_⟩, fun hfilled hapart s hinstall => ?_⟩
  · have hconsistent := Registry.consistent_of_mem hreg hd
    refine hconsistent.filled_of_completes husable fun candidate hwellFormed hnil => ?_
    have hget := Registry.get?_of_mem hreg hd
    exact hall d.kind (.obj candidate) .sample ⟨0, 0⟩ _ d hwellFormed
      (Registry.validate_ok_iff.mpr ⟨d, candidate, hget, rfl, hnil, rfl⟩) hget
  · intro kind input fresh now r d hwellFormed hvalid hget
    obtain ⟨e, candidate, he, -, -, rfl⟩ := Registry.validate_ok_iff.mp hvalid
    obtain ⟨-, rfl⟩ := Registry.kind_of_get? he
    obtain rfl : e = d := Option.some.inj (he.symm.trans hget)
    exact (Registry.Makes.create hwellFormed hvalid).completes hreg hfilled hget
  · intro ops r actor now table column hmakes
    obtain ⟨hsame, hcreated⟩ := createdBy_install rfl hinstall
    obtain rfl : s.registry = registry := hsame
    obtain ⟨d, hget⟩ := hmakes.exists_descriptor
    have hr := hmakes.completes hreg hfilled hget
    have hevolves := s.evolves_run ops
    have hreg' : Registry.ofDescriptors ds = .ok (s.run ops).registry := by
      rw [hevolves.registry_eq, hreg]
    have hget' : (s.run ops).registry.get? r.kind = some d := by rw [hevolves.registry_eq, hget]
    have harranged : (s.run ops).database.Arranged (s.run ops).registry := by
      rw [hevolves.registry_eq]
      exact (hcreated.arranged hreg hapart).evolves hevolves.database
    have hfull := (full_of_createdBy hcreated).evolves hevolves
    exact ⟨create_ne_notNull hreg' harranged hget' hr table column,
      update_ne_notNull hreg' harranged hget' hr table column hfull⟩

end Store

/-- The shipped definitions are filled. -/
theorem Registry.filled_builtin : builtin.Filled := by
  have hall : ∀ d ∈ builtin.descriptors, ∀ f ∈ d.fields, f.Filled := by decide +kernel
  exact fun d hd _ => hall d hd

/-- With the shipped definitions no validated record is refused for a null. -/
theorem Store.completes_builtin : install ⟨.builtin, .empty⟩ = .ok initial ∧
    (∀ (kind : RecordKind) (input : Json) (fresh : Uuid) (now : Instant) (r : Record)
      (d : Descriptor), input.WellFormed → Registry.builtin.validate kind input fresh now = .ok r →
        Registry.builtin.get? kind = some d → d.Completes r) ∧
    ∀ (ops : List Operation) (r : Record) (actor : String) (now : Instant)
      (table column : String), Registry.builtin.Makes r →
        (initial.run ops).create r actor now ≠ .error (.engine (.notNull table column)) ∧
        (initial.run ops).update r actor now ≠ .error (.engine (.notNull table column)) := by
  obtain ⟨hcompletes, hstores⟩ := completes_iff_filled Registry.ofDescriptors_builtin
  exact ⟨install_empty, hcompletes.mpr Registry.filled_builtin,
    hstores Registry.filled_builtin Registry.apart_builtin initial install_empty⟩

/-! ## A field that is never assigned -/

/-- A definition of records with a key, times and some other fields. -/
def Descriptor.withFields (kind : RecordKind) (table : String) (fields : List FieldSpec) :
    Descriptor where
  kind := kind
  title := kind.name
  fields := [.generatedId, .createdTime, .updatedTime] ++ fields
  storage := { table, charset := "utf8mb4", collate := "utf8mb4_general_ci" }

/-- A code that is to be assigned. -/
def FieldSpec.assignedCode : FieldSpec where
  name := "code"
  type := .string
  serverAssigned := true

/-- A definition of templates with such a code. -/
def Descriptor.coded : Descriptor :=
  .withFields .template "mouth_template" [{ name := "name", type := .string }, .assignedCode]

/-- It is accepted, and so are templates without a code, which cannot be stored. -/
theorem Store.create_notNull_coded : Registry.ofDescriptors [.coded] = .ok ⟨[.coded]⟩ ∧
    ∃ s r, install ⟨⟨[.coded]⟩, .empty⟩ = .ok s ∧
      s.registry.validate .template (.obj [("name", .str "welcome")]) .sample ⟨0, 0⟩ = .ok r ∧
      ¬ Descriptor.coded.Completes r ∧
      s.create r "ann" ⟨0, 0⟩ = .error (.engine (.notNull "mouth_template" "code")) := by
  let s : Store := ⟨⟨[.coded]⟩, ⟨[Descriptor.coded.recordTable []]⟩⟩
  let r := Descriptor.coded.recordOf [("name", .str "welcome")] .sample ⟨0, 0⟩
  refine ⟨by decide +kernel, s, r, by decide +kernel, by decide +kernel, fun hcompletes => ?_,
    by decide +kernel⟩
  obtain ⟨value, hvalue, -⟩ := hcompletes .assignedCode (by decide) (by decide)
  have hnone : r.get? FieldSpec.assignedCode.name = none := by decide +kernel
  rw [hnone] at hvalue
  cases hvalue

end Phrasebook
