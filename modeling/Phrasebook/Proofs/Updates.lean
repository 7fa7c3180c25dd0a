import Phrasebook.Proofs.Differences
import Phrasebook.Proofs.IndexNames
import Phrasebook.Proofs.Lawful
import Phrasebook.Proofs.Patches
import Phrasebook.Proofs.ReadBack
import Phrasebook.Proofs.Spellings

/-!
# Updates by validated patches

The validator drops what a patch may not change, and the store compares the new version of
a record with the stored one. They agree: a validated patch of a record that has been read
is never refused as a change of an immutable field. The only refusal left is that of a name
which another record has taken, and what has been stored is read back as it was given.

## Main definitions

* `Store.Taken`: another record holds the values that an index wants to be unique
* `Database.others`: all rows but those of one key
* `Store.bilingual`: a run that stores a template with variants in two locales
-/
namespace Phrasebook

/-! ## Versions that a patch makes -/

namespace Record

variable {existing r : Record} {patch : Json} {clock : Instant}

/-- A patch leaves the kind, the key and the creation time alone. -/
theorem identity_of_validateUpdate
    (h : Registry.builtin.validateUpdate existing patch clock = .ok r) :
    r.kind = existing.kind ∧ r.id = existing.id ∧ r.created = existing.created := by
  obtain ⟨candidate, -, -, rfl⟩ := Registry.validateUpdate_ok h
  exact ⟨rfl, rfl, rfl⟩

/-- A patch leaves immutable fields alone, the update time apart. -/
theorem get?_of_immutable (hpatch : patch.WellFormed)
    (h : Registry.builtin.validateUpdate existing patch clock = .ok r) {f : FieldSpec}
    (hf : f ∈ (Descriptor.shipped existing.kind).immutableFields) (hname : f.name ≠ updatedField) :
    r.get? f.name = existing.get? f.name := by
  obtain ⟨candidate, rfl, -, rfl⟩ := Registry.validateUpdate_ok h
  have hsorted := hpatch.sorted
  have hnone : (Registry.mutableChanges (.shipped existing.kind) candidate).get? f.name = none := by
    apply Fields.get?_eq_none_iff.mpr
    intro entry hentry heq
    exact (Registry.mem_mutableChanges.mp hentry).2 f hf heq.symm
  by_cases hid : f.name = idField
  · simp [get?, hid]
  · by_cases hcreated : f.name = createdField
    · simp [get?, hcreated]
    · simp [get?, hid, hcreated, hname,
        Fields.get?_override (Registry.sorted_mutableChanges hsorted), hnone]

theorem fields_of_immutable (hpatch : patch.WellFormed)
    (h : Registry.builtin.validateUpdate existing patch clock = .ok r) :
    ∀ f ∈ (Descriptor.shipped existing.kind).immutableFields, isIdentityField f.name = false →
      r.fields.get? f.name = existing.fields.get? f.name := by
  intro f hf hidentity
  have hname : f.name ≠ updatedField := by
    intro heq
    rw [heq] at hidentity
    cases hidentity
  have hvalue := get?_of_immutable hpatch h hf hname
  rwa [get?_eq_fields hidentity, get?_eq_fields hidentity] at hvalue

/-- The store finds no immutable field changed in what a patch makes of a record. -/
theorem changedImmutable?_of_validateUpdate (hexisting : existing.Conforms)
    (hpatch : patch.WellFormed)
    (h : Registry.builtin.validateUpdate existing patch clock = .ok r) :
    Store.changedImmutable? (.shipped r.kind) existing r = none := by
  rw [(identity_of_validateUpdate h).1]
  apply List.find?_eq_none.mpr
  intro f hf
  obtain ⟨himmutable, hname⟩ := List.mem_filter.mp hf
  have hname : f.name ≠ updatedField := by simpa using hname
  obtain ⟨value, hvalue, -⟩ := hexisting.get? (List.mem_of_mem_filter himmutable)
  simp [Store.sameField, get?_of_immutable hpatch h himmutable hname, hvalue]

end Record

namespace Store

variable {s s' : Store} {contents : Contents} {kind : RecordKind} {id : RecordId}
  {r e stored existing : Record} {patch : Json} {actor : String} {clock now : Instant}

/-! ## Reading before and after -/

/-- The record of a key is the stored one, with the times that their texts spell. -/
theorem Holds.get_ok (h : s.Holds contents) (hconforming : contents.Conforming)
    (hget : s.get kind id = .ok e) :
    ∃ stored ∈ contents kind, stored.id = id ∧ (Descriptor.shipped kind).ofRow stored.row = .ok e ∧
      Instant.parse stored.created.text = .ok e.created ∧
      e.kind = kind ∧ e.id = id ∧ e.fields = stored.fields ∧ e.Conforms := by
  by_cases hid : ∃ stored ∈ contents kind, stored.id = id
  · obtain ⟨stored, hmem, rfl⟩ := hid
    rw [h.get_of_mem hmem] at hget
    obtain rfl := h.database.kind_eq kind stored hmem
    have hstored := hconforming stored.kind stored hmem
    obtain ⟨hcreated, -, hkind, hid, hfields⟩ := hstored.ofRow_row_iff.mp hget
    exact ⟨stored, hmem, rfl, hget, hcreated, hkind, hid, hfields, hstored.congr hkind hfields⟩
  · rw [h.get_of_forall fun stored hmem heq => hid ⟨stored, hmem, heq⟩] at hget
    cases hget

/-- After an update the key is read as the new version, with the creation time kept. -/
theorem Holds.get_of_update (h : s.Holds contents) (hconforming : contents.Conforming)
    (hr : r.Conforms) (hproper : r.updated.Proper) (hyears : r.updated.InYears)
    (hrun : s.update r actor now = .ok s') :
    ∃ existing, s.get r.kind r.id = .ok existing ∧
      s'.get r.kind r.id = .ok { r with created := existing.created } := by
  obtain ⟨stored, hmem, hid, existing, hreads, -, -, -, hholds⟩ := h.update_ok hrun
  have hget : s.get r.kind r.id = .ok existing := by rw [← hid, h.get_of_mem hmem, hreads]
  refine ⟨existing, hget, ?_⟩
  obtain ⟨-, -, -, -, hcreated, -⟩ := h.get_ok hconforming hget
  have hkind := h.database.kind_eq r.kind stored hmem
  have hstored := hconforming r.kind stored hmem
  have hrevised : r.revised stored ∈
      Function.update contents r.kind ((contents r.kind).map r.applied) r.kind := by
    rw [Function.update_self]
    exact List.mem_map.mpr ⟨stored, hmem, if_pos hid⟩
  have hread := hholds.get_of_mem hrevised
  rw [show (r.revised stored).id = r.id from hid] at hread
  rw [hread]
  have hconforms : (r.revised stored).Conforms := hr.congr rfl rfl
  apply hconforms.ofRow_row_iff.mpr
  rw [← hkind] at hreads
  obtain ⟨hcreated, -⟩ := hstored.ofRow_row_iff.mp hreads
  exact ⟨hcreated, Instant.parse_text hproper hyears, rfl, hid.symm, rfl⟩

/-- The update time that validation assigns to a record that has been read can be stored and
read. -/
theorem Holds.updated_of_validateUpdate (h : s.Holds contents) (hconforming : contents.Conforming)
    (hget : s.get kind id = .ok e) (hproper : clock.Proper) (hyears : clock.InYears)
    (hvalid : Registry.builtin.validateUpdate e patch clock = .ok r) :
    r.updated.Proper ∧ r.updated.InYears := by
  obtain ⟨stored, -, -, -, hcreated, -⟩ := h.get_ok hconforming hget
  obtain ⟨candidate, -, -, rfl⟩ := Registry.validateUpdate_ok hvalid
  refine ⟨hproper.max (Instant.proper_of_parse hcreated), ?_⟩
  simp only [Instant.max]
  split
  · exact hyears
  · exact Instant.inYears_of_parse_text hcreated

/-! ## The one check that is left -/

/-- Updating a stored record that may be changed is a matter of checking its new row among
the other rows. -/
theorem Holds.update_eq (h : s.Holds contents) (hmem : stored ∈ contents r.kind)
    (hid : stored.id = r.id) (hreads : (Descriptor.shipped r.kind).ofRow stored.row = .ok existing)
    (harchived : existing.isArchived = false)
    (hchanged : changedImmutable? (.shipped r.kind) existing r = none) :
    s.update r actor now =
      match ((Descriptor.shipped r.kind).recordTable []).check
        ((s.database.records r.kind).filter fun row => !Table.holds idField r.id.text row)
        (r.revised stored).row with
      | .ok _ => .ok (s.replaced r existing actor now)
      | .error failure => .error ((Descriptor.shipped r.kind).storeError failure) := by
  have hinstalled := h.database.installed
  have hget : s.get r.kind r.id = .ok existing := by rw [← hid, h.get_of_mem hmem, hreads]
  have hone : (s.database.records r.kind).filter (Table.holds idField r.id.text) =
      [stored.row] := by
    rw [← hid, h.database.rows_of_id, h.database.filter_id hmem]
    rfl
  have hcolumns := Descriptor.hasColumn_columnsOf (.shipped r.kind) r (s.database.records r.kind)
    fun f (hf : f ∈ updatedColumns (Descriptor.shipped r.kind)) => List.mem_of_mem_filter hf
  have hupdate : ((Descriptor.shipped r.kind).recordTable (s.database.records r.kind)).update
      idField r.id.text (columnsOf r (updatedColumns (Descriptor.shipped r.kind))) =
      (((Descriptor.shipped r.kind).recordTable []).check
        ((s.database.records r.kind).filter fun row => !Table.holds idField r.id.text row)
        (r.revised stored).row).map fun _ =>
          ((Descriptor.shipped r.kind).recordTable ((s.database.records r.kind).map
            (Table.revise (Table.holds idField r.id.text)
              (columnsOf r (updatedColumns (Descriptor.shipped r.kind))))), 1) := by
    rw [← Record.assign_row (h.database.kind_eq r.kind stored hmem)]
    exact Table.update_of_one hcolumns hone
  rw [update, hget, descriptor_of_builtin h.registry_eq]
  simp only [bind, Except.bind, harchived, hchanged, Database.update, Database.table,
    hinstalled.records_table, hupdate]
  cases ((Descriptor.shipped r.kind).recordTable []).check
      ((s.database.records r.kind).filter fun row => !Table.holds idField r.id.text row)
      (r.revised stored).row with
  | error failure => simp [Except.map]
  | ok _ =>
    have hwrite := writeChange_shipped (hinstalled.putRecords r.kind
      ((s.database.records r.kind).map (Table.revise (Table.holds idField r.id.text)
        (columnsOf r (updatedColumns (Descriptor.shipped r.kind)))))) r.kind r.id
      ⟨actor, .update, diffFields existing r⟩ now
    rw [Database.putRecords] at hwrite
    simp [Except.map, hwrite, replaced, Record.revision, Database.putRecords]

/-! ## Indexes over what may change -/

end Store

namespace Descriptor

/-- The fields of a declared index are declared, and neither the key nor a time. -/
theorem index_fields (kind : RecordKind) : ∀ index ∈ (shipped kind).storage.indexes,
    ∀ name ∈ index.fields, isIdentityField name = false ∧
      ∃ f ∈ (shipped kind).fields, f.name = name := by
  cases kind <;> decide

/-- The unique indexes that hold a field that may change are those of the names of locales and
templates. -/
theorem mutable_index (kind : RecordKind) : ∀ index ∈ (shipped kind).storage.indexes,
    index.unique = true →
    (∃ f ∈ (shipped kind).fields, f.immutable = false ∧ f.name ∈ index.fields) →
      index = .uniqueName ∧ (kind = .locale ∨ kind = .template) := by
  cases kind <;> decide

end Descriptor

/-- What an update writes into the field of an index is the value of the new version. -/
theorem Record.cell_revised_row {r stored : Record} {f : FieldSpec}
    (hf : f ∈ (Descriptor.shipped r.kind).fields) (hidentity : isIdentityField f.name = false) :
    Row.cell (r.revised stored).row f.name = Row.cell r.row f.name := by
  have hrevised : f ∈ (Descriptor.shipped (r.revised stored).kind).fields := hf
  rw [cell_row hrevised, cell_row hf, get?_eq_fields hidentity, get?_eq_fields hidentity]
  rfl

/-- It is the stored one if the two versions agree in the field. -/
theorem Record.cell_revised_of_same {r stored : Record} (hkind : stored.kind = r.kind)
    {f : FieldSpec} (hf : f ∈ (Descriptor.shipped r.kind).fields)
    (hidentity : isIdentityField f.name = false)
    (hsame : r.fields.get? f.name = stored.fields.get? f.name) :
    Row.cell (r.revised stored).row f.name = Row.cell stored.row f.name := by
  have hf' : f ∈ (Descriptor.shipped stored.kind).fields := hkind ▸ hf
  rw [cell_revised_row hf hidentity, cell_row hf, cell_row hf', get?_eq_fields hidentity,
    get?_eq_fields hidentity, hsame]

/-- The row of a conforming record has a text in every column. -/
theorem Record.Conforms.isSome_cell {r : Record} (h : r.Conforms) :
    ∀ c ∈ ((Descriptor.shipped r.kind).recordTable []).columns,
      (Row.cell r.row c.name).isSome = true := by
  intro c hc
  obtain ⟨f, hf, rfl⟩ := List.mem_map.mp hc
  obtain ⟨text, value, hcell, -⟩ := h.read?_row hf
  simp [hcell]

/-- The rows of a database, without that of a key. -/
def Database.others (db : Database) (kind : RecordKind) (id : RecordId) : RecordKind → List Row :=
  fun other => (db.records other).filter fun row =>
    !(decide (other = kind) && Table.holds idField id.text row)

namespace Store

variable {s s' : Store} {contents : Contents} {kind : RecordKind} {id : RecordId}
  {r e stored existing : Record} {patch : Json} {actor : String} {clock now : Instant}

/-- Another record of the kind has the values of a record in the fields of an index. -/
def Taken (s : Store) (r : Record) (index : IndexSpec) : Prop :=
  ∃ other ∈ s.database.records r.kind, Row.cell other idField ≠ some r.id.text ∧
    ∀ name ∈ index.fields, Row.cell other name = Row.cell r.row name

/-- An update leaves the rows of all other keys as they are. -/
theorem Holds.others_replaced (h : s.Holds contents) :
    (s.replaced r existing actor now).database.others r.kind r.id =
      s.database.others r.kind r.id := by
  funext other
  rw [Database.others, Database.others, replaced, Database.records_note,
    h.database.installed.records_putRecords]
  by_cases hother : other = r.kind
  · subst hother
    rw [Function.update_self, h.revise_rows, h.database.records_eq]
    induction contents r.kind with
    | nil => rfl
    | cons first rest ih =>
      rw [List.map_cons, List.map_cons, List.map_cons, List.filter_cons, List.filter_cons, ih]
      simp only [Record.holds_id, Record.id_applied]
      by_cases hfirst : first.id = r.id
      · simp [hfirst]
      · rw [Record.applied, if_neg hfirst]
  · simp [hother]

/-- What an update writes into the fields of an index is stored already, if no field of the
index may change. -/
theorem Holds.cell_revised_of_immutable (h : s.Holds contents) (hmem : stored ∈ contents r.kind)
    (hsame : ∀ f ∈ (Descriptor.shipped r.kind).immutableFields, isIdentityField f.name = false →
      r.fields.get? f.name = stored.fields.get? f.name)
    {declared : IndexSpec} (hdeclared : declared ∈ (Descriptor.shipped r.kind).storage.indexes)
    (hnone : ¬ ∃ f ∈ (Descriptor.shipped r.kind).fields,
      f.immutable = false ∧ f.name ∈ declared.fields) :
    ∀ name ∈ declared.fields, Row.cell (r.revised stored).row name = Row.cell stored.row name := by
  intro name hname
  obtain ⟨hidentity, f, hf, rfl⟩ := Descriptor.index_fields r.kind declared hdeclared name hname
  have himmutable : f ∈ (Descriptor.shipped r.kind).immutableFields := by
    refine List.mem_filter.mpr ⟨hf, ?_⟩
    by_contra hmutable
    exact hnone ⟨f, hf, by simpa using hmutable, hname⟩
  exact Record.cell_revised_of_same (h.database.kind_eq r.kind stored hmem) hf hidentity
    (hsame f himmutable hidentity)

/-- A row that an update fails to write agrees with that of another record on a declared index
over a field that may change. -/
theorem Holds.taken_of_clash (h : s.Holds contents) (hmem : stored ∈ contents r.kind)
    (hid : stored.id = r.id)
    (hsame : ∀ f ∈ (Descriptor.shipped r.kind).immutableFields, isIdentityField f.name = false →
      r.fields.get? f.name = stored.fields.get? f.name)
    {index : Index} (hindex : index ∈ ((Descriptor.shipped r.kind).recordTable []).indexes)
    {other : Row} (hother : other ∈ s.database.records r.kind)
    (hkey : Table.holds idField r.id.text other = false)
    (hagree : Table.Agree index (r.revised stored).row other) :
    ∃ declared ∈ (Descriptor.shipped r.kind).storage.indexes,
      index = ⟨(Descriptor.shipped r.kind).indexName declared .sqlite, declared.fields,
        declared.unique⟩ ∧
      (∃ f ∈ (Descriptor.shipped r.kind).fields, f.immutable = false ∧ f.name ∈ declared.fields) ∧
      s.Taken r declared := by
  have hcell : Row.cell other idField ≠ some r.id.text := by
    simpa [Table.holds] using hkey
  have hindex' := hindex
  rcases List.mem_cons.mp hindex with rfl | hindex
  · obtain ⟨-, heq⟩ := Table.agree_primary.mp hagree
    rw [Record.cell_id, show (r.revised stored).id = r.id from hid] at heq
    exact absurd heq.symm hcell
  · obtain ⟨declared, hdeclared, rfl⟩ := List.mem_map.mp hindex
    have hkeys : ∀ name ∈ declared.fields,
        Row.cell (r.revised stored).row name = Row.cell other name :=
      List.map_inj_left.mp hagree.2.2
    refine ⟨declared, hdeclared, rfl, ?_, other, hother, hcell, ?_⟩
    · -- Were all fields of the index immutable, the stored row would clash already.
      by_contra hnone
      have hstored := h.cell_revised_of_immutable hmem hsame hdeclared hnone
      have hclash := hagree.congr fun name hname => (hstored name hname).symm
      have hrow : stored.row ∈ s.database.records r.kind := by
        rw [h.database.records_eq]
        exact List.mem_map_of_mem hmem
      obtain rfl := (h.database.distinct r.kind).eq_of_agree hindex' hrow hother hclash
      rw [Record.cell_id, hid] at hcell
      exact hcell rfl
    · intro name hname
      obtain ⟨hidentity, f, hf, rfl⟩ := Descriptor.index_fields r.kind declared hdeclared name hname
      rw [← hkeys f.name hname, Record.cell_revised_row hf hidentity]

/-! ## The validator and the store agree -/

/-- A validated patch of a record that has been read is stored and read back as it is, next to
all other rows, unless another record has the values of a unique index over a field that may
change. -/
theorem Holds.update_answers (h : s.Holds contents) (hconforming : contents.Conforming)
    (hget : s.get kind id = .ok e) (harchived : e.isArchived = false)
    (hpatch : patch.WellFormed) (hproper : clock.Proper) (hyears : clock.InYears)
    (hvalid : Registry.builtin.validateUpdate e patch clock = .ok r) :
    (∃ s', s.update r actor now = .ok s' ∧ s'.get r.kind r.id = .ok r ∧
      s'.database.others r.kind r.id = s.database.others r.kind r.id) ∨
    ∃ index ∈ (Descriptor.shipped r.kind).storage.indexes, index.unique = true ∧
      (∃ f ∈ (Descriptor.shipped r.kind).fields, f.immutable = false ∧ f.name ∈ index.fields) ∧
      s.Taken r index ∧ s.update r actor now = .error (.duplicate r.kind index.name) := by
  obtain ⟨stored, hmem, hid, hreads, -, hkind, hkey, hfields, hconforms⟩ :=
    h.get_ok hconforming hget
  obtain ⟨hrkind, hrid, hcreated⟩ := Record.identity_of_validateUpdate hvalid
  have hr := Record.conforms_of_validateUpdate hconforms hpatch hvalid
  have hchanged := Record.changedImmutable?_of_validateUpdate hconforms hpatch hvalid
  obtain ⟨hupdatedProper, hupdatedYears⟩ :=
    h.updated_of_validateUpdate hconforming hget hproper hyears hvalid
  have hsame : ∀ f ∈ (Descriptor.shipped r.kind).immutableFields, isIdentityField f.name = false →
      r.fields.get? f.name = stored.fields.get? f.name := by
    rw [hrkind, ← hfields]
    exact Record.fields_of_immutable hpatch hvalid
  subst hkind
  subst hkey
  rw [← hrkind] at hmem hreads
  rw [← hrid] at hid
  have hupdate : s.update r actor now = _ := h.update_eq hmem hid hreads harchived hchanged
  cases hcheck : ((Descriptor.shipped r.kind).recordTable []).check
      ((s.database.records r.kind).filter fun row => !Table.holds idField r.id.text row)
      (r.revised stored).row with
  | ok _ =>
    rw [hcheck] at hupdate
    refine .inl ⟨_, hupdate, ?_, h.others_replaced⟩
    obtain ⟨existing, hexisting, hback⟩ :=
      h.get_of_update hconforming hr hupdatedProper hupdatedYears hupdate
    rw [hrkind, hrid, hget] at hexisting
    cases hexisting
    rw [hback, ← hcreated]
  | error failure =>
    rw [hcheck] at hupdate
    have hrevised : (r.revised stored).Conforms := hr.congr rfl rfl
    obtain ⟨index, hindex, rfl, other, hother, hagree⟩ :=
      Table.check_eq_error hcheck fun c hc _ => hrevised.isSome_cell c hc
    obtain ⟨hrow, hholds⟩ := List.mem_filter.mp hother
    obtain ⟨declared, hdeclared, rfl, hmutable, htaken⟩ :=
      h.taken_of_clash hmem hid hsame hindex hrow (by simpa using hholds) hagree
    have hunique : declared.unique = true := hagree.1
    refine .inr ⟨declared, hdeclared, hunique, hmutable, htaken, ?_⟩
    rw [hupdate]
    simp only [Descriptor.storeError_clash r.kind declared hdeclared hunique]

/-- In every run with records from validation, at whatever times, a validated patch of a record
that has been read and is not archived is stored: it is read back as it is, and all other rows
stay. The only way to fail is to give a locale or a template the name of another one. -/
theorem SuppliedRun.update_validated {ops : List Operation} (h : SuppliedRun ops)
    (hget : (initial.run ops).get kind id = .ok e) (harchived : e.isArchived = false)
    (hpatch : patch.WellFormed) (hproper : clock.Proper) (hyears : clock.InYears)
    (hvalid : Registry.builtin.validateUpdate e patch clock = .ok r) (actor : String)
    (now : Instant) :
    (∃ s', (initial.run ops).update r actor now = .ok s' ∧ s'.get r.kind r.id = .ok r ∧
      s'.database.others r.kind r.id = (initial.run ops).database.others r.kind r.id) ∨
    (r.kind = .locale ∨ r.kind = .template) ∧ (initial.run ops).Taken r .uniqueName ∧
      (initial.run ops).update r actor now = .error (.duplicate r.kind "ui_name") := by
  obtain ⟨contents, hholds, hconforming⟩ := h.conforming _ ⟨ops, List.prefix_rfl, rfl⟩
  rcases hholds.update_answers hconforming hget harchived hpatch hproper hyears hvalid with
    hstored | ⟨index, hindex, hunique, hmutable, htaken, hrefused⟩
  · exact .inl hstored
  · obtain ⟨rfl, hkind⟩ := Descriptor.mutable_index r.kind index hindex hunique hmutable
    exact .inr ⟨hkind, htaken, hrefused⟩

/-! ## A locale gets another name -/

/-- The store of the sample locale. -/
def sampleStore : Store := initial.run [.creating .locale (Descriptor.sample .locale) .sample]

theorem wellFormed_sampleLocale : (Json.obj (Descriptor.sample .locale)).WellFormed :=
  Json.wellFormed_of_texts (by decide) (by decide)

theorem suppliedRun_sampleStore :
    SuppliedRun [.creating .locale (Descriptor.sample .locale) .sample] :=
  SuppliedRun.nil.creating .locale _ .sample wellFormed_sampleLocale
    (Descriptor.sample_accepted .locale)

theorem conforming_sampleStore : sampleStore.Conforming :=
  suppliedRun_sampleStore.conforming _ ⟨_, List.prefix_rfl, rfl⟩

theorem holds_sampleStore :
    sampleStore.Holds (Function.update (fun _ => []) .locale [.sampleLocale .sample]) :=
  holds_initial.after_creating .sample rfl (Descriptor.sample_accepted .locale)
    (by intro ref href; cases href) (by intro other hother; cases hother)

theorem ofRow_sampleLocale : (Descriptor.shipped .locale).ofRow (Record.sampleLocale .sample).row =
    .ok (.sampleLocale .sample) :=
  Record.ofRow_ofCandidate wellFormed_sampleLocale (Descriptor.sample_accepted .locale) (by decide)
    (by decide)

/-- The sample locale is read back. -/
theorem get_sampleStore :
    sampleStore.get .locale (Record.sampleLocale .sample).id = .ok (.sampleLocale .sample) := by
  have hmem : .sampleLocale .sample ∈ (Function.update (fun _ => []) .locale
      [.sampleLocale .sample] : Contents) .locale := List.mem_singleton_self _
  rw [holds_sampleStore.get_of_mem hmem]
  exact ofRow_sampleLocale

/-- The sample locale can be renamed: no other locale has its new name. -/
theorem update_sampleLocale : ∃ r s',
    Registry.builtin.validateUpdate (.sampleLocale .sample) (.obj [("name", .str "American")])
      ⟨60, 0⟩ = .ok r ∧
    sampleStore.update r "bob" ⟨60, 0⟩ = .ok s' ∧
    s'.get .locale (Record.sampleLocale .sample).id = .ok r := by
  obtain ⟨r, hvalid⟩ : ∃ r, Registry.builtin.validateUpdate (.sampleLocale .sample)
      (.obj [("name", .str "American")]) ⟨60, 0⟩ = .ok r :=
    ⟨_, (Registry.validateUpdate_eq (by decide)).trans (if_pos (by decide +kernel))⟩
  obtain ⟨hkind, hid, -⟩ := Record.identity_of_validateUpdate hvalid
  have hkind : r.kind = .locale := hkind
  have hagrees := suppliedRun_sampleStore.update_validated get_sampleStore (by decide)
    (Json.wellFormed_of_texts (by decide) (by decide)) (by decide) (by decide) hvalid "bob" ⟨60, 0⟩
  rw [hkind, hid] at hagrees
  rcases hagrees with ⟨s', hupdate, hget, -⟩ | ⟨-, ⟨other, hother, hkey, -⟩, -⟩
  · exact ⟨r, s', hvalid, hupdate, hget⟩
  · -- The renamed locale is the only one.
    rw [hkind, ← sampleStore, holds_sampleStore.database.records_eq, Function.update_self,
      List.map_singleton, List.mem_singleton] at hother
    rw [hother, hid] at hkey
    exact absurd (Record.cell_id _) hkey

end Store

/-! ## A template in two locales -/

/-- A key that repeats one digit. -/
def Uuid.ofDigit (digit : Fin 16) : Uuid := ⟨List.replicate 32 digit, List.length_replicate⟩

namespace Store

variable {s : Store} {contents : Contents}

/-- A candidate for another locale than the sample. -/
def frenchLocale : Fields := [("_id", .str "fr-FR"), ("name", .str "French")]

theorem wellFormed_frenchLocale : (Json.obj frenchLocale).WellFormed :=
  Json.wellFormed_of_texts (by decide) (by decide)

theorem accepted_frenchLocale :
    (Descriptor.shipped .locale).candidateViolations frenchLocale = [] := by
  decide +kernel

/-- Creating the other locale and then the sample. -/
def twoLocales : List Operation :=
  [.creating .locale frenchLocale .sample, .creating .locale (Descriptor.sample .locale) .sample]

theorem suppliedRun_twoLocales : SuppliedRun twoLocales := by
  have hfrench := SuppliedRun.nil.creating .locale _ .sample wellFormed_frenchLocale
    accepted_frenchLocale
  exact hfrench.creating .locale _ .sample wellFormed_sampleLocale
    (Descriptor.sample_accepted .locale)

theorem holds_twoLocales : (initial.run twoLocales).Holds (Function.update (Function.update
    (fun _ => []) .locale [.ofCandidate .locale frenchLocale .sample ⟨0, 0⟩]) .locale
      [.ofCandidate .locale frenchLocale .sample ⟨0, 0⟩, .sampleLocale .sample]) := by
  have hfirst := holds_initial.after_creating .sample rfl accepted_frenchLocale
    (by intro ref href; cases href) (by intro other hother; cases hother)
  exact hfirst.after_creating_of_check .locale (Descriptor.sample .locale) .sample
    (Function.update_self ..) (by intro ref href; cases href) (by decide +kernel)

/-- A candidate for a variant of the sample template in a locale. -/
def sampleIn (locale : String) : RecordKind → Fields
  | .email => [("html", .str "<p>Hi</p>"), ("locale", .str locale), ("subject", .str "Hi"),
      ("template", .str Uuid.sample.text), ("text", .str "Hi")]
  | _ => [("content", .str "Hi"), ("locale", .str locale), ("template", .str Uuid.sample.text)]

/-- The record of that candidate. -/
def variantIn (kind : RecordKind) (locale : String) (fresh : Uuid) : Record :=
  .ofCandidate kind (sampleIn locale kind) fresh ⟨0, 0⟩

/-- The French text of the sample template. -/
def frenchText : Record := variantIn .sms "fr-FR" .sample

/-- Its English text. -/
def englishText : Record := variantIn .sms "en-US" (.ofDigit (.last 15))

/-- Its English email. -/
def englishEmail : Record := variantIn .email "en-US" .sample

/-- Creating both locales, the sample template, and these variants of it. -/
def bilingual : List Operation :=
  twoLocales ++ [.creating .template (Descriptor.sample .template) .sample] ++
    [.creating .sms (sampleIn "fr-FR" .sms) .sample] ++
    [.creating .sms (sampleIn "en-US" .sms) (.ofDigit (.last 15))] ++
    [.creating .email (sampleIn "en-US" .email) .sample]

/-- The records of that run. -/
def bilingualContents : Contents
  | .locale => [.ofCandidate .locale frenchLocale .sample ⟨0, 0⟩, .sampleLocale .sample]
  | .template => [.sampleTemplate .sample]
  | .email => [englishEmail]
  | .sms => [frenchText, englishText]

theorem suppliedRun_bilingual : SuppliedRun bilingual := by
  have htemplate := suppliedRun_twoLocales.creating .template (Descriptor.sample .template) .sample
    (Json.wellFormed_of_texts (by decide) (by decide)) (Descriptor.sample_accepted .template)
  have hfrench := htemplate.creating .sms (sampleIn "fr-FR" .sms) .sample
    (Json.wellFormed_of_texts (by decide) (by decide)) (by decide +kernel)
  have henglish := hfrench.creating .sms (sampleIn "en-US" .sms) (.ofDigit (.last 15))
    (Json.wellFormed_of_texts (by decide) (by decide)) (by decide +kernel)
  exact henglish.creating .email (sampleIn "en-US" .email) .sample
    (Json.wellFormed_of_texts (by decide) (by decide)) (by decide +kernel)

/-- A variant is created whose references spell keys of records, if its row passes the check. -/
theorem Holds.after_creating_variant (h : s.Holds contents) (kind : RecordKind) (locale : String)
    (fresh : Uuid)
    (hrefs : ∀ ref ∈ (Descriptor.shipped kind).referenceFields, (contents ref.2).any (fun parent =>
      (variantIn kind locale fresh).getStr? ref.1.name == some parent.id.text) = true)
    (hcheck : ((Descriptor.shipped kind).recordTable []).check ((contents kind).map Record.row)
      (variantIn kind locale fresh).row = .ok ()) :
    (s.after (.creating kind (sampleIn locale kind) fresh)).Holds
      (Function.update contents kind (contents kind ++ [variantIn kind locale fresh])) := by
  refine h.after_creating_of_check kind _ fresh rfl (fun ref href raw hraw => ?_) hcheck
  obtain ⟨parent, hparent, htext⟩ := List.any_eq_true.mp (hrefs ref href)
  have hraw : (variantIn kind locale fresh).getStr? ref.1.name = some raw := hraw
  have htext : raw = parent.id.text := by simpa [hraw] using htext
  exact ⟨parent, hparent, htext ▸ RecordId.parse_text parent.id⟩

theorem holds_bilingual : (initial.run bilingual).Holds bilingualContents := by
  have htemplate := holds_twoLocales.after_creating_of_check .template
    (Descriptor.sample .template) .sample rfl (by intro ref href; cases href) (by decide +kernel)
  have hfrench := htemplate.after_creating_variant .sms "fr-FR" .sample (by decide +kernel)
    (by decide +kernel)
  have henglish := hfrench.after_creating_variant .sms "en-US" (.ofDigit (.last 15))
    (by decide +kernel) (by decide +kernel)
  have hall := henglish.after_creating_variant .email "en-US" .sample (by decide +kernel)
    (by decide +kernel)
  convert hall using 1
  · simp only [bilingual, run_append]
  · funext kind
    cases kind <;> rfl

/-- The records of that run are read back. -/
theorem ofRow_bilingual (kind : RecordKind) :
    ∀ r ∈ bilingualContents kind, (Descriptor.shipped kind).ofRow r.row = .ok r := by
  intro r hr
  cases kind with
  | locale =>
    rcases List.mem_pair.mp hr with rfl | rfl
    · exact Record.ofRow_ofCandidate wellFormed_frenchLocale accepted_frenchLocale (by decide)
        (by decide)
    · exact ofRow_sampleLocale
  | template =>
    rw [List.mem_singleton.mp hr]
    exact Record.ofRow_ofCandidate (Json.wellFormed_of_texts (by decide) (by decide))
      (Descriptor.sample_accepted .template) (by decide) (by decide)
  | email =>
    rw [List.mem_singleton.mp hr]
    exact Record.ofRow_ofCandidate (Json.wellFormed_of_texts (by decide) (by decide))
      (by decide +kernel) (by decide) (by decide)
  | sms =>
    rcases List.mem_pair.mp hr with rfl | rfl
    · exact Record.ofRow_ofCandidate (Json.wellFormed_of_texts (by decide) (by decide))
        (by decide +kernel) (by decide) (by decide)
    · exact Record.ofRow_ofCandidate (Json.wellFormed_of_texts (by decide) (by decide))
        (by decide +kernel) (by decide) (by decide)

theorem readable_bilingual (kind : RecordKind) :
    ∀ row ∈ (initial.run bilingual).database.records kind,
      ∃ r, (Descriptor.shipped kind).ofRow row = .ok r := by
  intro row hrow
  rw [holds_bilingual.database.records_eq] at hrow
  obtain ⟨r, hr, rfl⟩ := List.mem_map.mp hrow
  exact ⟨r, ofRow_bilingual kind r hr⟩

end Store
end Phrasebook
