import Phrasebook.Proofs.Accepted
import Phrasebook.Proofs.JsonText
import Phrasebook.Proofs.Keys
import Phrasebook.Proofs.Timestamps

/-!
# Conforming records

The records that validation makes have a value of the declared type in every declared
field and no other fields. Such a record is read back from its row, fields and key
exactly, and the times if their texts are read back.

## Main definitions

* `FieldType.Stores`: the values that a column of a type keeps
* `Record.Conforms`: declared fields only, each with a value of its type
-/
namespace Phrasebook

/-- The values that a column of a type keeps. -/
def FieldType.Stores : FieldType → Json → Prop
  | .uuid, .str _ | .timestamp, .str _ | .string, .str _ | .boolean, .bool _ => True
  | .object, .obj entries => Fields.Sorted entries ∧ ∀ entry ∈ entries, ∃ s, entry.2 = .str s
  | _, _ => False

/-- A well-formed value of the right type is kept, an object if its entries are texts. -/
theorem FieldType.stores_of_admits {type : FieldType} {value : Json}
    (h : type.admits value = true) (hvalue : value.WellFormed)
    (htexts : type = .object → ∀ entries, value = .obj entries →
      ∀ entry ∈ entries, ∃ s, entry.2 = .str s) : type.Stores value := by
  cases type <;> cases value <;> simp only [FieldType.Stores]
  all_goals simp only [FieldType.admits, Bool.false_eq_true] at h
  case object.obj entries =>
    cases hvalue with
    | obj sorted _ => exact ⟨sorted, htexts rfl entries rfl⟩

namespace FieldSpec

variable {f : FieldSpec} {d : Descriptor} {value : Json}

/-- A value that is kept is plain, and no deeper than an object of texts. -/
theorem plain_of_stores (h : f.type.Stores value) : value.Plain ∧ value.height ≤ 1 := by
  cases htype : f.type <;> cases value <;> simp only [FieldType.Stores, htype] at h
  case object.obj entries =>
    obtain ⟨hsorted, htexts⟩ := h
    refine ⟨.obj hsorted fun entry hentry => ?_, ?_⟩
    · obtain ⟨s, hs⟩ := htexts entry hentry
      exact hs ▸ .str s
    · refine Nat.succ_le_succ (Json.heightEntries_le_iff.mpr fun entry hentry => ?_)
      obtain ⟨s, hs⟩ := htexts entry hentry
      rw [hs]
      exact Nat.le_refl 0
  case boolean.bool b => exact ⟨.bool b, Nat.zero_le 1⟩
  all_goals exact ⟨.str _, Nat.zero_le 1⟩

/-- A value that is kept is read back from its column text. -/
theorem fromColumn_of_stores (h : f.type.Stores value) :
    ∃ text, f.toColumn (some value) = some text ∧ f.fromColumn text = .ok value := by
  obtain ⟨hplain, hheight⟩ := plain_of_stores h
  have hread := Json.read_compact hplain (Nat.lt_of_le_of_lt hheight (by decide))
  cases htype : f.type <;> cases value <;> simp only [FieldType.Stores, htype] at h
  case object.obj entries => exact ⟨_, rfl, by simp only [fromColumn, htype, hread]⟩
  case boolean.bool b => exact ⟨_, rfl, by simp only [fromColumn, htype, hread]⟩
  all_goals
    rename_i s
    exact ⟨s, by simp [toColumn, htype], by simp only [fromColumn, htype]⟩

/-- A well-formed value that a field accepts is kept. -/
theorem Accepts.stores (h : f.Accepts d value) (hvalue : value.WellFormed) :
    f.type.Stores value := by
  refine FieldType.stores_of_admits h.admits hvalue fun htype entries hentries => ?_
  subst hentries
  exact h.entries htype

end FieldSpec

/-- Declared fields only, each of them with a value of its type. -/
structure Record.Conforms (r : Record) : Prop where
  sorted : r.fields.Sorted
  stores : ∀ f ∈ (Descriptor.shipped r.kind).fields, isIdentityField f.name = false →
    ∃ value, r.fields.get? f.name = some value ∧ f.type.Stores value
  declared : ∀ name value, r.fields.get? name = some value →
    isIdentityField name = false ∧ ∃ f ∈ (Descriptor.shipped r.kind).fields, f.name = name

/-- Conforming is a matter of the kind and the fields only. -/
theorem Record.Conforms.congr {r other : Record} (h : r.Conforms) (hkind : other.kind = r.kind)
    (hfields : other.fields = r.fields) : other.Conforms :=
  ⟨hfields ▸ h.sorted, by rw [hkind, hfields]; exact h.stores,
    by rw [hkind, hfields]; exact h.declared⟩

/-! ## Validated records -/

/-- A field that may be left out, other than the times, has a default that is kept. -/
theorem Descriptor.stores_default (kind : RecordKind) : ∀ f ∈ (shipped kind).fields,
    isIdentityField f.name = false → f.required = false →
      ∃ value, f.default = some value ∧ f.type.Stores value := by
  have hall : ∀ f ∈ (shipped kind).fields, isIdentityField f.name = false → f.required = false →
      f.type = .boolean ∧ f.default = some (.bool false) ∨
        f.type = .object ∧ f.default = some (.obj []) := by
    cases kind <;> decide
  intro f hf hidentity hrequired
  rcases hall f hf hidentity hrequired with ⟨htype, hdefault⟩ | ⟨htype, hdefault⟩
  · exact ⟨_, hdefault, by rw [htype]; trivial⟩
  · exact ⟨_, hdefault, by rw [htype]; exact ⟨List.Pairwise.nil, nofun⟩⟩

/-- The record of an accepted candidate conforms. -/
theorem Record.conforms_of_validate {kind : RecordKind} {input : Json} {fresh : Uuid}
    {now : Instant} {r : Record} (hinput : input.WellFormed)
    (h : Registry.builtin.validate kind input fresh now = .ok r) : r.Conforms := by
  obtain ⟨candidate, rfl, hviolations, rfl⟩ := Registry.validate_eq_ok_iff.mp h
  have haccepted := (Descriptor.candidateViolations_eq_nil_iff.mp hviolations).1
  refine ⟨Descriptor.sorted_initialFields, ?_, ?_⟩
  · intro f hf hidentity
    have hf : f ∈ (Descriptor.shipped kind).fields := hf
    rw [get?_ofCandidate hf hidentity, Descriptor.initialValue?]
    cases hgiven : Fields.get? candidate f.name with
    | some value =>
      have haccepts := Descriptor.accepts_of_get? haccepted (Descriptor.field?_shipped hf) hgiven
      exact ⟨value, rfl, haccepts.stores (hinput.of_mem _ (Fields.mem_of_get? hgiven))⟩
    | none =>
      cases hrequired : f.required with
      | true =>
        obtain ⟨value, hvalue⟩ := Descriptor.has_of_required haccepted hf hrequired
        rw [hgiven] at hvalue
        cases hvalue
      | false => exact Descriptor.stores_default kind f hf hidentity hrequired
  · intro name value hget
    have hinitial :=
      (Descriptor.get?_initialFields (Descriptor.nodup_shipped kind)).symm.trans hget
    cases hidentity : isIdentityField name with
    | true => simp [hidentity] at hinitial
    | false =>
      simp only [hidentity, Bool.false_eq_true, if_false, Option.bind_eq_some_iff] at hinitial
      obtain ⟨f, hf, -⟩ := hinitial
      exact ⟨rfl, f, Descriptor.mem_of_field? hf⟩

/-! ## Patched records -/

theorem Registry.mem_mutableChanges {d : Descriptor} {patch : Fields} {entry : String × Json} :
    entry ∈ mutableChanges d patch ↔
      entry ∈ patch ∧ ∀ f ∈ d.immutableFields, f.name ≠ entry.1 := by
  unfold mutableChanges
  induction d.immutableFields generalizing patch with
  | nil => simp
  | cons f rest ih =>
    rw [List.foldl_cons, ih, Fields.erase, List.mem_filter, List.forall_mem_cons, and_assoc,
      bne_iff_ne, ne_comm]

theorem Registry.sorted_mutableChanges {d : Descriptor} {patch : Fields} (h : patch.Sorted) :
    (mutableChanges d patch).Sorted := by
  refine List.foldlRecOn _ _ h fun changes hchanges f _ => ?_
  exact hchanges.filter _

/-- The key and the times of a shipped kind are immutable. -/
theorem Descriptor.immutable_identity (kind : RecordKind) : ∀ f ∈ (shipped kind).fields,
    isIdentityField f.name = true → f.immutable = true := by
  cases kind <;> decide

/-- The key and the times are declared by every shipped kind, and kept as texts. -/
theorem Descriptor.identity_declared (kind : RecordKind) {name : String}
    (h : isIdentityField name = true) :
    ∃ f ∈ (shipped kind).fields, f.name = name ∧ ∀ s, f.type.Stores (.str s) := by
  have hall : ∀ name ∈ [idField, createdField, updatedField], ∃ f ∈ (shipped kind).fields,
      f.name = name ∧ f.type ≠ .object ∧ f.type ≠ .boolean := by
    cases kind <;> decide
  have hname : name ∈ [idField, createdField, updatedField] := by
    simpa using isIdentityField_iff.mp h
  obtain ⟨f, hf, hfname, hobject, hboolean⟩ := hall name hname
  refine ⟨f, hf, hfname, fun s => ?_⟩
  cases htype : f.type <;> trivial

/-- What is left of a patch gives neither the key nor a time. -/
theorem Registry.get?_mutableChanges (kind : RecordKind) (patch : Fields) (name : String)
    (h : isIdentityField name = true) :
    (mutableChanges (.shipped kind) patch).get? name = none := by
  refine Fields.get?_eq_none_iff.mpr fun entry hentry heq => ?_
  obtain ⟨f, hf, hname, -⟩ := Descriptor.identity_declared kind h
  obtain ⟨-, hmutable⟩ := mem_mutableChanges.mp hentry
  have himmutable := Descriptor.immutable_identity kind f hf (hname.symm ▸ h)
  exact hmutable f (List.mem_filter.mpr ⟨hf, himmutable⟩) (hname.trans heq.symm)

/-- What is left of a patch without violations is declared and can be stored. -/
theorem Registry.stores_mutableChanges {kind : RecordKind} {patch : Fields} {name : String}
    {value : Json} (hentries : ∀ entry ∈ patch, Json.WellFormed entry.2)
    (h : (Descriptor.shipped kind).violations .update (mutableChanges (.shipped kind) patch) = [])
    (hget : (mutableChanges (.shipped kind) patch).get? name = some value) :
    isIdentityField name = false ∧
      ∃ f ∈ (Descriptor.shipped kind).fields, f.name = name ∧ f.type.Stores value := by
  have hmem := Fields.mem_of_get? hget
  obtain ⟨f, hf, haccepts⟩ := Descriptor.accepts_of_mem h hmem
  obtain ⟨hfield, hname⟩ := Descriptor.mem_of_field? hf
  refine ⟨?_, f, hfield, hname, haccepts.stores (hentries _ (mem_mutableChanges.mp hmem).1)⟩
  rw [← Bool.not_eq_true]
  intro hidentity
  rw [get?_mutableChanges kind patch name hidentity] at hget
  cases hget

/-- The record that accepted changes make of a record. -/
def Record.changed (existing : Record) (changes : Fields) (now : Instant) : Record :=
  { existing with
    fields := existing.fields.override changes
    updated := now.max existing.created }

/-- Validation overrides the fields of a record by changes it accepts. -/
theorem Registry.validateUpdate_ok_iff {registry : Registry} {existing r : Record} {patch : Json}
    {now : Instant} : registry.validateUpdate existing patch now = .ok r ↔
      ∃ d candidate, registry.get? existing.kind = some d ∧ patch = .obj candidate ∧
        mutableChanges d candidate ≠ [] ∧
        d.violations .update (mutableChanges d candidate) = [] ∧
        r = existing.changed (mutableChanges d candidate) now := by
  simp only [validateUpdate, bind_eq_ok_iff, ruling_eq_ok_iff, mapping_eq_ok_iff, List.isEmpty_iff]
  constructor
  · rintro ⟨d, hget, candidate, hpatch, h⟩
    split at h
    · cases h
    · next hsome =>
      split at h
      · next hnil => exact ⟨d, candidate, hget, hpatch, hsome, hnil, (Except.ok.inj h).symm⟩
      · cases h
  · rintro ⟨d, candidate, hget, hpatch, hsome, hnil, rfl⟩
    exact ⟨d, hget, candidate, hpatch, by rw [if_neg hsome, if_pos hnil]; rfl⟩

/-- The record that changes make which the shipped definition of its kind accepts. -/
theorem Registry.validateUpdate_ok {existing r : Record} {patch : Json} {now : Instant}
    (h : builtin.validateUpdate existing patch now = .ok r) : ∃ candidate, patch = .obj candidate ∧
      (Descriptor.shipped existing.kind).violations .update
        (mutableChanges (.shipped existing.kind) candidate) = [] ∧
      r = { existing with
        fields := existing.fields.override (mutableChanges (.shipped existing.kind) candidate)
        updated := now.max existing.created } := by
  obtain ⟨d, candidate, hget, hpatch, -, hnil, hr⟩ := validateUpdate_ok_iff.mp h
  rw [get?_builtin] at hget
  cases hget
  exact ⟨candidate, hpatch, hnil, hr⟩

/-- A conforming record still conforms after a patch. -/
theorem Record.conforms_of_validateUpdate {existing r : Record} {patch : Json} {now : Instant}
    (hexisting : existing.Conforms) (hpatch : patch.WellFormed)
    (h : Registry.builtin.validateUpdate existing patch now = .ok r) : r.Conforms := by
  obtain ⟨candidate, rfl, hviolations, rfl⟩ := Registry.validateUpdate_ok h
  have hchanges := Registry.sorted_mutableChanges (d := .shipped existing.kind) hpatch.sorted
  refine ⟨hexisting.sorted.override, ?_, ?_⟩
  · intro f hf hidentity
    rw [Fields.get?_override hchanges]
    cases hnew : (Registry.mutableChanges (.shipped existing.kind) candidate).get? f.name with
    | none => exact hexisting.stores f hf hidentity
    | some value =>
      obtain ⟨-, g, hg, hname, hstores⟩ :=
        Registry.stores_mutableChanges hpatch.of_mem hviolations hnew
      have hsame : g = f := Descriptor.eq_of_name hg hf hname
      exact ⟨value, rfl, hsame ▸ hstores⟩
  · intro name value hget
    rw [Fields.get?_override hchanges] at hget
    cases hnew : (Registry.mutableChanges (.shipped existing.kind) candidate).get? name with
    | none =>
      rw [hnew] at hget
      exact hexisting.declared name value hget
    | some new =>
      obtain ⟨hidentity, f, hf, hname, -⟩ :=
        Registry.stores_mutableChanges hpatch.of_mem hviolations hnew
      exact ⟨hidentity, f, hf, hname⟩

/-! ## Rows -/

namespace Record

variable {r : Record} {f : FieldSpec} {value : Json}

/-- The cell of a declared field is read back as its value if the column keeps it. -/
theorem read_cell (hf : f ∈ (Descriptor.shipped r.kind).fields) (hget : r.get? f.name = some value)
    (hstores : f.type.Stores value) :
    ∃ text, Row.cell r.row f.name = some text ∧ f.fromColumn text = .ok value := by
  obtain ⟨text, hcolumn, hread⟩ := FieldSpec.fromColumn_of_stores hstores
  exact ⟨text, by rw [cell_row hf, hget, hcolumn], hread⟩

/-- The flat form read from the row has the values that the columns keep. -/
theorem get?_fill (hf : f ∈ (Descriptor.shipped r.kind).fields) (hget : r.get? f.name = some value)
    (hstores : f.type.Stores value) :
    (FieldSpec.fill (FieldSpec.read? r.row) [] (Descriptor.shipped r.kind).fields).get? f.name =
      some value := by
  obtain ⟨text, hcell, hread⟩ := read_cell hf hget hstores
  rw [FieldSpec.get?_fill (Descriptor.nodup_shipped r.kind), Descriptor.find?_shipped hf]
  simp [FieldSpec.read?, hcell, hread, Except.toOption]

/-- The key and the times are texts, and are kept as such. -/
theorem stores_identity (r : Record) (hf : f ∈ (Descriptor.shipped r.kind).fields)
    (hidentity : isIdentityField f.name = true) :
    ∃ s, r.get? f.name = some (.str s) ∧ f.type.Stores (.str s) := by
  obtain ⟨g, hg, hname, hstores⟩ := Descriptor.identity_declared r.kind hidentity
  obtain rfl : g = f := Descriptor.eq_of_name hg hf hname
  rcases isIdentityField_iff.mp hidentity with hname | hname | hname <;> rw [hname] <;>
    exact ⟨_, rfl, hstores _⟩

/-- The key and the times are read from a row as they were written. -/
theorem get?_fill_identity (r : Record) (name : String) (h : isIdentityField name = true) :
    (FieldSpec.fill (FieldSpec.read? r.row) [] (Descriptor.shipped r.kind).fields).get? name =
      r.get? name := by
  obtain ⟨f, hf, rfl, -⟩ := Descriptor.identity_declared r.kind h
  obtain ⟨s, hs, hstores⟩ := r.stores_identity hf h
  rw [get?_fill hf hs hstores, hs]

/-- A record read from a row has its key, and the times that its texts spell. -/
theorem identity_of_ofRow {x : Record} (h : (Descriptor.shipped r.kind).ofRow r.row = .ok x) :
    x.id = r.id ∧ Instant.parse r.created.text = .ok x.created ∧
      Instant.parse r.updated.text = .ok x.updated := by
  obtain ⟨-, hfields⟩ := Descriptor.ofRow_eq_ok_iff.mp h
  have hid : r.get? idField = some (.str r.id.text) := rfl
  have hcreated : r.get? createdField = some (.str r.created.text) := rfl
  have hupdated : r.get? updatedField = some (.str r.updated.text) := rfl
  simp only [ofFields_eq_ok_iff, get?_fill_identity r idField rfl,
    get?_fill_identity r createdField rfl, get?_fill_identity r updatedField rfl, hid, hcreated,
    hupdated, Option.some.injEq, Json.str.injEq, exists_eq_left', RecordId.parse_text,
    Except.ok.injEq] at hfields
  obtain ⟨hid, hcreated, hupdated, -⟩ := hfields
  exact ⟨hid.symm, hcreated, hupdated⟩

end Record

namespace Record.Conforms

variable {r : Record}

theorem get?_identity (h : r.Conforms) (name : String) (hname : isIdentityField name = true) :
    r.fields.get? name = none := by
  cases hget : r.fields.get? name with
  | none => rfl
  | some value => simp [(h.declared name value hget).1] at hname

/-- A conforming record has a value that is kept in every declared field, key and times
included. -/
theorem get? (h : r.Conforms) {f : FieldSpec} (hf : f ∈ (Descriptor.shipped r.kind).fields) :
    ∃ value, r.get? f.name = some value ∧ f.type.Stores value := by
  cases hidentity : isIdentityField f.name with
  | false =>
    rw [get?_eq_fields hidentity]
    exact h.stores f hf hidentity
  | true =>
    obtain ⟨s, hs, hstores⟩ := r.stores_identity hf hidentity
    exact ⟨_, hs, hstores⟩

/-- The cell of a declared field is read back as its value. -/
theorem read?_row (h : r.Conforms) {f : FieldSpec} (hf : f ∈ (Descriptor.shipped r.kind).fields) :
    ∃ text value, Row.cell r.row f.name = some text ∧ f.fromColumn text = .ok value ∧
      r.get? f.name = some value := by
  obtain ⟨value, hvalue, hstores⟩ := h.get? hf
  obtain ⟨text, hcell, hread⟩ := read_cell hf hvalue hstores
  exact ⟨text, value, hcell, hread, hvalue⟩

/-- The flat form read from the row has the values of the record. -/
theorem get?_fill_row (h : r.Conforms) (name : String) :
    (FieldSpec.fill (FieldSpec.read? r.row) [] (Descriptor.shipped r.kind).fields).get? name =
      r.get? name := by
  cases hf : (Descriptor.shipped r.kind).fields.find? fun f => f.name == name with
  | some f =>
    obtain ⟨hfield, rfl⟩ := Descriptor.mem_of_field? hf
    obtain ⟨value, hvalue, hstores⟩ := h.get? hfield
    rw [get?_fill hfield hvalue hstores, hvalue]
  | none =>
    rw [FieldSpec.get?_fill (Descriptor.nodup_shipped r.kind), hf, Fields.get?_nil]
    have hundeclared : ∀ f ∈ (Descriptor.shipped r.kind).fields, f.name ≠ name := by
      simpa using hf
    have hidentity : isIdentityField name = false := by
      rw [← Bool.not_eq_true]
      intro htrue
      obtain ⟨f, hfield, hname, -⟩ := Descriptor.identity_declared r.kind htrue
      exact hundeclared f hfield hname
    rw [get?_eq_fields hidentity]
    cases hget : r.fields.get? name with
    | none => rfl
    | some value =>
      obtain ⟨-, f, hfield, hname⟩ := h.declared name value hget
      exact absurd hname (hundeclared f hfield)

/-- A conforming record is read back from its row but for the times, which are what
their texts spell. -/
theorem ofRow_row_iff (h : r.Conforms) {x : Record} :
    (Descriptor.shipped r.kind).ofRow r.row = .ok x ↔
      Instant.parse r.created.text = .ok x.created ∧ Instant.parse r.updated.text = .ok x.updated ∧
        x.kind = r.kind ∧ x.id = r.id ∧ x.fields = r.fields := by
  have hreadable : ∀ f ∈ (Descriptor.shipped r.kind).fields, ∀ text,
      Row.cell r.row f.name = some text → ∃ value, f.fromColumn text = .ok value := by
    intro f hf text htext
    obtain ⟨text', value, hcell, hread, -⟩ := h.read?_row hf
    rw [hcell] at htext
    exact ⟨value, Option.some.inj htext ▸ hread⟩
  have hfields : (FieldSpec.fill (FieldSpec.read? r.row) []
      (Descriptor.shipped r.kind).fields).filter
      (fun entry => !isIdentityField entry.1) = r.fields :=
    filter_eq_fields (FieldSpec.sorted_fill List.Pairwise.nil) h.sorted h.get?_identity
      h.get?_fill_row
  rw [Descriptor.ofRow_eq_ok_iff, ofFields_eq_ok_iff, hfields]
  have hid : r.get? idField = some (.str r.id.text) := rfl
  have hcreated : r.get? createdField = some (.str r.created.text) := rfl
  have hupdated : r.get? updatedField = some (.str r.updated.text) := rfl
  simp only [h.get?_fill_row, hid, hcreated, hupdated, Option.some.injEq, Json.str.injEq,
    exists_eq_left', RecordId.parse_text, Except.ok.injEq, Descriptor.kind_shipped]
  constructor
  · rintro ⟨-, hid, hcreated, hupdated, hkind, hfields⟩
    exact ⟨hcreated, hupdated, hkind, hid.symm, hfields⟩
  · rintro ⟨hcreated, hupdated, hkind, hid, hfields⟩
    exact ⟨hreadable, hid.symm, hcreated, hupdated, hkind, hfields⟩

end Record.Conforms
end Phrasebook
