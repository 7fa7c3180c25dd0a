import Phrasebook.Proofs.Made

/-!
# Flat forms

In the flat form of a record a field of the name of the key or of a time takes precedence
over it. Validation makes no such field of a candidate, and none of a patch if the key and
the times are immutable: then the flat form gives every name the value that the record has.

## Main definitions

* `Record.Flat`: no field has the name of the key or of a time
* `Registry.Guarded`: no patch gives such a field
-/
namespace Phrasebook

/-- No field has the name of the key or of a time. -/
def Record.Flat (r : Record) : Prop :=
  ∀ name, isIdentityField name = true → r.fields.get? name = none

/-- The key and the times are immutable, or accept no value at all. -/
def Descriptor.Guarded (d : Descriptor) : Prop :=
  ∀ f ∈ d.fields, isIdentityField f.name = true →
    f.immutable = true ∨ ∀ value : Json, value.WellFormed → ¬ f.Accepts d value

/-- So they are for every kind that can have records. -/
def Registry.Guarded (registry : Registry) : Prop :=
  ∀ d ∈ registry.descriptors, d.Usable → d.Guarded

/-! ## The flat form -/

section FlatForm

variable {r : Record} {name : String}

theorem Record.sorted_toFields (r : Record) : r.toFields.Sorted :=
  (Fields.sorted_ofList _).override

/-- The flat form gives a name the value of its field, and else what the record has. -/
theorem Record.get?_toFields (hsorted : r.fields.Sorted) (name : String) :
    r.toFields.get? name = (r.fields.get? name).or (r.get? name) := by
  have hparts : Fields.get? (Fields.ofList [(idField, .str r.id.text),
      (createdField, .str r.created.text), (updatedField, .str r.updated.text)]) name =
        if isIdentityField name then r.get? name else none := by
    cases hidentity : isIdentityField name with
    | true =>
      rcases isIdentityField_iff.mp hidentity with rfl | rfl | rfl <;>
        simp [Fields.ofList, Fields.override, get?, idField, createdField, updatedField]
    | false =>
      obtain ⟨hid, hcreated, hupdated⟩ :
          name ≠ idField ∧ name ≠ createdField ∧ name ≠ updatedField := by
        simpa [isIdentityField, and_assoc] using hidentity
      simp [Fields.ofList, Fields.override, hid.symm, hcreated.symm, hupdated.symm]
  rw [toFields, Fields.get?_override hsorted, hparts]
  cases hidentity : isIdentityField name with
  | true => rfl
  | false => simp [get?_eq_fields hidentity]

/-- The flat form of a flat record gives every name the value that the record has. -/
theorem Record.Flat.get?_toFields (h : r.Flat) (hsorted : r.fields.Sorted) (name : String) :
    r.toFields.get? name = r.get? name := by
  rw [Record.get?_toFields hsorted]
  cases hidentity : isIdentityField name with
  | true => rw [h name hidentity, Option.none_or]
  | false => rw [get?_eq_fields hidentity, Option.or_self]

end FlatForm

/-! ## Made records -/

section Made

variable {registry : Registry} {ds : List Descriptor} {d : Descriptor} {r : Record}
  {candidate : Fields} {now : Instant}

/-- A new record is flat. -/
theorem Descriptor.Consistent.flat_recordOf (h : d.Consistent) (candidate : Fields) (fresh : Uuid)
    (now : Instant) : (d.recordOf candidate fresh now).Flat := by
  intro name hidentity
  refine (get?_initialFields h.nodup).trans ?_
  rw [if_pos hidentity]

/-- A patch gives no value to the key or a time if they are guarded. -/
theorem Descriptor.Guarded.get?_mutableChanges (h : d.Guarded)
    (hpatch : (Json.obj candidate).WellFormed)
    (hnil : d.violations .update (Registry.mutableChanges d candidate) = []) {name : String}
    (hidentity : isIdentityField name = true) :
    (Registry.mutableChanges d candidate).get? name = none := by
  cases hget : (Registry.mutableChanges d candidate).get? name with
  | none => rfl
  | some value =>
    have hmem := Fields.mem_of_get? hget
    obtain ⟨f, hf, haccepts⟩ := accepts_of_mem hnil hmem
    obtain ⟨hfield, rfl⟩ := mem_of_field? hf
    obtain ⟨hgiven, hmutable⟩ := Registry.mem_mutableChanges.mp hmem
    rcases h f hfield hidentity with himmutable | hnone
    · exact absurd rfl (hmutable f (List.mem_filter.mpr ⟨hfield, himmutable⟩))
    · exact absurd haccepts (hnone value (hpatch.of_mem _ hgiven))

/-- A patch leaves a flat record flat if the key and the times are guarded. -/
theorem Record.Flat.changed (h : r.Flat) (hguarded : d.Guarded)
    (hpatch : (Json.obj candidate).WellFormed)
    (hnil : d.violations .update (Registry.mutableChanges d candidate) = []) :
    (r.changed (Registry.mutableChanges d candidate) now).Flat := by
  intro name hidentity
  have hsorted := Registry.sorted_mutableChanges (d := d) hpatch.sorted
  rw [Record.changed, Fields.get?_override hsorted,
    hguarded.get?_mutableChanges hpatch hnil hidentity, h name hidentity, Option.none_or]

/-- The definition of a made record accepts a candidate. -/
theorem Registry.Makes.usable (h : registry.Makes r) (hget : registry.get? r.kind = some d) :
    d.Usable := by
  induction h with
  | create wellFormed valid =>
    obtain ⟨e, candidate, he, rfl, hnil, rfl⟩ := validate_ok_iff.mp valid
    obtain ⟨-, hkind⟩ := kind_of_get? he
    obtain rfl : e = d := Option.some.inj ((hkind ▸ he).symm.trans hget)
    exact ⟨candidate, wellFormed, hnil⟩
  | patch _ _ valid ih =>
    obtain ⟨_, candidate, -, -, -, -, rfl⟩ := validateUpdate_ok_iff.mp valid
    exact ih hget

theorem Registry.Makes.flat (hreg : ofDescriptors ds = .ok registry) (hguarded : registry.Guarded)
    (h : registry.Makes r) : r.Flat := by
  induction h with
  | create _ valid =>
    obtain ⟨d, candidate, hget, -, -, rfl⟩ := validate_ok_iff.mp valid
    exact (consistent_of_mem hreg (kind_of_get? hget).1).flat_recordOf candidate _ _
  | patch made wellFormed valid ih =>
    obtain ⟨d, candidate, hget, rfl, -, hnil, rfl⟩ := validateUpdate_ok_iff.mp valid
    exact ih.changed (hguarded d (kind_of_get? hget).1 (made.usable hget)) wellFormed hnil

/-- A patch that gives a value to a field which is not immutable is taken over. -/
theorem Registry.Makes.exists_given (hreg : ofDescriptors ds = .ok registry)
    (hd : d ∈ registry.descriptors) (husable : d.Usable) {f : FieldSpec} (hf : f ∈ d.fields)
    (hmutable : f.immutable = false) {value : Json} (hvalue : value.WellFormed)
    (haccepts : f.Accepts d value) :
    ∃ r, registry.Makes r ∧ r.fields.get? f.name = some value := by
  have hconsistent := consistent_of_mem hreg hd
  have hget := get?_of_mem hreg hd
  obtain ⟨candidate, hwellFormed, hnil⟩ := husable
  have hmade : registry.Makes (d.recordOf candidate .sample ⟨0, 0⟩) :=
    .create hwellFormed (validate_ok_iff.mpr ⟨d, candidate, hget, rfl, hnil, rfl⟩)
  have hsorted : Fields.Sorted [(f.name, value)] := List.pairwise_singleton _ _
  have hpatch : (Json.obj [(f.name, value)]).WellFormed := by
    refine .obj hsorted fun entry hentry => ?_
    rw [List.mem_singleton.mp hentry]
    exact hvalue
  have hkept : (f.name, value) ∈ mutableChanges d [(f.name, value)] := by
    refine mem_mutableChanges.mpr ⟨List.mem_singleton_self _, fun g hg hname => ?_⟩
    obtain ⟨hfield, himmutable⟩ := List.mem_filter.mp hg
    have hsame := hconsistent.field?_of_mem hfield
    rw [hname, hconsistent.field?_of_mem hf] at hsame
    cases hsame
    rw [hmutable] at himmutable
    cases himmutable
  have haccepted : d.violations .update (mutableChanges d [(f.name, value)]) = [] := by
    refine Descriptor.violations_eq_nil_iff.mpr ⟨fun name given hmem => ?_, nofun⟩
    obtain ⟨hgiven, -⟩ := mem_mutableChanges.mp hmem
    cases List.mem_singleton.mp hgiven
    exact ⟨f, hconsistent.field?_of_mem hf, haccepts⟩
  have hchanges := sorted_mutableChanges (d := d) hsorted
  have hvalid : registry.validateUpdate (d.recordOf candidate .sample ⟨0, 0⟩)
      (.obj [(f.name, value)]) ⟨0, 0⟩ = .ok _ :=
    validateUpdate_ok_iff.mpr ⟨d, _, hget, rfl, List.ne_nil_of_mem hkept, haccepted, rfl⟩
  refine ⟨_, hmade.patch hpatch hvalid, ?_⟩
  rw [Record.changed, Fields.get?_override hchanges, hchanges.get?_eq_some_iff.mpr hkept,
    Option.some_or]

end Made

/-- No field of a record that validation makes has the name of the key or of a time, and its
flat form agrees with the record on all names, exactly if the key and the times are guarded. -/
theorem Registry.flat_iff_guarded {ds : List Descriptor} {registry : Registry}
    (hreg : ofDescriptors ds = .ok registry) :
    (∀ r, registry.Makes r → r.Flat ∧ ∀ name, r.get? name = r.toFields.get? name) ↔
      registry.Guarded := by
  refine ⟨fun hall d hd husable f hf hidentity => ?_, fun hguarded r hmade => ?_⟩
  · cases himmutable : f.immutable with
    | true => exact .inl rfl
    | false =>
      refine .inr fun value hvalue haccepts => ?_
      obtain ⟨r, hmade, hget⟩ := Makes.exists_given hreg hd husable hf himmutable hvalue haccepts
      rw [(hall r hmade).1 f.name hidentity] at hget
      cases hget
  · have hflat := hmade.flat hreg hguarded
    exact ⟨hflat, fun name => (hflat.get?_toFields hmade.sorted name).symm⟩

theorem Registry.guarded_builtin : builtin.Guarded := by
  have hall : ∀ d ∈ builtin.descriptors, ∀ f ∈ d.fields, isIdentityField f.name = true →
      f.immutable = true := by
    decide +kernel
  exact fun d hd _ f hf hidentity => .inl (hall d hd f hf hidentity)

/-- With the shipped definitions every made record agrees with its flat form. -/
theorem Registry.flat_builtin :
    ofDescriptors builtin.descriptors = .ok builtin ∧
      ∀ r, builtin.Makes r → r.Flat ∧ ∀ name, r.get? name = r.toFields.get? name :=
  ⟨ofDescriptors_builtin, (flat_iff_guarded ofDescriptors_builtin).mpr guarded_builtin⟩

/-! ## A time that can be patched -/

/-- A definition of templates whose creation time is assigned but not immutable. -/
def Descriptor.restamped : Descriptor where
  kind := .template
  title := "template"
  fields := [.generatedId, { FieldSpec.createdTime with immutable := false }, .updatedTime]
  storage := { table := "mouth_template", charset := "utf8mb4", collate := "utf8mb4_general_ci" }

/-- It is accepted, and a patch makes the flat form disagree with the record. -/
theorem Registry.not_flat_restamped : ofDescriptors [.restamped] = .ok ⟨[.restamped]⟩ ∧
    ∃ r, Makes ⟨[.restamped]⟩ r ∧ ¬ r.Flat ∧
      r.get? "_created" = some (.str "1970-01-01T00:00:00Z") ∧
      r.toFields.get? "_created" = some (.str "2000-01-01T00:00:00Z") := by
  let first := Descriptor.restamped.recordOf [] .sample ⟨0, 0⟩
  let changes : Fields := [("_created", .str "2000-01-01T00:00:00Z")]
  have hnew : (Json.obj []).WellFormed := Json.wellFormed_of_texts List.Pairwise.nil (by decide)
  have hpatch : (Json.obj changes).WellFormed := Json.wellFormed_of_texts (by decide) (by decide)
  have hfirst : validate ⟨[.restamped]⟩ .template (.obj []) .sample ⟨0, 0⟩ = .ok first := by
    decide +kernel
  have hsecond : validateUpdate ⟨[.restamped]⟩ first (.obj changes) ⟨0, 0⟩ =
      .ok (first.changed changes ⟨0, 0⟩) := by
    decide +kernel
  refine ⟨by decide +kernel, _, (Makes.create hnew hfirst).patch hpatch hsecond, fun hflat => ?_,
    by decide +kernel, by decide +kernel⟩
  have hcreated := hflat "_created" rfl
  have hgiven : (first.changed changes ⟨0, 0⟩).fields.get? "_created" =
      some (.str "2000-01-01T00:00:00Z") := by decide +kernel
  rw [hgiven] at hcreated
  cases hcreated

end Phrasebook
