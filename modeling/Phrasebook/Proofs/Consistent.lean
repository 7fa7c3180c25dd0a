import Mathlib.Data.List.Nodup
import Phrasebook.Proofs.Registries
import Phrasebook.Record

/-!
# Consistent descriptors

What the consistency check of a descriptor establishes, and that all descriptors of an
accepted registry have passed it.

## Main definitions

* `Descriptor.Consistent`: what the check of a descriptor establishes
-/
namespace Phrasebook

/-- What the check of a descriptor establishes. -/
structure Descriptor.Consistent (d : Descriptor) : Prop where
  /-- There is a key, which never changes. -/
  key : ∃ f, d.field? idField = some f ∧ f.immutable = true
  /-- The times are there and assigned. -/
  times : ∀ name, name = createdField ∨ name = updatedField →
    ∃ f, d.field? name = some f ∧ f.serverAssigned = true
  /-- Names are distinct. -/
  nodup : (d.fields.map FieldSpec.name).Nodup
  /-- Every field is consistent in itself. -/
  fields : ∀ f ∈ d.fields, checkField f = .ok ()
  /-- Indexes cover declared fields only. -/
  indexed : ∀ index ∈ d.storage.indexes, ∀ name ∈ index.fields, (d.field? name).isSome = true

namespace Descriptor

variable {d : Descriptor} {f : FieldSpec} {name : String}

theorem checkId_eq_ok (h : d.checkId = .ok ()) :
    ∃ f, d.field? idField = some f ∧ f.immutable = true := by
  unfold checkId at h
  split at h
  · next f hf =>
    split at h
    · next himmutable => exact ⟨f, hf, himmutable⟩
    · cases h
  · cases h

theorem checkTime_eq_ok (h : d.checkTime name = .ok ()) :
    ∃ f, d.field? name = some f ∧ f.serverAssigned = true := by
  unfold checkTime at h
  split at h
  · next f hf =>
    split at h
    · next hassigned => exact ⟨f, hf, hassigned⟩
    · cases h
  · cases h

/-- Fields that pass have names of their own, none of which has been seen before. -/
theorem checkFields_eq_ok {seen : List String} {fields : List FieldSpec}
    (h : checkFields seen fields = .ok ()) :
    (fields.map FieldSpec.name).Nodup ∧
      ∀ f ∈ fields, f.name ∉ seen ∧ checkField f = .ok () := by
  induction fields generalizing seen with
  | nil => simp
  | cons f rest ih =>
    rw [checkFields] at h
    split at h
    · cases h
    · next hseen =>
      obtain ⟨⟨⟩, hfield, hrest⟩ := bind_eq_ok_iff.mp h
      obtain ⟨hnodup, hall⟩ := ih hrest
      have hfresh : f.name ∉ rest.map FieldSpec.name := by
        intro hmem
        obtain ⟨g, hg, hname⟩ := List.mem_map.mp hmem
        exact (hall g hg).1 (hname ▸ List.mem_cons_self)
      refine ⟨List.nodup_cons.mpr ⟨hfresh, hnodup⟩, fun g hg => ?_⟩
      rcases List.mem_cons.mp hg with rfl | hg
      · exact ⟨by simpa using hseen, hfield⟩
      · exact ⟨fun hmem => (hall g hg).1 (List.mem_cons_of_mem _ hmem), (hall g hg).2⟩

theorem checkIndexes_eq_ok {indexes : List IndexSpec} (h : d.checkIndexes indexes = .ok ()) :
    ∀ index ∈ indexes, ∀ name ∈ index.fields, (d.field? name).isSome = true := by
  induction indexes with
  | nil => simp
  | cons first rest ih =>
    rw [checkIndexes] at h
    split at h
    · cases h
    · next hnone =>
      refine List.forall_mem_cons.mpr ⟨fun name hname => ?_, ih h⟩
      simpa [Option.isSome_iff_ne_none] using List.find?_eq_none.mp hnone name hname

theorem consistent_of_check (h : d.check = .ok ()) : d.Consistent := by
  obtain ⟨⟨⟩, hkey, h⟩ := bind_eq_ok_iff.mp h
  obtain ⟨⟨⟩, hcreated, h⟩ := bind_eq_ok_iff.mp h
  obtain ⟨⟨⟩, hupdated, h⟩ := bind_eq_ok_iff.mp h
  obtain ⟨⟨⟩, hfields, hindexes⟩ := bind_eq_ok_iff.mp h
  obtain ⟨hnodup, hall⟩ := checkFields_eq_ok hfields
  refine ⟨checkId_eq_ok hkey, ?_, hnodup, fun f hf => (hall f hf).2, checkIndexes_eq_ok hindexes⟩
  rintro name (rfl | rfl)
  · exact checkTime_eq_ok hcreated
  · exact checkTime_eq_ok hupdated

/-- Among distinct names the field of a name is the one that has it. -/
theorem find?_of_mem {fields : List FieldSpec} (hnodup : (fields.map FieldSpec.name).Nodup)
    (hf : f ∈ fields) : (fields.find? fun g => g.name == f.name) = some f := by
  induction fields with
  | nil => cases hf
  | cons g rest ih =>
    obtain ⟨hfirst, hrest⟩ := List.nodup_cons.mp hnodup
    rcases List.mem_cons.mp hf with rfl | hf
    · simp
    · have hne : g.name ≠ f.name := fun heq => hfirst (heq ▸ List.mem_map_of_mem hf)
      rw [List.find?_cons_of_neg (by simpa using hne)]
      exact ih hrest hf

theorem Consistent.field?_of_mem (h : d.Consistent) (hf : f ∈ d.fields) :
    d.field? f.name = some f := find?_of_mem h.nodup hf

/-- A declared name is that of a field. -/
theorem mem_of_field? (h : d.field? name = some f) : f ∈ d.fields ∧ f.name = name :=
  ⟨List.mem_of_find?_eq_some h, by simpa using List.find?_some h⟩

end Descriptor

/-! ## Accepted registries -/

namespace Registry

variable {registry : Registry} {ds held held' : List Descriptor} {d : Descriptor}

/-- Descriptors are added only if they are consistent. -/
theorem consistent_addAll (hheld : ∀ d ∈ held, d.Consistent) (h : addAll held ds = .ok held') :
    ∀ d ∈ held', d.Consistent := by
  induction ds generalizing held with
  | nil =>
    cases h
    exact hheld
  | cons d rest ih =>
    rw [addAll] at h
    split at h
    · next hcheck =>
      refine ih (fun e he => ?_) h
      rcases mem_insert he with rfl | he
      · exact Descriptor.consistent_of_check hcheck
      · exact hheld e he
    · cases h

theorem consistent_of_mem (h : ofDescriptors ds = .ok registry) (hd : d ∈ registry.descriptors) :
    d.Consistent := by
  obtain ⟨held, hrun, rfl⟩ := map_eq_ok_iff.mp h
  exact consistent_addAll (fun e he => absurd he List.not_mem_nil) hrun d hd

end Registry
end Phrasebook
