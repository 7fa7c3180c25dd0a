import Phrasebook.Proofs.Conforming
import Phrasebook.Proofs.Consistent

/-!
# Made records

The records that validation makes with any accepted definitions: of a candidate, or of such
a record by a patch. Each of their values is one that its field accepts or the default of
its field.

## Main definitions

* `Registry.Makes`: a record comes from validation
* `Descriptor.Usable`: a definition accepts some candidate
-/
namespace Phrasebook

/-- Validation makes a record of a candidate, or of such a record by a patch. -/
inductive Registry.Makes (registry : Registry) : Record → Prop
  | create {kind : RecordKind} {input : Json} {fresh : Uuid} {now : Instant} {r : Record}
    (wellFormed : input.WellFormed) (valid : registry.validate kind input fresh now = .ok r) :
    Makes registry r
  | patch {existing : Record} {patch : Json} {now : Instant} {r : Record}
    (made : Makes registry existing) (wellFormed : patch.WellFormed)
    (valid : registry.validateUpdate existing patch now = .ok r) : Makes registry r

/-- A definition accepts some candidate. -/
def Descriptor.Usable (d : Descriptor) : Prop :=
  ∃ candidate, (Json.obj candidate).WellFormed ∧ d.candidateViolations candidate = []

namespace Registry.Makes

variable {registry : Registry} {ds : List Descriptor} {d : Descriptor} {r : Record}

/-- The kind of a made record is defined. -/
theorem exists_descriptor (h : registry.Makes r) : ∃ d, registry.get? r.kind = some d := by
  induction h with
  | create _ valid =>
    obtain ⟨d, candidate, hget, -, -, rfl⟩ := validate_ok_iff.mp valid
    obtain ⟨-, rfl⟩ := kind_of_get? hget
    exact ⟨d, hget⟩
  | patch _ _ valid ih =>
    obtain ⟨_, candidate, -, -, -, -, rfl⟩ := validateUpdate_ok_iff.mp valid
    exact ih

theorem sorted (h : registry.Makes r) : r.fields.Sorted := by
  induction h with
  | create _ valid =>
    obtain ⟨d, candidate, -, -, -, rfl⟩ := validate_ok_iff.mp valid
    exact Descriptor.sorted_initialFields
  | patch _ _ valid ih =>
    obtain ⟨d, candidate, -, -, -, -, rfl⟩ := validateUpdate_ok_iff.mp valid
    exact ih.override

end Registry.Makes
end Phrasebook
