import Phrasebook.Proofs.Conforming
import Phrasebook.Proofs.RenderedSchemas

/-!
# Column texts

A value that the rendered schema of a field permits has a column text, and is read back from it.
Different values have different texts, so two records agree in a field if their cells do.

## Main definitions

* `Record.Permitted`: what a record has in a field is permitted by its rendered schema
-/
namespace Phrasebook

/-- What a record has in a field, if anything, the rendered schema of the field permits. -/
def Record.Permitted (r : Record) (f : FieldSpec) : Prop :=
  ∀ value, r.fields.get? f.name = some value → value.WellFormed ∧ f.jsonSchema.Permits value

namespace FieldSpec

variable {f : FieldSpec} {value : Json}

/-- A well-formed value that the rendered schema of a field permits is kept. -/
theorem stores_of_permits (hvalue : value.WellFormed) (h : f.jsonSchema.Permits value) :
    f.type.Stores value := by
  have hfits := permits_iff_fits.mp h
  refine FieldType.stores_of_admits hfits.admits hvalue ?_
  intro htype entries hentries entry hentry
  obtain ⟨s, hs, -⟩ := hfits.entries entries hentries htype entry hentry
  exact ⟨s, hs⟩

/-- Column texts tell values that are kept apart, and from absent ones. -/
theorem toColumn_inj {x y : Option Json} (hx : ∀ value, x = some value → f.type.Stores value)
    (hy : ∀ value, y = some value → f.type.Stores value) :
    f.toColumn x = f.toColumn y ↔ x = y := by
  constructor
  · intro h
    cases x with
    | none =>
      cases y with
      | none => rfl
      | some w =>
        obtain ⟨text, hw, -⟩ := fromColumn_of_stores (hy w rfl)
        rw [hw] at h
        cases h
    | some v =>
      obtain ⟨text, hv, hread⟩ := fromColumn_of_stores (hx v rfl)
      cases y with
      | none =>
        rw [hv] at h
        cases h
      | some w =>
        obtain ⟨text', hw, hread'⟩ := fromColumn_of_stores (hy w rfl)
        -- The texts are the same, so they are read as the same value.
        have htext : text = text' := by simpa [hv, hw] using h
        simpa [htext, hread'] using hread.symm
  · exact congrArg f.toColumn

end FieldSpec

/-- What a record has under the name of a field is kept if it is permitted; the key and the times
always are. -/
theorem Record.Permitted.stores {r : Record} {f : FieldSpec} (h : r.Permitted f)
    (hf : f ∈ (Descriptor.shipped r.kind).fields) :
    ∀ value, r.get? f.name = some value → f.type.Stores value := by
  intro value hvalue
  cases hidentity : isIdentityField f.name with
  | false =>
    rw [get?_eq_fields hidentity] at hvalue
    obtain ⟨hwell, hpermits⟩ := h value hvalue
    exact FieldSpec.stores_of_permits hwell hpermits
  | true =>
    obtain ⟨s, hs, hstores⟩ := r.stores_identity hf hidentity
    rw [hs] at hvalue
    exact Option.some.inj hvalue ▸ hstores

/-- Every value that the rendered schema of a shipped field permits has a column text, from which
it is read back; so different values have different texts, and two records agree in the field
exactly if their cells do. -/
theorem FieldSpec.columns_faithful {kind : RecordKind} {f : FieldSpec}
    (hf : f ∈ (Descriptor.shipped kind).fields) :
    (∀ value, value.WellFormed → f.jsonSchema.Permits value →
      ∃ text, f.toColumn (some value) = some text ∧ f.fromColumn text = .ok value) ∧
    (∀ value other, value.WellFormed → f.jsonSchema.Permits value →
      other.WellFormed → f.jsonSchema.Permits other → value ≠ other →
        f.toColumn (some value) ≠ f.toColumn (some other)) ∧
    ∀ a b : Record, a.kind = kind → b.kind = kind → a.Permitted f → b.Permitted f →
      (Row.cell a.row f.name = Row.cell b.row f.name ↔ a.get? f.name = b.get? f.name) := by
  refine ⟨?_, ?_, ?_⟩
  · intro value hwell hpermits
    exact fromColumn_of_stores (stores_of_permits hwell hpermits)
  · intro value other hvalue hpermits hother hpermits' hne hcolumn
    refine hne (Option.some.inj ((toColumn_inj ?_ ?_).mp hcolumn))
    · rintro _ ⟨⟩
      exact stores_of_permits hvalue hpermits
    · rintro _ ⟨⟩
      exact stores_of_permits hother hpermits'
  · rintro a b rfl hkind ha hb
    have hf' : f ∈ (Descriptor.shipped b.kind).fields := hkind ▸ hf
    rw [Record.cell_row hf, Record.cell_row hf']
    exact toColumn_inj (ha.stores hf) (hb.stores hf')

/-- Variables with a quote, a backslash, control characters and one of four bytes in a name. -/
def Json.sampleVariables : Json := .obj [("\"\\\n\x01😀", .str "integer")]

/-- A template with variables. -/
def Record.templateOf (value : Json) : Record where
  kind := .template
  id := .uuid .sample
  created := default
  updated := default
  fields := [("name", .str "welcome"), ("variables", value)]

/-- The variables of templates are read back whatever characters are in their names, and templates
with other variables have other cells. -/
theorem FieldSpec.columns_faithful_variables :
    let f := templateVariables
    let text := "\x7b\"\\\"\\\\\\n\\u0001😀\":\"integer\"\x7d"
    f.toColumn (some .sampleVariables) = some text ∧ f.fromColumn text = .ok .sampleVariables ∧
      f.toColumn (some .sampleVariables) ≠ f.toColumn (some (.obj [])) ∧
      Row.cell (Record.templateOf .sampleVariables).row f.name ≠
        Row.cell (Record.templateOf (.obj [])).row f.name := by
  intro f text
  have hf : f ∈ (Descriptor.shipped .template).fields := by decide
  have hvariables : Json.sampleVariables.WellFormed ∧ f.jsonSchema.Permits .sampleVariables := by
    constructor
    · exact Json.wellFormed_of_texts (List.pairwise_singleton _ _) rfl
    · exact (FieldSpec.permits_iff_accepts hf).mpr rfl
  have hnone : (Json.obj []).WellFormed ∧ f.jsonSchema.Permits (.obj []) := by
    constructor
    · exact Json.wellFormed_of_texts List.Pairwise.nil rfl
    · exact (FieldSpec.permits_iff_accepts hf).mpr rfl
  obtain ⟨hread, hdiffer, hcells⟩ := columns_faithful hf
  have htext : f.toColumn (some .sampleVariables) = some text := by decide
  refine ⟨htext, ?_, ?_, ?_⟩
  · obtain ⟨text', htext', hvalue⟩ := hread _ hvariables.1 hvariables.2
    rw [htext] at htext'
    exact Option.some.inj htext' ▸ hvalue
  · exact hdiffer _ _ hvariables.1 hvariables.2 hnone.1 hnone.2 (by decide)
  · rw [ne_eq, hcells (.templateOf .sampleVariables) (.templateOf (.obj [])) rfl rfl]
    · decide
    · rintro _ ⟨⟩
      exact hvariables
    · rintro _ ⟨⟩
      exact hnone

end Phrasebook
