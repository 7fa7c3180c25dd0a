import Phrasebook.Proofs.Decoding
import Phrasebook.Proofs.FlatForms
import Phrasebook.Proofs.Patches

/-!
# Typed forms

A record that validation makes by the shipped definitions has all that its typed form needs,
if its times lie in years of four digits. What the typed form then holds is spelled by the
record, but for the template that a variant belongs to: it gets its canonical spelling.

## Main definitions

* `Record.Typable`: what a record needs to have a typed form
* `Record.respelled`: the record with the template in its canonical spelling
* `Entity.Spells`: a typed record holds what a record has
-/
namespace Phrasebook

/-- The fields meet the definition of the kind, none is missing, and a locale is keyed by its
code. -/
structure Record.Typable (r : Record) : Prop where
  sorted : r.fields.Sorted
  flat : r.Flat
  accepted : (Descriptor.shipped r.kind).violations .update r.fields = []
  complete : ∀ f ∈ (Descriptor.shipped r.kind).fields, isIdentityField f.name = false →
    ∃ value, r.fields.get? f.name = some value
  key : r.kind = .locale → ∃ code, r.id = .locale code

/-! ## Validated records -/

namespace Record

variable {kind : RecordKind} {candidate : Fields} {fresh : Uuid} {now : Instant} {r : Record}

theorem typable_of_validate {input : Json}
    (h : Registry.builtin.validate kind input fresh now = .ok r) : r.Typable := by
  obtain ⟨candidate, -, hnil, rfl⟩ := Registry.validate_eq_ok_iff.mp h
  have haccepted := (Descriptor.candidateViolations_eq_nil_iff.mp hnil).1
  refine ⟨Descriptor.sorted_initialFields, fun name hname => ?_,
    Descriptor.violations_initialFields haccepted, fun f hf hidentity => ?_, ?_⟩
  · exact (Descriptor.declares_initialFields kind candidate).get?_identity name hname
  · obtain ⟨value, hvalue, -⟩ := admits_ofCandidate haccepted hf hidentity
    exact ⟨value, hvalue⟩
  · rintro rfl
    exact id_ofCandidate_locale haccepted

theorem Typable.patched {patch : Json} {existing : Record} (h : existing.Typable)
    (hpatch : patch.WellFormed)
    (hvalid : Registry.builtin.validateUpdate existing patch now = .ok r) : r.Typable := by
  obtain ⟨candidate, rfl, hnil, rfl⟩ := Registry.validateUpdate_ok hvalid
  have hchanges := Registry.sorted_mutableChanges (d := .shipped existing.kind) hpatch.sorted
  refine ⟨h.sorted.override, fun name hname => ?_, ?_, fun f hf hidentity => ?_, h.key⟩
  · rw [Fields.get?_override hchanges, Registry.get?_mutableChanges existing.kind candidate name
      hname, Option.none_or, h.flat name hname]
  · refine Descriptor.violations_eq_nil_iff.mpr ⟨fun name value hmem => ?_, nofun⟩
    rcases Fields.mem_override hmem with hmem | hmem
    · exact Descriptor.accepts_of_mem hnil hmem
    · exact Descriptor.accepts_of_mem h.accepted hmem
  · obtain ⟨old, hold⟩ := h.complete f hf hidentity
    rw [Fields.get?_override hchanges, hold]
    cases (Registry.mutableChanges (.shipped existing.kind) candidate).get? f.name with
    | none => exact ⟨old, rfl⟩
    | some value => exact ⟨value, rfl⟩

end Record

namespace Registry.Makes

variable {r : Record}

theorem typable (h : builtin.Makes r) : r.Typable := by
  induction h with
  | create _ valid => exact Record.typable_of_validate valid
  | patch _ wellFormed valid ih => exact ih.patched wellFormed valid

theorem conforms (h : builtin.Makes r) : r.Conforms := by
  induction h with
  | create wellFormed valid => exact Record.conforms_of_validate wellFormed valid
  | patch _ wellFormed valid ih => exact Record.conforms_of_validateUpdate ih wellFormed valid

end Registry.Makes

/-! ## Values of a record with a typed form -/

namespace Record

variable {r : Record}

theorem get?_idField (r : Record) : r.get? "_id" = some (.str r.id.text) := rfl

theorem get?_createdField (r : Record) : r.get? "_created" = some (.str r.created.text) := rfl

theorem get?_updatedField (r : Record) : r.get? "_updated" = some (.str r.updated.text) := rfl

namespace Typable

variable {f : FieldSpec} {name : String} {value : Json} {α : Type} {decode : Decoder α} {a : α}

/-- A value that decodes is given by the flat form. -/
theorem gives (h : r.Typable) (hget : r.get? name = some value) (hdecode : decode value = .ok a) :
    r.toFields.Gives name decode a :=
  ⟨value, by rw [h.flat.get?_toFields h.sorted, hget], hdecode⟩

/-- Every declared field has a value that meets its demands, the key and the times apart. -/
theorem exists_fits (h : r.Typable) (hf : f ∈ (Descriptor.shipped r.kind).fields)
    (hidentity : isIdentityField f.name = false) :
    ∃ value, r.get? f.name = some value ∧ f.Fits value := by
  obtain ⟨value, hvalue⟩ := h.complete f hf hidentity
  exact ⟨value, (get?_eq_fields hidentity).trans hvalue,
    Descriptor.fits_of_get? h.accepted hf hvalue⟩

theorem exists_text (h : r.Typable) (hf : f ∈ (Descriptor.shipped r.kind).fields)
    (hidentity : isIdentityField f.name = false) (htype : f.type = .string ∨ f.type = .uuid) :
    ∃ s, r.get? f.name = some (.str s) ∧ f.Fits (.str s) := by
  obtain ⟨value, hvalue, hfits⟩ := h.exists_fits hf hidentity
  cases value with
  | str s => exact ⟨s, hvalue, hfits⟩
  | _ =>
    have hadmits := hfits.admits
    rcases htype with htype | htype <;> rw [htype] at hadmits <;> cases hadmits

end Typable

end Record

/-! ## Typed forms -/

/-- The canonical text of the key that a text spells. -/
def RecordId.canonicalText (s : String) : String :=
  match parse s with
  | .ok id => id.text
  | .error _ => s

/-- The record with the template that it belongs to, if any, in its canonical spelling. -/
def Record.respelled (r : Record) : Record :=
  match r.getStr? "template" with
  | some s => { r with fields := r.fields.insert "template" (.str (RecordId.canonicalText s)) }
  | none => r

/-- Each field of a typed record has the value that a record has under its name. -/
def Entity.Spells (e : Entity) (r : Record) : Prop :=
  ∀ entry ∈ e.entries, r.get? entry.1 = some entry.2

namespace Record

variable {r : Record} {name : String} {s : String} {c u : Instant}

theorem get?_respelled_of_ne (h : name ≠ "template") : r.respelled.get? name = r.get? name := by
  unfold respelled
  split
  · cases hidentity : isIdentityField name with
    | true => rcases isIdentityField_iff.mp hidentity with rfl | rfl | rfl <;> rfl
    | false =>
      rw [get?_eq_fields hidentity, get?_eq_fields hidentity, Fields.get?_insert,
        if_neg h.symm]
  · rfl

theorem get?_respelled_template (h : r.get? "template" = some (.str s)) :
    r.respelled.get? "template" = some (.str (RecordId.canonicalText s)) := by
  have hget : r.fields.get? "template" = some (.str s) := h
  have hstr : r.getStr? "template" = some s := by rw [getStr?, Fields.getStr?, hget]
  unfold respelled
  rw [hstr]
  exact Fields.get?_insert.trans (if_pos rfl)

theorem get?_respelled_of_parse {id : RecordId} (h : r.get? "template" = some (.str s))
    (hparse : RecordId.parse s = .ok id) :
    r.respelled.get? "template" = some (.str id.text) := by
  rw [get?_respelled_template h, RecordId.canonicalText, hparse]

namespace Typable

/-- A locale has a typed form. -/
theorem exists_locale (h : r.Typable) (hkind : r.kind = .locale)
    (hc : Instant.parse r.created.text = .ok c) (hu : Instant.parse r.updated.text = .ok u) :
    ∃ l, Locale.ofJson r.toJson = .ok l ∧
      (c = r.created → u = r.updated → (Entity.locale l).Spells r.respelled) := by
  obtain ⟨code, hcode⟩ := h.key hkind
  obtain ⟨name, hname, -⟩ := h.exists_text (f := .localeName) (by rw [hkind]; decide) rfl (.inl rfl)
  obtain ⟨archived, harchived, hfits⟩ :=
    h.exists_fits (f := .archivedFlag) (by rw [hkind]; decide) rfl
  have hid : r.get? "_id" = some (.str code.text) := by rw [get?_idField, hcode]; rfl
  cases archived with
  | bool b =>
    refine ⟨⟨code, b, c, u, name⟩, ?_, ?_⟩
    · exact Locale.ofJson_obj r.sorted_toFields
        (h.gives hid (Json.asLocaleCode_str code.valid)) (h.gives harchived rfl)
        (h.gives r.get?_createdField (Json.asInstant_str hc))
        (h.gives r.get?_updatedField (Json.asInstant_str hu)) (h.gives hname rfl)
    · rintro rfl rfl
      simpa [Entity.Spells, Entity.entries, get?_respelled_of_ne] using
        ⟨hid, harchived, r.get?_createdField, r.get?_updatedField, hname⟩
  | _ => cases hfits.admits

/-- A template has a typed form. -/
theorem exists_template (h : r.Typable) (hkind : r.kind = .template)
    (hc : Instant.parse r.created.text = .ok c) (hu : Instant.parse r.updated.text = .ok u) :
    ∃ t, Template.ofJson r.toJson = .ok t ∧
      (c = r.created → u = r.updated → r.Conforms → (Entity.template t).Spells r.respelled) := by
  obtain ⟨name, hname, -⟩ :=
    h.exists_text (f := .templateName) (by rw [hkind]; decide) rfl (.inl rfl)
  have hfield : FieldSpec.templateVariables ∈ (Descriptor.shipped r.kind).fields := by
    rw [hkind]
    decide
  obtain ⟨value, hvalue, hfits⟩ := h.exists_fits hfield rfl
  cases value with
  | obj entries =>
    have htypes : ∀ entry ∈ entries, ∃ type, VariableType.ofJson entry.2 = .ok type ∧
        Json.str type.name = entry.2 := by
      intro entry hentry
      obtain ⟨s, hs, hallowed⟩ := hfits.entries entries rfl rfl entry hentry
      rw [hs]
      exact VariableType.exists_ofJson (hallowed.resolve_left (by decide))
    obtain ⟨types, hdecode, hencode⟩ : ∃ types,
        Json.asMap VariableType.ofJson (.obj entries) = .ok types ∧
          (types.map fun entry => (entry.1, Json.str entry.2.name)) = entries :=
      Json.asMap_obj htypes
    refine ⟨⟨r.id, c, u, name, types⟩, ?_, ?_⟩
    · exact Template.ofJson_obj r.sorted_toFields
        (h.gives r.get?_idField (Json.asRecordId_str r.id.parse_text))
        (h.gives r.get?_createdField (Json.asInstant_str hc))
        (h.gives r.get?_updatedField (Json.asInstant_str hu)) (h.gives hname rfl)
        (h.gives hvalue hdecode)
    · rintro rfl rfl hconforms
      obtain ⟨_, hsame, hstores⟩ := hconforms.get? hfield
      cases hvalue.symm.trans hsame
      -- Types are written in the order of their names, so they have to be given in it.
      have hobject : Json.object (types.map fun entry => (entry.1, .str entry.2.name)) =
          .obj entries := by
        rw [hencode, Json.object, hstores.1.ofList_eq]
      simpa [Entity.Spells, Entity.entries, get?_respelled_of_ne, hobject] using
        ⟨r.get?_idField, r.get?_createdField, r.get?_updatedField, hname, hvalue⟩
  | _ => cases hfits.admits

/-- A variant names a template by its key and a locale by its code. -/
theorem exists_target (h : r.Typable) (hkind : r.kind = .email ∨ r.kind = .sms) :
    ∃ s u, ∃ code : LocaleCode, r.get? "template" = some (.str s) ∧
      RecordId.parse s = .ok (.uuid u) ∧ r.get? "locale" = some (.str code.text) := by
  obtain ⟨s, hs, hfits⟩ := h.exists_text (f := .parentTemplate)
    (by rcases hkind with hkind | hkind <;> rw [hkind] <;> decide) rfl (.inr rfl)
  obtain ⟨locale, hlocale, hlocaleFits⟩ := h.exists_text (f := .variantLocale)
    (by rcases hkind with hkind | hkind <;> rw [hkind] <;> decide) rfl (.inl rfl)
  obtain ⟨u, hu⟩ := RecordId.parse_of_isUuid (hfits.uuid s rfl rfl)
  exact ⟨s, u, ⟨locale, hlocaleFits.isLocaleText rfl⟩, hs, hu, hlocale⟩

/-- An email variant has a typed form. -/
theorem exists_email (h : r.Typable) (hkind : r.kind = .email)
    (hc : Instant.parse r.created.text = .ok c) (hu : Instant.parse r.updated.text = .ok u) :
    ∃ e, EmailVariant.ofJson r.toJson = .ok e ∧
      (c = r.created → u = r.updated → (Entity.email e).Spells r.respelled) := by
  obtain ⟨template, key, code, htemplate, hkey, hlocale⟩ := h.exists_target (.inl hkind)
  obtain ⟨subject, hsubject, -⟩ :=
    h.exists_text (f := .emailSubject) (by rw [hkind]; decide) rfl (.inl rfl)
  obtain ⟨text, htext, -⟩ :=
    h.exists_text (f := .emailText) (by rw [hkind]; decide) rfl (.inl rfl)
  obtain ⟨html, hhtml, -⟩ :=
    h.exists_text (f := .emailHtml) (by rw [hkind]; decide) rfl (.inl rfl)
  refine ⟨⟨r.id, c, u, .uuid key, code, subject, text, html⟩, ?_, ?_⟩
  · exact EmailVariant.ofJson_obj r.sorted_toFields
      (h.gives r.get?_idField (Json.asRecordId_str r.id.parse_text))
      (h.gives r.get?_createdField (Json.asInstant_str hc))
      (h.gives r.get?_updatedField (Json.asInstant_str hu))
      (h.gives htemplate (Json.asRecordId_str hkey))
      (h.gives hlocale (Json.asLocaleCode_str code.valid))
      (h.gives hsubject rfl) (h.gives htext rfl) (h.gives hhtml rfl)
  · rintro rfl rfl
    have hcanonical := get?_respelled_of_parse htemplate hkey
    simpa [Entity.Spells, Entity.entries, get?_respelled_of_ne] using
      ⟨r.get?_idField, r.get?_createdField, r.get?_updatedField, hcanonical, hlocale, hsubject,
        htext, hhtml⟩

/-- An SMS variant has a typed form. -/
theorem exists_sms (h : r.Typable) (hkind : r.kind = .sms)
    (hc : Instant.parse r.created.text = .ok c) (hu : Instant.parse r.updated.text = .ok u) :
    ∃ v, SmsVariant.ofJson r.toJson = .ok v ∧
      (c = r.created → u = r.updated → (Entity.sms v).Spells r.respelled) := by
  obtain ⟨template, key, code, htemplate, hkey, hlocale⟩ := h.exists_target (.inr hkind)
  obtain ⟨content, hcontent, -⟩ :=
    h.exists_text (f := .smsContent) (by rw [hkind]; decide) rfl (.inl rfl)
  refine ⟨⟨r.id, c, u, .uuid key, code, content⟩, ?_, ?_⟩
  · exact SmsVariant.ofJson_obj r.sorted_toFields
      (h.gives r.get?_idField (Json.asRecordId_str r.id.parse_text))
      (h.gives r.get?_createdField (Json.asInstant_str hc))
      (h.gives r.get?_updatedField (Json.asInstant_str hu))
      (h.gives htemplate (Json.asRecordId_str hkey))
      (h.gives hlocale (Json.asLocaleCode_str code.valid)) (h.gives hcontent rfl)
  · rintro rfl rfl
    have hcanonical := get?_respelled_of_parse htemplate hkey
    simpa [Entity.Spells, Entity.entries, get?_respelled_of_ne] using
      ⟨r.get?_idField, r.get?_createdField, r.get?_updatedField, hcanonical, hlocale, hcontent⟩

end Typable

end Record

end Phrasebook
