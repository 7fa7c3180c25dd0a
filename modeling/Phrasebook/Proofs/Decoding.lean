import Phrasebook.Entity
import Phrasebook.Proofs.Fields
import Phrasebook.Proofs.Keys
import Phrasebook.Proofs.LocaleCodes
import Phrasebook.Proofs.Results
import Phrasebook.Proofs.Timestamps

/-!
# Decoding typed records

Sorted fields that give each field of a structure a value of its form are decoded as that
structure. What validation accepts as a key, a locale code or a map of variables decodes.

## Main definitions

* `Fields.Gives`: fields have a value under a name that decodes
-/
namespace Phrasebook

/-! ## Structures -/

/-- The value of a name decodes. -/
def Fields.Gives {α : Type} (given : Fields) (name : String) (decode : Decoder α) (a : α) : Prop :=
  ∃ value, given.get? name = some value ∧ decode value = .ok a

namespace Fields.Gives

variable {α : Type} {given : Fields} {name : String} {decode : Decoder α} {a : α}

theorem need (h : given.Gives name decode a) : given.need name decode = .ok a := by
  obtain ⟨value, hget, hdecode⟩ := h
  rw [Fields.need, hget]
  exact hdecode

theorem take (h : given.Gives name decode a) (absent : α) :
    given.take name decode absent = .ok a := by
  obtain ⟨value, hget, hdecode⟩ := h
  rw [Fields.take, hget]
  exact hdecode

theorem required (h : given.Gives name decode a) : ∃ value,
    given.get? (Shape.required name decode).name = some value ∧
      (Shape.required name decode).check value = .ok () := by
  obtain ⟨value, hget, hdecode⟩ := h
  exact ⟨value, hget, by simp [Shape.required, hdecode, Except.map]⟩

theorem optional (h : given.Gives name decode a) : ∃ value,
    given.get? (Shape.optional name decode).name = some value ∧
      (Shape.optional name decode).check value = .ok () := by
  obtain ⟨value, hget, hdecode⟩ := h
  exact ⟨value, hget, by simp [Shape.optional, hdecode, Except.map]⟩

end Fields.Gives

namespace Shape

variable {shape : Shape} {given : Fields}

theorem checkEntries_eq_ok (h : ∀ entry ∈ given, ∀ field, shape.field? entry.1 = some field →
    field.check entry.2 = .ok ()) : shape.checkEntries given = .ok () := by
  induction given with
  | nil => rfl
  | cons entry rest ih =>
    obtain ⟨name, value⟩ := entry
    obtain ⟨hfirst, hrest⟩ := List.forall_mem_cons.mp h
    rw [checkEntries]
    cases hfield : shape.field? name with
    | none => exact ih hrest
    | some field =>
      simp only [hfirst field hfield]
      exact ih hrest

/-- Fields that give every field of a structure a value of its form are taken. -/
theorem entries_obj (hsorted : given.Sorted) (h : ∀ field ∈ shape.fields, ∃ value,
    given.get? field.name = some value ∧ field.check value = .ok ()) :
    shape.entries (.obj given) = .ok given := by
  have hcheck : shape.checkEntries given = .ok () := by
    refine checkEntries_eq_ok fun entry hentry field hfield => ?_
    have hname : field.name = entry.1 := by simpa using List.find?_some hfield
    obtain ⟨value, hget, hcheck⟩ := h field (List.mem_of_find?_eq_some hfield)
    rw [hname, hsorted.get?_eq_some_iff.mpr hentry] at hget
    cases hget
    exact hcheck
  have hmissing : (shape.fields.find? fun field =>
      !field.optional && !Fields.has given field.name) = none := by
    refine List.find?_eq_none.mpr fun field hfield => ?_
    obtain ⟨value, hget, -⟩ := h field hfield
    simp [Fields.has, hget]
  simp [entries, hcheck, hmissing, bind, Except.bind]

end Shape

/-! ## Values -/

namespace Json

theorem asRecordId_str {s : String} {id : RecordId} (h : RecordId.parse s = .ok id) :
    asRecordId (.str s) = .ok id := by
  simp [asRecordId, asString, h, bind, Except.bind]

theorem asLocaleCode_str {s : String} (h : isLocaleText s.toList = true) :
    asLocaleCode (.str s) = .ok ⟨s, h⟩ := by
  simp [asLocaleCode, asString, LocaleCode.parse, LocaleCode.ofText?, h, bind, Except.bind]

theorem asInstant_str {s : String} {t : Instant} (h : Instant.parse s = .ok t) :
    asInstant (.str s) = .ok t := by
  simp [asInstant, Instant.parseExtended_of_parse h]

/-- Names with values that decode one by one decode together. -/
theorem asMap_obj {α : Type} {decode : Decoder α} {entries : Fields} {encode : α → Json}
    (h : ∀ entry ∈ entries, ∃ a, decode entry.2 = .ok a ∧ encode a = entry.2) :
    ∃ decoded, asMap decode (.obj entries) = .ok decoded ∧
      (decoded.map fun entry => (entry.1, encode entry.2)) = entries := by
  rw [asMap]
  induction entries with
  | nil => exact ⟨[], rfl, rfl⟩
  | cons entry rest ih =>
    obtain ⟨⟨a, ha, hencode⟩, hrest⟩ := List.forall_mem_cons.mp h
    obtain ⟨decoded, hdecoded, hmap⟩ := ih hrest
    refine ⟨(entry.1, a) :: decoded, ?_, ?_⟩
    · rw [List.mapM_cons, hdecoded]
      simp [ha, bind, Except.bind, pure, Except.pure]
    · rw [List.map_cons, hmap, hencode]

end Json

namespace VariableType

/-- The types that a definition may give a variable are the ones that are known. -/
theorem exists_ofJson {s : String} (h : s ∈ FieldSpec.templateVariables.values) :
    ∃ type, ofJson (.str s) = .ok type ∧ Json.str type.name = .str s := by
  have hall : ∀ s ∈ FieldSpec.templateVariables.values,
      ∃ type ∈ all, ofJson (.str s) = .ok type ∧ type.name = s := by
    decide +kernel
  obtain ⟨type, -, hdecode, hname⟩ := hall s h
  exact ⟨type, hdecode, congrArg Json.str hname⟩

end VariableType

/-! ## Typed records -/

section Records

variable {given : Fields} (hsorted : given.Sorted)
include hsorted

theorem Locale.ofJson_obj {l : Locale} (hcode : given.Gives "_id" Json.asLocaleCode l.code)
    (harchived : given.Gives "_archived" Json.asBool l.archived)
    (hcreated : given.Gives "_created" Json.asInstant l.created)
    (hupdated : given.Gives "_updated" Json.asInstant l.updated)
    (hname : given.Gives "name" Json.asString l.name) : ofJson (.obj given) = .ok l := by
  have hentries : localeShape.entries (.obj given) = .ok given := by
    refine Shape.entries_obj hsorted ?_
    simpa [localeShape] using ⟨hcode.required, harchived.optional, hcreated.required,
      hupdated.required, hname.required⟩
  simp [ofJson, hentries, hcode.need, harchived.take, hcreated.need, hupdated.need, hname.need,
    bind, Except.bind]

theorem Template.ofJson_obj {t : Template} (hid : given.Gives "_id" Json.asRecordId t.id)
    (hcreated : given.Gives "_created" Json.asInstant t.created)
    (hupdated : given.Gives "_updated" Json.asInstant t.updated)
    (hname : given.Gives "name" Json.asString t.name)
    (hvariables : given.Gives "variables" (Json.asMap VariableType.ofJson) t.variableTypes) :
    ofJson (.obj given) = .ok t := by
  have hentries : templateShape.entries (.obj given) = .ok given := by
    refine Shape.entries_obj hsorted ?_
    simpa [templateShape] using ⟨hid.required, hcreated.required, hupdated.required,
      hname.required, hvariables.optional⟩
  simp [ofJson, hentries, hid.need, hcreated.need, hupdated.need, hname.need, hvariables.take,
    bind, Except.bind]

theorem EmailVariant.ofJson_obj {e : EmailVariant} (hid : given.Gives "_id" Json.asRecordId e.id)
    (hcreated : given.Gives "_created" Json.asInstant e.created)
    (hupdated : given.Gives "_updated" Json.asInstant e.updated)
    (htemplate : given.Gives "template" Json.asRecordId e.template)
    (hlocale : given.Gives "locale" Json.asLocaleCode e.locale)
    (hsubject : given.Gives "subject" Json.asString e.subject)
    (htext : given.Gives "text" Json.asString e.text)
    (hhtml : given.Gives "html" Json.asString e.html) : ofJson (.obj given) = .ok e := by
  have hentries : emailShape.entries (.obj given) = .ok given := by
    refine Shape.entries_obj hsorted ?_
    simpa [emailShape, variantFields] using ⟨hid.required, hcreated.required, hupdated.required,
      htemplate.required, hlocale.required, hsubject.required, htext.required, hhtml.required⟩
  simp [ofJson, hentries, hid.need, hcreated.need, hupdated.need, htemplate.need, hlocale.need,
    hsubject.need, htext.need, hhtml.need, bind, Except.bind]

theorem SmsVariant.ofJson_obj {v : SmsVariant} (hid : given.Gives "_id" Json.asRecordId v.id)
    (hcreated : given.Gives "_created" Json.asInstant v.created)
    (hupdated : given.Gives "_updated" Json.asInstant v.updated)
    (htemplate : given.Gives "template" Json.asRecordId v.template)
    (hlocale : given.Gives "locale" Json.asLocaleCode v.locale)
    (hcontent : given.Gives "content" Json.asString v.content) : ofJson (.obj given) = .ok v := by
  have hentries : smsShape.entries (.obj given) = .ok given := by
    refine Shape.entries_obj hsorted ?_
    simpa [smsShape, variantFields] using ⟨hid.required, hcreated.required, hupdated.required,
      htemplate.required, hlocale.required, hcontent.required⟩
  simp [ofJson, hentries, hid.need, hcreated.need, hupdated.need, htemplate.need, hlocale.need,
    hcontent.need, bind, Except.bind]

end Records

end Phrasebook
