import Phrasebook.Proofs.Fields
import Phrasebook.Proofs.Rows
import Phrasebook.Validation.Validator

/-!
# Accepted candidates

A candidate without violations has a value for every required field, none for an
undeclared one, and each of its values satisfies its own field. The record made of
it keeps those values and adds the defaults.

## Main definitions

* `FieldSpec.Accepts`: a value satisfies a field
-/
namespace Phrasebook

/-- A value satisfies a field. -/
def FieldSpec.Accepts (f : FieldSpec) (d : Descriptor) (value : Json) : Prop :=
  f.violations d value = []

namespace FieldSpec

variable {f : FieldSpec} {d : Descriptor} {value : Json}

theorem Accepts.failures (h : f.Accepts d value) :
    f.failures (d.expectedType (pathText [f.name])) value = [] := by
  have := (List.append_eq_nil_iff.mp h).2
  simpa using this

/-- An accepted value has the type of its field. -/
theorem Accepts.admits (h : f.Accepts d value) : f.type.admits value = true := by
  have := (List.append_eq_nil_iff.mp h.failures).2
  simpa [demand] using this

theorem Accepts.isUuid {s : String} (h : f.Accepts d (.str s)) (htype : f.type = .uuid) :
    Format.isUuid s = true := by
  have htext := (List.append_eq_nil_iff.mp h.failures).1
  simp only [textFailures, htype, List.append_eq_nil_iff] at htext
  simpa [demand] using htext.1.1.1

/-- The entries of an accepted object are texts. -/
theorem Accepts.entries {entries : List (String × Json)} (h : f.Accepts d (.obj entries))
    (htype : f.type = .object) : ∀ entry ∈ entries, ∃ s, entry.2 = .str s := by
  have hentries := (List.append_eq_nil_iff.mp h).1
  simp only [htype, List.flatMap_eq_nil_iff] at hentries
  rintro ⟨key, v⟩ hmem
  have hentry := hentries (key, v) hmem
  simp only [entryViolations, List.map_eq_nil_iff, entryFailures, List.append_eq_nil_iff] at hentry
  cases v with
  | str s => exact ⟨s, rfl⟩
  | _ => simp [demand, Json.str?] at hentry

/-- A field without further constraints accepts every text of its format. -/
theorem accepts_str {s : String}
    (hformat : (f.type = .uuid ∧ Format.isUuid s = true) ∨
      (f.type = .timestamp ∧ Format.isDateTime s = true))
    (hmax : f.maxLength = none) (hmin : f.minLength = none) (hpattern : f.pattern = none) :
    f.Accepts d (.str s) := by
  rcases hformat with ⟨htype, hs⟩ | ⟨htype, hs⟩ <;>
    simp [Accepts, violations, FieldSpec.failures, textFailures, htype, hmax, hmin, hpattern,
      demand, hs, FieldType.admits]

end FieldSpec

namespace Descriptor

variable {d : Descriptor} {candidate : Fields} {mode : Mode} {name : String} {value : Json}

/-- A candidate has no violations if each value satisfies a declared field and, where
it is to be created, every required field is given. -/
theorem violations_eq_nil_iff : d.violations mode candidate = [] ↔
    (∀ name value, (name, value) ∈ candidate → ∃ f, d.field? name = some f ∧ f.Accepts d value) ∧
      (mode = .create → ∀ f ∈ d.fields, f.required = true → candidate.has f.name = true) := by
  have hvalues : d.valueViolations candidate = [] ∧ d.unknownViolations candidate = [] ↔
      ∀ name value, (name, value) ∈ candidate →
        ∃ f, d.field? name = some f ∧ f.Accepts d value := by
    simp only [valueViolations, unknownViolations, List.flatMap_eq_nil_iff,
      List.filterMap_eq_nil_iff, Prod.forall, ← forall_and]
    refine forall_congr' fun name => forall_congr' fun value => forall_congr' fun _ => ?_
    cases d.field? name <;> simp [FieldSpec.Accepts]
  have hmissing : d.missingViolations mode candidate = [] ↔
      (mode = .create → ∀ f ∈ d.fields, f.required = true → candidate.has f.name = true) := by
    cases mode <;>
      simp [missingViolations, requiredFields, List.filterMap_eq_nil_iff]
  rw [violations, List.append_eq_nil_iff, List.append_eq_nil_iff, hvalues, hmissing]

/-- Every value of a candidate without violations satisfies a declared field. -/
theorem accepts_of_mem (h : d.violations mode candidate = []) (hmem : (name, value) ∈ candidate) :
    ∃ f, d.field? name = some f ∧ f.Accepts d value :=
  (violations_eq_nil_iff.mp h).1 name value hmem

/-- The value of a declared field satisfies it. -/
theorem accepts_of_get? (h : d.violations mode candidate = []) {f : FieldSpec}
    (hf : d.field? name = some f) (hget : candidate.get? name = some value) :
    f.Accepts d value := by
  obtain ⟨g, hg, haccepts⟩ := accepts_of_mem h (Fields.mem_of_get? hget)
  rw [hf] at hg
  cases hg
  exact haccepts

/-- A new candidate without violations has a value for every required field. -/
theorem has_of_required (h : d.violations .create candidate = []) {f : FieldSpec}
    (hf : f ∈ d.fields) (hrequired : f.required = true) :
    ∃ value, candidate.get? f.name = some value :=
  Option.isSome_iff_exists.mp ((violations_eq_nil_iff.mp h).2 rfl f hf hrequired)

/-- A new candidate without violations has a text for every required field of texts. -/
theorem exists_text_of_required {kind : RecordKind}
    (h : (shipped kind).violations .create candidate = []) {f : FieldSpec}
    (hf : f ∈ (shipped kind).fields) (hrequired : f.required = true)
    (htext : f.type = .string ∨ f.type = .uuid) : ∃ s, candidate.get? f.name = some (.str s) := by
  obtain ⟨value, hvalue⟩ := has_of_required h hf hrequired
  have hadmits := (accepts_of_get? h (field?_shipped hf) hvalue).admits
  cases value with
  | str s => exact ⟨s, hvalue⟩
  | _ => rcases htext with htype | htype <;> rw [htype] at hadmits <;> cases hadmits

/-- Giving a field a value that it accepts causes no violations. -/
theorem violations_insert (h : d.violations mode candidate = []) {f : FieldSpec}
    (hf : d.field? name = some f) (hvalue : f.Accepts d value) :
    d.violations mode (candidate.insert name value) = [] := by
  obtain ⟨haccepts, hhas⟩ := violations_eq_nil_iff.mp h
  refine violations_eq_nil_iff.mpr ⟨fun other v hmem => ?_, fun hmode g hg hrequired => ?_⟩
  · rcases Fields.mem_insert hmem with heq | hmem
    · cases heq
      exact ⟨f, hf, hvalue⟩
    · exact haccepts other v hmem
  · have := hhas hmode g hg hrequired
    rw [Fields.has, Fields.get?_insert]
    split
    · rfl
    · exact this

/-- A field with something wrong already is left as it was found. -/
theorem addWrongType_of_mem {field : String} {vs : List Violation} {v : Violation} (hv : v ∈ vs)
    (hfield : v.field = field) : d.addWrongType field vs = vs :=
  if_pos (List.any_eq_true.mpr ⟨v, hv, by simpa using hfield⟩)

/-- A field with nothing wrong yet has the wrong type. -/
theorem addWrongType_of_forall {field : String} {vs : List Violation}
    (h : ∀ v ∈ vs, v.field ≠ field) :
    d.addWrongType field vs = vs ++ [⟨field, .wrongType (d.expectedType field)⟩] :=
  if_neg (by simpa using h)

theorem addWrongType_ne_nil {field : String} {vs : List Violation} :
    d.addWrongType field vs ≠ [] := by
  by_cases h : ∃ v ∈ vs, v.field = field
  · obtain ⟨v, hv, hfield⟩ := h
    rw [addWrongType_of_mem hv hfield]
    exact List.ne_nil_of_mem hv
  · rw [addWrongType_of_forall fun v hv hfield => h ⟨v, hv, hfield⟩]
    simp

/-- A text that cannot be read has the wrong type. -/
@[simp] theorem addIfBad_error {ε α : Type} {field : String} {e : ε} {vs : List Violation} :
    d.addIfBad field (some (.error e) : Option (Except ε α)) vs = d.addWrongType field vs :=
  rfl

/-- A key or time that can be read adds nothing to the violations. -/
theorem addIfBad_of_good {ε α : Type} {field : String} {given : Option (Except ε α)}
    {vs : List Violation} (h : ∀ e, given ≠ some (.error e)) : d.addIfBad field given vs = vs := by
  unfold addIfBad
  split
  · next e => exact absurd rfl (h e)
  · rfl

theorem addIfBad_eq_nil_iff {ε α : Type} {field : String} {given : Option (Except ε α)}
    {vs : List Violation} : d.addIfBad field given vs = [] ↔
      vs = [] ∧ ∀ e, given ≠ some (.error e) := by
  by_cases hbad : ∃ e, given = some (.error e)
  · obtain ⟨e, rfl⟩ := hbad
    simp [addWrongType_ne_nil]
  · rw [addIfBad_of_good (not_exists.mp hbad), and_iff_left (not_exists.mp hbad)]

/-- An accepted candidate has no violations, and what it gives for its key and times
is well formed. -/
theorem candidateViolations_eq_nil_iff : d.candidateViolations candidate = [] ↔
    d.violations .create candidate = [] ∧ (∀ e, givenId? candidate ≠ some (.error e)) ∧
      (∀ e, givenInstant? candidate createdField ≠ some (.error e)) ∧
      ∀ e, givenInstant? candidate updatedField ≠ some (.error e) := by
  simp only [candidateViolations, addIfBad_eq_nil_iff, and_assoc]

/-! ## New records -/

theorem initialFields_eq : d.initialFields candidate = FieldSpec.fill (fun f =>
    if isIdentityField f.name then none else initialValue? candidate f) [] d.fields := by
  unfold initialFields FieldSpec.fill
  congr 1
  funext acc f
  cases hid : isIdentityField f.name <;> simp only [hid] <;> rfl

theorem sorted_initialFields : (d.initialFields candidate).Sorted :=
  initialFields_eq ▸ FieldSpec.sorted_fill List.Pairwise.nil

/-- A new record has the initial value of every declared field but the key and the
times. -/
theorem get?_initialFields (hnodup : (d.fields.map FieldSpec.name).Nodup) :
    (d.initialFields candidate).get? name =
      if isIdentityField name then none else (d.field? name).bind (initialValue? candidate) := by
  rw [initialFields_eq, FieldSpec.get?_fill hnodup, field?]
  cases hf : d.fields.find? fun f => f.name == name with
  | none => simp
  | some f =>
    have hname : f.name = name := by simpa using List.find?_some hf
    simp [hname]

end Descriptor

/-- The record of an accepted candidate. -/
def Record.ofCandidate (kind : RecordKind) (candidate : Fields) (fresh : Uuid) (now : Instant) :
    Record :=
  let created := (Descriptor.wellFormed? (Descriptor.givenInstant? candidate createdField)).getD now
  { kind
    id := (Descriptor.wellFormed? (Descriptor.givenId? candidate)).getD (.uuid fresh)
    created
    updated := ((Descriptor.wellFormed? (Descriptor.givenInstant? candidate updatedField)).getD
      created).max created
    fields := (Descriptor.shipped kind).initialFields candidate }

/-- A field of the record of a candidate has its initial value. -/
theorem Record.get?_ofCandidate {kind : RecordKind} {candidate : Fields} {fresh : Uuid}
    {now : Instant} {f : FieldSpec} (hf : f ∈ (Descriptor.shipped kind).fields)
    (hidentity : isIdentityField f.name = false) :
    (ofCandidate kind candidate fresh now).fields.get? f.name =
      Descriptor.initialValue? candidate f := by
  refine (Descriptor.get?_initialFields (Descriptor.nodup_shipped kind)).trans ?_
  rw [hidentity, Descriptor.field?_shipped hf]
  rfl

/-- A field that may be left out, other than the times, has a default of its type. -/
theorem Descriptor.default_shipped (kind : RecordKind) : ∀ f ∈ (shipped kind).fields,
    isIdentityField f.name = false → f.required = false →
      ∃ value, f.default = some value ∧ f.type.admits value = true := by
  have hall : ∀ f ∈ (shipped kind).fields, isIdentityField f.name = false → f.required = false →
      f.default.any f.type.admits = true := by
    cases kind <;> decide
  intro f hf hidentity hrequired
  simpa [Option.any_eq_true] using hall f hf hidentity hrequired

/-- Every field of the record of an accepted candidate has a value of its type. -/
theorem Record.admits_ofCandidate {kind : RecordKind} {candidate : Fields} {fresh : Uuid}
    {now : Instant} {f : FieldSpec}
    (h : (Descriptor.shipped kind).violations .create candidate = [])
    (hf : f ∈ (Descriptor.shipped kind).fields) (hidentity : isIdentityField f.name = false) :
    ∃ value, (ofCandidate kind candidate fresh now).fields.get? f.name = some value ∧
      f.type.admits value = true := by
  rw [get?_ofCandidate hf hidentity, Descriptor.initialValue?]
  cases hgiven : candidate.get? f.name with
  | some value =>
    exact ⟨value, rfl, (Descriptor.accepts_of_get? h (Descriptor.field?_shipped hf) hgiven).admits⟩
  | none =>
    cases hrequired : f.required with
    | true =>
      obtain ⟨value, hvalue⟩ := Descriptor.has_of_required h hf hrequired
      rw [hgiven] at hvalue
      cases hvalue
    | false => exact Descriptor.default_shipped kind f hf hidentity hrequired

/-- The row of an accepted candidate has no null. -/
theorem Record.isSome_cell_ofCandidate {kind : RecordKind} {candidate : Fields} {fresh : Uuid}
    {now : Instant} {f : FieldSpec}
    (h : (Descriptor.shipped kind).violations .create candidate = [])
    (hf : f ∈ (Descriptor.shipped kind).fields) :
    (Row.cell (ofCandidate kind candidate fresh now).row f.name).isSome = true := by
  have hstr : ∀ s, (f.toColumn (some (.str s))).isSome = true := by
    intro s
    simp only [FieldSpec.toColumn]
    split <;> rfl
  rw [cell_row (r := ofCandidate kind candidate fresh now) hf]
  cases hidentity : isIdentityField f.name with
  | true =>
    unfold Record.get?
    split
    · exact hstr _
    · split
      · exact hstr _
      · split
        · exact hstr _
        · simp_all [isIdentityField]
  | false =>
    obtain ⟨value, hvalue, hadmits⟩ := @admits_ofCandidate _ _ fresh now _ h hf hidentity
    rw [get?_eq_fields hidentity, hvalue]
    cases value with
    | null => cases htype : f.type <;> simp [htype, FieldType.admits] at hadmits
    | str s => exact hstr s
    | _ => rfl

/-- The record of a candidate that the definition of its kind accepts. -/
def Descriptor.recordOf (d : Descriptor) (candidate : Fields) (fresh : Uuid) (now : Instant) :
    Record :=
  let created := (wellFormed? (givenInstant? candidate createdField)).getD now
  { kind := d.kind
    id := (wellFormed? (givenId? candidate)).getD (.uuid fresh)
    created
    updated := ((wellFormed? (givenInstant? candidate updatedField)).getD created).max created
    fields := d.initialFields candidate }

theorem Descriptor.recordOf_shipped (kind : RecordKind) (candidate : Fields) (fresh : Uuid)
    (now : Instant) :
    (shipped kind).recordOf candidate fresh now = .ofCandidate kind candidate fresh now := by
  cases kind <;> rfl

namespace Registry

variable {registry : Registry} {kind : RecordKind} {input : Json} {fresh : Uuid} {now : Instant}
  {d : Descriptor} {r : Record}

theorem kind_of_get? (h : registry.get? kind = some d) :
    d ∈ registry.descriptors ∧ d.kind = kind :=
  ⟨List.mem_of_find?_eq_some h, by simpa using List.find?_some h⟩

theorem mapping_eq_ok_iff {candidate : Fields} :
    mapping kind input = .ok candidate ↔ input = .obj candidate := by
  cases input <;> simp [mapping]

theorem mapping_eq_error_iff {e : ValidationError} : mapping kind input = .error e ↔
    (∀ candidate, input ≠ .obj candidate) ∧ e = .notAMapping kind := by
  rw [@eq_comm _ e]
  cases input <;> simp [mapping]

theorem ruling_eq_ok_iff : registry.ruling kind = .ok d ↔ registry.get? kind = some d := by
  unfold ruling
  split
  · next hget => simp [hget]
  · next hget => simp [hget]

/-- Validation makes the record of a candidate that the definition of its kind accepts. -/
theorem validate_ok_iff : registry.validate kind input fresh now = .ok r ↔
    ∃ d candidate, registry.get? kind = some d ∧ input = .obj candidate ∧
      d.candidateViolations candidate = [] ∧ r = d.recordOf candidate fresh now := by
  simp only [validate, bind_eq_ok_iff, ruling_eq_ok_iff, mapping_eq_ok_iff, List.isEmpty_iff]
  constructor
  · rintro ⟨d, hget, candidate, hinput, h⟩
    obtain ⟨-, rfl⟩ := kind_of_get? hget
    split at h
    · next hnil => exact ⟨d, candidate, hget, hinput, hnil, (Except.ok.inj h).symm⟩
    · cases h
  · rintro ⟨d, candidate, hget, hinput, hnil, rfl⟩
    obtain ⟨-, rfl⟩ := kind_of_get? hget
    exact ⟨d, hget, candidate, hinput, if_pos hnil⟩

/-- The record of a candidate that the shipped definition of a kind accepts. -/
theorem validate_eq_ok_iff : builtin.validate kind input fresh now = .ok r ↔
    ∃ candidate, input = .obj candidate ∧
      (Descriptor.shipped kind).candidateViolations candidate = [] ∧
      r = .ofCandidate kind candidate fresh now := by
  rw [validate_ok_iff]
  simp [Descriptor.recordOf_shipped]

/-- What is no object is refused for its form, and a candidate for all its violations. -/
theorem validate_eq_error_iff {e : ValidationError} :
    builtin.validate kind input fresh now = .error e ↔
      ((∀ candidate, input ≠ .obj candidate) ∧ e = .notAMapping kind) ∨
        ∃ candidate, input = .obj candidate ∧
          (Descriptor.shipped kind).candidateViolations candidate ≠ [] ∧
          e = .fields kind
            (Violation.report ((Descriptor.shipped kind).candidateViolations candidate)) := by
  have hruling : builtin.ruling kind = .ok (Descriptor.shipped kind) :=
    ruling_eq_ok_iff.mpr (get?_builtin kind)
  simp only [validate, bind_eq_error_iff, hruling, mapping_eq_error_iff, mapping_eq_ok_iff,
    reduceCtorEq, false_or, Except.ok.injEq, exists_eq_left', List.isEmpty_iff]
  refine or_congr_right (exists_congr fun candidate => and_congr_right fun _ => ?_)
  split
  · next hnil => simp [hnil]
  · next hne => rw [refuse, Except.error.injEq, eq_comm, and_iff_right hne]

end Registry

/-! ## Samples -/

/-- A key. -/
def Uuid.sample : Uuid := ⟨List.replicate 32 ⟨0, Nat.succ_pos 15⟩, List.length_replicate⟩

/-- A candidate of each kind. -/
def Descriptor.sample : RecordKind → Fields
  | .locale => [("_id", .str "en-US"), ("name", .str "English")]
  | .template => [("name", .str "welcome")]
  | .email => [("html", .str "<p>Hi</p>"), ("locale", .str "en-US"), ("subject", .str "Hi"),
      ("template", .str "3f2a6c1e-9b7d-4e2a-8c41-0d5e6f7a8b9c"), ("text", .str "Hi")]
  | .sms => [("content", .str "Hi"), ("locale", .str "en-US"),
      ("template", .str "3f2a6c1e-9b7d-4e2a-8c41-0d5e6f7a8b9c")]

/-- Every kind accepts a candidate. -/
theorem Descriptor.sample_accepted (kind : RecordKind) :
    (Descriptor.shipped kind).candidateViolations (sample kind) = [] := by
  cases kind <;> decide +kernel

end Phrasebook
