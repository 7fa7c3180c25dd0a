import Phrasebook.Proofs.Accepted
import Phrasebook.Proofs.Conforming
import Phrasebook.Proofs.LocaleCodes
import Phrasebook.Proofs.Reports

/-!
# Verdicts on candidates

What is wrong with a candidate, stated field by field: a required field that is absent, a
field that is not declared, and what is wrong with the value of a declared one whatever the
other fields hold. Validation accepts the candidates with nothing wrong, and reports
everything that is wrong with any other candidate once.

## Main definitions

* `Descriptor.Fits`: a candidate meets the definition of its kind
* `Descriptor.Flaw`: something is wrong with a candidate by its definition
* `Descriptor.Fault`: something is wrong with a candidate, times that cannot be read included
-/
namespace Phrasebook

namespace Descriptor

/-- A candidate meets the definition of its kind. -/
structure Fits (d : Descriptor) (candidate : Fields) : Prop where
  /-- Required fields are given. -/
  required : ∀ f ∈ d.fields, f.required = true → ∃ value, candidate.get? f.name = some value
  /-- What is given is declared. -/
  declared : ∀ name value, candidate.get? name = some value → ∃ f ∈ d.fields, f.name = name
  /-- Each value meets the demands of its field. -/
  values : ∀ f ∈ d.fields, ∀ value, candidate.get? f.name = some value → f.Fits value
  /-- Times can be read. -/
  times : ∀ name ∈ [createdField, updatedField], ∀ s, candidate.get? name = some (.str s) →
    ∃ t, Instant.parse s = .ok t

/-- Something is wrong with a candidate by the definition of its kind. -/
inductive Flaw (d : Descriptor) (candidate : Fields) : Violation → Prop
  | missing {f : FieldSpec} (mem : f ∈ d.fields) (required : f.required = true)
    (absent : candidate.get? f.name = none) : Flaw d candidate ⟨f.name, .missing⟩
  | unknown {name : String} {value : Json} (given : candidate.get? name = some value)
    (undeclared : ∀ f ∈ d.fields, f.name ≠ name) : Flaw d candidate ⟨name, .unknownField⟩
  | value {f : FieldSpec} {value : Json} {v : Violation} (mem : f ∈ d.fields)
    (given : candidate.get? f.name = some value) (h : f.Fault value v) : Flaw d candidate v

/-- Something is wrong with a candidate. -/
inductive Fault (d : Descriptor) (candidate : Fields) : Violation → Prop
  | flaw {v : Violation} (h : d.Flaw candidate v) : Fault d candidate v
  | time {f : FieldSpec} {s : String} {e : TimestampError} (mem : f ∈ d.fields)
    (name : f.name = createdField ∨ f.name = updatedField)
    (given : candidate.get? f.name = some (.str s)) (h : Instant.parse s = .error e) :
    Fault d candidate ⟨f.name, .wrongType f.type.name⟩

end Descriptor

namespace FieldSpec

variable {f : FieldSpec} {value : Json} {v : Violation} {s : String}

/-- What is wrong with a text is in its field. -/
theorem Fault.field_str (h : f.Fault (.str s) v) : v.field = f.name := by
  cases h with
  | field _ => rfl
  | entry _ hvalue _ _ => cases hvalue

/-- Without further constraints all that can be wrong with a text is its type. -/
theorem Fault.eq_wrongType (h : f.Fault (.str s) v) (hmax : f.maxLength = none)
    (hmin : f.minLength = none) (hpattern : f.pattern = none) :
    v = ⟨f.name, .wrongType f.type.name⟩ := by
  cases h with
  | field h =>
    cases h with
    | type _ | uuid _ _ _ | timestamp _ _ _ => rfl
    | tooLong _ hlimit _ => simp [hmax] at hlimit
    | tooShort _ hlimit _ => simp [hmin] at hlimit
    | pattern _ hsome _ _ => simp [hpattern] at hsome
  | entry _ hvalue _ _ => cases hvalue

/-- What is wrong with a value is neither that it is absent nor that it is not declared. -/
theorem Fault.constraint_ne (h : f.Fault value v) :
    v.constraint ≠ .missing ∧ v.constraint ≠ .unknownField := by
  cases h with
  | field h => cases h <;> exact ⟨nofun, nofun⟩
  | entry _ _ _ h => cases h <;> exact ⟨nofun, nofun⟩

end FieldSpec

namespace Descriptor

variable {kind : RecordKind} {candidate : Fields} {f : FieldSpec} {name : String} {value : Json}
  {v w : Violation}

/-! ## The check against the definition -/

/-- The check of the value of a shipped field finds what is wrong with it. -/
theorem mem_violations_shipped (hf : f ∈ (shipped kind).fields) :
    v ∈ f.violations (shipped kind) value ↔ f.Fault value v :=
  FieldSpec.mem_violations (field?_shipped hf) (FieldSpec.plainName_shipped f hf)
    (FieldSpec.patternReads_shipped f hf)

/-- A value that is given for a shipped field without violations meets its demands. -/
theorem fits_of_get? {mode : Mode} (h : (shipped kind).violations mode candidate = [])
    (hf : f ∈ (shipped kind).fields) (hget : candidate.get? f.name = some value) : f.Fits value :=
  (FieldSpec.violations_eq_nil_iff (field?_shipped hf) (FieldSpec.plainName_shipped f hf)
    (FieldSpec.patternReads_shipped f hf)).mp (accepts_of_get? h (field?_shipped hf) hget)

theorem mem_valueViolations (h : candidate.Sorted) :
    v ∈ (shipped kind).valueViolations candidate ↔
      ∃ f ∈ (shipped kind).fields, ∃ value, candidate.get? f.name = some value ∧
        f.Fault value v := by
  simp only [valueViolations, List.mem_flatMap, Prod.exists]
  constructor
  · rintro ⟨name, value, hmem, hv⟩
    cases hf : (shipped kind).field? name with
    | none => simp [hf] at hv
    | some f =>
      obtain ⟨hfield, rfl⟩ := mem_of_field? hf
      simp only [hf] at hv
      exact ⟨f, hfield, value, h.get?_eq_some_iff.mpr hmem, (mem_violations_shipped hfield).mp hv⟩
  · rintro ⟨f, hf, value, hget, hfault⟩
    refine ⟨f.name, value, Fields.mem_of_get? hget, ?_⟩
    simp only [field?_shipped hf]
    exact (mem_violations_shipped hf).mpr hfault

theorem mem_unknownViolations (h : candidate.Sorted) :
    v ∈ (shipped kind).unknownViolations candidate ↔
      ∃ name value, candidate.get? name = some value ∧
        (∀ f ∈ (shipped kind).fields, f.name ≠ name) ∧ v = ⟨name, .unknownField⟩ := by
  have hundeclared : ∀ name, ((shipped kind).field? name).isNone = true ↔
      ∀ f ∈ (shipped kind).fields, f.name ≠ name := by
    intro name
    simp [field?]
  simp only [unknownViolations, List.mem_filterMap, Prod.exists, Option.ite_none_right_eq_some,
    hundeclared, Option.some.injEq]
  refine exists_congr fun name => exists_congr fun value => ?_
  rw [h.get?_eq_some_iff, eq_comm]

theorem mem_missingViolations : v ∈ (shipped kind).missingViolations .create candidate ↔
    ∃ f ∈ (shipped kind).fields, f.required = true ∧ candidate.get? f.name = none ∧
      v = ⟨f.name, .missing⟩ := by
  simp only [missingViolations, requiredFields, List.mem_filterMap, List.mem_filter, and_assoc]
  refine exists_congr fun f => and_congr_right fun _ => and_congr_right fun _ => ?_
  rw [Option.ite_none_left_eq_some, Option.some.injEq, eq_comm (b := v)]
  exact and_congr_left fun _ => Option.not_isSome_iff_eq_none

/-- The check against the definition finds the flaws of a candidate. -/
theorem mem_violations (h : candidate.Sorted) :
    v ∈ (shipped kind).violations .create candidate ↔ (shipped kind).Flaw candidate v := by
  simp only [violations, List.mem_append, mem_valueViolations h, mem_unknownViolations h,
    mem_missingViolations]
  constructor
  · rintro ((⟨f, hf, value, hget, hfault⟩ | ⟨name, value, hget, hall, rfl⟩) |
      ⟨f, hf, hrequired, hnone, rfl⟩)
    · exact .value hf hget hfault
    · exact .unknown hget hall
    · exact .missing hf hrequired hnone
  · rintro (⟨hf, hrequired, hnone⟩ | ⟨hget, hall⟩ | ⟨hf, hget, hfault⟩)
    · exact .inr ⟨_, hf, hrequired, hnone, rfl⟩
    · exact .inl (.inr ⟨_, _, hget, hall, rfl⟩)
    · exact .inl (.inl ⟨_, hf, _, hget, hfault⟩)

/-- Values of different fields have different violations. -/
theorem nodup_valueViolations (h : (Json.obj candidate).WellFormed) :
    ((shipped kind).valueViolations candidate).Nodup := by
  rw [valueViolations, List.nodup_flatMap]
  constructor
  · rintro ⟨name, value⟩ hmem
    cases hf : (shipped kind).field? name with
    | none =>
      simp only [hf]
      exact List.nodup_nil
    | some f =>
      obtain ⟨hfield, rfl⟩ := mem_of_field? hf
      simp only [hf]
      refine FieldSpec.nodup_violations hf (FieldSpec.plainName_shipped f hfield)
        (FieldSpec.patternReads_shipped f hfield) ?_
      rintro entries rfl
      exact (h.of_mem _ hmem).sorted
  · -- A violation names the field that it is in.
    have hplace : ∀ entry v, v ∈ (shipped kind).valueViolations [entry] →
        placeField v.field = entry.1.toList := by
      intro entry v hv
      obtain ⟨f, hf, value, hget, hfault⟩ :=
        (mem_valueViolations (List.pairwise_singleton _ entry)).mp hv
      rw [← List.mem_singleton.mp (Fields.mem_of_get? hget)]
      exact hfault.placeField (FieldSpec.plainName_shipped f hf)
    refine h.sorted.imp fun {a b} hlt v hv hv' => ?_
    have hsame := (hplace a v (by simpa [valueViolations] using hv)).symm.trans
      (hplace b v (by simpa [valueViolations] using hv'))
    exact String.ne_of_lt hlt (String.toList_injective hsame)

theorem nodup_unknownViolations (h : candidate.Sorted) :
    ((shipped kind).unknownViolations candidate).Nodup := by
  refine List.Pairwise.filterMap _ ?_ h
  intro a b hlt v hv w hw
  obtain ⟨-, hv⟩ := Option.ite_none_right_eq_some.mp hv
  obtain ⟨-, hw⟩ := Option.ite_none_right_eq_some.mp hw
  cases hv
  cases hw
  exact fun heq => String.ne_of_lt hlt (Violation.mk.inj heq).1

theorem nodup_missingViolations : ((shipped kind).missingViolations .create candidate).Nodup := by
  have hnames := List.pairwise_map.mp (nodup_shipped kind)
  refine List.Pairwise.filterMap _ ?_ (hnames.filter _)
  intro f g hne v hv w hw
  obtain ⟨-, hv⟩ := Option.ite_none_left_eq_some.mp hv
  obtain ⟨-, hw⟩ := Option.ite_none_left_eq_some.mp hw
  cases hv
  cases hw
  exact fun heq => hne (Violation.mk.inj heq).1

/-- No flaw is found twice. -/
theorem nodup_violations (h : (Json.obj candidate).WellFormed) :
    ((shipped kind).violations .create candidate).Nodup := by
  rw [violations, List.nodup_append', List.nodup_append']
  refine ⟨⟨nodup_valueViolations h, nodup_unknownViolations h.sorted, fun v hv hv' => ?_⟩,
    nodup_missingViolations, fun v hv hv' => ?_⟩
  · obtain ⟨f, -, value, -, hfault⟩ := (mem_valueViolations h.sorted).mp hv
    obtain ⟨name, value, -, -, rfl⟩ := (mem_unknownViolations h.sorted).mp hv'
    exact hfault.constraint_ne.2 rfl
  · obtain ⟨g, -, -, -, rfl⟩ := mem_missingViolations.mp hv'
    rcases List.mem_append.mp hv with hv | hv
    · obtain ⟨f, -, value, -, hfault⟩ := (mem_valueViolations h.sorted).mp hv
      exact hfault.constraint_ne.1 rfl
    · obtain ⟨name, value, -, -, heq⟩ := (mem_unknownViolations h.sorted).mp hv
      cases heq

/-! ## Keys and times -/

/-- What a candidate gives as a text and cannot be read. -/
theorem given_eq_error {ε α : Type} {parse : String → Except ε α} {e : ε}
    (h : (candidate.getStr? name).map parse = some (.error e)) :
    ∃ s, candidate.get? name = some (.str s) ∧ parse s = .error e := by
  obtain ⟨s, hs, hparse⟩ := Option.map_eq_some_iff.mp h
  refine ⟨s, ?_, hparse⟩
  unfold Fields.getStr? at hs
  split at hs
  · next hget => exact Option.some.inj hs ▸ hget
  · cases hs

theorem mem_addWrongType {field : String} {vs : List Violation} :
    v ∈ (shipped kind).addWrongType field vs ↔
      v ∈ vs ∨ ((∀ w ∈ vs, w.field ≠ field) ∧
        v = ⟨field, .wrongType ((shipped kind).expectedType field)⟩) := by
  by_cases hall : ∀ w ∈ vs, w.field ≠ field
  · rw [addWrongType_of_forall hall, List.mem_append, List.mem_singleton, and_iff_right hall]
  · obtain ⟨w, hw, hfield⟩ : ∃ w ∈ vs, w.field = field := by simpa using hall
    rw [addWrongType_of_mem hw hfield]
    exact ⟨.inl, Or.rec id fun ⟨hnone, _⟩ => absurd hnone hall⟩

theorem nodup_addWrongType {field : String} {vs : List Violation} (h : vs.Nodup) :
    ((shipped kind).addWrongType field vs).Nodup := by
  by_cases hall : ∀ w ∈ vs, w.field ≠ field
  · rw [addWrongType_of_forall hall]
    exact List.nodup_append'.mpr ⟨h, List.nodup_singleton _, fun w hw hv =>
      hall w hw (congrArg Violation.field (List.mem_singleton.mp hv))⟩
  · obtain ⟨w, hw, hfield⟩ : ∃ w ∈ vs, w.field = field := by simpa using hall
    rwa [addWrongType_of_mem hw hfield]

theorem nodup_addIfBad {ε α : Type} {field : String} {given : Option (Except ε α)}
    {vs : List Violation} (h : vs.Nodup) : ((shipped kind).addIfBad field given vs).Nodup := by
  by_cases hbad : ∃ e, given = some (.error e)
  · obtain ⟨e, rfl⟩ := hbad
    exact nodup_addWrongType h
  · rwa [addIfBad_of_good (not_exists.mp hbad)]

/-- A key is given as a UUID or as a locale code. -/
theorem idField_shipped (kind : RecordKind) : ∃ f ∈ (shipped kind).fields, f.name = idField ∧
    (f.type = .uuid ∨ f.pattern = some FieldSpec.localePattern) := by
  cases kind <;> decide

/-- A text that fits the field of the key is a key. -/
theorem parse_of_fits {s : String} (h : f.Fits (.str s))
    (hf : f.type = .uuid ∨ f.pattern = some FieldSpec.localePattern) :
    ∃ id, RecordId.parse s = .ok id := by
  rcases hf with htype | hpattern
  · obtain ⟨u, hu⟩ := RecordId.parse_of_isUuid (h.uuid s rfl htype)
    exact ⟨_, hu⟩
  · exact ⟨_, RecordId.parse_of_isLocaleText (h.isLocaleText hpattern)⟩

/-- A text that is no key is found by the check of its field already. -/
theorem addIfBad_id (h : candidate.Sorted) :
    (shipped kind).addIfBad idField (givenId? candidate)
        ((shipped kind).violations .create candidate) =
      (shipped kind).violations .create candidate := by
  by_cases hbad : ∃ e, givenId? candidate = some (.error e)
  · obtain ⟨e, hbad⟩ := hbad
    obtain ⟨s, hget, hparse⟩ := given_eq_error hbad
    obtain ⟨f, hf, hname, hkey⟩ := idField_shipped kind
    rw [← hname] at hget
    have hnot : ¬ f.Fits (.str s) := by
      intro hfits
      obtain ⟨id, hid⟩ := parse_of_fits hfits hkey
      rw [hid] at hparse
      cases hparse
    rw [FieldSpec.fits_iff (FieldSpec.patternReads_shipped f hf)] at hnot
    obtain ⟨v, hfault⟩ := Classical.not_forall_not.mp hnot
    have hmem := (mem_violations h).mpr (.value hf hget hfault)
    rw [hbad, addIfBad_error, addWrongType_of_mem hmem (hfault.field_str.trans hname)]
  · exact addIfBad_of_good (not_exists.mp hbad)

/-- A time has no constraints besides its type. -/
theorem timeField_shipped (kind : RecordKind) : ∀ f ∈ (shipped kind).fields,
    f.name = createdField ∨ f.name = updatedField →
      f.maxLength = none ∧ f.minLength = none ∧ f.pattern = none ∧
        (shipped kind).expectedType f.name = f.type.name := by
  cases kind <;> decide

/-- The times are declared. -/
theorem time_declared (kind : RecordKind) : ∀ field ∈ [createdField, updatedField],
    ∃ f ∈ (shipped kind).fields, f.name = field := by
  cases kind <;> decide

/-- All that can be wrong with the text of a time is its type. -/
theorem Fault.eq_wrongType {s : String} (h : (shipped kind).Fault candidate v)
    (hf : f ∈ (shipped kind).fields) (hname : f.name = createdField ∨ f.name = updatedField)
    (hget : candidate.get? f.name = some (.str s)) (hfield : v.field = f.name) :
    v = ⟨f.name, .wrongType f.type.name⟩ := by
  cases h with
  | flaw h =>
    cases h with
    | missing _ _ hnone =>
      dsimp only at hfield
      rw [hfield, hget] at hnone
      cases hnone
    | unknown _ hall => exact absurd hfield.symm (hall f hf)
    | value hg hvalue hfault =>
      have hplace := hfault.placeField (FieldSpec.plainName_shipped _ hg)
      rw [hfield, (FieldSpec.plainName_shipped f hf).placeField] at hplace
      obtain rfl := eq_of_name hf hg (String.toList_injective hplace)
      obtain rfl := Option.some.inj (hget.symm.trans hvalue)
      obtain ⟨hmax, hmin, hpattern, -⟩ := timeField_shipped kind f hf hname
      exact hfault.eq_wrongType hmax hmin hpattern
  | time hg _ _ _ =>
    obtain rfl := eq_of_name hf hg hfield.symm
    rfl

/-- A text that is no time is found, by the check of its field or after it. -/
theorem mem_addIfBad_time {field : String} {vs : List Violation}
    (hfield : field = createdField ∨ field = updatedField)
    (hvs : ∀ w ∈ vs, (shipped kind).Fault candidate w) :
    v ∈ (shipped kind).addIfBad field (givenInstant? candidate field) vs ↔
      v ∈ vs ∨ ∃ f ∈ (shipped kind).fields, f.name = field ∧ ∃ s e,
        candidate.get? f.name = some (.str s) ∧ Instant.parse s = .error e ∧
        v = ⟨f.name, .wrongType f.type.name⟩ := by
  obtain ⟨f, hf, rfl⟩ := time_declared kind field (by simpa using hfield)
  obtain ⟨-, -, -, hexpected⟩ := timeField_shipped kind f hf hfield
  by_cases hbad : ∃ e, givenInstant? candidate f.name = some (.error e)
  · obtain ⟨e, hbad⟩ := hbad
    obtain ⟨s, hget, hparse⟩ := given_eq_error hbad
    rw [hbad, addIfBad_error, mem_addWrongType, hexpected]
    constructor
    · rintro (hv | ⟨-, rfl⟩)
      · exact .inl hv
      · exact .inr ⟨f, hf, rfl, s, e, hget, hparse, rfl⟩
    · rintro (hv | ⟨g, hg, hname, -, -, -, -, rfl⟩)
      · exact .inl hv
      · obtain rfl := eq_of_name hg hf hname
        by_cases hany : ∀ w ∈ vs, w.field ≠ g.name
        · exact .inr ⟨hany, rfl⟩
        · obtain ⟨w, hw⟩ := Classical.not_forall.mp hany
          obtain ⟨hmem, hsame⟩ := Classical.not_imp.mp hw
          have heq := (hvs w hmem).eq_wrongType hg hfield hget (Classical.not_not.mp hsame)
          exact .inl (heq ▸ hmem)
  · rw [addIfBad_of_good (not_exists.mp hbad)]
    refine ⟨.inl, ?_⟩
    rintro (hv | ⟨g, hg, hname, s, e, hget, hparse, -⟩)
    · exact hv
    · rw [hname] at hget
      exact absurd ⟨e, by simp [givenInstant?, Fields.getStr?, hget, hparse]⟩ hbad

/-- Validation finds what is wrong with a candidate. -/
theorem mem_candidateViolations (h : candidate.Sorted) :
    v ∈ (shipped kind).candidateViolations candidate ↔ (shipped kind).Fault candidate v := by
  have hflaws : ∀ w ∈ (shipped kind).violations .create candidate,
      (shipped kind).Fault candidate w := fun w hw => .flaw ((mem_violations h).mp hw)
  have hcreated := fun w => mem_addIfBad_time (v := w) (.inl rfl) hflaws
  have hfaults : ∀ w ∈ (shipped kind).addIfBad createdField
      (givenInstant? candidate createdField) ((shipped kind).violations .create candidate),
      (shipped kind).Fault candidate w := by
    intro w hw
    rcases (hcreated w).mp hw with hw | ⟨f, hf, hname, s, e, hget, hparse, rfl⟩
    · exact hflaws w hw
    · exact .time hf (.inl hname) hget hparse
  rw [candidateViolations, addIfBad_id h, mem_addIfBad_time (.inr rfl) hfaults, hcreated,
    mem_violations h]
  constructor
  · rintro ((hflaw | ⟨f, hf, hname, s, e, hget, hparse, rfl⟩) |
      ⟨f, hf, hname, s, e, hget, hparse, rfl⟩)
    · exact .flaw hflaw
    · exact .time hf (.inl hname) hget hparse
    · exact .time hf (.inr hname) hget hparse
  · rintro (⟨hflaw⟩ | ⟨hf, hname | hname, hget, hparse⟩)
    · exact .inl (.inl hflaw)
    · exact .inl (.inr ⟨_, hf, hname, _, _, hget, hparse, rfl⟩)
    · exact .inr ⟨_, hf, hname, _, _, hget, hparse, rfl⟩

/-- Nothing is found twice. -/
theorem nodup_candidateViolations (h : (Json.obj candidate).WellFormed) :
    ((shipped kind).candidateViolations candidate).Nodup :=
  nodup_addIfBad (nodup_addIfBad (nodup_addIfBad (nodup_violations h)))

/-- A candidate meets the definition of its kind if nothing is wrong with it. -/
theorem fits_iff (h : candidate.Sorted) : (shipped kind).Fits candidate ↔
    (shipped kind).candidateViolations candidate = [] := by
  rw [List.eq_nil_iff_forall_not_mem]
  simp only [mem_candidateViolations h]
  constructor
  · rintro hfits v (⟨hflaw⟩ | ⟨hf, hname, hget, hparse⟩)
    · cases hflaw with
      | missing hf hrequired hnone =>
        obtain ⟨value, hvalue⟩ := hfits.required _ hf hrequired
        rw [hnone] at hvalue
        cases hvalue
      | unknown hget hall =>
        obtain ⟨f, hf, hname⟩ := hfits.declared _ _ hget
        exact hall f hf hname
      | value hf hget hfault =>
        exact (FieldSpec.fits_iff (FieldSpec.patternReads_shipped _ hf)).mp
          (hfits.values _ hf _ hget) v hfault
    · obtain ⟨t, ht⟩ := hfits.times _ (by simpa using hname) _ hget
      rw [hparse] at ht
      cases ht
  · intro hnone
    refine ⟨fun f hf hrequired => ?_, fun name value hget => ?_, fun f hf value hget => ?_,
      fun name hname s hget => ?_⟩
    · cases hget : candidate.get? f.name with
      | some value => exact ⟨value, rfl⟩
      | none => exact absurd (.flaw (.missing hf hrequired hget)) (hnone _)
    · by_cases hdeclared : ∃ f ∈ (shipped kind).fields, f.name = name
      · exact hdeclared
      · have hall : ∀ f ∈ (shipped kind).fields, f.name ≠ name :=
          fun f hf hname => hdeclared ⟨f, hf, hname⟩
        exact absurd (.flaw (.unknown hget hall)) (hnone _)
    · refine (FieldSpec.fits_iff (FieldSpec.patternReads_shipped _ hf)).mpr fun v hfault => ?_
      exact hnone v (.flaw (.value hf hget hfault))
    · obtain ⟨f, hf, rfl⟩ := time_declared kind name hname
      cases hparse : Instant.parse s with
      | ok t => exact ⟨t, rfl⟩
      | error e =>
        exact absurd (.time hf (by simpa using hname) hget hparse) (hnone _)

/-- The key and the times have no defaults. -/
theorem default_identity (kind : RecordKind) : ∀ f ∈ (shipped kind).fields,
    isIdentityField f.name = true → f.default = none := by
  cases kind <;> decide

end Descriptor

/-- The key of an accepted locale is the code that the candidate gives. -/
theorem Record.id_ofCandidate_locale {candidate : Fields} {fresh : Uuid} {now : Instant}
    (h : (Descriptor.shipped .locale).violations .create candidate = []) :
    ∃ code, (ofCandidate .locale candidate fresh now).id = .locale code := by
  have hf : FieldSpec.localeId ∈ (Descriptor.shipped .locale).fields := List.mem_cons_self
  obtain ⟨text, htext⟩ := Descriptor.exists_text_of_required h hf rfl (.inl rfl)
  have hcode := (Descriptor.fits_of_get? h hf htext).isLocaleText rfl
  have hgiven : candidate.get? idField = some (.str text) := htext
  refine ⟨⟨text, hcode⟩, ?_⟩
  simp [ofCandidate, Descriptor.givenId?, Fields.getStr?, hgiven,
    RecordId.parse_of_isLocaleText hcode, Descriptor.wellFormed?]

/-- The record of a candidate that meets the definition of its kind has what the candidate
gives and the defaults of what it does not give. -/
theorem Record.get?_ofCandidate_iff {kind : RecordKind} {candidate : Fields} {fresh : Uuid}
    {now : Instant} {name : String} {value : Json} (h : (Descriptor.shipped kind).Fits candidate) :
    (ofCandidate kind candidate fresh now).fields.get? name = some value ↔
      (isIdentityField name = false ∧ candidate.get? name = some value) ∨
        (candidate.get? name = none ∧
          ∃ f ∈ (Descriptor.shipped kind).fields, f.name = name ∧ f.default = some value) := by
  have hget : (ofCandidate kind candidate fresh now).fields.get? name =
      if isIdentityField name then none
      else ((Descriptor.shipped kind).field? name).bind (Descriptor.initialValue? candidate) :=
    Descriptor.get?_initialFields (Descriptor.nodup_shipped kind)
  rw [hget]
  by_cases hdeclared : ∃ f ∈ (Descriptor.shipped kind).fields, f.name = name
  · obtain ⟨f, hf, rfl⟩ := hdeclared
    have hdefault : (∃ g ∈ (Descriptor.shipped kind).fields, g.name = f.name ∧
        g.default = some value) ↔ f.default = some value := by
      constructor
      · rintro ⟨g, hg, hname, hdefault⟩
        exact Descriptor.eq_of_name hg hf hname ▸ hdefault
      · exact fun hdefault => ⟨f, hf, rfl, hdefault⟩
    rw [hdefault, Descriptor.field?_shipped hf, Option.bind_some, Descriptor.initialValue?]
    cases hidentity : isIdentityField f.name with
    | true => simp [Descriptor.default_identity kind f hf hidentity]
    | false => cases candidate.get? f.name <;> simp
  · have hundeclared : candidate.get? name = none := by
      cases hgiven : candidate.get? name with
      | none => rfl
      | some given => exact absurd (h.declared name given hgiven) hdeclared
    have hfield : (Descriptor.shipped kind).field? name = none := by
      simpa [Descriptor.field?] using hdeclared
    rw [hfield, hundeclared]
    simpa using fun f hf hname => absurd ⟨f, hf, hname⟩ hdeclared

/-- A refused candidate is refused for its violations. -/
theorem Registry.validate_error {kind : RecordKind} {candidate : Fields} {fresh : Uuid}
    {now : Instant} {e : ValidationError}
    (h : builtin.validate kind (.obj candidate) fresh now = .error e) :
    e = .fields kind
      (Violation.report ((Descriptor.shipped kind).candidateViolations candidate)) := by
  obtain ⟨hform, -⟩ | ⟨_, hinput, -, rfl⟩ := validate_eq_error_iff.mp h
  · exact absurd rfl (hform candidate)
  · cases hinput
    rfl

/-- Validation accepts exactly the candidates that meet the definition of their kind. The
record has what the candidate gives and the defaults of what it does not give, and nothing
else. A refusal reports everything that is wrong with the candidate and nothing else, by
field and without repetitions. -/
theorem Registry.validate_verdict (kind : RecordKind) (candidate : Fields) (fresh : Uuid)
    (now : Instant) (h : (Json.obj candidate).WellFormed) :
    ((∃ r, builtin.validate kind (.obj candidate) fresh now = .ok r) ↔
      (Descriptor.shipped kind).Fits candidate) ∧
    (∀ r, builtin.validate kind (.obj candidate) fresh now = .ok r →
      r.kind = kind ∧ r.fields.Sorted ∧ ∀ name value, r.fields.get? name = some value ↔
        (isIdentityField name = false ∧ candidate.get? name = some value) ∨
          (candidate.get? name = none ∧
            ∃ f ∈ (Descriptor.shipped kind).fields, f.name = name ∧ f.default = some value)) ∧
    ∀ e, builtin.validate kind (.obj candidate) fresh now = .error e →
      ∃ vs, e = .fields kind vs ∧ Violation.Sorted vs ∧ vs.Nodup ∧
        ∀ v, v ∈ vs ↔ (Descriptor.shipped kind).Fault candidate v := by
  have hsorted : candidate.Sorted := by
    cases h with
    | obj sorted _ => exact sorted
  have hfits : (Descriptor.shipped kind).Fits candidate ↔
      (Descriptor.shipped kind).candidateViolations candidate = [] := Descriptor.fits_iff hsorted
  refine ⟨?_, fun r hr => ?_, fun e he => ?_⟩
  · rw [hfits]
    constructor
    · rintro ⟨r, hr⟩
      obtain ⟨_, hinput, hnil, -⟩ := validate_eq_ok_iff.mp hr
      cases hinput
      exact hnil
    · exact fun hnil => ⟨_, validate_eq_ok_iff.mpr ⟨candidate, rfl, hnil, rfl⟩⟩
  · obtain ⟨_, hinput, hnil, rfl⟩ := validate_eq_ok_iff.mp hr
    cases hinput
    exact ⟨rfl, Descriptor.sorted_initialFields, fun name value =>
      Record.get?_ofCandidate_iff (hfits.mpr hnil)⟩
  · have hnodup : ((Descriptor.shipped kind).candidateViolations candidate).Nodup :=
      Descriptor.nodup_candidateViolations h
    refine ⟨_, validate_error he, Violation.sorted_report hnodup,
      Violation.nodup_report hnodup, fun v => ?_⟩
    rw [Violation.mem_report hnodup, Descriptor.mem_candidateViolations hsorted]

/-- The sample of a locale is accepted, and its record is not archived. -/
theorem Registry.validate_sampleLocale :
    (Json.obj (Descriptor.sample .locale)).WellFormed ∧
      ∃ r, builtin.validate .locale (.obj (Descriptor.sample .locale)) .sample ⟨0, 0⟩ = .ok r ∧
        r.fields.get? "name" = some (.str "English") ∧
        r.fields.get? "_archived" = some (.bool false) := by
  have hsorted : (Descriptor.sample .locale).Sorted := by
    decide
  have hwellFormed := Json.wellFormed_of_texts hsorted (by decide)
  have hfits : (Descriptor.shipped .locale).Fits (Descriptor.sample .locale) :=
    (Descriptor.fits_iff hsorted).mpr (Descriptor.sample_accepted .locale)
  obtain ⟨haccepts, hrecord, -⟩ :=
    validate_verdict .locale (Descriptor.sample .locale) .sample ⟨0, 0⟩ hwellFormed
  obtain ⟨r, hr⟩ := haccepts.mpr hfits
  obtain ⟨-, -, hfields⟩ := hrecord r hr
  refine ⟨hwellFormed, r, hr, (hfields _ _).mpr (.inl ⟨by decide, by decide⟩),
    (hfields _ _).mpr (.inr ⟨by decide, .archivedFlag, by decide, by decide, by decide⟩)⟩

end Phrasebook
