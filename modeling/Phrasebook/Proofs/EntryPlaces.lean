import Phrasebook.Proofs.Patches

/-!
# Places of entries

Validation reports an entry of the variables of a template that names no type, and reports it
in a place made of the field and the key. Keys are escaped there, and an empty key is left
out: so the place is the dotted name of the entry exactly for keys without the characters that
are escaped that are not empty.

## Main definitions

* `SimpleKey`: a key that stands for itself in a place
* `Json.NoType`: a value that names no type of a variable
* `ReportsEntries`: every entry is reported under its dotted name
-/
namespace Phrasebook

/-! ## Keys -/

/-- A key that is not empty and has no character to escape. -/
def SimpleKey (key : String) : Prop := key ≠ "" ∧ ∀ c ∈ key.toList, c ≠ '~' ∧ c ≠ '/'

/-- Escaping adds one character for each that is escaped. -/
theorem length_escapeName (name : String) : (escapeName name).toList.length =
    name.toList.length + name.toList.countP fun c => c = '~' ∨ c = '/' := by
  rw [escapeName_toList]
  induction name.toList with
  | nil => rfl
  | cons c cs ih =>
    rw [List.flatMap_cons, List.length_append, ih]
    rcases escapeChar_cases c with ⟨rfl, hc⟩ | ⟨rfl, hc⟩ | ⟨htilde, hslash, hc⟩
    · simp [hc]
      omega
    · simp [hc]
      omega
    · simp [hc, htilde, hslash]
      omega

/-- A text that is escaped to itself or to a shorter one has no character to escape. -/
theorem forall_of_length_le {name : String}
    (h : (escapeName name).toList.length ≤ name.toList.length) :
    ∀ c ∈ name.toList, c ≠ '~' ∧ c ≠ '/' := by
  rw [length_escapeName] at h
  have hnone : name.toList.countP (fun c => c = '~' ∨ c = '/') = 0 := by omega
  simpa using List.countP_eq_zero.mp hnone

/-! ## Entries -/

/-- A value names no type that a variable can have. -/
def Json.NoType (value : Json) : Prop :=
  ∀ s ∈ FieldSpec.templateVariables.values, value ≠ .str s

instance (value : Json) : Decidable value.NoType :=
  inferInstanceAs (Decidable (∀ s ∈ FieldSpec.templateVariables.values, value ≠ .str s))

/-- Each entry that names no type is reported under its dotted name, one that is no text as
wrongly typed, and none is reported under the name of the variables. -/
structure ReportsEntries (entries : Fields) (vs : List Violation) : Prop where
  value : ∀ entry ∈ entries, entry.2.NoType →
    ⟨"variables." ++ entry.1, .invalidValue FieldSpec.templateVariables.values⟩ ∈ vs
  type : ∀ entry ∈ entries, entry.2.str? = none →
    ⟨"variables." ++ entry.1, .wrongType "string"⟩ ∈ vs
  field : ∀ v ∈ vs, v.field ≠ "variables"

/-- A violation is neither in the place of the variables nor in that of an entry, unless it is
a field that is not declared. -/
def Violation.Elsewhere (v : Violation) : Prop :=
  v.field ≠ "variables" ∧
    (v.constraint = .unknownField ∨ placeField v.field ≠ "variables".toList)

/-- What is reported of the variables is what is wrong with them, and all else elsewhere. -/
structure Covers (entries : Fields) (vs : List Violation) : Prop where
  mem : ∀ v, FieldSpec.templateVariables.Fault (.obj entries) v → v ∈ vs
  of_mem : ∀ v ∈ vs, FieldSpec.templateVariables.Fault (.obj entries) v ∨ v.Elsewhere

section Entries

variable {entries : Fields} {entry : String × Json} {v : Violation} {vs : List Violation}

theorem plainName_variables : PlainName FieldSpec.templateVariables.name := by
  decide

/-- The place of an entry is its dotted name, with the key escaped. -/
theorem pathText_variables {key : String} (h : key ≠ "") :
    pathText [FieldSpec.templateVariables.name, key] = "variables." ++ escapeName key := by
  rw [pathText_entry plainName_variables, if_neg h]
  rfl

theorem dotted_ne_variables (key : String) : "variables." ++ key ≠ "variables" := by
  intro h
  have hlength := congrArg String.length h
  have hdotted : "variables.".length = 10 := by decide
  have hfield : "variables".length = 9 := by decide
  rw [String.length_append] at hlength
  omega

/-- An entry that is no text names no type. -/
theorem Json.noType_of_str? {value : Json} (h : value.str? = none) : value.NoType := by
  rintro s - rfl
  cases h

/-- What is wrong with variables is in an entry that names no type. -/
theorem fault_cases (h : FieldSpec.templateVariables.Fault (.obj entries) v) :
    ∃ entry ∈ entries, entry.2.NoType ∧
      v.field = pathText [FieldSpec.templateVariables.name, entry.1] := by
  cases h with
  | field hfails =>
    cases hfails with
    | type hadmits => cases hadmits
    | uuid hvalue _ _ | timestamp hvalue _ _ | tooLong hvalue _ _ | tooShort hvalue _ _
    | pattern hvalue _ _ _ => cases hvalue
  | entry _ hvalue hmem hfails =>
    cases hvalue
    refine ⟨_, hmem, ?_, rfl⟩
    cases hfails with
    | type hnone => exact Json.noType_of_str? hnone
    | value hnot => exact fun s hs heq => hnot (.inr ⟨s, hs, heq⟩)

/-- An entry that names no type is one of the faults of the variables. -/
theorem fault_value (hmem : entry ∈ entries) (h : entry.2.NoType) :
    FieldSpec.templateVariables.Fault (.obj entries)
      ⟨pathText [FieldSpec.templateVariables.name, entry.1],
        .invalidValue FieldSpec.templateVariables.values⟩ := by
  refine .entry rfl rfl hmem (.value ?_)
  rintro (hnil | ⟨s, hs, heq⟩)
  · cases hnil
  · exact h s hs heq

/-- What is reported under a dotted name is an entry whose escaped key is that name. -/
theorem Covers.exists_escaped (h : Covers entries vs) {key : String} {c : Constraint}
    (hmem : ⟨"variables." ++ key, c⟩ ∈ vs) (hc : c ≠ .unknownField) :
    ∃ entry ∈ entries, entry.2.NoType ∧ escapeName entry.1 = key := by
  have hplace : placeField ("variables." ++ key) = "variables".toList := by
    rw [placeField, String.toList_append, show "variables.".toList = "variables".toList ++ ['.']
      from rfl, List.append_assoc, List.takeWhile_append_of_pos (by simp)]
    simp
  rcases h.of_mem _ hmem with hfault | ⟨-, hunknown | hother⟩
  · obtain ⟨entry, hentry, hbad, hfield⟩ := fault_cases hfault
    refine ⟨entry, hentry, hbad, ?_⟩
    by_cases hempty : entry.1 = ""
    · rw [hempty] at hfield
      exact absurd hfield (dotted_ne_variables key)
    · rw [pathText_variables hempty] at hfield
      exact (String.append_right_inj _).mp hfield.symm
  · exact absurd hunknown hc
  · exact absurd hplace hother

/-- If entries are reported under their dotted names, the keys of those that name no type have
no character to escape. -/
theorem Covers.forall_ne_of_reportsEntries (h : Covers entries vs)
    (hreports : ReportsEntries entries vs) (hentry : entry ∈ entries) (hbad : entry.2.NoType) :
    ∀ c ∈ entry.1.toList, c ≠ '~' ∧ c ≠ '/' := by
  -- A key with a character to escape is longer than the one whose place it takes.
  induction hlength : entry.1.toList.length using Nat.strong_induction_on generalizing entry with
  | h n ih =>
    obtain ⟨other, hother, hbad', hescaped⟩ :=
      h.exists_escaped (hreports.value entry hentry hbad) nofun
    have hother : ∀ c ∈ other.1.toList, c ≠ '~' ∧ c ≠ '/' := by
      by_cases hshort : other.1.toList.length < n
      · exact ih _ hshort hother hbad' rfl
      · refine forall_of_length_le ?_
        rw [hescaped, hlength]
        exact Nat.le_of_not_lt hshort
    rw [← hescaped, escapeName_of_forall hother]
    exact hother

theorem Covers.simpleKey_of_reportsEntries (h : Covers entries vs)
    (hreports : ReportsEntries entries vs) (hentry : entry ∈ entries) (hbad : entry.2.NoType) :
    SimpleKey entry.1 := by
  refine ⟨fun hempty => ?_, h.forall_ne_of_reportsEntries hreports hentry hbad⟩
  refine hreports.field _ (h.mem _ (fault_value hentry hbad)) ?_
  rw [hempty]
  rfl

/-- Entries whose keys are simple are reported under their dotted names. -/
theorem Covers.reportsEntries_of_simpleKey (h : Covers entries vs)
    (hsimple : ∀ entry ∈ entries, entry.2.NoType → SimpleKey entry.1) :
    ReportsEntries entries vs := by
  have hplace : ∀ entry ∈ entries, entry.2.NoType →
      pathText [FieldSpec.templateVariables.name, entry.1] = "variables." ++ entry.1 := by
    intro entry hentry hbad
    obtain ⟨hempty, hchars⟩ := hsimple entry hentry hbad
    rw [pathText_variables hempty, escapeName_of_forall hchars]
  refine ⟨fun entry hentry hbad => ?_, fun entry hentry hnone => ?_, fun v hv hfield => ?_⟩
  · rw [← hplace entry hentry hbad]
    exact h.mem _ (fault_value hentry hbad)
  · have hbad := Json.noType_of_str? hnone
    have hfails : FieldSpec.templateVariables.EntryFails entry.1 entry.2
        (.wrongType (if entry.1 = "" then FieldType.object.name else "string")) := .type hnone
    rw [if_neg (hsimple entry hentry hbad).1] at hfails
    rw [← hplace entry hentry hbad]
    exact h.mem _ (.entry rfl rfl hentry hfails)
  · rcases h.of_mem v hv with hfault | ⟨hne, -⟩
    · obtain ⟨entry, hentry, hbad, hplaced⟩ := fault_cases hfault
      rw [hplace entry hentry hbad] at hplaced
      exact dotted_ne_variables entry.1 (hplaced.symm.trans hfield)
    · exact hne hfield

/-- Entries are reported under their dotted names exactly if the keys of those that name no
type are simple. -/
theorem Covers.reportsEntries_iff (h : Covers entries vs) : ReportsEntries entries vs ↔
    ∀ entry ∈ entries, entry.2.NoType → SimpleKey entry.1 :=
  ⟨fun hreports _ => h.simpleKey_of_reportsEntries hreports, h.reportsEntries_of_simpleKey⟩

end Entries

/-! ## Reports -/

section Reports

variable {candidate changes entries : Fields} {v : Violation}

/-- What concerns another field is elsewhere. -/
theorem elsewhere_of_field {name : String} (hne : name ≠ "variables")
    (h : placeField v.field = name.toList) : v.Elsewhere := by
  have hplace : placeField v.field ≠ "variables".toList := by
    rw [h]
    exact fun heq => hne (String.toList_injective heq)
  refine ⟨fun hfield => hplace ?_, .inr hplace⟩
  rw [hfield]
  rfl

/-- What is wrong with the values of a template is wrong with its variables or elsewhere. -/
theorem fault_or_elsewhere {f : FieldSpec} {value : Json}
    (hvariables : candidate.get? "variables" = some (.obj entries))
    (hf : f ∈ (Descriptor.shipped .template).fields) (hget : candidate.get? f.name = some value)
    (h : f.Fault value v) :
    FieldSpec.templateVariables.Fault (.obj entries) v ∨ v.Elsewhere := by
  by_cases hname : f.name = "variables"
  · obtain rfl : f = .templateVariables := Descriptor.eq_of_name hf (by decide) hname
    cases hvariables.symm.trans hget
    exact .inl h
  · exact .inr (elsewhere_of_field hname (h.placeField (FieldSpec.plainName_shipped f hf)))

theorem elsewhere_unknown {name : String}
    (h : ∀ f ∈ (Descriptor.shipped .template).fields, f.name ≠ name) :
    Violation.Elsewhere ⟨name, .unknownField⟩ :=
  ⟨fun hname => h .templateVariables (by decide) hname.symm, .inl rfl⟩

/-- A report on a new template covers its variables. -/
theorem covers_create (h : (Json.obj candidate).WellFormed)
    (hvariables : candidate.get? "variables" = some (.obj entries)) :
    Covers entries
      (Violation.report ((Descriptor.shipped .template).candidateViolations candidate)) := by
  have hsorted := h.sorted
  have hmem : ∀ v, v ∈ Violation.report
      ((Descriptor.shipped .template).candidateViolations candidate) ↔
        (Descriptor.shipped .template).Fault candidate v := fun v => by
    rw [Violation.mem_report (Descriptor.nodup_candidateViolations h),
      Descriptor.mem_candidateViolations hsorted]
  have hothers : ∀ f ∈ (Descriptor.shipped .template).fields,
      f.required = true ∨ f.name = createdField ∨ f.name = updatedField →
        f.name ≠ "variables" := by
    decide
  refine ⟨fun v hfault => (hmem v).mpr (.flaw (.value (f := .templateVariables) (by decide)
    hvariables hfault)), fun v hv => ?_⟩
  cases (hmem v).mp hv with
  | flaw hflaw =>
    cases hflaw with
    | @missing f hf hrequired _ =>
      exact .inr (elsewhere_of_field (hothers f hf (.inl hrequired))
        (FieldSpec.plainName_shipped f hf).placeField)
    | unknown _ hundeclared => exact .inr (elsewhere_unknown hundeclared)
    | value hf hget hfault => exact fault_or_elsewhere hvariables hf hget hfault
  | @time f _ _ hf hname _ _ =>
    exact .inr (elsewhere_of_field (hothers f hf (.inr hname))
      (FieldSpec.plainName_shipped f hf).placeField)

/-- The violations of changes are those of their values and the fields that are not declared. -/
theorem violations_update_eq {kind : RecordKind} : (Descriptor.shipped kind).violations .update
    changes = (Descriptor.shipped kind).valueViolations changes ++
      (Descriptor.shipped kind).unknownViolations changes :=
  List.append_nil _

/-- A report on changes of a template covers its variables. -/
theorem covers_update (h : (Json.obj changes).WellFormed)
    (hvariables : changes.get? "variables" = some (.obj entries)) :
    Covers entries
      (Violation.report ((Descriptor.shipped .template).violations .update changes)) := by
  have hsorted := h.sorted
  have hnodup : ((Descriptor.shipped .template).violations .update changes).Nodup := by
    rw [violations_update_eq]
    exact List.Nodup.of_append_left (Descriptor.nodup_violations h)
  have hmem : ∀ v, v ∈ Violation.report
      ((Descriptor.shipped .template).violations .update changes) ↔
        v ∈ (Descriptor.shipped .template).valueViolations changes ∨
          v ∈ (Descriptor.shipped .template).unknownViolations changes := fun v => by
    rw [Violation.mem_report hnodup, violations_update_eq, List.mem_append]
  refine ⟨fun v hfault => ?_, fun v hv => ?_⟩
  · exact (hmem v).mpr (.inl ((Descriptor.mem_valueViolations hsorted).mpr
      ⟨.templateVariables, by decide, _, hvariables, hfault⟩))
  · rcases (hmem v).mp hv with hvalue | hunknown
    · obtain ⟨f, hf, value, hget, hfault⟩ := (Descriptor.mem_valueViolations hsorted).mp hvalue
      exact fault_or_elsewhere hvariables hf hget hfault
    · obtain ⟨name, value, -, hundeclared, rfl⟩ :=
        (Descriptor.mem_unknownViolations hsorted).mp hunknown
      exact .inr (elsewhere_unknown hundeclared)

/-- Changes keep the variables of a patch. -/
theorem Registry.get?_variables_mutableChanges (h : candidate.Sorted)
    (hvariables : candidate.get? "variables" = some (.obj entries)) :
    (mutableChanges (.shipped .template) candidate).get? "variables" = some (.obj entries) := by
  have hmutable : ∀ f ∈ (Descriptor.shipped .template).immutableFields, f.name ≠ "variables" := by
    decide
  exact (sorted_mutableChanges h).get?_eq_some_iff.mpr
    (mem_mutableChanges.mpr ⟨Fields.mem_of_get? hvariables, hmutable⟩)

theorem Registry.wellFormed_mutableChanges {d : Descriptor} (h : (Json.obj candidate).WellFormed) :
    (Json.obj (mutableChanges d candidate)).WellFormed :=
  .obj (sorted_mutableChanges h.sorted) fun entry hentry =>
    h.of_mem entry (mem_mutableChanges.mp hentry).1

end Reports

/-- A template or a patch of one with an entry of the variables that names no type is refused,
and its entries are reported under their dotted names exactly if the keys of those that name no
type are neither empty nor have a character to escape. -/
theorem Registry.reportsEntries_iff_simple {candidate entries : Fields}
    (h : (Json.obj candidate).WellFormed)
    (hvariables : candidate.get? "variables" = some (.obj entries))
    (hbad : ∃ entry ∈ entries, entry.2.NoType) :
    (∀ fresh now, ∃ vs,
      builtin.validate .template (.obj candidate) fresh now = .error (.fields .template vs) ∧
        (ReportsEntries entries vs ↔
          ∀ entry ∈ entries, entry.2.NoType → SimpleKey entry.1)) ∧
    ∀ r now, r.kind = .template → ∃ vs,
      builtin.validateUpdate r (.obj candidate) now = .error (.fields .template vs) ∧
        (ReportsEntries entries vs ↔
          ∀ entry ∈ entries, entry.2.NoType → SimpleKey entry.1) := by
  obtain ⟨entry, hentry, hno⟩ := hbad
  have hsorted : candidate.Sorted := by
    cases h with
    | obj sorted _ => exact sorted
  have hreport : ∀ vs, Covers entries (Violation.report vs) → vs ≠ [] := by
    rintro vs hcovers rfl
    cases hcovers.mem _ (fault_value hentry hno)
  refine ⟨fun fresh now => ?_, fun r now hkind => ?_⟩
  · have hcovers := covers_create h hvariables
    exact ⟨_, (validate_eq fresh now).trans (if_neg (hreport _ hcovers)),
      hcovers.reportsEntries_iff⟩
  · have hchanged := get?_variables_mutableChanges hsorted hvariables
    have hcovers := covers_update (wellFormed_mutableChanges h) hchanged
    have hsome : mutableChanges (.shipped r.kind) candidate ≠ [] := by
      rw [hkind]
      exact List.ne_nil_of_mem (Fields.mem_of_get? hchanged)
    refine ⟨_, ?_, hcovers.reportsEntries_iff⟩
    rw [validateUpdate_eq hsome, hkind, if_neg (hreport _ hcovers)]
    rfl

/-- A number and a text that is no type are reported under the dotted names of their entries. -/
theorem Registry.reportsEntries_sample :
    let entries : Fields := [("count", Json.int 5), ("first_name", .str "text")]
    let candidate : Fields := [("name", .str "welcome"), ("variables", .obj entries)]
    (Json.obj candidate).WellFormed ∧ candidate.get? "variables" = some (.obj entries) ∧
      (∃ entry ∈ entries, entry.2.NoType) ∧
      (∃ vs, builtin.validate .template (.obj candidate) .sample ⟨0, 0⟩ =
          .error (.fields .template vs) ∧
        ⟨"variables.count", .wrongType "string"⟩ ∈ vs ∧
        ⟨"variables.first_name", .invalidValue FieldSpec.templateVariables.values⟩ ∈ vs) ∧
      ∃ vs, builtin.validateUpdate (.ofCandidate .template candidate .sample ⟨0, 0⟩)
          (.obj candidate) ⟨0, 0⟩ = .error (.fields .template vs) ∧
        ReportsEntries entries vs := by
  intro entries candidate
  have hentries : (Json.obj entries).WellFormed := by
    refine .obj (by decide) fun entry hentry => ?_
    rcases List.mem_pair.mp hentry with rfl | rfl
    · exact .num _
    · exact .str _
  have hcandidate : (Json.obj candidate).WellFormed := by
    refine .obj (by decide) fun entry hentry => ?_
    rcases List.mem_pair.mp hentry with rfl | rfl
    · exact .str _
    · exact hentries
  have hbad : ∃ entry ∈ entries, entry.2.NoType := ⟨_, List.mem_cons_self, by decide⟩
  have hsimple : ∀ entry ∈ entries, entry.2.NoType → SimpleKey entry.1 := by
    intro entry hentry _
    rcases List.mem_pair.mp hentry with rfl | rfl
    · exact ⟨by decide, by simp⟩
    · exact ⟨by decide, by simp⟩
  obtain ⟨hcreate, hupdate⟩ := reportsEntries_iff_simple hcandidate rfl hbad
  obtain ⟨vs, hvs, hreports⟩ := hcreate .sample ⟨0, 0⟩
  obtain ⟨vs', hvs', hreports'⟩ :=
    hupdate (.ofCandidate .template candidate .sample ⟨0, 0⟩) ⟨0, 0⟩ rfl
  have hall := hreports.mpr hsimple
  exact ⟨hcandidate, rfl, hbad, ⟨vs, hvs, hall.type _ List.mem_cons_self rfl,
    hall.value ("first_name", .str "text") (by simp [entries]) (by decide)⟩, vs', hvs',
    hreports'.mpr hsimple⟩

/-- Entries with an empty key and with a slash in their key are not reported under their dotted
names, but one as if the variables were no object and one under an escaped name. -/
theorem Registry.not_reportsEntries_slash :
    let entries : Fields := [("", Json.int 5), ("a/b", Json.int 5)]
    let candidate : Fields := [("name", .str "welcome"), ("variables", .obj entries)]
    let types := FieldSpec.templateVariables.values
    let vs : List Violation :=
      [⟨"variables", .invalidValue types⟩, ⟨"variables", .wrongType "object"⟩,
        ⟨"variables.a~1b", .invalidValue types⟩, ⟨"variables.a~1b", .wrongType "string"⟩]
    builtin.validate .template (.obj candidate) .sample ⟨0, 0⟩ = .error (.fields .template vs) ∧
      (∃ entry ∈ entries, entry.2.NoType) ∧ ¬ ReportsEntries entries vs := by
  intro entries candidate types vs
  refine ⟨by decide +kernel, ⟨_, List.mem_cons_self, by decide⟩, fun hreports => ?_⟩
  exact hreports.field _ List.mem_cons_self rfl

end Phrasebook
