import Phrasebook.Proofs.Verdicts

/-!
# Patches and new candidates

A patch of the record of an accepted candidate is judged as the candidate overridden by the
patch would be: both are refused for the same violations, or both give the same fields. So
however often a validated record has been patched, its fields are those of a candidate that
is accepted.

## Main definitions

* `Descriptor.Declares`: fields are those of a record of a kind
* `Record.Valid`: the fields of a record meet the definition of its kind
* `Record.Patched`: a record results from another by patches that are accepted
-/
namespace Phrasebook

/-! ## Overriding -/

namespace Fields

variable {fields changes : Fields} {α : Type} {g : String × Json → List α}

/-- Overriding one change after another gives what overriding both at once does. -/
theorem override_override {more : Fields} (hfields : fields.Sorted) (hchanges : changes.Sorted)
    (hmore : more.Sorted) :
    (fields.override changes).override more = fields.override (changes.override more) := by
  refine hfields.override.override.ext hfields.override fun name => ?_
  rw [get?_override hmore, get?_override hchanges, get?_override hchanges.override,
    get?_override hmore, Option.or_assoc]

/-- What the entries of overridden fields contribute comes from the changes, where the
fields contributed nothing. -/
theorem flatMap_override (hfields : fields.Sorted) (hchanges : changes.Sorted)
    (h : fields.flatMap g = []) : (fields.override changes).flatMap g = changes.flatMap g := by
  have hkept : (fields.override changes).filter (fun entry => changes.has entry.1) = changes := by
    refine (hfields.override.filter _).ext hchanges fun name => ?_
    rw [get?_filter, get?_override hchanges, has]
    cases changes.get? name <;> rfl
  have hdropped : ∀ l : Fields, (∀ entry ∈ l, changes.has entry.1 = false → g entry = []) →
      (l.filter fun entry => changes.has entry.1).flatMap g = l.flatMap g := by
    intro l hl
    induction l with
    | nil => rfl
    | cons entry rest ih =>
      obtain ⟨hentry, hrest⟩ := List.forall_mem_cons.mp hl
      rw [List.flatMap_cons, List.filter_cons]
      split
      · rw [List.flatMap_cons, ih hrest]
      · next hnot => rw [ih hrest, hentry (Bool.not_eq_true _ ▸ hnot), List.nil_append]
  rw [← hdropped (fields.override changes), hkept]
  intro entry hmem hnot
  rcases mem_override hmem with hmem | hmem
  · have hhas : changes.has entry.1 = true := has_iff.mpr ⟨entry.2, hmem⟩
    simp [hhas] at hnot
  · exact List.flatMap_eq_nil_iff.mp h entry hmem

end Fields

namespace Descriptor

variable {kind : RecordKind} {candidate changes : Fields}

/-! ## Violations -/

/-- An accepted candidate overridden by changes has the violations of the changes. -/
theorem violations_override (hcandidate : candidate.Sorted) (hchanges : changes.Sorted)
    (h : (shipped kind).violations .create candidate = []) :
    (shipped kind).violations .create (candidate.override changes) =
      (shipped kind).violations .update changes := by
  obtain ⟨hvalues, hunknown⟩ :=
    List.append_eq_nil_iff.mp (List.append_eq_nil_iff.mp h).1
  have hgiven : (shipped kind).missingViolations .create (candidate.override changes) = [] := by
    refine List.filterMap_eq_nil_iff.mpr fun f hf => if_pos ?_
    obtain ⟨hfield, hrequired⟩ := List.mem_filter.mp hf
    obtain ⟨value, hvalue⟩ := has_of_required h hfield hrequired
    rw [Fields.has, Fields.get?_override hchanges, hvalue, Option.isSome_or, Option.isSome_some,
      Bool.or_true]
  have hunknown' : (shipped kind).unknownViolations (candidate.override changes) =
      (shipped kind).unknownViolations changes := by
    rw [unknownViolations, List.filterMap_eq_flatMap_toList] at hunknown
    rw [unknownViolations, List.filterMap_eq_flatMap_toList,
      Fields.flatMap_override hcandidate hchanges hunknown, ← List.filterMap_eq_flatMap_toList]
    rfl
  rw [violations, violations, hgiven, hunknown', valueViolations,
    Fields.flatMap_override hcandidate hchanges hvalues]
  rfl

/-- Changes that give no name of the key or a time leave what a candidate gives for it. -/
theorem getStr?_override {name : String} (hchanges : changes.Sorted)
    (h : changes.get? name = none) :
    (candidate.override changes).getStr? name = candidate.getStr? name := by
  rw [Fields.getStr?, Fields.getStr?, Fields.get?_override hchanges, h, Option.none_or]

/-- An accepted candidate overridden by changes is judged by the changes, unless they give
the key or a time. -/
theorem candidateViolations_override (hcandidate : candidate.Sorted) (hchanges : changes.Sorted)
    (hidentity : ∀ name, isIdentityField name = true → changes.get? name = none)
    (h : (shipped kind).candidateViolations candidate = []) :
    (shipped kind).candidateViolations (candidate.override changes) =
      (shipped kind).violations .update changes := by
  obtain ⟨hviolations, hid, hcreated, hupdated⟩ := candidateViolations_eq_nil_iff.mp h
  have hsameId : givenId? (candidate.override changes) = givenId? candidate :=
    congrArg (Option.map _) (getStr?_override hchanges (hidentity idField rfl))
  have hsameTime : ∀ field, isIdentityField field = true →
      givenInstant? (candidate.override changes) field = givenInstant? candidate field :=
    fun field hfield => congrArg (Option.map _) (getStr?_override hchanges (hidentity field hfield))
  rw [candidateViolations, hsameId, hsameTime createdField rfl, hsameTime updatedField rfl,
    addIfBad_of_good hupdated, addIfBad_of_good hcreated, addIfBad_of_good hid,
    violations_override hcandidate hchanges hviolations]

/-! ## Fields -/

/-- The fields are declared, and neither the key nor a time. -/
def Declares (d : Descriptor) (fields : Fields) : Prop :=
  ∀ name value, fields.get? name = some value →
    isIdentityField name = false ∧ ∃ f ∈ d.fields, f.name = name

theorem Declares.get?_identity {d : Descriptor} {fields : Fields} (h : d.Declares fields)
    (name : String) (hname : isIdentityField name = true) : fields.get? name = none := by
  cases hget : fields.get? name with
  | none => rfl
  | some value => simp [(h name value hget).1] at hname

/-- The fields of a new record, overridden by changes to declared fields, are those of the
record of the overridden candidate. -/
theorem initialFields_override (candidate : Fields) (hchanges : changes.Sorted)
    (hdeclared : (shipped kind).Declares changes) :
    (shipped kind).initialFields (candidate.override changes) =
      ((shipped kind).initialFields candidate).override changes := by
  refine sorted_initialFields.ext sorted_initialFields.override fun name => ?_
  rw [Fields.get?_override hchanges, get?_initialFields (nodup_shipped kind),
    get?_initialFields (nodup_shipped kind)]
  cases hchange : changes.get? name with
  | some value =>
    obtain ⟨hidentity, f, hf, rfl⟩ := hdeclared name value hchange
    rw [hidentity, field?_shipped hf]
    simp [initialValue?, Fields.get?_override hchanges, hchange]
  | none =>
    rw [Option.none_or]
    refine if_congr Iff.rfl rfl ?_
    cases hf : (shipped kind).field? name with
    | none => rfl
    | some f =>
      obtain ⟨-, rfl⟩ := mem_of_field? hf
      simp [initialValue?, Fields.get?_override hchanges, hchange]

/-- Every default meets the demands of its field. -/
theorem accepts_default (kind : RecordKind) : ∀ f ∈ (shipped kind).fields, ∀ value,
    f.default = some value → f.Accepts (shipped kind) value := by
  have hall : ∀ f ∈ (shipped kind).fields,
      f.default.all fun value => f.violations (shipped kind) value = [] := by
    cases kind <;> decide
  intro f hf value hvalue
  have haccepts := hall f hf
  rw [hvalue, Option.all_some, decide_eq_true_eq] at haccepts
  exact haccepts

/-- The fields of a new record would be accepted as changes. -/
theorem violations_initialFields (h : (shipped kind).violations .create candidate = []) :
    (shipped kind).violations .update ((shipped kind).initialFields candidate) = [] := by
  refine violations_eq_nil_iff.mpr ⟨fun name value hmem => ?_, nofun⟩
  have hget := sorted_initialFields.get?_eq_some_iff.mpr hmem
  rw [get?_initialFields (nodup_shipped kind)] at hget
  split at hget
  · cases hget
  · obtain ⟨f, hf, hvalue⟩ := Option.bind_eq_some_iff.mp hget
    refine ⟨f, hf, ?_⟩
    obtain ⟨hfield, rfl⟩ := mem_of_field? hf
    unfold initialValue? at hvalue
    split at hvalue
    · next given hgiven => exact Option.some.inj hvalue ▸ accepts_of_get? h hf hgiven
    · exact accepts_default kind f hfield value hvalue

/-- The fields of a new record are declared ones, the key and the times apart. -/
theorem declares_initialFields (kind : RecordKind) (candidate : Fields) :
    (shipped kind).Declares ((shipped kind).initialFields candidate) := by
  intro name value h
  rw [get?_initialFields (nodup_shipped kind)] at h
  split at h
  · cases h
  · next hidentity =>
    obtain ⟨f, hf, -⟩ := Option.bind_eq_some_iff.mp h
    exact ⟨Bool.not_eq_true _ ▸ hidentity, f, mem_of_field? hf⟩

/-- Changes without violations are changes of declared fields. -/
theorem declares_changes
    (hidentity : ∀ name, isIdentityField name = true → changes.get? name = none)
    (h : (shipped kind).violations .update changes = []) : (shipped kind).Declares changes := by
  intro name value hget
  obtain ⟨f, hf, -⟩ := accepts_of_mem h (Fields.mem_of_get? hget)
  refine ⟨?_, f, mem_of_field? hf⟩
  rw [← Bool.not_eq_true]
  intro htrue
  rw [hidentity name htrue] at hget
  cases hget

end Descriptor

/-! ## Patches -/

namespace Registry

variable {kind : RecordKind} {x patch : Fields}

theorem validateUpdate_eq {existing : Record} {now : Instant}
    (h : mutableChanges (.shipped existing.kind) patch ≠ []) :
    builtin.validateUpdate existing (.obj patch) now =
      if (Descriptor.shipped existing.kind).violations .update
          (mutableChanges (.shipped existing.kind) patch) = [] then
        .ok { existing with
          fields := existing.fields.override (mutableChanges (.shipped existing.kind) patch)
          updated := now.max existing.created }
      else .error (refuse existing.kind ((Descriptor.shipped existing.kind).violations .update
        (mutableChanges (.shipped existing.kind) patch))) := by
  simp [validateUpdate, ruling, get?_builtin, mapping, bind, Except.bind, h]

theorem validate_eq (fresh : Uuid) (now : Instant) :
    builtin.validate kind (.obj x) fresh now =
      if (Descriptor.shipped kind).candidateViolations x = [] then
        .ok (.ofCandidate kind x fresh now)
      else .error (refuse kind ((Descriptor.shipped kind).candidateViolations x)) := by
  simp only [validate, ruling, get?_builtin, mapping, bind, Except.bind, List.isEmpty_iff]
  rfl

end Registry

/-- The fields of a record meet the definition of its kind. -/
structure Record.Valid (r : Record) : Prop where
  /-- Required fields have a value. -/
  required : ∀ f ∈ (Descriptor.shipped r.kind).fields, isIdentityField f.name = false →
    f.required = true → ∃ value, r.fields.get? f.name = some value
  /-- What has a value is declared, and neither the key nor a time. -/
  declared : ∀ name value, r.fields.get? name = some value →
    isIdentityField name = false ∧ ∃ f ∈ (Descriptor.shipped r.kind).fields, f.name = name
  /-- Each value meets the demands of its field. -/
  values : ∀ f ∈ (Descriptor.shipped r.kind).fields, ∀ value,
    r.fields.get? f.name = some value → f.Fits value

/-- A record results from `r` by patches that are accepted. -/
inductive Record.Patched (r : Record) : Record → Prop
  | refl : Patched r r
  | patch {u u' : Record} {patch : Fields} {now : Instant} (h : Patched r u)
    (sorted : patch.Sorted)
    (accepted : Registry.builtin.validateUpdate u (.obj patch) now = .ok u') : Patched r u'

/-- The fields of `u` are those of the candidate `x` overridden by them, which is accepted. -/
structure Record.Recreated (x : Fields) (u : Record) : Prop where
  sorted : u.fields.Sorted
  declared : (Descriptor.shipped u.kind).Declares u.fields
  accepted : (Descriptor.shipped u.kind).candidateViolations (x.override u.fields) = []
  fields_eq : (Descriptor.shipped u.kind).initialFields (x.override u.fields) = u.fields

namespace Record

variable {kind : RecordKind} {x patch : Fields} {fresh : Uuid} {t now : Instant} {r u u' : Record}

/-- The record of an accepted candidate. -/
theorem recreated_ofCandidate (hx : x.Sorted)
    (h : (Descriptor.shipped kind).candidateViolations x = []) :
    Recreated x (ofCandidate kind x fresh t) := by
  have hviolations := (Descriptor.candidateViolations_eq_nil_iff.mp h).1
  have hsorted : ((Descriptor.shipped kind).initialFields x).Sorted :=
    Descriptor.sorted_initialFields
  have hdeclared := Descriptor.declares_initialFields kind x
  refine ⟨hsorted, hdeclared, ?_, ?_⟩
  · exact (Descriptor.candidateViolations_override hx hsorted hdeclared.get?_identity h).trans
      (Descriptor.violations_initialFields hviolations)
  · refine (Descriptor.initialFields_override x hsorted hdeclared).trans ?_
    refine hsorted.override.ext hsorted fun name => ?_
    rw [Fields.get?_override hsorted, Option.or_self]
    rfl

/-- A patch that is accepted keeps what has been patched the record of a candidate. -/
theorem Recreated.patched (hx : x.Sorted) (hpatch : patch.Sorted) (h : Recreated x u)
    (hu : Registry.builtin.validateUpdate u (.obj patch) now = .ok u') : Recreated x u' := by
  obtain ⟨_, heq, hviolations, rfl⟩ := Registry.validateUpdate_ok hu
  cases heq
  have hchanges := Registry.sorted_mutableChanges (d := .shipped u.kind) hpatch
  have hidentity := Registry.get?_mutableChanges u.kind patch
  have hdeclared := Descriptor.declares_changes hidentity hviolations
  have hoverride := Fields.override_override hx h.sorted hchanges
  refine ⟨h.sorted.override, fun name value hget => ?_, ?_, ?_⟩
  · rw [Fields.get?_override hchanges] at hget
    cases hchange : (Registry.mutableChanges (.shipped u.kind) patch).get? name with
    | some new => exact hdeclared name new hchange
    | none =>
      rw [hchange, Option.none_or] at hget
      exact h.declared name value hget
  · rw [← hoverride]
    exact (Descriptor.candidateViolations_override hx.override hchanges hidentity h.accepted).trans
      hviolations
  · rw [← hoverride]
    refine (Descriptor.initialFields_override _ hchanges hdeclared).trans ?_
    rw [h.fields_eq]

/-- Fields that an accepted candidate gives meet the definition of their kind. -/
theorem Recreated.valid (hx : x.Sorted) (h : Recreated x u) : u.Valid := by
  have hfits := (Descriptor.fits_iff hx.override).mpr h.accepted
  refine ⟨fun f hf hidentity hrequired => ?_, h.declared, fun f hf value hget => ?_⟩
  · obtain ⟨value, hvalue⟩ := hfits.required f hf hrequired
    refine ⟨value, ?_⟩
    rw [← h.fields_eq, Descriptor.get?_initialFields (Descriptor.nodup_shipped _), hidentity,
      Descriptor.field?_shipped hf]
    simp [Descriptor.initialValue?, hvalue]
  · refine hfits.values f hf value ?_
    rw [Fields.get?_override h.sorted, hget, Option.some_or]

/-- Overriding a candidate by anything but its times keeps when its record is created. -/
theorem created_ofCandidate_override {again : Uuid} {changes : Fields} (hchanges : changes.Sorted)
    (h : changes.get? createdField = none) :
    (ofCandidate kind (x.override changes) again t).created =
      (ofCandidate kind x fresh t).created :=
  congrArg (fun given : Option String =>
      (Descriptor.wellFormed? (given.map Instant.parse)).getD t)
    (Descriptor.getStr?_override hchanges h)

/-- What patches keep, and what they make of the record of an accepted candidate. -/
theorem Patched.recreated (hx : x.Sorted) (h : Patched r u) (hr : Recreated x r) :
    u.kind = r.kind ∧ u.id = r.id ∧ u.created = r.created ∧ Recreated x u := by
  induction h with
  | refl => exact ⟨rfl, rfl, rfl, hr⟩
  | patch _ sorted accepted ih =>
    obtain ⟨hkind, hid, hcreated, hrecreated⟩ := ih
    have hpatched := hrecreated.patched hx sorted accepted
    obtain ⟨_, -, -, rfl⟩ := Registry.validateUpdate_ok accepted
    exact ⟨hkind, hid, hcreated, hpatched⟩

end Record

/-- A patch of the record of an accepted candidate is judged as the candidate overridden by
the patch, and so is every further patch: what patches make of the record has fields that
meet the definition of its kind. -/
theorem Registry.validateUpdate_recreates {kind : RecordKind} {x : Fields} {fresh : Uuid}
    {t : Instant} {r : Record} (hx : x.Sorted)
    (hr : builtin.validate kind (.obj x) fresh t = .ok r) :
    (∀ (patch : Fields) (now : Instant) (again : Uuid), patch.Sorted →
      mutableChanges (.shipped kind) patch ≠ [] →
      (∃ vs, builtin.validateUpdate r (.obj patch) now = .error (.fields kind vs) ∧
        builtin.validate kind (.obj (x.override (mutableChanges (.shipped kind) patch))) again t =
          .error (.fields kind vs)) ∨
      ∃ u c, builtin.validateUpdate r (.obj patch) now = .ok u ∧
        builtin.validate kind (.obj (x.override (mutableChanges (.shipped kind) patch))) again t =
          .ok c ∧
        u.kind = c.kind ∧ u.created = c.created ∧ u.fields = c.fields ∧ u.id = r.id) ∧
    ∀ (u : Record) (again : Uuid), r.Patched u → u.Valid ∧ u.id = r.id ∧
      ∃ c, builtin.validate kind (.obj (x.override u.fields)) again t = .ok c ∧
        u.kind = c.kind ∧ u.created = c.created ∧ u.fields = c.fields := by
  obtain ⟨_, hinput, hnil, rfl⟩ := validate_eq_ok_iff.mp hr
  cases hinput
  refine ⟨fun patch now again hpatch hsome => ?_, fun u again hu => ?_⟩
  · have hchanges := sorted_mutableChanges (d := .shipped kind) hpatch
    have hidentity := get?_mutableChanges kind patch
    have hjudged := Descriptor.candidateViolations_override hx hchanges hidentity hnil
    rw [validateUpdate_eq hsome, validate_eq, hjudged]
    by_cases hviolations : (Descriptor.shipped kind).violations .update
        (mutableChanges (.shipped kind) patch) = []
    · have hfields := Descriptor.initialFields_override x hchanges
        (Descriptor.declares_changes hidentity hviolations)
      have hcreated :
          (Record.ofCandidate kind (x.override (mutableChanges (.shipped kind) patch)) again
            t).created = (Record.ofCandidate kind x fresh t).created :=
        Record.created_ofCandidate_override hchanges (hidentity createdField rfl)
      exact .inr ⟨_, _, if_pos hviolations, if_pos hviolations, rfl, hcreated.symm,
        hfields.symm, rfl⟩
    · exact .inl ⟨_, if_neg hviolations, if_neg hviolations⟩
  · obtain ⟨hkind, hid, hcreated, hrecreated⟩ :=
      hu.recreated hx (Record.recreated_ofCandidate hx hnil)
    obtain rfl : u.kind = kind := hkind
    have hsame : (Record.ofCandidate u.kind (x.override u.fields) again t).created =
        (Record.ofCandidate u.kind x fresh t).created :=
      Record.created_ofCandidate_override hrecreated.sorted
        (hrecreated.declared.get?_identity createdField rfl)
    exact ⟨hrecreated.valid hx, hid, _, (validate_eq again t).trans (if_pos hrecreated.accepted),
      rfl, hcreated.trans hsame.symm, hrecreated.fields_eq.symm⟩

/-- A patch renames the sample of a locale, and leaves its key alone. -/
theorem Registry.validateUpdate_renames :
    (Descriptor.sample .locale).Sorted ∧
      ∃ r, builtin.validate .locale (.obj (Descriptor.sample .locale)) .sample ⟨0, 0⟩ = .ok r ∧
        ∃ u c, builtin.validateUpdate r
            (.obj [("_id", .str "de-DE"), ("name", .str "Deutsch")]) ⟨1, 0⟩ = .ok u ∧
          builtin.validate .locale (.obj ((Descriptor.sample .locale).override
            [("name", .str "Deutsch")])) .sample ⟨0, 0⟩ = .ok c ∧
          u.fields = c.fields ∧ u.id = r.id ∧ u.Valid := by
  have hsorted : (Descriptor.sample .locale).Sorted := by decide
  have hr := (validate_eq .sample ⟨0, 0⟩).trans (if_pos (Descriptor.sample_accepted .locale))
  have hpatch : Fields.Sorted [("_id", .str "de-DE"), ("name", .str "Deutsch")] := by decide
  obtain ⟨hjudged, hpatched⟩ := validateUpdate_recreates hsorted hr
  rcases hjudged _ ⟨1, 0⟩ .sample hpatch (by decide) with
    ⟨vs, -, hrefused⟩ | ⟨u, c, hu, hc, -, -, hfields, hid⟩
  · rw [validate_eq, if_pos (by decide +kernel)] at hrefused
    cases hrefused
  · exact ⟨hsorted, _, hr, u, c, hu, hc, hfields, hid,
      (hpatched u .sample (.patch .refl hpatch hu)).1⟩

end Phrasebook
