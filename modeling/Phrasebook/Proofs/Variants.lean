import Phrasebook.Proofs.Runs

/-!
# Variants and their templates

A variant refers to its template by a text, and several texts spell one key. The
store looks a template up by the key and compares variants by their texts.

## Main definitions

* `Operation.Spelled`: created variants spell their templates in given ways
* `Database.TemplatesStored`: every variant names a stored template
* `Database.VariantsUnique`: a template has one variant a locale
-/
namespace Phrasebook

/-! ## Fields that never change -/

/-- A field whose column holds the text itself. -/
def FieldSpec.Textual (f : FieldSpec) : Prop := f.type ≠ .object ∧ f.type ≠ .boolean

instance (f : FieldSpec) : Decidable f.Textual := inferInstanceAs (Decidable (_ ∧ _))

theorem FieldSpec.toColumn_str {f : FieldSpec} (h : f.Textual) (s : String) :
    f.toColumn (some (.str s)) = some s := by
  simp [toColumn, h.1]

theorem FieldSpec.Textual.read? {f : FieldSpec} (h : f.Textual) (row : Row) :
    f.read? row = (Row.cell row f.name).map .str := by
  have hvalue : ∀ text, f.fromColumn text = .ok (.str text) := by
    intro text
    unfold fromColumn
    split
    · next heq => exact absurd heq h.1
    · next heq => exact absurd heq h.2
    · rfl
  cases hcell : Row.cell row f.name <;> simp [FieldSpec.read?, hcell, hvalue, Except.toOption]

/-- A field whose column holds the text itself is read as the text of its cell. -/
theorem Record.getStr?_ofRow {kind : RecordKind} {row : Row} {r : Record} {f : FieldSpec}
    (hf : f ∈ (Descriptor.shipped kind).fields) (hidentity : isIdentityField f.name = false)
    (htextual : f.Textual) (hreads : (Descriptor.shipped kind).ofRow row = .ok r) :
    r.getStr? f.name = Row.cell row f.name := by
  have hget : r.fields.get? f.name = (Row.cell row f.name).map .str := by
    rw [Descriptor.get?_ofRow hreads, hidentity, Descriptor.field?_shipped hf]
    exact htextual.read? row
  rw [Record.getStr?, Fields.getStr?, hget]
  cases Row.cell row f.name <;> rfl

/-- A record that an update is not refused for has the texts of immutable fields that the
row it has been compared with has. -/
theorem Record.toColumn_unchanged {r existing : Record} {row : Row} {f : FieldSpec}
    (hf : f ∈ (Descriptor.shipped r.kind).fields)
    (himmutable : f.immutable = true) (hidentity : isIdentityField f.name = false)
    (htextual : f.Textual) (hreads : (Descriptor.shipped r.kind).ofRow row = .ok existing)
    (hunchanged : Store.changedImmutable? (Descriptor.shipped r.kind) existing r = none) :
    f.toColumn (r.get? f.name) = Row.cell row f.name := by
  have hsame : Store.sameField existing r f.name = true := by
    have hmem : f ∈ (Descriptor.shipped r.kind).immutableFields.filter fun g =>
        g.name != updatedField := by
      have hname : f.name ≠ updatedField := by
        rintro heq
        simp [heq, isIdentityField] at hidentity
      simp [Descriptor.immutableFields, hf, himmutable, hname]
    simpa using List.find?_eq_none.mp hunchanged f hmem
  have hstored : existing.fields.get? f.name = (Row.cell row f.name).map .str := by
    rw [Descriptor.get?_ofRow hreads, hidentity, Descriptor.field?_shipped hf]
    exact htextual.read? row
  rw [Store.sameField, Record.get?_eq_fields hidentity, Record.get?_eq_fields hidentity,
    hstored] at hsame
  rw [Record.get?_eq_fields hidentity]
  cases hold : Row.cell row f.name with
  | none =>
    cases hnew : r.fields.get? f.name with
    | none => rfl
    | some value => simp [hold, hnew] at hsame
  | some text =>
    cases hnew : r.fields.get? f.name with
    | none => simp [hold, hnew] at hsame
    | some value =>
      cases value with
      | str s =>
        have heq : text = s := by simpa [hold, hnew, Json.same] using hsame
        rw [FieldSpec.toColumn_str htextual, heq]
      | _ => simp [hold, hnew, Json.same] at hsame

/-- An update that is not refused keeps the texts of immutable fields. -/
theorem Record.cell_revised {r stored existing : Record} {f : FieldSpec}
    (hf : f ∈ (Descriptor.shipped r.kind).fields)
    (himmutable : f.immutable = true) (hidentity : isIdentityField f.name = false)
    (htextual : f.Textual) (hreads : (Descriptor.shipped r.kind).ofRow stored.row = .ok existing)
    (hunchanged : Store.changedImmutable? (Descriptor.shipped r.kind) existing r = none) :
    Row.cell (r.revised stored).row f.name = Row.cell stored.row f.name := by
  rw [Record.cell_row (r := r.revised stored) hf,
    ← toColumn_unchanged hf himmutable hidentity htextual hreads hunchanged,
    Record.get?_eq_fields hidentity, Record.get?_eq_fields hidentity]
  rfl

/-! ## Variants -/

/-- The key of the template that a row names. -/
def Row.template? (row : Row) : Option RecordId :=
  (Row.cell row "template").bind fun text => (RecordId.parse text).toOption

namespace Database

/-- Every variant names a stored template. -/
def TemplatesStored (db : Database) : Prop :=
  ∀ kind ∈ RecordKind.variants, ∀ row ∈ db.records kind, ∃ id, Row.template? row = some id ∧
    ∃ parent ∈ db.records .template, Row.cell parent idField = some id.text

/-- No variant names the template of a key. -/
def NoVariantOf (db : Database) (id : RecordId) : Prop :=
  ∀ kind ∈ RecordKind.variants, ∀ row ∈ db.records kind, Row.template? row ≠ some id

/-- No two variants of a kind are in the same locale and of the same template. -/
def VariantsUnique (db : Database) : Prop :=
  ∀ kind ∈ RecordKind.variants, (db.records kind).Pairwise fun a b =>
    ¬ ∃ id, Row.template? a = some id ∧ Row.template? b = some id ∧
      Row.cell a "locale" = Row.cell b "locale"

end Database

/-- Every created variant spells its template in one of the given ways. -/
def Operation.Spelled (spelling : String → Prop) : Operation → Prop
  | create r _ _ => ∀ text, r.getStr? "template" = some text → spelling text
  | _ => True

variable {kind : RecordKind} {r : Record}

theorem parentTemplate_mem (h : kind ∈ RecordKind.variants) :
    FieldSpec.parentTemplate ∈ (Descriptor.shipped kind).fields := by
  cases kind <;>
    simp_all [RecordKind.variants, Descriptor.shipped, Descriptor.email, Descriptor.sms]

theorem variantLocale_mem (h : kind ∈ RecordKind.variants) :
    FieldSpec.variantLocale ∈ (Descriptor.shipped kind).fields := by
  cases kind <;>
    simp_all [RecordKind.variants, Descriptor.shipped, Descriptor.email, Descriptor.sms]

/-- A validated variant names its template by the text of a UUID. -/
theorem template_of_validate {input : Json} {fresh : Uuid} {now : Instant}
    (hkind : kind ∈ RecordKind.variants)
    (h : Registry.builtin.validate kind input fresh now = .ok r) :
    (∃ text, r.getStr? "template" = some text ∧ Row.cell r.row "template" = some text ∧
      Format.isUuid text = true) ∧ (Row.cell r.row "locale").isSome = true := by
  obtain ⟨candidate, -, hviolations, rfl⟩ := Registry.validate_eq_ok_iff.mp h
  obtain ⟨hnone, -⟩ := Descriptor.candidateViolations_eq_nil_iff.mp hviolations
  refine ⟨?_, Record.isSome_cell_ofCandidate hnone (variantLocale_mem hkind)⟩
  have hmem := parentTemplate_mem hkind
  obtain ⟨text, hvalue⟩ := Descriptor.exists_text_of_required hnone hmem rfl (.inr rfl)
  have haccepts := Descriptor.accepts_of_get? hnone (Descriptor.field?_shipped hmem) hvalue
  have hidentity : isIdentityField FieldSpec.parentTemplate.name = false := by decide
  have hget : (Record.ofCandidate kind candidate fresh now).fields.get? "template" =
      some (.str text) := by
    refine (Record.get?_ofCandidate hmem hidentity).trans ?_
    rw [Descriptor.initialValue?, hvalue]
  refine ⟨text, by simp [Record.getStr?, Fields.getStr?, hget], ?_, haccepts.isUuid rfl⟩
  refine (Record.cell_row (r := .ofCandidate kind candidate fresh now) hmem).trans ?_
  rw [Record.get?_eq_fields hidentity]
  exact (congrArg _ hget).trans (FieldSpec.toColumn_str (by decide) text)

/-! ## Templates of variants along a run -/

namespace Contents

/-- Every variant has a locale and names its template by a UUID, spelled in one of
the given ways. -/
def SpelledBy (contents : Contents) (spelling : String → Prop) : Prop :=
  ∀ kind ∈ RecordKind.variants, ∀ r ∈ contents kind,
    (∃ text, Row.cell r.row "template" = some text ∧ spelling text ∧ Format.isUuid text = true) ∧
      (Row.cell r.row "locale").isSome = true

/-- Every variant names its template by the text of its key. -/
def TemplatesKept (contents : Contents) : Prop :=
  ∀ kind ∈ RecordKind.variants, ∀ r ∈ contents kind, ∃ parent ∈ contents .template,
    Row.cell r.row "template" = some parent.id.text

end Contents

namespace Store.Step

variable {s s' : Store} {contents contents' : Contents} {op : Operation} {spelling : String → Prop}

/-- A record that is there after a step was there before with the same reference
fields, or has just been created. -/
theorem mem_cases (hstep : Step s contents op s' contents') (hholds : s.Holds contents)
    (hr : r ∈ contents' kind) :
    (∃ stored ∈ contents kind, r.id = stored.id ∧ ∀ f ∈ (Descriptor.shipped kind).fields,
      f.immutable = true → isIdentityField f.name = false → f.Textual →
      Row.cell r.row f.name = Row.cell stored.row f.name) ∨
    ∃ actor now, op = .create r actor now ∧ r.kind = kind ∧
      ∀ ref ∈ (Descriptor.shipped r.kind).referenceFields, ∀ raw, r.getStr? ref.1.name = some raw →
        ∃ parent ∈ contents ref.2, RecordId.parse raw = .ok parent.id := by
  cases hstep with
  | failed _ => exact .inl ⟨r, hr, rfl, fun _ _ _ _ _ => rfl⟩
  | deleted _ _ _ => exact .inl ⟨r, (List.mem_filter.mp hr).1, rfl, fun _ _ _ _ _ => rfl⟩
  | @created created actor now references _ =>
    by_cases hkind : kind = created.kind
    · subst hkind
      rw [Function.update_self] at hr
      rcases List.mem_append.mp hr with hr | hr
      · exact .inl ⟨r, hr, rfl, fun _ _ _ _ _ => rfl⟩
      · rw [List.mem_singleton.mp hr]
        exact .inr ⟨actor, now, rfl, rfl, references⟩
    · rw [Function.update_of_ne hkind] at hr
      exact .inl ⟨r, hr, rfl, fun _ _ _ _ _ => rfl⟩
  | @updated updated stored existing _ _ hmem hid hreads _ hunchanged =>
    by_cases hkind : kind = updated.kind
    · subst hkind
      rw [Function.update_self] at hr
      obtain ⟨old, hold, rfl⟩ := List.mem_map.mp hr
      refine .inl ⟨old, hold, Record.id_applied .., fun f hf himmutable hidentity htextual => ?_⟩
      unfold Record.applied
      split
      · next heq =>
        obtain rfl := hholds.database.eq_of_id hold hmem (heq.trans hid.symm)
        exact Record.cell_revised hf himmutable hidentity htextual hreads hunchanged
      · rfl
    · rw [Function.update_of_ne hkind] at hr
      exact .inl ⟨r, hr, rfl, fun _ _ _ _ _ => rfl⟩

/-- The template and the locale of a variant stay the same; the template of a new one is
stored. -/
theorem template_cases (hstep : Step s contents op s' contents') (hholds : s.Holds contents)
    (hkind : kind ∈ RecordKind.variants) (hr : r ∈ contents' kind) :
    (∃ stored ∈ contents kind, Row.cell r.row "template" = Row.cell stored.row "template" ∧
      Row.cell r.row "locale" = Row.cell stored.row "locale") ∨
    ∃ actor now, op = .create r actor now ∧ r.kind = kind ∧ ∀ raw,
      r.getStr? "template" = some raw →
        ∃ parent ∈ contents .template, RecordId.parse raw = .ok parent.id := by
  rcases hstep.mem_cases hholds hr with
    ⟨stored, hstored, -, hcells⟩ | ⟨actor, now, rfl, rfl, hrefs⟩
  · exact .inl ⟨stored, hstored,
      hcells _ (parentTemplate_mem hkind) rfl (by decide) (by decide),
      hcells _ (variantLocale_mem hkind) rfl (by decide) (by decide)⟩
  · have href : (FieldSpec.parentTemplate, RecordKind.template) ∈
        (Descriptor.shipped r.kind).referenceFields :=
      List.mem_filterMap.mpr ⟨_, parentTemplate_mem hkind, rfl⟩
    exact .inr ⟨actor, now, rfl, rfl, hrefs _ href⟩

/-- What validation says of the template of a created variant. -/
theorem template_of_created {actor : String} {now : Instant} (hkind : r.kind ∈ RecordKind.variants)
    (hop : (Operation.create r actor now).Validated ∧
      (Operation.create r actor now).Spelled spelling) :
    (∃ text, r.getStr? "template" = some text ∧ Row.cell r.row "template" = some text ∧
      spelling text ∧ Format.isUuid text = true) ∧ (Row.cell r.row "locale").isSome = true := by
  obtain ⟨⟨kind, input, fresh, time, hvalid⟩, hspelled⟩ := hop
  obtain ⟨candidate, -, -, hrecord⟩ := Registry.validate_eq_ok_iff.mp hvalid
  have hk : kind = r.kind := by rw [hrecord]; rfl
  subst hk
  obtain ⟨⟨text, hget, hcell, huuid⟩, hlocale⟩ := template_of_validate hkind hvalid
  exact ⟨⟨text, hget, hcell, hspelled text hget, huuid⟩, hlocale⟩

theorem spelledBy (hstep : Step s contents op s' contents') (hholds : s.Holds contents)
    (hop : op.Validated ∧ op.Spelled spelling) (h : contents.SpelledBy spelling) :
    contents'.SpelledBy spelling := by
  intro kind hkind r hr
  rcases hstep.template_cases hholds hkind hr with
    ⟨stored, hstored, htemplate, hlocale⟩ | ⟨actor, now, rfl, rfl, -⟩
  · rw [htemplate, hlocale]
    exact h kind hkind stored hstored
  · obtain ⟨⟨text, -, hcell, hspelled, huuid⟩, hlocale⟩ := template_of_created hkind hop
    exact ⟨⟨text, hcell, hspelled, huuid⟩, hlocale⟩

/-- A record that is there stays, or it is dropped by a deletion. -/
theorem kept (hstep : Step s contents op s' contents') {parent : Record}
    (hparent : parent ∈ contents kind) :
    (∃ parent' ∈ contents' kind, parent'.id = parent.id) ∨
      ∃ other id actor now n, op = .delete other id actor now ∧
        parent.leaves other id = true ∧ s.delete other id actor now = .ok (s', n) ∧
        contents' = contents.dropping (·.leaves other id) := by
  cases hstep with
  | failed _ => exact .inl ⟨parent, hparent, rfl⟩
  | @created created _ _ _ _ =>
    by_cases hkind : kind = created.kind
    · subst hkind
      rw [Function.update_self]
      exact .inl ⟨parent, List.mem_append_left _ hparent, rfl⟩
    · rw [Function.update_of_ne hkind]
      exact .inl ⟨parent, hparent, rfl⟩
  | @updated updated _ _ _ _ _ _ _ _ _ =>
    by_cases hkind : kind = updated.kind
    · subst hkind
      rw [Function.update_self]
      exact .inl ⟨updated.applied parent, List.mem_map_of_mem hparent, Record.id_applied ..⟩
    · rw [Function.update_of_ne hkind]
      exact .inl ⟨parent, hparent, rfl⟩
  | @deleted other stored _ n actor now _ hdelete _ =>
    cases hleaves : parent.leaves other stored.id with
    | true => exact .inr ⟨other, stored.id, actor, now, n, rfl, hleaves, hdelete, rfl⟩
    | false =>
      exact .inl ⟨parent, List.mem_filter.mpr ⟨hparent, by simp [hleaves]⟩, rfl⟩

/-- A template that is there stays, or it is deleted. -/
theorem template_kept (hstep : Step s contents op s' contents') (hholds : s.Holds contents)
    {parent : Record} (hparent : parent ∈ contents .template) :
    (∃ parent' ∈ contents' .template, parent'.id = parent.id) ∨
      contents' = contents.dropping (·.leaves .template parent.id) := by
  refine (hstep.kept hparent).imp_right ?_
  rintro ⟨other, id, actor, now, n, -, hleaves, -, hdropped⟩
  have htemplate := hholds.database.kind_eq _ parent hparent
  have hfree : ∀ ref ∈ Registry.builtin.referencing other, ref.1 ≠ parent.kind := by
    rw [htemplate]
    cases other <;> decide
  obtain ⟨hother, rfl⟩ := Record.eq_of_leaves hfree hleaves
  obtain rfl := hother.symm.trans htemplate
  exact hdropped

/-- Variants that name their templates by the texts of the keys keep them: creating
one looks its template up, and deleting a template takes them along. -/
theorem templatesKept (hstep : Step s contents op s' contents') (hholds : s.Holds contents)
    (hop : op.Validated ∧ op.Spelled spelling)
    (hcanonical : ∀ text, spelling text → Format.isUuid text = true → ∀ id,
      RecordId.parse text = .ok id → id.text = text)
    (h : contents.TemplatesKept) : contents'.TemplatesKept := by
  intro kind hkind r hr
  have hnamed : ∃ parent ∈ contents .template,
      Row.cell r.row "template" = some parent.id.text := by
    rcases hstep.template_cases hholds hkind hr with
      ⟨stored, hstored, hcell, -⟩ | ⟨actor, now, rfl, rfl, hrefs⟩
    · rw [hcell]
      exact h kind hkind stored hstored
    · obtain ⟨⟨text, hget, hcell, hspelled, huuid⟩, -⟩ := template_of_created hkind hop
      obtain ⟨parent, hparent, hparse⟩ := hrefs text hget
      exact ⟨parent, hparent, by rw [hcell, hcanonical text hspelled huuid _ hparse]⟩
  obtain ⟨parent, hparent, htext⟩ := hnamed
  rcases hstep.template_kept hholds hparent with ⟨parent', hparent', hid⟩ | hdropped
  · exact ⟨parent', hparent', by rw [htext, hid]⟩
  · rw [hdropped] at hr
    obtain ⟨hmem, hstays⟩ := List.mem_filter.mp hr
    have href : (kind, FieldSpec.parentTemplate) ∈ Registry.builtin.referencing .template := by
      cases kind <;> simp_all [RecordKind.variants] <;> decide
    have hfollows : r.follows parent.id (kind, .parentTemplate) = true := by
      have hcascade : FieldSpec.parentTemplate.onDelete = .cascade := rfl
      have hname : FieldSpec.parentTemplate.name = "template" := rfl
      simp [Record.follows, hcascade, hname, hholds.database.kind_eq _ r hmem, Table.holds, htext]
    have hleaves : r.leaves .template parent.id = true := by
      rw [Record.leaves, List.any_eq_true.mpr ⟨_, href, hfollows⟩, Bool.true_or]
    simp [hleaves] at hstays

end Store.Step
end Phrasebook
