import Phrasebook.Proofs.Lawful
import Phrasebook.Proofs.Spellings
import Phrasebook.Proofs.Verdicts

/-!
# Variants and their locales

A variant names its locale by the text of the code, which no other text spells. Creating
the variant looks the locale up, no update moves the variant to another one, and a locale
that is named cannot be deleted, so the locales of all variants are stored at any time.

## Main definitions

* `Record.NamesLocale`: a variant names its locale by a locale code
* `Database.LocalesStored`: every variant names a stored locale
* `Store.ObtainedRun`: runs that create records obtained before
-/
namespace Phrasebook

/-- A variant names its locale by a locale code. -/
def Record.NamesLocale (r : Record) : Prop :=
  r.kind ∈ RecordKind.variants →
    ∃ text, r.getStr? "locale" = some text ∧ isLocaleText text.toList = true

/-- Every variant names a stored locale by the text of its key. -/
def Database.LocalesStored (db : Database) : Prop :=
  ∀ kind ∈ RecordKind.variants, ∀ row ∈ db.records kind, ∃ parent ∈ db.records .locale, ∃ text,
    Row.cell row "locale" = some text ∧ Row.cell parent idField = some text

/-- The number of rows of a kind that name a locale by a text. -/
def Database.namings (db : Database) (kind : RecordKind) (text : String) : Nat :=
  ((db.records kind).filter (Table.holds "locale" text)).length

/-- Every variant names its locale by the text of its key, a locale code. -/
def Contents.LocalesKept (contents : Contents) : Prop :=
  ∀ kind ∈ RecordKind.variants, ∀ r ∈ contents kind, ∃ parent ∈ contents .locale,
    Row.cell r.row "locale" = some parent.id.text ∧ isLocaleText parent.id.text.toList = true

/-- The store holds variants that name their locales. -/
def Store.LocalesKept (s : Store) : Prop := ∃ contents, s.Holds contents ∧ contents.LocalesKept

variable {kind : RecordKind} {r : Record} {text : String}

/-! ## Records at hand -/

namespace Record

theorem getStr?_eq_some_iff {name : String} :
    r.getStr? name = some text ↔ r.fields.get? name = some (.str text) := by
  rw [getStr?, Fields.getStr?]
  split
  · next s hget => simp [hget]
  · next hother => simpa using hother text

/-- The row of a variant names the locale that the variant names. -/
theorem cell_locale (hkind : r.kind ∈ RecordKind.variants)
    (h : r.getStr? "locale" = some text) : Row.cell r.row "locale" = some text := by
  have hidentity : isIdentityField FieldSpec.variantLocale.name = false := by decide
  refine (cell_row (variantLocale_mem hkind)).trans ?_
  rw [get?_eq_fields hidentity]
  exact (congrArg _ (getStr?_eq_some_iff.mp h)).trans (FieldSpec.toColumn_str (by decide) text)

/-- A candidate of a variant is accepted with a locale code only. -/
theorem namesLocale_of_validate {input : Json} {fresh : Uuid} {now : Instant}
    (h : Registry.builtin.validate kind input fresh now = .ok r) : r.NamesLocale := by
  obtain ⟨candidate, -, hviolations, rfl⟩ := Registry.validate_eq_ok_iff.mp h
  intro hkind
  have hmem : FieldSpec.variantLocale ∈ (Descriptor.shipped kind).fields := variantLocale_mem hkind
  obtain ⟨hnone, -⟩ := Descriptor.candidateViolations_eq_nil_iff.mp hviolations
  obtain ⟨text, hvalue⟩ := Descriptor.exists_text_of_required hnone hmem rfl (.inl rfl)
  have hfits := Descriptor.fits_of_get? hnone hmem hvalue
  refine ⟨text, getStr?_eq_some_iff.mpr ?_, hfits.isLocaleText rfl⟩
  refine (get?_ofCandidate hmem (by decide)).trans ?_
  rw [Descriptor.initialValue?, hvalue]

/-- A patch leaves the locale of a variant as it is. -/
theorem NamesLocale.patched {existing : Record} {patch : Json} {now : Instant}
    (hexisting : existing.NamesLocale) (hpatch : patch.WellFormed)
    (h : Registry.builtin.validateUpdate existing patch now = .ok r) : r.NamesLocale := by
  obtain ⟨changes, rfl, -, rfl⟩ := Registry.validateUpdate_ok h
  intro hkind
  have hkind : existing.kind ∈ RecordKind.variants := hkind
  obtain ⟨text, htext, hcode⟩ := hexisting hkind
  refine ⟨text, getStr?_eq_some_iff.mpr ?_, hcode⟩
  have hsorted := hpatch.sorted
  have hnone : (Registry.mutableChanges (.shipped existing.kind) changes).get? "locale" = none := by
    refine Fields.get?_eq_none_iff.mpr fun entry hentry heq => ?_
    have himmutable :
        FieldSpec.variantLocale ∈ (Descriptor.shipped existing.kind).immutableFields :=
      List.mem_filter.mpr ⟨variantLocale_mem hkind, rfl⟩
    exact (Registry.mem_mutableChanges.mp hentry).2 _ himmutable heq.symm
  rw [Fields.get?_override (Registry.sorted_mutableChanges hsorted), hnone, Option.none_or]
  exact getStr?_eq_some_iff.mp htext

/-- A variant that is read from a store names its locale as its row does. -/
theorem namesLocale_of_read {s : Store} (h : s.LocalesKept) {row : Row}
    (hrow : row ∈ s.database.records kind) (hreads : (Descriptor.shipped kind).ofRow row = .ok r) :
    r.NamesLocale := by
  obtain ⟨contents, hholds, hkept⟩ := h
  obtain rfl := Descriptor.kind_of_ofRow hreads
  intro hvariant
  rw [hholds.database.records_eq] at hrow
  obtain ⟨stored, hstored, rfl⟩ := List.mem_map.mp hrow
  obtain ⟨parent, -, hcell, hcode⟩ := hkept r.kind hvariant stored hstored
  refine ⟨_, ?_, hcode⟩
  exact (getStr?_ofRow (variantLocale_mem hvariant) (by decide) (by decide) hreads).trans hcell

/-- Variants obtained from stores whose variants name their locales name theirs. -/
theorem Obtained.namesLocale {seen : Store → Prop} (hseen : ∀ s, seen s → s.LocalesKept)
    (h : r.Obtained seen) : r.NamesLocale := by
  induction h with
  | validated _ valid => exact namesLocale_of_validate valid
  | read saw mem reads => exact namesLocale_of_read (hseen _ saw) mem reads
  | patched _ hpatch valid ih => exact ih.patched hpatch valid

end Record

namespace Store

variable {s s' : Store} {contents contents' : Contents} {op : Operation} {id : RecordId}
  {actor : String} {now : Instant}

/-! ## Deleting a locale -/

/-- A restricting field refuses while rows name the key. -/
theorem releaseField_restrict (hreg : s.registry = .builtin) {db : Database} (h : db.Installed)
    (user : RecordKind) {f : FieldSpec} (hf : f.onDelete = .restrict) :
    s.releaseField kind id actor now db user f =
      if 0 < ((db.records user).filter (Table.holds f.name id.text)).length then
        .error (.inUse kind id user
          ((db.records user).filter (Table.holds f.name id.text)).length)
      else .ok (db, 0) := by
  have hselect : ((Descriptor.shipped user).recordTable (db.records user)).select
      [(f.name, id.text)] = (db.records user).filter (Table.holds f.name id.text) := by
    simp [Table.select, Descriptor.recordTable]
  rw [releaseField, descriptor_of_builtin hreg]
  simp only [bind, Except.bind, hf, Database.count, Database.table, h.records_table, hselect]

/-- Restricting fields refuse at the first one through which rows name the key. -/
theorem releaseFields_restrict (hreg : s.registry = .builtin) {db : Database} (h : db.Installed)
    {f : FieldSpec} (hf : f.onDelete = .restrict) (users : List RecordKind) :
    s.releaseFields kind id actor now db (users.map fun user => (user, f)) =
      match users.find? fun user =>
        0 < ((db.records user).filter (Table.holds f.name id.text)).length with
      | some user => .error (.inUse kind id user
          ((db.records user).filter (Table.holds f.name id.text)).length)
      | none => .ok (db, 0) := by
  induction users with
  | nil => rfl
  | cons user rest ih =>
    rw [List.map_cons, releaseFields, releaseField_restrict hreg h user hf, List.find?_cons]
    by_cases hnamed : 0 < ((db.records user).filter (Table.holds f.name id.text)).length
    · simp [hnamed, bind, Except.bind]
    · simp only [hnamed, if_false, decide_false, bind, Except.bind, ih]
      cases rest.find? fun user =>
        0 < ((db.records user).filter (Table.holds f.name id.text)).length <;> rfl

/-- The first kind of variants with rows that name a locale keeps it from being deleted. -/
theorem releaseFields_locale (hreg : s.registry = .builtin) (h : s.database.Installed) :
    s.releaseFields .locale id actor now s.database (Registry.builtin.referencing .locale) =
      match RecordKind.variants.find? fun user => 0 < s.database.namings user id.text with
      | some user => .error (.inUse .locale id user (s.database.namings user id.text))
      | none => .ok (s.database, 0) := by
  have hrefs : Registry.builtin.referencing .locale =
      RecordKind.variants.map fun user => (user, .variantLocale) := by decide
  rw [hrefs]
  exact releaseFields_restrict hreg h rfl RecordKind.variants

theorem delete_of_named (hreg : s.registry = .builtin) (h : s.database.Installed)
    {user : RecordKind} (hfirst : (RecordKind.variants.find? fun user =>
      0 < s.database.namings user id.text) = some user) :
    s.delete .locale id actor now =
      .error (.inUse .locale id user (s.database.namings user id.text)) := by
  rw [delete, descriptor_of_builtin hreg, hreg]
  simp only [bind, Except.bind, releaseFields_locale hreg h, hfirst]

/-- A locale that a variant names is in use, and cannot be deleted. -/
theorem delete_locale_inUse (hreg : s.registry = .builtin) (h : s.database.Installed)
    (hkind : kind ∈ RecordKind.variants) {row : Row} (hrow : row ∈ s.database.records kind)
    (hcell : Row.cell row "locale" = some id.text) (actor : String) (now : Instant) :
    ∃ user ∈ RecordKind.variants, 0 < s.database.namings user id.text ∧
      s.delete .locale id actor now =
        .error (.inUse .locale id user (s.database.namings user id.text)) := by
  have hnamed : 0 < s.database.namings kind id.text :=
    List.length_pos_of_mem (List.mem_filter.mpr ⟨hrow, by simp [Table.holds, hcell]⟩)
  obtain ⟨user, hfirst⟩ : ∃ user, (RecordKind.variants.find? fun user =>
      0 < s.database.namings user id.text) = some user :=
    Option.isSome_iff_exists.mp (List.find?_isSome.mpr ⟨kind, hkind, decide_eq_true hnamed⟩)
  exact ⟨user, List.mem_of_find?_eq_some hfirst, by simpa using List.find?_some hfirst,
    delete_of_named hreg h hfirst⟩

/-! ## Locales of variants along a run -/

namespace Step

/-- A locale that is there stays, or it is deleted and no variant names it. -/
theorem locale_kept (hstep : Step s contents op s' contents') (hholds : s.Holds contents)
    {parent : Record} (hparent : parent ∈ contents .locale) :
    (∃ parent' ∈ contents' .locale, parent'.id = parent.id) ∨
      ∀ kind ∈ RecordKind.variants, ∀ r ∈ contents kind,
        Row.cell r.row "locale" ≠ some parent.id.text := by
  refine (hstep.kept hparent).imp_right ?_
  rintro ⟨other, id, actor, now, n, -, hleaves, hdelete, -⟩
  have hlocale := hholds.database.kind_eq _ parent hparent
  have hfree : ∀ ref ∈ Registry.builtin.referencing other, ref.1 ≠ parent.kind := by
    rw [hlocale]
    cases other <;> decide
  obtain ⟨hother, rfl⟩ := Record.eq_of_leaves hfree hleaves
  obtain rfl := hother.symm.trans hlocale
  intro kind hkind r hr hcell
  have hrow : r.row ∈ s.database.records kind := by
    rw [hholds.database.records_eq]
    exact List.mem_map_of_mem hr
  obtain ⟨user, -, -, hrefused⟩ := delete_locale_inUse hholds.registry_eq
    hholds.database.installed hkind hrow hcell actor now
  rw [hrefused] at hdelete
  cases hdelete

/-- The locale of a variant is the one it was created in, and that was stored. -/
theorem locale_cases (hstep : Step s contents op s' contents') (hholds : s.Holds contents)
    (hcreated : ∀ r actor now, op = .create r actor now → r.NamesLocale)
    (hkind : kind ∈ RecordKind.variants) (hr : r ∈ contents' kind) :
    (∃ stored ∈ contents kind, Row.cell r.row "locale" = Row.cell stored.row "locale") ∨
      ∃ parent ∈ contents .locale, Row.cell r.row "locale" = some parent.id.text ∧
        isLocaleText parent.id.text.toList = true ∧ ∃ actor now, op = .create r actor now := by
  rcases hstep.mem_cases hholds hr with
    ⟨stored, hstored, -, hcells⟩ | ⟨actor, now, rfl, rfl, hrefs⟩
  · exact .inl ⟨stored, hstored, hcells _ (variantLocale_mem hkind) rfl (by decide) (by decide)⟩
  · obtain ⟨text, hget, hcode⟩ := hcreated r actor now rfl hkind
    have href : (FieldSpec.variantLocale, RecordKind.locale) ∈
        (Descriptor.shipped r.kind).referenceFields :=
      List.mem_filterMap.mpr ⟨_, variantLocale_mem hkind, rfl⟩
    obtain ⟨parent, hparent, hparse⟩ := hrefs _ href text hget
    rw [RecordId.parse_of_isLocaleText hcode, Except.ok.injEq] at hparse
    have htext : parent.id.text = text := hparse ▸ rfl
    exact .inr ⟨parent, hparent, htext ▸ Record.cell_locale hkind hget, htext ▸ hcode, actor, now,
      rfl⟩

/-- A step keeps the locales of variants stored. -/
theorem localesKept (hstep : Step s contents op s' contents') (hholds : s.Holds contents)
    (hcreated : ∀ r actor now, op = .create r actor now → r.NamesLocale)
    (h : contents.LocalesKept) : contents'.LocalesKept := by
  intro kind hkind r hr
  rcases hstep.locale_cases hholds hcreated hkind hr with
    ⟨stored, hstored, hcell⟩ | ⟨parent, hparent, hcell, hcode, actor, now, rfl⟩
  · obtain ⟨parent, hparent, hname, hcode⟩ := h kind hkind stored hstored
    rcases hstep.locale_kept hholds hparent with ⟨parent', hparent', hid⟩ | hunnamed
    · exact ⟨parent', hparent', by rw [hcell, hname, hid], hid.symm ▸ hcode⟩
    · exact absurd hname (hunnamed kind hkind stored hstored)
  · rcases hstep.kept hparent with ⟨parent', hparent', hid⟩ | ⟨_, _, _, _, _, hdelete, -⟩
    · exact ⟨parent', hparent', by rw [hcell, hid], hid.symm ▸ hcode⟩
    · cases hdelete

end Step

/-- A run that creates records obtained before; its updates may carry any records. -/
inductive ObtainedRun : List Operation → Prop
  | nil : ObtainedRun []
  | step {ops : List Operation} {op : Operation} (earlier : ObtainedRun ops)
    (creates : ∀ r actor now, op = .create r actor now → r.Obtained (Seen ops)) :
    ObtainedRun (ops ++ [op])

/-- In all stores of such a run the variants name their locales. -/
theorem ObtainedRun.localesKept {ops : List Operation} (h : ObtainedRun ops) :
    ∀ s, Seen ops s → s.LocalesKept := by
  induction h with
  | nil =>
    rintro s ⟨earlier, hearlier, rfl⟩
    rw [List.prefix_nil.mp hearlier]
    exact ⟨_, holds_initial, fun _ _ _ hr => nomatch hr⟩
  | @step ops op earlier creates ih =>
    rintro s ⟨before, hbefore, rfl⟩
    rcases List.prefix_concat_iff.mp hbefore with rfl | hbefore
    · obtain ⟨contents, hholds, hkept⟩ := ih _ ⟨ops, List.prefix_rfl, rfl⟩
      obtain ⟨contents', hstep, hholds'⟩ := hholds.step op
      rw [run_append]
      exact ⟨contents', hholds', hstep.localesKept hholds (fun r actor now hop =>
        (creates r actor now hop).namesLocale ih) hkept⟩
    · exact ih _ ⟨before, hbefore, rfl⟩

/-- In every run with records from validation the locales of all variants are stored, and an
attempt to delete a locale that a variant names is refused and changes nothing. -/
theorem ObtainedRun.localesStored {ops : List Operation} (h : ObtainedRun ops) :
    (initial.run ops).database.LocalesStored ∧
      ∀ kind ∈ RecordKind.variants, ∀ row ∈ (initial.run ops).database.records kind,
        ∀ id actor now, Row.cell row "locale" = some id.text →
          (∃ user ∈ RecordKind.variants,
            0 < (initial.run ops).database.namings user id.text ∧
            (initial.run ops).delete .locale id actor now = .error (.inUse .locale id user
              ((initial.run ops).database.namings user id.text))) ∧
          (initial.run ops).after (.delete .locale id actor now) = initial.run ops := by
  obtain ⟨contents, hholds, hkept⟩ := h.localesKept _ ⟨ops, List.prefix_rfl, rfl⟩
  refine ⟨fun kind hkind row hrow => ?_, fun kind hkind row hrow id actor now hcell => ?_⟩
  · rw [hholds.database.records_eq] at hrow
    obtain ⟨r, hr, rfl⟩ := List.mem_map.mp hrow
    obtain ⟨parent, hparent, hname, -⟩ := hkept kind hkind r hr
    refine ⟨parent.row, ?_, parent.id.text, hname, parent.cell_id⟩
    rw [hholds.database.records_eq]
    exact List.mem_map_of_mem hparent
  · obtain ⟨user, huser, hnamed, hrefused⟩ := delete_locale_inUse hholds.registry_eq
      hholds.database.installed hkind hrow hcell actor now
    refine ⟨⟨user, huser, hnamed, hrefused⟩, ?_⟩
    simp [after, perform, hrefused, Except.map]

theorem SuppliedRun.obtained {ops : List Operation} (h : SuppliedRun ops) : ObtainedRun ops := by
  induction h with
  | nil => exact .nil
  | step _ obtained ih => exact .step ih fun r actor now heq => obtained r (by rw [heq]; rfl)

/-- The records of the sample run come from validation. -/
theorem suppliedRun_sampleRun :
    SuppliedRun (Operation.sampleRun .sample .sample Uuid.sample.text) := by
  have hlocale := SuppliedRun.nil.creating .locale _ .sample
    (Json.wellFormed_of_texts (by decide) (by decide)) (Descriptor.sample_accepted .locale)
  have htemplate := hlocale.creating .template _ .sample
    (Json.wellFormed_of_texts (by decide) (by decide)) (Descriptor.sample_accepted .template)
  exact htemplate.creating .sms _ .sample (Json.wellFormed_of_texts (by decide) (by decide))
    (sampleVariant_ok (Format.isUuid_text .sample))

/-- The locale of the sample variant cannot be deleted. -/
theorem delete_sampleLocale :
    ObtainedRun (Operation.sampleRun .sample .sample Uuid.sample.text) ∧
      ∃ user ∈ RecordKind.variants, ∃ n, 0 < n ∧
        (initial.run (Operation.sampleRun .sample .sample Uuid.sample.text)).delete .locale
          (Record.sampleLocale .sample).id "ann" ⟨0, 0⟩ =
            .error (.inUse .locale (Record.sampleLocale .sample).id user n) := by
  have huuid := Format.isUuid_text .sample
  have hparse : RecordId.parse Uuid.sample.text = .ok (.uuid .sample) :=
    RecordId.parse_text (.uuid _)
  have hrun : ObtainedRun (Operation.sampleRun .sample .sample Uuid.sample.text) :=
    suppliedRun_sampleRun.obtained
  have hholds := holds_sampleRun (x := .sample) huuid hparse
  have hrow : (Record.sampleVariant .sample Uuid.sample.text).row ∈
      (initial.run (Operation.sampleRun .sample .sample Uuid.sample.text)).database.records
        .sms := by
    rw [hholds.database.records_eq]
    exact List.mem_map_of_mem (List.mem_singleton_self _)
  obtain ⟨⟨user, huser, hnamed, hrefused⟩, -⟩ :=
    hrun.localesStored.2 .sms (by decide) _ hrow (Record.sampleLocale .sample).id "ann" ⟨0, 0⟩ rfl
  exact ⟨hrun, user, huser, _, hnamed, hrefused⟩

end Store
end Phrasebook
