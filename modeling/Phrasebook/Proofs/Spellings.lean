import Phrasebook.Proofs.Variants

/-!
# Spellings of templates

Variants keep their templates and stay unique as long as every template is spelled
in one way only. A second spelling of a key, which validation accepts, is enough to
break both.

## Main definitions

* `Operation.sampleRun`: a locale, a template and a variant of it
-/
namespace Phrasebook

variable {s : Store} {contents : Contents} {spelling : String → Prop}

/-! ## Runs with one spelling -/

/-- The records of a run name their templates by accepted spellings; if these are the
texts of the keys, the templates are stored. -/
theorem Store.run_templates (ops : List Operation)
    (hops : ∀ op ∈ ops, op.Validated ∧ op.Spelled spelling) :
    ∃ contents, (initial.run ops).Holds contents ∧ contents.SpelledBy spelling ∧
      ((∀ text, spelling text → Format.isUuid text = true → ∀ id,
        RecordId.parse text = .ok id → id.text = text) → contents.TemplatesKept) := by
  refine run_induction (P := fun _ contents => contents.SpelledBy spelling ∧
      ((∀ text, spelling text → Format.isUuid text = true → ∀ id,
        RecordId.parse text = .ok id → id.text = text) → contents.TemplatesKept))
    (Q := fun op => op.Validated ∧ op.Spelled spelling) ⟨?_, ?_⟩ ?_ ops hops
  · intro kind _ r hr
    cases hr
  · intro _ kind _ r hr
    cases hr
  · rintro s s' contents contents' op hop hholds ⟨hspelled, hkept⟩ hstep
    exact ⟨hstep.spelledBy hholds hop hspelled,
      fun hcanonical => hstep.templatesKept hholds hop hcanonical (hkept hcanonical)⟩

theorem Record.template?_row {r : Record} {text : String} {id : RecordId}
    (h : Row.cell r.row "template" = some text) (hparse : RecordId.parse text = .ok id) :
    Row.template? r.row = some id := by
  simp [Row.template?, h, hparse, Except.toOption]

/-- Records whose variants keep their templates are stored with them. -/
theorem Database.Holds.templatesStored {db : Database} (h : db.Holds contents)
    (hkept : contents.TemplatesKept) : db.TemplatesStored := by
  intro kind hkind row hrow
  rw [h.records_eq] at hrow
  obtain ⟨r, hr, rfl⟩ := List.mem_map.mp hrow
  obtain ⟨parent, hparent, htext⟩ := hkept kind hkind r hr
  refine ⟨parent.id, Record.template?_row htext (RecordId.parse_text _), parent.row, ?_,
    parent.cell_id⟩
  rw [h.records_eq]
  exact List.mem_map_of_mem hparent

/-- Records whose variants spell each template in one way are stored without two
variants of a template in a locale. -/
theorem Database.Holds.variantsUnique {db : Database} (h : db.Holds contents)
    (hspelled : contents.SpelledBy spelling)
    (hinjective : ∀ a b, spelling a → spelling b → Format.isUuid a = true →
      Format.isUuid b = true → RecordId.parse a = RecordId.parse b → a = b) :
    db.VariantsUnique := by
  intro kind hkind
  have hindex : ⟨(Descriptor.shipped kind).indexName .uniqueTemplateLocale .sqlite,
      ["template", "locale"], true⟩ ∈ ((Descriptor.shipped kind).recordTable []).indexes := by
    cases kind <;> simp_all [RecordKind.variants] <;> decide
  have hdistinct := h.distinct kind _ hindex
  rw [h.records_eq] at hdistinct ⊢
  rw [List.pairwise_map] at hdistinct ⊢
  refine hdistinct.imp_of_mem fun {a b} ha hb hagree => ?_
  rintro ⟨id, hida, hidb, hlocale⟩
  obtain ⟨⟨ta, hta, hsa, hua⟩, hlocaleA⟩ := hspelled kind hkind a ha
  obtain ⟨⟨tb, htb, hsb, hub⟩, -⟩ := hspelled kind hkind b hb
  have hparse : RecordId.parse ta = RecordId.parse tb := by
    obtain ⟨ua, hua⟩ := RecordId.parse_of_isUuid hua
    obtain ⟨ub, hub⟩ := RecordId.parse_of_isUuid hub
    rw [Record.template?_row hta hua] at hida
    rw [Record.template?_row htb hub, ← hida] at hidb
    rw [hua, hub, Option.some.inj hidb]
  have htext := hinjective ta tb hsa hsb hua hub hparse
  refine hagree ⟨rfl, ?_, ?_⟩
  · simp [Table.keyOf, hta, hlocaleA]
  · simp [Table.keyOf, hta, htb, htext, hlocale]

/-! ## Runs with two spellings -/

variable {kind : RecordKind} {candidate : Fields}

/-- A candidate whose references are stored is created, if its row passes the check of the table
of its kind. -/
theorem Store.Holds.after_creating_of_check (h : s.Holds contents) (kind : RecordKind)
    (candidate : Fields) (fresh : Uuid) {old : List Record} (hold : contents kind = old)
    (hrefs : ∀ ref ∈ (Descriptor.shipped kind).referenceFields, ∀ raw,
      (Record.ofCandidate kind candidate fresh ⟨0, 0⟩).getStr? ref.1.name = some raw →
        ∃ parent ∈ contents ref.2, RecordId.parse raw = .ok parent.id)
    (hcheck : ((Descriptor.shipped kind).recordTable []).check (old.map Record.row)
      (Record.ofCandidate kind candidate fresh ⟨0, 0⟩).row = .ok ()) :
    (s.after (.creating kind candidate fresh)).Holds (Function.update contents kind
      (old ++ [.ofCandidate kind candidate fresh ⟨0, 0⟩])) := by
  subst hold
  have hrun : s.create (.ofCandidate kind candidate fresh ⟨0, 0⟩) "ann" ⟨0, 0⟩ =
      .ok (s.added (.ofCandidate kind candidate fresh ⟨0, 0⟩) "ann" ⟨0, 0⟩) := by
    refine (create_eq_ok_iff h.registry_eq h.database.installed).mpr
      ⟨h.checkReferences_eq_ok_iff.mpr hrefs, ?_, rfl⟩
    rw [h.database.records_eq]
    exact hcheck
  have hafter : s.after (.creating kind candidate fresh) =
      s.added (.ofCandidate kind candidate fresh ⟨0, 0⟩) "ann" ⟨0, 0⟩ := by
    simp only [after, Operation.creating, perform, hrun]
  rw [hafter]
  exact h.added (r := .ofCandidate kind candidate fresh ⟨0, 0⟩) hcheck

/-- An accepted candidate whose references are stored is created, if it agrees with no
record of its kind on a unique index. -/
theorem Store.Holds.after_creating (h : s.Holds contents) (fresh : Uuid) {old : List Record}
    (hold : contents kind = old)
    (hok : (Descriptor.shipped kind).candidateViolations candidate = [])
    (hrefs : ∀ ref ∈ (Descriptor.shipped kind).referenceFields, ∀ raw,
      (Record.ofCandidate kind candidate fresh ⟨0, 0⟩).getStr? ref.1.name = some raw →
        ∃ parent ∈ contents ref.2, RecordId.parse raw = .ok parent.id)
    (hnew : ∀ other ∈ old, ∀ index ∈ ((Descriptor.shipped kind).recordTable []).indexes,
      ¬ Table.Agree index (Record.ofCandidate kind candidate fresh ⟨0, 0⟩).row other.row) :
    (s.after (.creating kind candidate fresh)).Holds (Function.update contents kind
      (old ++ [.ofCandidate kind candidate fresh ⟨0, 0⟩])) := by
  obtain ⟨hnone, -⟩ := Descriptor.candidateViolations_eq_nil_iff.mp hok
  refine h.after_creating_of_check kind candidate fresh hold hrefs
    (Table.check_eq_ok_iff.mpr ⟨?_, ?_⟩)
  · intro column hcolumn _
    obtain ⟨f, hf, rfl⟩ := List.mem_map.mp hcolumn
    exact Record.isSome_cell_ofCandidate hnone hf
  · intro index hindex row hrow
    obtain ⟨other, hother, rfl⟩ := List.mem_map.mp hrow
    exact hnew other hother index hindex

/-- A variant that names its template by a text. -/
def sampleVariant (text : String) : Fields :=
  [("content", .str "Hi"), ("locale", .str "en-US"), ("template", .str text)]

theorem sampleVariant_ok {text : String} (h : Format.isUuid text = true) :
    (Descriptor.shipped .sms).candidateViolations (sampleVariant text) = [] := by
  have hinsert : sampleVariant text = (Descriptor.sample .sms).insert "template" (.str text) := by
    rw [Descriptor.sample, Fields.insert_cons_of_gt (by decide),
      Fields.insert_cons_of_gt (by decide),
      Fields.insert_cons_self, sampleVariant]
  obtain ⟨hnone, -⟩ :=
    Descriptor.candidateViolations_eq_nil_iff.mp (Descriptor.sample_accepted .sms)
  refine Descriptor.candidateViolations_eq_nil_iff.mpr ⟨?_, nofun, nofun, nofun⟩
  rw [hinsert]
  exact Descriptor.violations_insert hnone (f := .parentTemplate) rfl
    (FieldSpec.accepts_str (.inl ⟨rfl, h⟩) rfl rfl rfl)

/-- The record of the sample locale. -/
def Record.sampleLocale (u : Uuid) : Record :=
  .ofCandidate .locale (Descriptor.sample .locale) u ⟨0, 0⟩

/-- The record of the sample template. -/
def Record.sampleTemplate (u : Uuid) : Record :=
  .ofCandidate .template (Descriptor.sample .template) u ⟨0, 0⟩

/-- The record of a sample variant. -/
def Record.sampleVariant (x : Uuid) (text : String) : Record :=
  .ofCandidate .sms (Phrasebook.sampleVariant text) x ⟨0, 0⟩

section Samples

variable (u x : Uuid) (text : String)

@[simp] theorem Record.kind_sampleTemplate : (sampleTemplate u).kind = .template := rfl

@[simp] theorem Record.id_sampleTemplate : (sampleTemplate u).id = .uuid u := rfl

@[simp] theorem Record.kind_sampleVariant : (sampleVariant x text).kind = .sms := rfl

@[simp] theorem Record.id_sampleVariant : (sampleVariant x text).id = .uuid x := rfl

theorem Record.cell_sampleVariant :
    Row.cell (sampleVariant x text).row "template" = some text := rfl

theorem Record.locale_sampleVariant :
    Row.cell (sampleVariant x text).row "locale" = some "en-US" := rfl

/-- The records of the samples, the variant naming its template by a text. -/
def sampleContents : Contents :=
  Function.update (Function.update (Function.update (fun _ => [])
    .locale [.sampleLocale u]) .template [.sampleTemplate u]) .sms [.sampleVariant x text]

@[simp] theorem sampleContents_locale : sampleContents u x text .locale = [.sampleLocale u] := rfl

@[simp] theorem sampleContents_template :
    sampleContents u x text .template = [.sampleTemplate u] := rfl

@[simp] theorem sampleContents_sms : sampleContents u x text .sms = [.sampleVariant x text] := rfl

/-- Creating a locale, a template and a variant of it. -/
def Operation.sampleRun : List Operation :=
  [.creating .locale (Descriptor.sample .locale) u,
    .creating .template (Descriptor.sample .template) u, .creating .sms (sampleVariant text) x]

end Samples

theorem parse_sampleLocale (u : Uuid) :
    RecordId.parse "en-US" = .ok (Record.sampleLocale u).id := by
  have hgiven : Descriptor.givenId? (Descriptor.sample .locale) = some (RecordId.parse "en-US") :=
    rfl
  have hok : (RecordId.parse "en-US").isOk = true := by decide
  rw [Record.sampleLocale, Record.ofCandidate, hgiven]
  cases hparse : RecordId.parse "en-US" with
  | error e => simp [hparse, Except.isOk, Except.toBool] at hok
  | ok id => rfl

/-- The references of a sample variant are stored with the sample locale and template. -/
theorem sampleVariant_references {u x : Uuid} {text : String}
    (hparse : RecordId.parse text = .ok (.uuid u))
    (hlocale : .sampleLocale u ∈ contents .locale)
    (htemplate : .sampleTemplate u ∈ contents .template) :
    ∀ ref ∈ (Descriptor.shipped .sms).referenceFields, ∀ raw,
      (Record.sampleVariant x text).getStr? ref.1.name = some raw →
        ∃ parent ∈ contents ref.2, RecordId.parse raw = .ok parent.id := by
  have hrefs : (Descriptor.shipped .sms).referenceFields =
      [(.parentTemplate, .template), (.variantLocale, .locale)] := by decide
  have hfirst : (Record.sampleVariant x text).getStr? FieldSpec.parentTemplate.name = some text :=
    rfl
  have hsecond : (Record.sampleVariant x text).getStr? FieldSpec.variantLocale.name =
      some "en-US" := rfl
  rw [hrefs]
  intro ref href raw hraw
  rcases List.mem_pair.mp href with rfl | rfl
  · rw [hfirst] at hraw
    cases hraw
    exact ⟨_, htemplate, hparse⟩
  · rw [hsecond] at hraw
    cases hraw
    exact ⟨_, hlocale, parse_sampleLocale u⟩

theorem Store.holds_sampleRun {u x : Uuid} {text : String} (huuid : Format.isUuid text = true)
    (hparse : RecordId.parse text = .ok (.uuid u)) :
    (initial.run (Operation.sampleRun u x text)).Holds (sampleContents u x text) := by
  have hfirst := holds_initial.after_creating u rfl (Descriptor.sample_accepted .locale)
    (by intro ref href; cases href) (by intro other hother; cases hother)
  have hsecond := hfirst.after_creating u (Function.update_of_ne (by decide) ..)
    (Descriptor.sample_accepted .template) (by intro ref href; cases href)
    (by intro other hother; cases hother)
  have hthird := hsecond.after_creating x (show _ = [] by simp) (sampleVariant_ok huuid)
    (sampleVariant_references hparse (by simp [Record.sampleLocale])
      (by simp [Record.sampleTemplate])) (by intro other hother; cases hother)
  rw [Operation.sampleRun, run, List.foldl_cons, List.foldl_cons, List.foldl_cons, List.foldl_nil]
  exact hthird

theorem Operation.validated_sampleRun {u x : Uuid} {text : String}
    (huuid : Format.isUuid text = true) :
    ∀ op ∈ sampleRun u x text, op.Validated ∧ op.Spelled (· = text) := by
  have hspelled : (Record.sampleVariant x text).getStr? "template" = some text := rfl
  have hlocale : (Record.sampleLocale u).getStr? "template" = none := rfl
  have htemplate : (Record.sampleTemplate u).getStr? "template" = none := rfl
  intro op hop
  simp only [sampleRun, List.mem_cons, List.not_mem_nil, or_false] at hop
  rcases hop with rfl | rfl | rfl
  · exact ⟨validated_creating (Descriptor.sample_accepted .locale),
      fun raw hraw => by cases hlocale.symm.trans hraw⟩
  · exact ⟨validated_creating (Descriptor.sample_accepted .template),
      fun raw hraw => by cases htemplate.symm.trans hraw⟩
  · exact ⟨validated_creating (sampleVariant_ok huuid),
      fun raw hraw => Option.some.inj (hraw.symm.trans hspelled)⟩

/-- Deleting a template leaves the variants behind whose texts are not that of its key. -/
theorem Record.stays_sampleVariant {u x : Uuid} {text : String} (hne : u.text ≠ text) :
    (sampleVariant x text).leaves .template (.uuid u) = false := by
  have hname : ∀ ref ∈ Registry.builtin.referencing .template, ref.2.name = "template" := by
    decide
  have hnone : (Registry.builtin.referencing .template).any
      ((sampleVariant x text).follows (.uuid u)) = false := by
    refine List.any_eq_false.mpr fun ref href => ?_
    simp [follows, hname ref href, Table.holds, cell_sampleVariant, RecordId.text, Ne.symm hne]
  simp [leaves, hnone, isAt]

/-- A variant that spells its template in another way than the store is left behind
when the template is deleted. -/
theorem exists_orphan {u : Uuid} {text : String} (huuid : Format.isUuid text = true)
    (hparse : RecordId.parse text = .ok (.uuid u)) (hne : u.text ≠ text) :
    ∃ ops, (∀ op ∈ ops, op.Validated ∧ op.Spelled (· = text)) ∧
      ¬ (Store.initial.run ops).database.TemplatesStored := by
  have hholds := @Store.holds_sampleRun u u text huuid hparse
  have hmem : .sampleTemplate u ∈ sampleContents u u text .template := by simp
  obtain ⟨s', n, hdelete⟩ := hholds.delete_template hmem "ann" ⟨0, 0⟩
  obtain ⟨-, -, hdrops⟩ := hholds.delete_ok hdelete
  have hperform : (Store.initial.run (Operation.sampleRun u u text)).perform
      (.delete .template (.uuid u) "ann" ⟨0, 0⟩) = .ok s' := by
    rw [Record.id_sampleTemplate] at hdelete
    simp [Store.perform, hdelete, Except.map]
  refine ⟨Operation.sampleRun u u text ++ [.delete .template (.uuid u) "ann" ⟨0, 0⟩], ?_, ?_⟩
  · intro op hop
    rcases List.mem_append.mp hop with hop | hop
    · exact Operation.validated_sampleRun huuid op hop
    · rw [List.mem_singleton.mp hop]
      exact ⟨trivial, trivial⟩
  · rw [Store.run_append, Store.after_of_perform hperform]
    intro hstored
    have hvariant : (Record.sampleVariant u text).row ∈ s'.database.records .sms := by
      rw [hdrops.holds.records_eq]
      refine List.mem_map_of_mem (List.mem_filter.mpr ⟨by simp, ?_⟩)
      simp [Record.stays_sampleVariant hne]
    obtain ⟨id, hid, parent, hparent, hcell⟩ := hstored .sms (by decide) _ hvariant
    rw [hdrops.holds.records_eq] at hparent
    obtain ⟨r, hr, rfl⟩ := List.mem_map.mp hparent
    obtain ⟨hmem, hgone⟩ := List.mem_filter.mp hr
    obtain rfl : r = .sampleTemplate u := by simpa using hmem
    simp [Record.leaves, Record.isAt] at hgone

theorem Operation.Spelled.imp {op : Operation} {other : String → Prop} (h : op.Spelled spelling)
    (himp : ∀ text, spelling text → other text) : op.Spelled other := by
  cases op with
  | create r actor now => exact fun text htext => himp text (h text htext)
  | update | delete => trivial

/-- Variants with keys of their own that spell their templates differently agree on no index. -/
theorem Record.not_agree_sampleVariant {x y : Uuid} {a b : String}
    (hids : (sampleVariant y b).id ≠ (sampleVariant x a).id) (hne : a ≠ b) :
    ∀ index ∈ ((Descriptor.shipped .sms).recordTable []).indexes,
      ¬ Table.Agree index (sampleVariant y b).row (sampleVariant x a).row := by
  intro index hindex hagree
  have hindexes : ((Descriptor.shipped .sms).recordTable []).indexes =
      [Database.primaryIndex (Descriptor.shipped .sms).table idField,
        ⟨(Descriptor.shipped .sms).indexName .uniqueTemplateLocale .sqlite,
          ["template", "locale"], true⟩] := rfl
  rw [hindexes] at hindex
  rcases List.mem_pair.mp hindex with rfl | rfl
  · have hcells := (Table.agree_primary.mp hagree).2
    rw [cell_id, cell_id, Option.some.injEq] at hcells
    exact hids (RecordId.text_injective hcells)
  · have hkeys := hagree.2.2
    simp only [Table.keyOf, List.map_cons, cell_sampleVariant, List.cons.injEq,
      Option.some.injEq] at hkeys
    exact hne hkeys.1.symm

/-- Two variants that spell the same template differently can be in one locale. -/
theorem exists_twins {u : Uuid} {a b : String} (ha : Format.isUuid a = true)
    (hb : Format.isUuid b = true) (hparseA : RecordId.parse a = .ok (.uuid u))
    (hparseB : RecordId.parse b = .ok (.uuid u)) (hne : a ≠ b) :
    ∃ ops, (∀ op ∈ ops, op.Validated ∧ op.Spelled fun text => text = a ∨ text = b) ∧
      ¬ (Store.initial.run ops).database.VariantsUnique := by
  let x : Uuid := .sample
  let y : Uuid := ⟨List.replicate 32 1, rfl⟩
  have hids : (Record.sampleVariant y b).id ≠ (Record.sampleVariant x a).id := by
    rw [Record.id_sampleVariant, Record.id_sampleVariant]
    decide
  have hholds := @Store.holds_sampleRun u x a ha hparseA
  have hnew : ∀ other ∈ [Record.sampleVariant x a],
      ∀ index ∈ ((Descriptor.shipped .sms).recordTable []).indexes,
        ¬ Table.Agree index (Record.sampleVariant y b).row other.row :=
    List.forall_mem_singleton.mpr (Record.not_agree_sampleVariant hids hne)
  have hsecond := hholds.after_creating y (sampleContents_sms u x a) (sampleVariant_ok hb)
    (sampleVariant_references hparseB (by simp) (by simp)) hnew
  refine ⟨Operation.sampleRun u x a ++ [.creating .sms (sampleVariant b) y], ?_, ?_⟩
  · intro op hop
    rcases List.mem_append.mp hop with hop | hop
    · obtain ⟨hvalidated, hspelled⟩ := Operation.validated_sampleRun ha op hop
      exact ⟨hvalidated, hspelled.imp fun _ => .inl⟩
    · rw [List.mem_singleton.mp hop]
      have hspelled : (Record.sampleVariant y b).getStr? "template" = some b := rfl
      exact ⟨Operation.validated_creating (sampleVariant_ok hb),
        fun raw hraw => .inr (Option.some.inj (hraw.symm.trans hspelled))⟩
  · rw [Store.run_append]
    intro hunique
    have hpair := hunique .sms (by decide)
    rw [hsecond.database.records_eq, Function.update_self] at hpair
    have htwo := List.rel_of_pairwise_cons hpair (List.mem_singleton_self _)
    refine htwo ⟨.uuid u, ?_, ?_, ?_⟩
    · exact Record.template?_row (Record.cell_sampleVariant x a) hparseA
    · exact Record.template?_row (Record.cell_sampleVariant y b) hparseB
    · exact (Record.locale_sampleVariant x a).trans (Record.locale_sampleVariant y b).symm

/-! ## Which spellings are safe -/

/-- Variants keep their templates in every run, and none outlives its template, just
when every spelling that occurs is the text of the key it spells. -/
theorem templatesStored_iff_canonical (spelling : String → Prop) :
    (∀ ops : List Operation, (∀ op ∈ ops, op.Validated ∧ op.Spelled spelling) →
      (Store.initial.run ops).database.TemplatesStored ∧
        ∀ id actor now s' n, (Store.initial.run ops).delete .template id actor now = .ok (s', n) →
          s'.database.NoVariantOf id) ↔
      ∀ text, spelling text → Format.isUuid text = true → ∀ id,
        RecordId.parse text = .ok id → id.text = text := by
  constructor
  · intro hruns text hspelling huuid id hparse
    obtain ⟨u, hu⟩ := RecordId.parse_of_isUuid huuid
    obtain rfl : id = .uuid u := by simpa [hu, eq_comm] using hparse
    by_contra hne
    obtain ⟨ops, hops, horphan⟩ := exists_orphan huuid hparse hne
    refine horphan (hruns ops fun op hop => ?_).1
    exact ⟨(hops op hop).1, (hops op hop).2.imp fun _ heq => heq ▸ hspelling⟩
  · intro hcanonical
    have hstored : ∀ ops : List Operation, (∀ op ∈ ops, op.Validated ∧ op.Spelled spelling) →
        (Store.initial.run ops).database.TemplatesStored := by
      intro ops hops
      obtain ⟨contents, hholds, -, hkept⟩ := Store.run_templates ops hops
      exact hholds.database.templatesStored (hkept hcanonical)
    intro ops hops
    refine ⟨hstored ops hops, ?_⟩
    intro id actor now s' n hdelete kind hkind row hrow hnames
    obtain ⟨contents, hholds, -, -⟩ := Store.run_templates ops hops
    obtain ⟨-, -, hdrops⟩ := hholds.delete_ok hdelete
    have hperform : (Store.initial.run ops).perform (.delete .template id actor now) = .ok s' := by
      simp [Store.perform, hdelete, Except.map]
    have hafter := hstored (ops ++ [.delete .template id actor now]) fun op hop => by
      rcases List.mem_append.mp hop with hop | hop
      · exact hops op hop
      · rw [List.mem_singleton.mp hop]
        exact ⟨trivial, trivial⟩
    rw [Store.run_append, Store.after_of_perform hperform] at hafter
    -- The variant would name a stored template, and the deleted one is not stored.
    obtain ⟨id', hid', parent, hparent, hcell⟩ := hafter kind hkind row hrow
    obtain rfl : id' = id := by simpa [hid'] using hnames
    rw [hdrops.holds.records_eq] at hparent
    obtain ⟨r, hr, rfl⟩ := List.mem_map.mp hparent
    obtain ⟨hmem, hgone⟩ := List.mem_filter.mp hr
    have hrid : r.id = id' := by simpa using hcell
    simp [Record.leaves, Record.isAt, hholds.database.kind_eq _ r hmem, hrid] at hgone

/-- A key in upper case. -/
def upperKey : String := "3F2A6C1E-9B7D-4E2A-8C41-0D5E6F7A8B9C"

/-- An upper-case key is accepted, and is not the text of the key that it spells. -/
theorem upperKey_spec : Format.isUuid upperKey = true ∧ ∃ u : Uuid,
    RecordId.parse upperKey = .ok (.uuid u) ∧ u.text ≠ upperKey := by
  have huuid : Format.isUuid upperKey = true := by decide
  have htext : ∀ id, RecordId.parse upperKey = .ok id → id.text ≠ upperKey := by
    have hlower :
        ((RecordId.parse upperKey).toOption.all fun id => id.text != upperKey) = true := by
      decide
    intro id hid
    simpa [hid, Except.toOption] using hlower
  obtain ⟨u, hu⟩ := RecordId.parse_of_isUuid huuid
  exact ⟨huuid, u, hu, htext _ hu⟩

/-- A key in upper case is accepted, and deleting its template leaves the variant
behind. -/
theorem not_templatesStored : ¬ ∀ ops : List Operation, (∀ op ∈ ops, op.Validated) →
    (Store.initial.run ops).database.TemplatesStored := by
  obtain ⟨huuid, u, hparse, hne⟩ := upperKey_spec
  obtain ⟨ops, hops, horphan⟩ := exists_orphan huuid hparse hne
  exact fun hall => horphan (hall ops fun op hop => (hops op hop).1)

/-- Every template has one variant a locale in every run just when no two spellings
that occur stand for the same key. -/
theorem variantsUnique_iff_injective (spelling : String → Prop) :
    (∀ ops : List Operation, (∀ op ∈ ops, op.Validated ∧ op.Spelled spelling) →
      (Store.initial.run ops).database.VariantsUnique) ↔
      ∀ a b, spelling a → spelling b → Format.isUuid a = true → Format.isUuid b = true →
        RecordId.parse a = RecordId.parse b → a = b := by
  constructor
  · intro hruns a b hspellA hspellB ha hb hparse
    obtain ⟨u, hu⟩ := RecordId.parse_of_isUuid ha
    by_contra hne
    obtain ⟨ops, hops, htwins⟩ := exists_twins ha hb hu (hparse ▸ hu) hne
    refine htwins (hruns ops fun op hop => ⟨(hops op hop).1, (hops op hop).2.imp ?_⟩)
    rintro text (rfl | rfl)
    · exact hspellA
    · exact hspellB
  · intro hinjective ops hops
    obtain ⟨contents, hholds, hspelled, -⟩ := Store.run_templates ops hops
    exact hholds.database.variantsUnique hspelled hinjective

/-- A template can have two variants in one locale, one naming it in upper case. -/
theorem not_variantsUnique : ¬ ∀ ops : List Operation, (∀ op ∈ ops, op.Validated) →
    (Store.initial.run ops).database.VariantsUnique := by
  obtain ⟨huuid, u, hparse, hne⟩ := upperKey_spec
  obtain ⟨ops, hops, htwins⟩ := exists_twins huuid (Format.isUuid_text u) hparse
    (RecordId.parse_text (.uuid u)) hne.symm
  exact fun hall => htwins (hall ops fun op hop => (hops op hop).1)

end Phrasebook
