import Phrasebook.Proofs.Lookups

/-!
# References to templates

A reference names the stored template whose key it spells. Any other reference names the
template with that name, and there is at most one. The keys of templates are UUIDs, so every
stored template is found by all spellings of its key, and by its name unless the name spells the
key of another one.

## Main definitions

* `Record.KeyedByUuid`: keys other than those of locales are UUIDs
* `Database.Refers`: the template that a reference names
-/
namespace Phrasebook

/-! ## Generated keys -/

/-- The key of a record is a UUID, but for locales. -/
def Record.KeyedByUuid (r : Record) : Prop := r.kind ≠ .locale → ∃ u, r.id = .uuid u

namespace Record

variable {kind : RecordKind} {r : Record}

/-- The key that an accepted candidate gives is a UUID, as is a fresh one. -/
theorem keyedByUuid_of_validate {input : Json} {fresh : Uuid} {now : Instant}
    (h : Registry.builtin.validate kind input fresh now = .ok r) : r.KeyedByUuid := by
  obtain ⟨candidate, -, hviolations, rfl⟩ := Registry.validate_eq_ok_iff.mp h
  obtain ⟨hnone, -⟩ := Descriptor.candidateViolations_eq_nil_iff.mp hviolations
  intro hkind
  have hfield : (Descriptor.shipped kind).field? idField = some .generatedId := by
    cases kind with
    | locale => exact absurd rfl hkind
    | template | email | sms => rfl
  cases hgiven : Fields.get? candidate idField with
  | none =>
    refine ⟨fresh, ?_⟩
    simp [ofCandidate, Descriptor.givenId?, Fields.getStr?, hgiven, Descriptor.wellFormed?]
  | some value =>
    have haccepts := Descriptor.accepts_of_get? hnone hfield hgiven
    cases value with
    | str text =>
      obtain ⟨u, hu⟩ := RecordId.parse_of_isUuid (haccepts.isUuid rfl)
      refine ⟨u, ?_⟩
      simp [ofCandidate, Descriptor.givenId?, Fields.getStr?, hgiven, hu, Descriptor.wellFormed?]
    | _ => exact absurd haccepts.admits (by simp [FieldType.admits, FieldSpec.generatedId])

/-- What validation establishes of the kind and the key of a record lasts: they never change. -/
theorem lasting_of_key {Q : RecordKind → RecordId → Prop}
    (h : ∀ {kind input fresh now r}, Registry.builtin.validate kind input fresh now = .ok r →
      Q r.kind r.id) : Lasting fun r => Q r.kind r.id where
  validated _ hvalid := h hvalid
  patched hexisting _ hvalid := by
    obtain ⟨hkind, hid, -⟩ := identity_of_validateUpdate hvalid
    rw [hkind, hid]
    exact hexisting
  read hstored hreads := by
    obtain ⟨hid, -⟩ := identity_of_ofRow hreads
    rw [hid, Descriptor.kind_of_ofRow hreads]
    exact hstored
  revised hkind hstored _ := hkind ▸ hstored

theorem lasting_keyedByUuid : Lasting KeyedByUuid :=
  lasting_of_key (Q := fun kind id => kind ≠ .locale → ∃ u, id = .uuid u) keyedByUuid_of_validate

end Record

/-! ## References -/

/-- The key of the template that a reference names: by spelling its key, or by its name if the
reference does not spell the key of a stored template. -/
inductive Database.Refers (db : Database) (reference : String) : RecordId → Prop
  | key {u : Uuid} {row : Row} (spells : RecordId.parse reference = .ok (.uuid u))
    (mem : row ∈ db.records .template)
    (keyed : Row.cell row idField = some (RecordId.uuid u).text) : Refers db reference (.uuid u)
  | name {id : RecordId} {row : Row}
    (unstored : ∀ u, RecordId.parse reference = .ok (.uuid u) → ∀ other ∈ db.records .template,
      Row.cell other idField ≠ some (RecordId.uuid u).text)
    (mem : row ∈ db.records .template) (named : Row.cell row "name" = some reference)
    (keyed : Row.cell row idField = some id.text) : Refers db reference id

namespace Store

variable {s : Store} {contents : Contents} {reference : String} {id : RecordId} {row : Row}

/-- A stored template has a UUID as its key, and a name. -/
theorem Holds.template_row (h : s.Holds contents) (hconforming : contents.Conforming)
    (hkeyed : contents.All Record.KeyedByUuid) (hrow : row ∈ s.database.records .template) :
    ∃ u name, Row.cell row idField = some (RecordId.uuid u).text ∧
      Row.cell row "name" = some name := by
  rw [h.database.records_eq] at hrow
  obtain ⟨r, hr, rfl⟩ := List.mem_map.mp hrow
  have hkind := h.database.kind_eq _ r hr
  obtain ⟨u, hu⟩ := hkeyed _ r hr (by rw [hkind]; decide)
  have hname : FieldSpec.templateName ∈ (Descriptor.shipped r.kind).fields := by
    rw [hkind]
    decide
  obtain ⟨name, -, hcell, -⟩ := (hconforming _ r hr).read?_row hname
  exact ⟨u, name, hu ▸ r.cell_id, hcell⟩

/-- No two templates have the same name. -/
theorem Holds.pairwise_name (h : s.Holds contents) (hconforming : contents.Conforming)
    (hkeyed : contents.All Record.KeyedByUuid) :
    (s.database.records .template).Pairwise fun a b => Row.cell a "name" ≠ Row.cell b "name" := by
  have hindex : IndexSpec.uniqueName ∈ (Descriptor.shipped .template).storage.indexes :=
    List.mem_singleton_self _
  have hdistinct := h.database.distinct .template _ (Descriptor.recordTable_indexed hindex)
  refine hdistinct.imp_of_mem fun {a b} ha _ hagree hname => hagree ?_
  obtain ⟨-, name, -, hcell⟩ := h.template_row hconforming hkeyed ha
  exact ⟨rfl, by simp [Table.keyOf, IndexSpec.uniqueName, hcell],
    List.map_inj_left.mpr (by simpa [IndexSpec.uniqueName] using hname)⟩

/-- The rows of a key of a template are read by looking it up. -/
theorem Holds.get_of_row (h : s.Holds contents) (hrow : row ∈ s.database.records .template)
    (hcell : Row.cell row idField = some id.text) :
    s.get .template id = (Descriptor.shipped .template).ofRow row := by
  rw [h.database.records_eq] at hrow
  obtain ⟨r, hr, rfl⟩ := List.mem_map.mp hrow
  obtain rfl : r.id = id := by simpa using hcell
  exact h.get_of_mem hr

theorem Holds.get_of_no_row (h : s.Holds contents)
    (hnone : ∀ row ∈ s.database.records .template, Row.cell row idField ≠ some id.text) :
    s.get .template id = .error (.noRecord .template id) := by
  refine h.get_of_forall fun stored hstored hid => hnone stored.row ?_ (hid ▸ stored.cell_id)
  rw [h.database.records_eq]
  exact List.mem_map_of_mem hstored

/-- A name is resolved to the key of the one template that has it. -/
theorem Holds.resolveName_cases (h : s.Holds contents)
    (hreads : ∀ row ∈ s.database.records .template,
      ∃ r, (Descriptor.shipped .template).ofRow row = .ok r) :
    (∃ row ∈ s.database.records .template, Row.cell row "name" = some reference ∧
      ∃ id, Row.cell row idField = some id.text ∧ s.resolveName reference = .ok id) ∨
    (∀ row ∈ s.database.records .template, Row.cell row "name" ≠ some reference) ∧
      s.resolveName reference = .error (.notFound reference) := by
  have hfind := h.findBy_name_eq reference
  cases hrow : s.holding? .template [("name", reference)] with
  | none =>
    refine .inr ⟨fun row hmem hname => ?_, ?_⟩
    · exact holding?_eq_none_iff.mp hrow row hmem (List.forall_mem_singleton.mpr hname)
    · simp [resolveName, hfind, hrow]
  | some row =>
    obtain ⟨hmem, hmeets⟩ := mem_of_holding? hrow
    obtain ⟨r, hread⟩ := hreads row hmem
    refine .inl ⟨row, hmem, hmeets _ (List.mem_singleton_self _), r.id, ?_, ?_⟩
    · rw [h.database.records_eq] at hmem
      obtain ⟨stored, hstored, rfl⟩ := List.mem_map.mp hmem
      have hkind := h.database.kind_eq _ stored hstored
      rw [← hkind] at hread
      rw [(Record.identity_of_ofRow hread).1, stored.cell_id]
    · simp [resolveName, hfind, hrow, hread, Except.map]

/-- A reference is resolved to the key of the template that it names. -/
theorem Holds.resolveTemplate_cases (h : s.Holds contents)
    (hreads : ∀ row ∈ s.database.records .template,
      ∃ r, (Descriptor.shipped .template).ofRow row = .ok r) :
    (∃ id, s.database.Refers reference id ∧ s.resolveTemplate reference = .ok id) ∨
    (∀ id, ¬ s.database.Refers reference id) ∧
      s.resolveTemplate reference = .error (.notFound reference) := by
  by_cases hstored : ∃ u, RecordId.parse reference = .ok (.uuid u) ∧
      ∃ row ∈ s.database.records .template, Row.cell row idField = some (RecordId.uuid u).text
  · obtain ⟨u, hparse, row, hrow, hcell⟩ := hstored
    obtain ⟨r, hread⟩ := hreads row hrow
    refine .inl ⟨.uuid u, .key hparse hrow hcell, ?_⟩
    simp [resolveTemplate, hparse, h.get_of_row hrow hcell, hread]
  · have hunstored : ∀ u, RecordId.parse reference = .ok (.uuid u) →
        ∀ row ∈ s.database.records .template,
          Row.cell row idField ≠ some (RecordId.uuid u).text :=
      fun u hparse row hrow hcell => hstored ⟨u, hparse, row, hrow, hcell⟩
    have hname : s.resolveTemplate reference = s.resolveName reference := by
      rw [resolveTemplate]
      split
      · next u hparse => simp [h.get_of_no_row (hunstored u hparse)]
      · rfl
    rw [hname]
    rcases h.resolveName_cases hreads with ⟨row, hrow, hnamed, id, hcell, hok⟩ | ⟨hnone, hfail⟩
    · exact .inl ⟨id, .name hunstored hrow hnamed hcell, hok⟩
    · refine .inr ⟨fun id hrefers => ?_, hfail⟩
      cases hrefers with
      | key spells mem keyed => exact hunstored _ spells _ mem keyed
      | name _ mem named _ => exact hnone _ mem named

/-- A reference names one template at most. -/
theorem Holds.refers_unique (h : s.Holds contents) (hconforming : contents.Conforming)
    (hkeyed : contents.All Record.KeyedByUuid) {id' : RecordId}
    (hid : s.database.Refers reference id) (hid' : s.database.Refers reference id') :
    id = id' := by
  cases hid with
  | key spells mem keyed =>
    cases hid' with
    | key spells' => simpa [spells] using spells'
    | name unstored => exact absurd keyed (unstored _ spells _ mem)
  | @name _ row unstored mem named keyed =>
    cases hid' with
    | key spells' mem' keyed' => exact absurd keyed' (unstored _ spells' _ mem')
    | @name _ row' _ mem' named' keyed' =>
      have hsymm : Std.Symm fun a b : Row => Row.cell a "name" ≠ Row.cell b "name" :=
        ⟨fun _ _ hne => hne.symm⟩
      have hsame : row = row' := by
        by_contra hne
        exact (h.pairwise_name hconforming hkeyed).forall mem mem' hne (named.trans named'.symm)
      rw [hsame, keyed'] at keyed
      exact (RecordId.text_injective (Option.some.inj keyed)).symm

/-- In every store of a run that is supplied with records obtained before, when all templates can
be read, a reference is resolved to the key that it spells if a template with that key is stored,
to the key of the one template with that name otherwise, and to nothing if there is none. So
every stored template is found by all spellings of its key, and by its name unless the name spells
the key of another one. -/
theorem SuppliedRun.resolve_outcome {ops : List Operation} (h : SuppliedRun ops)
    (hreads : ∀ row ∈ (initial.run ops).database.records .template,
      ∃ r, (Descriptor.shipped .template).ofRow row = .ok r) :
    (∀ reference id, (initial.run ops).resolveTemplate reference = .ok id ↔
      (initial.run ops).database.Refers reference id) ∧
    (∀ reference, (∀ id, ¬ (initial.run ops).database.Refers reference id) →
      (initial.run ops).resolveTemplate reference = .error (.notFound reference)) ∧
    ((initial.run ops).database.records .template).Pairwise
      (fun a b => Row.cell a "name" ≠ Row.cell b "name") ∧
    ∀ row ∈ (initial.run ops).database.records .template, ∃ u name,
      Row.cell row idField = some (RecordId.uuid u).text ∧ Row.cell row "name" = some name ∧
      (∀ spelling, RecordId.parse spelling = .ok (.uuid u) →
        (initial.run ops).resolveTemplate spelling = .ok (.uuid u)) ∧
      ((¬ ∃ v, v ≠ u ∧ RecordId.parse name = .ok (.uuid v) ∧
          ∃ other ∈ (initial.run ops).database.records .template,
            Row.cell other idField = some (RecordId.uuid v).text) →
        (initial.run ops).resolveTemplate name = .ok (.uuid u)) := by
  obtain ⟨contents, hholds, hall⟩ :=
    (Record.lasting_conforms.and Record.lasting_keyedByUuid).run h _ ⟨ops, List.prefix_rfl, rfl⟩
  have hconforming : contents.Conforming := fun kind r hr => (hall kind r hr).1
  have hkeyed : contents.All Record.KeyedByUuid := fun kind r hr => (hall kind r hr).2
  have hresolves : ∀ reference id, (initial.run ops).resolveTemplate reference = .ok id ↔
      (initial.run ops).database.Refers reference id := by
    intro reference id
    rcases hholds.resolveTemplate_cases hreads with ⟨named, hrefers, hok⟩ | ⟨hnone, hfail⟩
    · rw [hok, Except.ok.injEq]
      exact ⟨fun heq => heq ▸ hrefers, hholds.refers_unique hconforming hkeyed hrefers⟩
    · simp [hfail, hnone id]
  refine ⟨hresolves, fun reference hnone => ?_, hholds.pairwise_name hconforming hkeyed,
    fun row hrow => ?_⟩
  · rcases hholds.resolveTemplate_cases hreads with ⟨id, hrefers, -⟩ | ⟨-, hfail⟩
    · exact absurd hrefers (hnone id)
    · exact hfail
  · obtain ⟨u, name, hcell, hname⟩ := hholds.template_row hconforming hkeyed hrow
    refine ⟨u, name, hcell, hname, fun spelling hparse => ?_, fun hfree => ?_⟩
    · exact (hresolves spelling _).mpr (.key hparse hrow hcell)
    · rw [hresolves]
      by_cases hown : RecordId.parse name = .ok (.uuid u)
      · exact .key hown hrow hcell
      · refine .name (fun v hparse other hother hkey => hfree ⟨v, ?_, hparse, other, hother, hkey⟩)
          hrow hname hcell
        rintro rfl
        exact hown hparse

/-- The sample template is found by its name. -/
theorem resolve_sampleTemplate :
    (initial.run (Operation.sampleRun .sample .sample Uuid.sample.text)).resolveTemplate
      "welcome" = .ok (.uuid .sample) := by
  have hholds := holds_sampleRun (x := .sample) (Format.isUuid_text .sample)
    (RecordId.parse_text (.uuid _))
  have hmem : (Record.sampleTemplate .sample).row ∈ (initial.run (Operation.sampleRun .sample
      .sample Uuid.sample.text)).database.records .template := by
    rw [hholds.database.records_eq]
    exact List.mem_map_of_mem (List.mem_singleton_self _)
  have hparse : (RecordId.parse "welcome").isOk = false := by decide
  refine ((suppliedRun_sampleRun.resolve_outcome (readable_sampleRun .template)).1 "welcome"
    _).mpr (.name (fun u hu => ?_) hmem rfl (Record.cell_id _))
  rw [hu] at hparse
  cases hparse

end Store
end Phrasebook
