import Phrasebook.Command.Locales
import Phrasebook.Command.Templates
import Phrasebook.Proofs.Actions
import Phrasebook.Proofs.TypedForms

/-!
# Conversions

The typed form of a record that validation makes is spelled by the record, so its flat form
describes the record again. The commands that add a locale or a template convert the record
that they have just stored; they have nothing to fail at by then.

## Main definitions

* `Command.Action.FailsUnstored`: a command that fails has stored nothing
* `Command.Describes`: a document describes a template
-/
namespace Phrasebook

/-! ## Back from the typed form -/

/-- A typed record has the fields that are declared for its kind. -/
theorem Entity.names_entries (e : Entity) :
    Fields.names e.entries = (Descriptor.shipped e.kind).fields.map FieldSpec.name := by
  cases e <;> rfl

namespace Record

variable {r : Record} {name : String} {value : Json} {c u : Instant}

@[simp] theorem kind_respelled : r.respelled.kind = r.kind := by unfold respelled; split <;> rfl

@[simp] theorem created_respelled : r.respelled.created = r.created := by
  unfold respelled; split <;> rfl

@[simp] theorem updated_respelled : r.respelled.updated = r.updated := by
  unfold respelled; split <;> rfl

theorem sorted_respelled (h : r.fields.Sorted) : r.respelled.fields.Sorted := by
  unfold respelled
  split
  · exact h.insert
  · exact h

/-- Respelling the template gives no other name a value. -/
theorem get?_respelled_eq_none_iff (name : String) :
    r.respelled.fields.get? name = none ↔ r.fields.get? name = none := by
  unfold respelled
  split
  · next s hs =>
    have hsome : r.fields.get? "template" ≠ none := by
      intro hnone
      simp [getStr?, Fields.getStr?, hnone] at hs
    rw [Fields.get?_insert]
    split
    · next hname => simp [← hname, hsome]
    · rfl
  · rfl

namespace Typable

/-- A record with a typed form is converted to it. -/
theorem exists_entity (h : r.Typable) (hc : Instant.parse r.created.text = .ok c)
    (hu : Instant.parse r.updated.text = .ok u) : ∃ e, Entity.ofRecord r.kind r = .ok e ∧
      e.kind = r.kind ∧ (c = r.created → u = r.updated → r.Conforms → e.Spells r.respelled) := by
  have hof : ∀ e, Entity.ofJson r.kind r.toJson = .ok e → Entity.ofRecord r.kind r = .ok e := by
    intro e he
    simp [Entity.ofRecord, expectKind, he, bind, Except.bind]
  cases hkind : r.kind with
  | locale =>
    obtain ⟨l, hl, hspells⟩ := h.exists_locale hkind hc hu
    rw [hkind] at hof
    exact ⟨.locale l, hof _ (by rw [Entity.ofJson, hl]; rfl), rfl,
      fun hcreated hupdated _ => hspells hcreated hupdated⟩
  | template =>
    obtain ⟨t, ht, hspells⟩ := h.exists_template hkind hc hu
    rw [hkind] at hof
    exact ⟨.template t, hof _ (by rw [Entity.ofJson, ht]; rfl), rfl, hspells⟩
  | email =>
    obtain ⟨e, he, hspells⟩ := h.exists_email hkind hc hu
    rw [hkind] at hof
    exact ⟨.email e, hof _ (by rw [Entity.ofJson, he]; rfl), rfl,
      fun hcreated hupdated _ => hspells hcreated hupdated⟩
  | sms =>
    obtain ⟨v, hv, hspells⟩ := h.exists_sms hkind hc hu
    rw [hkind] at hof
    exact ⟨.sms v, hof _ (by rw [Entity.ofJson, hv]; rfl), rfl,
      fun hcreated hupdated _ => hspells hcreated hupdated⟩

/-- The flat form of a typed record that spells a respelled record describes that record. -/
theorem ofFields_toFields (h : r.Typable) {e : Entity} (hkind : e.kind = r.kind)
    (hspells : e.Spells r.respelled) (hc : Instant.parse r.created.text = .ok r.created)
    (hu : Instant.parse r.updated.text = .ok r.updated) :
    ofFields r.kind e.toFields = .ok r.respelled := by
  have hall : ∀ name, e.toFields.get? name = r.respelled.get? name := by
    intro name
    rw [Entity.toFields, Fields.ofList, Fields.get?_override_of_forall hspells, e.names_entries,
      hkind]
    split
    · rfl
    · next hundeclared =>
      cases hidentity : isIdentityField name with
      | true =>
        obtain ⟨f, hf, rfl, -⟩ := Descriptor.identity_declared r.kind hidentity
        exact absurd (List.mem_map_of_mem hf) hundeclared
      | false =>
        rw [Record.get?_eq_fields hidentity]
        cases hold : r.fields.get? name with
        | none => exact ((get?_respelled_eq_none_iff name).mpr hold).symm
        | some value =>
          obtain ⟨-, f, hf, rfl⟩ := Descriptor.declares_changes h.flat h.accepted name value hold
          exact absurd (List.mem_map_of_mem hf) hundeclared
  refine ofFields_eq_ok_iff.mpr ⟨⟨_, hall idField, RecordId.parse_text _⟩,
    ⟨_, hall createdField, ?_⟩, ⟨_, hall updatedField, ?_⟩, kind_respelled, ?_⟩
  · rw [created_respelled, hc]
  · rw [updated_respelled, hu]
  · exact (filter_eq_fields (Fields.sorted_ofList _) (sorted_respelled h.sorted)
      (fun name hname => (get?_respelled_eq_none_iff name).mpr (h.flat name hname)) hall).symm

end Typable

end Record

/-! ## Adding records -/

namespace Command

variable {r : Record} {options : Options} {context : Context} {w w' : World} {d : Diagnostic}

theorem total_localeOf (h : r.Typable) (hkind : r.kind = .locale)
    (hyears : r.created.InYears ∧ r.updated.InYears) : (localeOf r).Total := by
  obtain ⟨_, _, -, hc⟩ := Instant.exists_parse_text hyears.1
  obtain ⟨_, _, -, hu⟩ := Instant.exists_parse_text hyears.2
  obtain ⟨l, hl, -⟩ := h.exists_locale hkind hc hu
  have hpure : localeOf r = pure l := by
    simp [localeOf, Record.expectKind, hkind, hl, bind, Except.bind, Except.mapError, orFail]
  rw [hpure]
  exact total_pure l

theorem total_typedTemplate (h : r.Typable) (hkind : r.kind = .template)
    (hyears : r.created.InYears ∧ r.updated.InYears) : (typedTemplate r).Total := by
  obtain ⟨_, _, -, hc⟩ := Instant.exists_parse_text hyears.1
  obtain ⟨_, _, -, hu⟩ := Instant.exists_parse_text hyears.2
  obtain ⟨t, ht, -⟩ := h.exists_template hkind hc hu
  have hpure : typedTemplate r = pure t := by
    simp [typedTemplate, Record.expectKind, hkind, ht, bind, Except.bind, Except.mapError, orFail]
  rw [hpure]
  exact total_pure t

/-- A command that fails has left the world as it was, or as opening the store leaves it: it
has stored nothing. -/
def Action.FailsUnstored {α : Type} (x : Action α) (options : Options) (context : Context)
    (w : World) : Prop :=
  ∀ d w', x context w = (.error d, w') → w' = w ∨ w' = (openStore options context w).2

/-- Storing a record in an opened store and then doing what does not fail. -/
theorem failsUnstored_of_total {α : Type} {rest : Action α} (h : rest.Total) :
    Action.FailsUnstored (do createRecord (← openStore options) r; rest) options context w := by
  intro d w' hfail
  rcases bind_error hfail with hopen | ⟨s, w₁, hopen, hstore⟩
  · exact .inr (by rw [hopen])
  rcases bind_error hstore with hcreate | ⟨⟨⟩, w₂, -, hrest⟩
  · exact .inr (by rw [hopen, createRecord_error hcreate])
  · exact absurd hrest h.ne_error

/-- A document describes the record of a template. -/
def Describes (file : Path) (context : Context) (w : World) (r : Record) : Prop :=
  ∃ content filename, (readDocument file context w).1 = .ok (content, filename) ∧
    Registry.builtin.validateDocument .template filename content context.fresh context.now = .ok r

/-- Adding a locale in a year of four digits fails only before the locale is stored. -/
theorem addLocale_failsUnstored (code : LocaleCode) (name : String)
    (hyears : context.now.InYears) :
    (addLocale options code name).FailsUnstored options context w := by
  intro d w' hfail
  unfold addLocale at hfail
  rw [read_bind_run] at hfail
  rcases bind_error hfail with hinvalid | ⟨r, w₁, hvalid, hrest⟩
  · exact .inl ((readOnly_orFail _ _).eq hinvalid)
  obtain ⟨hmade, rfl⟩ := orFail_ok hvalid
  refine failsUnstored_of_total ?_ d w' hrest
  obtain ⟨candidate, hcandidate, -, hr⟩ := Registry.validate_eq_ok_iff.mp hmade
  -- The candidate gives no times, so the record has the time of the clock.
  have hnone : Descriptor.givenInstant? candidate createdField = none ∧
      Descriptor.givenInstant? candidate updatedField = none := by
    cases hcandidate
    constructor <;>
      simp [Descriptor.givenInstant?, Fields.getStr?, Fields.ofList, Fields.override,
        createdField, updatedField]
  have htimes : r.created.InYears ∧ r.updated.InYears := by
    rw [hr]
    simp [Record.ofCandidate, hnone, Descriptor.wellFormed?, Instant.max, hyears]
  have hkind : r.kind = .locale := by rw [hr]; rfl
  refine (total_localeOf (Record.typable_of_validate hmade) hkind htimes).bind fun l => ?_
  split
  · exact total_printLine _
  · exact total_report _ _

/-- Adding a template fails only before the template is stored, if its document gives it times
in years of four digits. -/
theorem addTemplate_failsUnstored (file : Path)
    (hyears : ∀ r, Describes file context w r → r.created.InYears ∧ r.updated.InYears) :
    (addTemplate options file).FailsUnstored options context w := by
  intro d w' hfail
  unfold addTemplate at hfail
  rw [read_bind_run] at hfail
  rcases bind_error hfail with hread | ⟨⟨content, filename⟩, w₁, hread, hrest⟩
  · exact .inl ((readOnly_readDocument file).eq hread)
  obtain rfl := (readOnly_readDocument file).eq hread
  rcases bind_error hrest with hinvalid | ⟨r, w₂, hvalid, hstore⟩
  · exact .inl ((readOnly_orFail _ _).eq hinvalid)
  obtain ⟨hmade, rfl⟩ := orFail_ok hvalid
  refine failsUnstored_of_total ?_ d w' hstore
  have htimes := hyears r ⟨content, filename, by rw [hread], hmade⟩
  obtain ⟨value, -, hvalidate⟩ := bind_eq_ok_iff.mp hmade
  have hvalid := mapError_eq_ok_iff.mp hvalidate
  have hkind : r.kind = .template := by
    obtain ⟨candidate, -, -, rfl⟩ := Registry.validate_eq_ok_iff.mp hvalid
    rfl
  refine (total_typedTemplate (Record.typable_of_validate hvalid) hkind htimes).bind fun t => ?_
  split
  · exact total_printLine _
  · split
    · exact total_pure ()
    · exact total_printLines _

end Command

/-! ## Records that are made -/

/-- Every record that validation makes, with times in years of four digits, is converted to its
typed form; and the flat form of that is the record again, the template that a variant belongs
to in its canonical spelling. So the commands that convert a record after they have stored it
store none if they fail. -/
theorem Entity.ofRecord_made :
    (∀ r, Registry.builtin.Makes r → r.created.InYears → r.updated.InYears →
      ∃ e, ofRecord r.kind r = .ok e ∧ (r.created.Proper → r.updated.Proper →
        Record.ofFields r.kind e.toFields = .ok r.respelled)) ∧
    (∀ options code name context w, context.now.InYears →
      (Command.addLocale options code name).FailsUnstored options context w) ∧
    ∀ options file context w,
      (∀ r, Command.Describes file context w r → r.created.InYears ∧ r.updated.InYears) →
      (Command.addTemplate options file).FailsUnstored options context w := by
  refine ⟨fun r hmade hcreated hupdated => ?_, fun options code name context w hyears =>
    Command.addLocale_failsUnstored code name hyears, fun options file context w hyears =>
    Command.addTemplate_failsUnstored file hyears⟩
  obtain ⟨_, _, -, hc⟩ := Instant.exists_parse_text hcreated
  obtain ⟨_, _, -, hu⟩ := Instant.exists_parse_text hupdated
  obtain ⟨e, he, hkind, hspells⟩ := hmade.typable.exists_entity hc hu
  refine ⟨e, he, fun hcreatedProper hupdatedProper => ?_⟩
  have hcreatedText := Instant.parse_text hcreatedProper hcreated
  have hupdatedText := Instant.parse_text hupdatedProper hupdated
  have hsame : e.Spells r.respelled :=
    hspells (Except.ok.inj (hc.symm.trans hcreatedText))
      (Except.ok.inj (hu.symm.trans hupdatedText)) hmade.conforms
  exact hmade.typable.ofFields_toFields hkind hsame hcreatedText hupdatedText

/-- An email variant that spells the key of its template in capitals, a locale and a template
that are added. -/
theorem Entity.ofRecord_capitals :
    (∃ r e, Registry.builtin.Makes r ∧
      r.getStr? "template" = some "3F2A6C1E-9B7D-4E2A-8C41-0D5E6F7A8B9C" ∧
      ofRecord .email r = .ok e ∧ Record.ofFields .email e.toFields = .ok r.respelled ∧
      r.respelled.getStr? "template" = some "3f2a6c1e-9b7d-4e2a-8c41-0d5e6f7a8b9c") ∧
    ∃ context w r, context.now.InYears ∧ Command.Describes ⟨"-"⟩ context w r ∧
      (Command.addLocale {} ⟨"en-US", rfl⟩ "English").FailsUnstored {} context w ∧
      (Command.addTemplate {} ⟨"-"⟩).FailsUnstored {} context w := by
  let capitals : Fields := (Descriptor.sample .email).insert "template"
    (.str "3F2A6C1E-9B7D-4E2A-8C41-0D5E6F7A8B9C")
  let r := Record.ofCandidate .email capitals .sample ⟨0, 0⟩
  let context : Command.Context :=
    { environment := [], working := [], input := "name: welcome\n", now := ⟨0, 0⟩,
      fresh := .sample }
  let t := Record.ofCandidate .template (Descriptor.sample .template) .sample ⟨0, 0⟩
  have hmade : Registry.builtin.Makes r :=
    .create (Json.wellFormed_of_texts (by decide) (by decide))
      (show Registry.builtin.validate .email (.obj capitals) .sample ⟨0, 0⟩ = .ok r by
        decide +kernel)
  have hread : (Command.readDocument ⟨"-"⟩ context ⟨⟨[]⟩, ""⟩).1 =
      .ok ("name: welcome\n", "<stdin>") := rfl
  have hdocument : Registry.builtin.validateDocument .template "<stdin>" "name: welcome\n" .sample
      ⟨0, 0⟩ = .ok t := by
    decide +kernel
  obtain ⟨e, he, hback⟩ := ofRecord_made.1 r hmade (by decide +kernel) (by decide +kernel)
  refine ⟨⟨r, e, hmade, by decide +kernel, he, hback (by decide) (by decide), by decide +kernel⟩,
    context, ⟨⟨[]⟩, ""⟩, t, by decide +kernel, ⟨_, _, hread, hdocument⟩,
    ofRecord_made.2.1 _ _ _ _ _ (by decide +kernel),
    ofRecord_made.2.2 _ _ _ _ fun other hdescribes => ?_⟩
  obtain ⟨content, filename, hsame, hother⟩ := hdescribes
  cases hread.symm.trans hsame
  cases hdocument.symm.trans hother
  decide +kernel

end Phrasebook
