import Phrasebook.Proofs.Changes
import Phrasebook.Proofs.Composition
import Phrasebook.Proofs.Updates
import Phrasebook.Proofs.VariantLocales

/-!
# What a creation answers

A validated record is stored exactly when the records it refers to are there, its key is free
and no stored record has its values in a unique index. A missing record is reported first, and
the engine's failure is always traced to an index that is really repeated.

## Main definitions

* `Record.referred?`: the key that a reference spells
* `Store.resolves`: a reference is to a stored row
* `Store.Repeats`: a stored row has the values of a record in an index
* `Store.Creation`: the outcome of a creation
-/
namespace Phrasebook

/-- The key that a reference field of a record spells. -/
def Record.referred? (r : Record) (f : FieldSpec) : Option RecordId :=
  (r.getStr? f.name).bind fun raw => (RecordId.parse raw).toOption

namespace Store

/-- A reference field of a record spells the key of a stored row. -/
def resolves (s : Store) (r : Record) (ref : FieldSpec × RecordKind) : Bool :=
  (r.referred? ref.1).any (s.stores ref.2)

/-- A stored row has the texts of a record in all columns of an index. -/
def Repeats (s : Store) (r : Record) (index : IndexSpec) : Prop :=
  ∃ row ∈ s.database.records r.kind, ∀ name ∈ index.fields, Row.cell row name = Row.cell r.row name

/-- The outcome of creating a record. -/
inductive Creation (s : Store) (r : Record) (actor : String) (now : Instant) :
    Except StoreError Store → Prop
  /-- The first reference that is to no stored row is reported. -/
  | missing {ref : FieldSpec × RecordKind} {parent : RecordId}
    (first : (Descriptor.shipped r.kind).referenceFields.find? (fun ref => !s.resolves r ref) =
      some ref)
    (spells : r.referred? ref.1 = some parent) :
    Creation s r actor now (.error (.noRecord ref.2 parent))
  /-- The key is taken. -/
  | taken (resolved : ∀ ref ∈ (Descriptor.shipped r.kind).referenceFields, s.resolves r ref = true)
    (stored : s.stores r.kind r.id = true) :
    Creation s r actor now (.error (.duplicate r.kind primaryIndexName))
  /-- A unique index is repeated. -/
  | repeated {index : IndexSpec}
    (resolved : ∀ ref ∈ (Descriptor.shipped r.kind).referenceFields, s.resolves r ref = true)
    (declared : index ∈ (Descriptor.shipped r.kind).storage.indexes)
    (unique : index.unique = true) (repeats : s.Repeats r index) :
    Creation s r actor now (.error (.duplicate r.kind index.name))
  /-- The row of the record is stored after the others. -/
  | created {s' : Store}
    (resolved : ∀ ref ∈ (Descriptor.shipped r.kind).referenceFields, s.resolves r ref = true)
    (free : s.stores r.kind r.id = false)
    (unrepeated : ∀ index ∈ (Descriptor.shipped r.kind).storage.indexes, index.unique = true →
      ¬ s.Repeats r index)
    (registry_eq : s'.registry = s.registry)
    (database_eq : s'.database = .ofRows
      (Function.update s.database.records r.kind (s.database.records r.kind ++ [r.row]))
      (Function.update s.database.journal r.kind
        (s.database.journal r.kind ++ [(r.creation actor now).row]))) :
    Creation s r actor now (.ok s')

end Store

variable {kind : RecordKind} {input : Json} {fresh : Uuid} {clock : Instant} {r : Record}

/-! ## Records from validation -/

/-- Only variants refer to other records, to their template and to their locale. -/
theorem Descriptor.referenceFields_shipped (kind : RecordKind) :
    (shipped kind).referenceFields =
      if kind ∈ RecordKind.variants then [(.parentTemplate, .template), (.variantLocale, .locale)]
      else [] := by
  cases kind <;> decide

namespace Record

theorem kind_of_validate (h : Registry.builtin.validate kind input fresh clock = .ok r) :
    r.kind = kind := by
  obtain ⟨candidate, -, -, rfl⟩ := Registry.validate_eq_ok_iff.mp h
  rfl

/-- Validation accepts references that spell keys. -/
theorem referred_of_validate (h : Registry.builtin.validate kind input fresh clock = .ok r) :
    ∀ ref ∈ (Descriptor.shipped r.kind).referenceFields,
      ∃ parent, r.referred? ref.1 = some parent := by
  obtain rfl := kind_of_validate h
  intro ref href
  rw [Descriptor.referenceFields_shipped] at href
  split at href
  · next hvariant =>
    rcases List.mem_pair.mp href with rfl | rfl
    · obtain ⟨⟨text, hget, -, huuid⟩, -⟩ := template_of_validate hvariant h
      obtain ⟨u, hparse⟩ := RecordId.parse_of_isUuid huuid
      have hget : r.getStr? FieldSpec.parentTemplate.name = some text := hget
      exact ⟨.uuid u, by simp [referred?, hget, hparse, Except.toOption]⟩
    · obtain ⟨text, hget, hcode⟩ := namesLocale_of_validate h hvariant
      have hget : r.getStr? FieldSpec.variantLocale.name = some text := hget
      exact ⟨.locale ⟨text, hcode⟩,
        by simp [referred?, hget, RecordId.parse_of_isLocaleText hcode, Except.toOption]⟩
  · cases href

/-- The row of a validated record has a text in every column. -/
theorem isSome_cell_of_validate (h : Registry.builtin.validate kind input fresh clock = .ok r)
    {f : FieldSpec} (hf : f ∈ (Descriptor.shipped r.kind).fields) :
    (Row.cell r.row f.name).isSome = true := by
  obtain ⟨candidate, -, hviolations, rfl⟩ := Registry.validate_eq_ok_iff.mp h
  exact isSome_cell_ofCandidate (Descriptor.candidateViolations_eq_nil_iff.mp hviolations).1 hf

end Record

namespace Store

variable {s : Store} {contents : Contents} {actor : String} {now : Instant}

/-! ## Creations -/

/-- A reference that spells a key is to a stored row, or fails for that key. -/
theorem checkReference_eq (hreg : s.registry = .builtin) (h : s.database.Installed)
    {f : FieldSpec} {target : RecordKind} {parent : RecordId}
    (hspells : r.referred? f = some parent) :
    s.checkReference r f target =
      if s.stores target parent then .ok () else .error (.noRecord target parent) := by
  obtain ⟨raw, hraw, hparse⟩ := Option.bind_eq_some_iff.mp hspells
  have hparse : RecordId.parse raw = .ok parent := by
    cases hrun : RecordId.parse raw with
    | error e => simp [hrun, Except.toOption] at hparse
    | ok id => simpa [hrun, Except.toOption] using hparse
  exact checkReference_of_parse hreg h hraw hparse

/-- References are checked in order; the first one that is to no stored row fails. -/
theorem checkReferences_eq (hreg : s.registry = .builtin) (h : s.database.Installed)
    {refs : List (FieldSpec × RecordKind)}
    (hspells : ∀ ref ∈ refs, ∃ parent, r.referred? ref.1 = some parent) :
    (∃ ref parent, refs.find? (fun ref => !s.resolves r ref) = some ref ∧
      r.referred? ref.1 = some parent ∧
      s.checkReferences r refs = .error (.noRecord ref.2 parent)) ∨
    (∀ ref ∈ refs, s.resolves r ref = true) ∧ s.checkReferences r refs = .ok () := by
  induction refs with
  | nil => exact .inr ⟨by simp, rfl⟩
  | cons ref rest ih =>
    obtain ⟨⟨parent, hparent⟩, hrest⟩ := List.forall_mem_cons.mp hspells
    have hone : s.checkReference r ref.1 ref.2 =
        if s.stores ref.2 parent then .ok () else .error (.noRecord ref.2 parent) :=
      checkReference_eq hreg h hparent
    have hresolves : s.resolves r ref = s.stores ref.2 parent := by simp [resolves, hparent]
    rw [checkReferences, hone, List.find?_cons, hresolves]
    cases hstored : s.stores ref.2 parent with
    | false => exact .inl ⟨ref, parent, rfl, hparent, rfl⟩
    | true =>
      refine (ih hrest).imp id (And.imp_left fun hall => ?_)
      exact List.forall_mem_cons.mpr ⟨hresolves.trans hstored, hall⟩

section Check

variable (hvalid : Registry.builtin.validate kind input fresh clock = .ok r)
include hvalid

/-- The columns of a declared index hold texts. -/
theorem isSome_index {index : IndexSpec}
    (hindex : index ∈ (Descriptor.shipped r.kind).storage.indexes) :
    ∀ name ∈ index.fields, (Row.cell r.row name).isSome = true := by
  intro name hname
  obtain ⟨-, f, hf, rfl⟩ := Descriptor.index_fields r.kind index hindex name hname
  exact Record.isSome_cell_of_validate hvalid hf

/-- A row that fails its check has a key or the values of a unique index that are taken, and the
failure says which. -/
theorem clash_cases {failure : EngineError}
    (hcheck : ((Descriptor.shipped r.kind).recordTable []).check (s.database.records r.kind) r.row =
      .error failure) :
    s.stores r.kind r.id = true ∧
        (Descriptor.shipped r.kind).storeError failure = .duplicate r.kind primaryIndexName ∨
      ∃ index ∈ (Descriptor.shipped r.kind).storage.indexes, index.unique = true ∧
        s.Repeats r index ∧
        (Descriptor.shipped r.kind).storeError failure = .duplicate r.kind index.name := by
  have hnull : ∀ c ∈ ((Descriptor.shipped r.kind).recordTable []).columns, c.notNull = true →
      (Row.cell r.row c.name).isSome = true := by
    intro c hc _
    obtain ⟨f, hf, rfl⟩ := List.mem_map.mp hc
    exact Record.isSome_cell_of_validate hvalid hf
  obtain ⟨index, hindex, rfl, other, hother, hagree⟩ := Table.check_eq_error hcheck hnull
  rcases List.mem_cons.mp hindex with rfl | hindex
  · obtain ⟨-, hkey⟩ := Table.agree_primary.mp hagree
    refine .inl ⟨List.any_eq_true.mpr ⟨other, hother, ?_⟩, Descriptor.storeError_primary r.kind⟩
    rw [Table.holds, ← hkey, Record.cell_id]
    exact beq_self_eq_true _
  · obtain ⟨declared, hdeclared, rfl⟩ := List.mem_map.mp hindex
    have hunique : declared.unique = true := hagree.1
    have hkeys : ∀ name ∈ declared.fields, Row.cell r.row name = Row.cell other name :=
      List.map_inj_left.mp hagree.2.2
    exact .inr ⟨declared, hdeclared, hunique, ⟨other, hother, fun name hname =>
      (hkeys name hname).symm⟩, Descriptor.storeError_clash r.kind declared hdeclared hunique⟩

/-- A row that passes its check has a free key and repeats no unique index. -/
theorem free_of_check
    (hcheck : ((Descriptor.shipped r.kind).recordTable []).check (s.database.records r.kind) r.row =
      .ok ()) :
    s.stores r.kind r.id = false ∧ ∀ index ∈ (Descriptor.shipped r.kind).storage.indexes,
      index.unique = true → ¬ s.Repeats r index := by
  have hnone := (Table.check_eq_ok_iff.mp hcheck).2
  constructor
  · refine List.any_eq_false.mpr fun other hother hkey => ?_
    refine hnone _ (Descriptor.primaryIndex_mem r.kind) other hother (Table.agree_primary.mpr ?_)
    have hcell : Row.cell other idField = some r.id.text := by simpa [Table.holds] using hkey
    simp [hcell]
  · rintro index hindex hunique ⟨other, hother, hcells⟩
    refine hnone ⟨(Descriptor.shipped r.kind).indexName index .sqlite, index.fields, index.unique⟩
      (List.mem_cons_of_mem _ (List.mem_map_of_mem hindex)) other hother ⟨hunique, ?_, ?_⟩
    · simpa [Table.keyOf] using isSome_index hvalid hindex
    · exact List.map_inj_left.mpr fun name hname => (hcells name hname).symm

end Check

/-- The store with one record more has its row and its entry, and nothing else. -/
theorem database_added (hcomposed : s.database.Composed) (h : s.database.Installed) :
    (s.added r actor now).database = .ofRows
      (Function.update s.database.records r.kind (s.database.records r.kind ++ [r.row]))
      (Function.update s.database.journal r.kind
        (s.database.journal r.kind ++ [(r.creation actor now).row])) := by
  refine (composed_added hcomposed h r actor now).eq_ofRows (fun other => ?_) fun other hrec => ?_
  · rw [added, Database.records_note, h.records_putRecords]
  · rw [journal_added h hrec]
    by_cases hother : other = r.kind
    · subst hother
      simp
    · simp [hother]

/-- A creation succeeds exactly when nothing is missing or taken. -/
theorem Creation.ok_iff {outcome : Except StoreError Store} (h : s.Creation r actor now outcome) :
    (∃ s', outcome = .ok s') ↔
      (∀ ref ∈ (Descriptor.shipped r.kind).referenceFields, s.resolves r ref = true) ∧
      s.stores r.kind r.id = false ∧
      ∀ index ∈ (Descriptor.shipped r.kind).storage.indexes, index.unique = true →
        ¬ s.Repeats r index := by
  cases h with
  | missing first spells =>
    simp only [reduceCtorEq, exists_false, false_iff, not_and]
    intro hall
    have hunresolved := List.find?_some first
    simp [hall _ (List.mem_of_find?_eq_some first)] at hunresolved
  | taken resolved stored => simp [stored]
  | repeated resolved declared unique repeats =>
    simp only [reduceCtorEq, exists_false, false_iff, not_and]
    exact fun _ _ hunrepeated => hunrepeated _ declared unique repeats
  | created resolved free unrepeated registry_eq database_eq =>
    exact ⟨fun _ => ⟨resolved, free, unrepeated⟩, fun _ => ⟨_, rfl⟩⟩

/-- The first reference that is to no stored row decides the answer. -/
theorem Creation.eq_noRecord {outcome : Except StoreError Store}
    (h : s.Creation r actor now outcome) {ref : FieldSpec × RecordKind} {parent : RecordId}
    (hfirst : (Descriptor.shipped r.kind).referenceFields.find? (fun ref => !s.resolves r ref) =
      some ref)
    (hspells : r.referred? ref.1 = some parent) : outcome = .error (.noRecord ref.2 parent) := by
  have hunresolved : s.resolves r ref = false := by simpa using List.find?_some hfirst
  have hmem := List.mem_of_find?_eq_some hfirst
  cases h with
  | missing first spells =>
    rw [hfirst, Option.some.injEq] at first
    subst first
    rw [hspells, Option.some.injEq] at spells
    rw [spells]
  | taken resolved | repeated resolved | created resolved =>
    simp [resolved ref hmem] at hunresolved

/-- If all references are to stored rows and the key is free, a failure is about a unique index that
is repeated. -/
theorem Creation.eq_duplicate {outcome : Except StoreError Store}
    (h : s.Creation r actor now outcome)
    (hresolved : ∀ ref ∈ (Descriptor.shipped r.kind).referenceFields, s.resolves r ref = true)
    (hfree : s.stores r.kind r.id = false) (hfails : ∀ s', outcome ≠ .ok s') :
    ∃ index ∈ (Descriptor.shipped r.kind).storage.indexes, index.unique = true ∧
      s.Repeats r index ∧ outcome = .error (.duplicate r.kind index.name) := by
  cases h with
  | missing first spells =>
    have hunresolved := List.find?_some first
    simp [hresolved _ (List.mem_of_find?_eq_some first)] at hunresolved
  | taken resolved stored =>
    rw [hfree] at stored
    cases stored
  | repeated resolved declared unique repeats => exact ⟨_, declared, unique, repeats, rfl⟩
  | created => exact absurd rfl (hfails _)

/-- What creating a validated record answers. -/
theorem Holds.creation (h : s.Holds contents) (hcomposed : s.database.Composed)
    (hvalid : Registry.builtin.validate kind input fresh clock = .ok r) :
    s.Creation r actor now (s.create r actor now) := by
  have hreg := h.registry_eq
  have hinstalled := h.database.installed
  rcases checkReferences_eq hreg hinstalled (Record.referred_of_validate hvalid) with
    ⟨ref, parent, hfirst, hspells, hfail⟩ | ⟨hresolved, hrefs⟩
  · have hcreate : s.create r actor now = .error (.noRecord ref.2 parent) := by
      simp [Store.create, descriptor_of_builtin hreg, hfail, bind, Except.bind]
    rw [hcreate]
    exact .missing hfirst hspells
  · rw [create_eq hreg hinstalled hrefs]
    cases hcheck : ((Descriptor.shipped r.kind).recordTable []).check (s.database.records r.kind)
        r.row with
    | error failure =>
      rcases clash_cases hvalid hcheck with
        ⟨hstored, herror⟩ | ⟨index, hdeclared, hunique, hrepeats, herror⟩
      · simp only [herror]
        exact .taken hresolved hstored
      · simp only [herror]
        exact .repeated hresolved hdeclared hunique hrepeats
    | ok _ =>
      obtain ⟨hfree, hunrepeated⟩ := free_of_check hvalid hcheck
      exact .created hresolved hfree hunrepeated rfl (database_added hcomposed hinstalled)

/-- After every run, a validated record is stored exactly when its references are to stored rows,
its key is free and no unique index is repeated. Otherwise the first missing record is reported,
or else an index that is repeated; a record that is stored adds its row and its entry only. -/
theorem create_outcome (ops : List Operation)
    (hvalid : Registry.builtin.validate kind input fresh clock = .ok r) (actor : String)
    (now : Instant) :
    ((∃ s', (initial.run ops).create r actor now = .ok s') ↔
      (∀ ref ∈ (Descriptor.shipped r.kind).referenceFields,
        (initial.run ops).resolves r ref = true) ∧
      (initial.run ops).stores r.kind r.id = false ∧
      ∀ index ∈ (Descriptor.shipped r.kind).storage.indexes, index.unique = true →
        ¬ (initial.run ops).Repeats r index) ∧
    (initial.run ops).database.Composed ∧
    (initial.run ops).Creation r actor now ((initial.run ops).create r actor now) := by
  obtain ⟨contents, hholds, hcomposed⟩ := holds_run ops
  have hcreation : (initial.run ops).Creation r actor now ((initial.run ops).create r actor now) :=
    hholds.creation hcomposed hvalid
  exact ⟨hcreation.ok_iff, hcomposed, hcreation⟩

/-- Next to a template in two locales, a text in a locale that is not stored is refused for that
locale, another text in a locale that has one for the unique index, and the email in the locale that
has none is created. -/
theorem create_bilingual :
    (initial.run bilingual).create (variantIn .sms "de-DE" (.ofDigit 2)) "bob" ⟨60, 0⟩ =
      .error (.noRecord .locale (.locale ⟨"de-DE", rfl⟩)) ∧
    (initial.run bilingual).create (variantIn .sms "fr-FR" (.ofDigit 2)) "bob" ⟨60, 0⟩ =
      .error (.duplicate .sms "ui_template_locale") ∧
    ∃ s', (initial.run bilingual).create (variantIn .email "fr-FR" (.ofDigit 2)) "bob" ⟨60, 0⟩ =
      .ok s' := by
  have hvalid : ∀ (kind : RecordKind) (locale : String),
      (Descriptor.shipped kind).candidateViolations (sampleIn locale kind) = [] →
      Registry.builtin.validate kind (.obj (sampleIn locale kind)) (.ofDigit 2) ⟨0, 0⟩ =
        .ok (variantIn kind locale (.ofDigit 2)) :=
    fun kind locale hok => Registry.validate_eq_ok_iff.mpr ⟨_, rfl, hok, rfl⟩
  have hrecords := holds_bilingual.database.records_eq
  have hstores : (initial.run bilingual).stores = fun kind id =>
      ((bilingualContents kind).map Record.row).any (Table.holds idField id.text) := by
    funext kind id
    rw [stores, hrecords]
  have hresolves : (initial.run bilingual).resolves = fun r ref => (r.referred? ref.1).any fun id =>
      ((bilingualContents ref.2).map Record.row).any (Table.holds idField id.text) := by
    funext r ref
    rw [resolves, hstores]
  obtain ⟨-, -, hgerman⟩ :=
    create_outcome bilingual (hvalid .sms "de-DE" (by decide +kernel)) "bob" ⟨60, 0⟩
  obtain ⟨hstored, -, hfrench⟩ :=
    create_outcome bilingual (hvalid .sms "fr-FR" (by decide +kernel)) "bob" ⟨60, 0⟩
  obtain ⟨hemail, -⟩ :=
    create_outcome bilingual (hvalid .email "fr-FR" (by decide +kernel)) "bob" ⟨60, 0⟩
  refine ⟨?_, ?_, hemail.mpr ⟨?_, ?_, ?_⟩⟩
  · have hfirst : (Descriptor.shipped .sms).referenceFields.find? (fun ref =>
        !(initial.run bilingual).resolves (variantIn .sms "de-DE" (.ofDigit 2)) ref) =
          some (.variantLocale, .locale) := by
      rw [hresolves]
      decide +kernel
    exact hgerman.eq_noRecord hfirst (by decide +kernel)
  · have hrepeats : (initial.run bilingual).Repeats (variantIn .sms "fr-FR" (.ofDigit 2))
        .uniqueTemplateLocale := by
      refine ⟨(variantIn .sms "fr-FR" .sample).row, ?_, by decide +kernel⟩
      rw [hrecords]
      exact List.mem_cons_self
    obtain ⟨index, hindex, -, -, heq⟩ := hfrench.eq_duplicate
      (by rw [hresolves]; decide +kernel) (by rw [hstores]; decide +kernel)
      fun s' hcreated => (hstored.mp ⟨s', hcreated⟩).2.2 _ (List.mem_singleton_self _) rfl hrepeats
    rw [heq, List.mem_singleton.mp hindex]
    rfl
  · rw [hresolves]
    decide +kernel
  · rw [hstores]
    decide +kernel
  · rintro index hindex - ⟨row, hrow, hcells⟩
    rw [hrecords] at hrow
    obtain rfl := List.mem_singleton.mp hindex
    obtain rfl := List.mem_singleton.mp hrow
    exact absurd (hcells "locale" (by decide)) (by decide +kernel)

end Store
end Phrasebook
