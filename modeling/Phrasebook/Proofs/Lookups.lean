import Phrasebook.Proofs.Updates
import Phrasebook.Proofs.VariantLocales

/-!
# Looking records up by unique columns

At most one row holds given texts in the columns of a unique index. So a lookup by these columns
depends on no order: it reads the row that holds the texts, if there is one.

## Main definitions

* `Row.Meets`: a row holds given texts
* `Store.holding?`: the stored row of a kind that holds given texts
-/
namespace Phrasebook

/-! ## Rows of a unique index -/

/-- A row holds given texts in some columns. -/
def Row.Meets (conditions : List (String × String)) (row : Row) : Prop :=
  ∀ c ∈ conditions, Row.cell row c.1 = some c.2

/-- The rows that are selected by given texts. -/
def Row.meets (conditions : List (String × String)) (row : Row) : Bool :=
  conditions.all fun (column, text) => Table.holds column text row

variable {conditions : List (String × String)}

theorem Row.meets_iff {row : Row} : row.meets conditions = true ↔ row.Meets conditions := by
  simp [meets, Meets, Table.holds]

namespace Table

variable {t : Table} {index : Index} {rows : List Row}

/-- Rows that hold the same texts in the columns of a unique index agree on it. -/
theorem agree_of_meets (hunique : index.unique = true)
    (hcolumns : conditions.map Prod.fst = index.columns) {a b : Row} (ha : a.Meets conditions)
    (hb : b.Meets conditions) : Agree index a b := by
  have hkey : ∀ {row : Row}, row.Meets conditions →
      keyOf index row = conditions.map fun c => some c.2 := by
    intro row hrow
    rw [keyOf, ← hcolumns, List.map_map]
    exact List.map_congr_left hrow
  refine ⟨hunique, ?_, by rw [hkey ha, hkey hb]⟩
  simp [hkey ha]

/-- Among distinct rows at most one holds given texts in the columns of a unique index. -/
theorem Distinct.filter_meets (h : t.Distinct rows) (hindex : index ∈ t.indexes)
    (hunique : index.unique = true) (hcolumns : conditions.map Prod.fst = index.columns) :
    rows.filter (Row.meets conditions) = (rows.find? (Row.meets conditions)).toList := by
  have hpairs := h.filter (Row.meets conditions) index hindex
  have hmeets : ∀ row ∈ rows.filter (Row.meets conditions), row.Meets conditions :=
    fun row hrow => Row.meets_iff.mp (List.mem_filter.mp hrow).2
  rw [← List.head?_filter]
  generalize rows.filter (Row.meets conditions) = found at hpairs hmeets
  match found with
  | [] => rfl
  | [row] => rfl
  | a :: b :: rest =>
    have hagree := agree_of_meets hunique hcolumns (hmeets a (by simp)) (hmeets b (by simp))
    exact absurd hagree (List.rel_of_pairwise_cons hpairs (by simp))

end Table

/-- The table of a kind has the indexes that the kind declares. -/
theorem Descriptor.recordTable_indexed {d : Descriptor} {u : IndexSpec}
    (h : u ∈ d.storage.indexes) :
    (⟨d.indexName u .sqlite, u.fields, u.unique⟩ : Index) ∈ (d.recordTable []).indexes :=
  List.mem_cons_of_mem _ (List.mem_map_of_mem h)

/-! ## Lookups -/

namespace Store

variable {s : Store} {contents : Contents} {kind : RecordKind} {u : IndexSpec} {row : Row}

/-- The stored row of a kind that holds given texts. -/
def holding? (s : Store) (kind : RecordKind) (conditions : List (String × String)) : Option Row :=
  (s.database.records kind).find? (Row.meets conditions)

theorem mem_of_holding? (h : s.holding? kind conditions = some row) :
    row ∈ s.database.records kind ∧ row.Meets conditions :=
  ⟨List.mem_of_find?_eq_some h, Row.meets_iff.mp (List.find?_some h)⟩

theorem holding?_eq_none_iff : s.holding? kind conditions = none ↔
    ∀ row ∈ s.database.records kind, ¬ row.Meets conditions := by
  simp only [holding?, List.find?_eq_none, Row.meets_iff]

/-- Looking a record up by the columns of a unique index reads the row that holds the texts. -/
theorem Holds.head?_select (h : s.Holds contents)
    (hu : u ∈ (Descriptor.shipped kind).storage.indexes) (hunique : u.unique = true)
    (hfields : conditions.map Prod.fst = u.fields) :
    (s.select (.shipped kind) conditions (some 1)).map List.head? =
      match s.holding? kind conditions with
      | none => .ok none
      | some row => ((Descriptor.shipped kind).ofRow row).map some := by
  have hdeclared : ∀ c ∈ conditions, ((Descriptor.shipped kind).field? c.1).isSome = true := by
    intro c hc
    have hname : c.1 ∈ u.fields := hfields ▸ List.mem_map_of_mem hc
    obtain ⟨-, f, hf, hfname⟩ := Descriptor.index_fields kind u hu c.1 hname
    rw [← hfname, Descriptor.field?_shipped hf]
    rfl
  have hfilter := (h.database.distinct kind).filter_meets (Descriptor.recordTable_indexed hu)
    hunique hfields
  have hselect := select_first h.database.installed kind hdeclared
  rw [show (fun row => conditions.all fun (column, text) => Table.holds column text row) =
    Row.meets conditions from rfl, hfilter] at hselect
  rw [hselect, holding?]
  cases (s.database.records kind).find? (Row.meets conditions) with
  | none => simp [Table.sorted, Except.map]
  | some row =>
    simp only [Table.sorted, Option.toList_some, List.mergeSort_singleton]
    cases (Descriptor.shipped kind).ofRow row <;> rfl

/-- The template of a name is read from the row that holds the name. -/
theorem Holds.findBy_name_eq (h : s.Holds contents) (name : String) :
    s.findBy .template "name" name =
      match s.holding? .template [("name", name)] with
      | none => .ok none
      | some row => ((Descriptor.shipped .template).ofRow row).map some := by
  have hindex : IndexSpec.uniqueName ∈ (Descriptor.shipped .template).storage.indexes :=
    List.mem_singleton_self _
  have hfields : [("name", name)].map Prod.fst = IndexSpec.uniqueName.fields := rfl
  rw [← h.head?_select hindex rfl hfields, findBy, descriptor_of_builtin h.registry_eq]
  simp only [bind, Except.bind]
  cases s.select (.shipped .template) [("name", name)] (some 1) <;> rfl

theorem uniqueTemplateLocale_mem (hkind : kind ∈ RecordKind.variants) :
    IndexSpec.uniqueTemplateLocale ∈ (Descriptor.shipped kind).storage.indexes := by
  rcases List.mem_pair.mp hkind with rfl | rfl <;> exact List.mem_singleton_self _

/-- The variant of a template in a locale is read from the row that names both. -/
theorem Holds.findVariant_eq (h : s.Holds contents) (hkind : kind ∈ RecordKind.variants)
    (template : RecordId) (locale : LocaleCode) :
    s.findVariant kind template locale =
      match s.holding? kind [("template", template.text), ("locale", locale.text)] with
      | none => .ok none
      | some row => ((Descriptor.shipped kind).ofRow row).map some := by
  have hfields : [("template", template.text), ("locale", locale.text)].map Prod.fst =
      IndexSpec.uniqueTemplateLocale.fields := rfl
  rw [← h.head?_select (uniqueTemplateLocale_mem hkind) rfl hfields, findVariant,
    descriptor_of_builtin h.registry_eq]
  simp only [bind, Except.bind]
  cases s.select (.shipped kind) [("template", template.text), ("locale", locale.text)] (some 1) <;>
    rfl

/-! ## The sample run -/

/-- All rows of the sample run can be read. -/
theorem readable_sampleRun (kind : RecordKind) :
    ∀ row ∈ (initial.run (Operation.sampleRun .sample .sample
      Uuid.sample.text)).database.records kind,
      ∃ r, (Descriptor.shipped kind).ofRow row = .ok r := by
  have huuid := Format.isUuid_text .sample
  have hholds := holds_sampleRun (x := .sample) huuid (RecordId.parse_text (.uuid _))
  intro row hrow
  rw [hholds.database.records_eq] at hrow
  obtain ⟨r, hr, rfl⟩ := List.mem_map.mp hrow
  cases kind with
  | locale =>
    rw [List.mem_singleton.mp hr]
    exact ⟨_, Record.ofRow_ofCandidate (Json.wellFormed_of_texts (by decide) (by decide))
      (Descriptor.sample_accepted .locale) (by decide) (by decide)⟩
  | template =>
    rw [List.mem_singleton.mp hr]
    exact ⟨_, Record.ofRow_ofCandidate (Json.wellFormed_of_texts (by decide) (by decide))
      (Descriptor.sample_accepted .template) (by decide) (by decide)⟩
  | email => cases hr
  | sms =>
    rw [List.mem_singleton.mp hr]
    exact ⟨_, Record.ofRow_ofCandidate (Json.wellFormed_of_texts (by decide) (by decide))
      (sampleVariant_ok huuid) (by decide) (by decide)⟩

end Store
end Phrasebook
