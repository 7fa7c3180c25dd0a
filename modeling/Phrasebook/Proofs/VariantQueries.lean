import Phrasebook.Proofs.Listings
import Phrasebook.Proofs.Lookups
import Phrasebook.Proofs.Removals

/-!
# The variants of a template

Three queries read the variants of a template: all of them by locale and kind, those of one kind
as a listing, and the one of a kind in a locale. A template has at most one variant of a kind
for each locale, so the order of all variants is strict, and the other two queries answer with
parts of the first one.

## Main definitions

* `Record.VariantBefore`: the order of variants
* `Database.variantRows`: the rows of the variants of a template
-/
namespace Phrasebook

/-! ## The order of variants -/

namespace Record

/-- A variant comes before another one by the bytes of its locale, and in the same locale by its
kind. -/
def VariantBefore (a b : Record) : Prop :=
  (a.getStr? "locale").map Text.bytes < (b.getStr? "locale").map Text.bytes ∨
    a.getStr? "locale" = b.getStr? "locale" ∧ a.kind.rank < b.kind.rank

/-- Variants compared by locale, then by kind. -/
def compareVariants (a b : Record) : Ordering :=
  (Table.compareCell (a.getStr? "locale") (b.getStr? "locale")).then
    (compare a.kind.rank b.kind.rank)

variable {a b : Record}

theorem compareVariants_eq_lt : compareVariants a b = .lt ↔ a.VariantBefore b := by
  rw [compareVariants, Ordering.then_eq_lt, Table.compareCell_eq_lt, Table.compareCell_eq_eq,
    Nat.compare_eq_lt, VariantBefore]

theorem compareVariants_eq_eq : compareVariants a b = .eq ↔
    a.getStr? "locale" = b.getStr? "locale" ∧ a.kind = b.kind := by
  rw [compareVariants, Ordering.then_eq_eq, Table.compareCell_eq_eq, Nat.compare_eq_eq,
    RecordKind.rank_injective.eq_iff]

instance : Std.TransCmp compareVariants := by
  have hlocale : Std.TransCmp fun a b : Record =>
      Table.compareCell (a.getStr? "locale") (b.getStr? "locale") :=
    { eq_swap := Std.OrientedCmp.eq_swap, isLE_trans := Std.TransCmp.isLE_trans }
  have hkind : Std.TransCmp fun a b : Record => compare a.kind.rank b.kind.rank :=
    { eq_swap := Std.OrientedCmp.eq_swap, isLE_trans := Std.TransCmp.isLE_trans }
  exact inferInstanceAs (Std.TransCmp (compareLex _ _))

theorem VariantBefore.asymm (h : a.VariantBefore b) : ¬ b.VariantBefore a := by
  rw [← compareVariants_eq_lt] at h ⊢
  exact Std.OrientedCmp.not_lt_of_lt h

/-- Lists of the same variants in strict order are the same. -/
theorem VariantBefore.eq_of_perm {rs rs' : List Record} (h : rs.Pairwise VariantBefore)
    (h' : rs'.Pairwise VariantBefore) (hperm : rs.Perm rs') : rs = rs' :=
  hperm.eq_of_pairwise (fun _ _ _ _ hab hba => absurd hba hab.asymm) h h'

end Record

/-! ## The rows of the variants of a template -/

/-- The rows of a kind that name a template by the text of its key, in the order of listings. -/
def Database.variantRows (db : Database) (kind : RecordKind) (template : RecordId) : List Row :=
  Table.sorted (Descriptor.shipped kind).listOrder
    ((db.records kind).filter (Table.holds "template" template.text))

namespace Store

variable {s : Store} {contents : Contents} {kind : RecordKind} {template : RecordId}
  {found rs : List Record} {row : Row}

theorem mem_variantRows : row ∈ s.database.variantRows kind template ↔
    row ∈ s.database.records kind ∧ Row.cell row "template" = some template.text := by
  rw [Database.variantRows, Table.sorted, List.mem_mergeSort, List.mem_filter]
  simp [Table.holds]

theorem isSome_template (hkind : kind ∈ RecordKind.variants) :
    ((Descriptor.shipped kind).field? "template").isSome = true :=
  congrArg Option.isSome (Descriptor.field?_shipped (parentTemplate_mem hkind))

/-- The listing of the variants of a template reads their rows. -/
theorem list_template (hreg : s.registry = .builtin) (h : s.database.Installed)
    (hkind : kind ∈ RecordKind.variants) (template : RecordId) (archived : Bool) :
    s.list kind { template := some template, archived } =
      (s.database.variantRows kind template).mapM (Descriptor.shipped kind).ofRow := by
  have hselects : ListFilter.selects { template := some template, archived } kind =
      Table.holds "template" template.text := by
    funext row
    have harchivable : (Descriptor.shipped kind).archivable = false := by
      rcases List.mem_pair.mp hkind with rfl | rfl <;> rfl
    simp [ListFilter.selects, filterConditions, isSome_template hkind, harchivable]
  rw [list_eq hreg h kind (by simp), hselects]
  rfl

/-- Selecting by the template alone reads the same rows. -/
theorem select_template (h : s.database.Installed) (hkind : kind ∈ RecordKind.variants)
    (template : RecordId) : s.select (.shipped kind) [("template", template.text)] none =
      (s.database.variantRows kind template).mapM (Descriptor.shipped kind).ofRow := by
  have hdeclared : ∀ c ∈ [("template", template.text)],
      ((Descriptor.shipped kind).field? c.1).isSome = true :=
    List.forall_mem_singleton.mpr (isSome_template hkind)
  have hlimit : ∀ n, (none : Option Nat) = some n → n < rowLimit := nofun
  have hselect := select_eq h kind hdeclared hlimit
  simp only [List.all_cons, List.all_nil, Bool.and_true, upTo] at hselect
  exact hselect

/-- The variants of a template are those of the two kinds, sorted together. -/
theorem contents_eq_ok_iff (hreg : s.registry = .builtin) (h : s.database.Installed) :
    s.contents template = .ok found ↔ (∃ r, s.get .template template = .ok r) ∧
      ∃ emails texts,
        (s.database.variantRows .email template).mapM (Descriptor.shipped .email).ofRow =
          .ok emails ∧
        (s.database.variantRows .sms template).mapM (Descriptor.shipped .sms).ofRow = .ok texts ∧
        found = (emails ++ texts).mergeSort variantLe := by
  have hemails := select_template h (List.mem_pair.mpr (.inl rfl)) template
  have htexts := select_template h (List.mem_pair.mpr (.inr rfl)) template
  rw [contents, hreg, Registry.referencing_builtin]
  simp only [bind_eq_ok_iff, mapM_eq_ok_iff, List.forall₂_cons_left_iff, List.forall₂_nil_left_iff,
    descriptor_of_builtin hreg, Except.ok.injEq, exists_eq_left', FieldSpec.parentTemplate,
    hemails, htexts]
  constructor
  · rintro ⟨r, hget, _, ⟨emails, _, hemails, ⟨texts, _, htexts, rfl, rfl⟩, rfl⟩, rfl⟩
    exact ⟨⟨r, hget⟩, emails, texts, hemails, htexts, by simp⟩
  · rintro ⟨⟨r, hget⟩, emails, texts, hemails, htexts, rfl⟩
    exact ⟨r, hget, _, ⟨emails, _, hemails, ⟨texts, _, htexts, rfl, rfl⟩, rfl⟩, by simp⟩

/-- The variants of a stored template can be read if all rows of variants can. -/
theorem exists_contents (hreg : s.registry = .builtin) (h : s.database.Installed) {r : Record}
    (hget : s.get .template template = .ok r)
    (hreads : ∀ kind ∈ RecordKind.variants, ∀ row ∈ s.database.records kind,
      ∃ r, (Descriptor.shipped kind).ofRow row = .ok r) :
    ∃ found, s.contents template = .ok found := by
  have hpart : ∀ kind ∈ RecordKind.variants, ∃ rs,
      (s.database.variantRows kind template).mapM (Descriptor.shipped kind).ofRow = .ok rs :=
    fun kind hkind => exists_mapM_ok fun row hrow =>
      hreads kind hkind row (mem_variantRows.mp hrow).1
  obtain ⟨emails, hemails⟩ := hpart .email (by decide)
  obtain ⟨texts, htexts⟩ := hpart .sms (by decide)
  exact ⟨_, (contents_eq_ok_iff hreg h).mpr ⟨⟨r, hget⟩, emails, texts, hemails, htexts, rfl⟩⟩

/-! ## Locales of the variants of a template -/

/-- A variant names the locale that its row names. -/
theorem locale_of_read (hkind : kind ∈ RecordKind.variants) {r : Record}
    (hreads : (Descriptor.shipped kind).ofRow row = .ok r) :
    r.getStr? "locale" = Row.cell row "locale" :=
  Record.getStr?_ofRow (variantLocale_mem hkind) (by decide) (by decide) hreads

/-- The row of a variant names a locale. -/
theorem Holds.cell_locale (h : s.Holds contents) (hconforming : contents.Conforming)
    (hkind : kind ∈ RecordKind.variants) (hrow : row ∈ s.database.records kind) :
    ∃ text, Row.cell row "locale" = some text := by
  rw [h.database.records_eq] at hrow
  obtain ⟨r, hr, rfl⟩ := List.mem_map.mp hrow
  obtain rfl := h.database.kind_eq kind r hr
  obtain ⟨text, -, hcell, -⟩ := (hconforming _ r hr).read?_row (variantLocale_mem hkind)
  exact ⟨text, hcell⟩

/-- The variants of a template have different locales. -/
theorem Holds.eq_of_locale (h : s.Holds contents) (hconforming : contents.Conforming)
    (hkind : kind ∈ RecordKind.variants) {a b : Row}
    (ha : a ∈ s.database.variantRows kind template) (hb : b ∈ s.database.variantRows kind template)
    (hlocale : Row.cell a "locale" = Row.cell b "locale") : a = b := by
  obtain ⟨ha, htemplate⟩ := mem_variantRows.mp ha
  obtain ⟨hb, htemplate'⟩ := mem_variantRows.mp hb
  obtain ⟨text, htext⟩ := h.cell_locale hconforming hkind ha
  have hindex := Descriptor.recordTable_indexed (uniqueTemplateLocale_mem hkind)
  refine (h.database.distinct kind).eq_of_agree hindex ha hb ?_
  refine Table.agree_of_meets rfl
    (show [("template", template.text), ("locale", text)].map Prod.fst = _ from rfl) ?_ ?_
  · simp [Row.Meets, htemplate, htext]
  · simp [Row.Meets, htemplate', ← hlocale, htext]

/-- Listed by template, locale and key, the variants of a template are in strict order of their
locales. -/
theorem Holds.variantRows_pairwise (h : s.Holds contents) (hconforming : contents.Conforming)
    (hkind : kind ∈ RecordKind.variants) (template : RecordId) :
    (s.database.variantRows kind template).Pairwise fun a b =>
      (Row.cell a "locale").map Text.bytes < (Row.cell b "locale").map Text.bytes := by
  have horder : (Descriptor.shipped kind).listOrder = ["template", "locale", idField] := by
    rcases List.mem_pair.mp hkind with rfl | rfl <;> rfl
  have hsorted := h.pairwise_sorted kind (Table.holds "template" template.text)
  rw [← Database.variantRows] at hsorted
  refine hsorted.imp_of_mem fun {a b} ha hb hbefore => ?_
  have hkeys := hbefore
  simp only [horder, Row.Before, Row.key_cons, List.cons_lt_cons_iff, (mem_variantRows.mp ha).2,
    (mem_variantRows.mp hb).2, Option.map_some, Option.some_lt_some, true_and] at hkeys
  rcases hkeys with hlt | hlt | ⟨hlocale, -⟩
  · exact absurd hlt (List.lt_irrefl _)
  · exact hlt
  · -- Rows in one locale are the same row, and no row comes before itself.
    have hsame := h.eq_of_locale hconforming hkind ha hb
      (Option.map_injective Text.bytes_injective hlocale)
    subst hsame
    exact absurd hbefore hbefore.asymm

/-- What is read from the rows of the variants of a template: records of the kind in strict order,
with the locales of the rows. -/
theorem Holds.variants_read (h : s.Holds contents) (hconforming : contents.Conforming)
    (hkind : kind ∈ RecordKind.variants)
    (hread : (s.database.variantRows kind template).mapM (Descriptor.shipped kind).ofRow = .ok rs) :
    (∀ r ∈ rs, r.kind = kind) ∧ rs.Pairwise Record.VariantBefore := by
  have hmap : (s.database.variantRows kind template).map (Row.cell · "locale") =
      rs.map fun r => r.getStr? "locale" := by
    rw [← List.forall₂_eq_eq_eq, List.forall₂_map_left_iff, List.forall₂_map_right_iff]
    exact (mapM_eq_ok_iff.mp hread).imp fun _ _ hreads => (locale_of_read hkind hreads).symm
  have hkinds : ∀ r ∈ rs, r.kind = kind := by
    intro r hr
    obtain ⟨row, -, hreads⟩ := exists_step_of_mem hread hr
    exact Descriptor.kind_of_ofRow hreads
  refine ⟨hkinds, ?_⟩
  have hpairs := h.variantRows_pairwise hconforming hkind template
  have hlt : ((s.database.variantRows kind template).map (Row.cell · "locale")).Pairwise
      fun x y => x.map Text.bytes < y.map Text.bytes := List.pairwise_map.mpr hpairs
  rw [hmap, List.pairwise_map] at hlt
  exact hlt.imp .inl

/-- The variant in a locale is the one with that locale among those that are read from the rows. -/
theorem Holds.findVariant_of_read (h : s.Holds contents) (hconforming : contents.Conforming)
    (hkind : kind ∈ RecordKind.variants)
    (hread : (s.database.variantRows kind template).mapM (Descriptor.shipped kind).ofRow = .ok rs)
    (code : LocaleCode) : s.findVariant kind template code =
      .ok (rs.find? fun r => r.getStr? "locale" = some code.text) := by
  rw [h.findVariant_eq hkind]
  cases hrow : s.holding? kind [("template", template.text), ("locale", code.text)] with
  | none =>
    have hnone := holding?_eq_none_iff.mp hrow
    have hfind : (rs.find? fun r => r.getStr? "locale" = some code.text) = none := by
      refine List.find?_eq_none.mpr fun r hr hcode => ?_
      obtain ⟨row, hmem, hreads⟩ := exists_step_of_mem hread hr
      obtain ⟨hstored, htemplate⟩ := mem_variantRows.mp hmem
      refine hnone row hstored ?_
      simpa [Row.Meets, htemplate, ← locale_of_read hkind hreads] using hcode
    simp only [hfind]
  | some row =>
    obtain ⟨hstored, hmeets⟩ := mem_of_holding? hrow
    obtain ⟨htemplate, hcode⟩ : Row.cell row "template" = some template.text ∧
        Row.cell row "locale" = some code.text := by simpa [Row.Meets] using hmeets
    have hmem := mem_variantRows.mpr ⟨hstored, htemplate⟩
    obtain ⟨r, hr, hreads⟩ := exists_value_of_mem hread hmem
    have hfind : (rs.find? fun r => r.getStr? "locale" = some code.text) = some r := by
      cases hfound : rs.find? fun r => r.getStr? "locale" = some code.text with
      | none =>
        have hother := List.find?_eq_none.mp hfound r hr
        exact absurd ((locale_of_read hkind hreads).trans hcode) (by simpa using hother)
      | some r' =>
        obtain ⟨row', hmem', hreads'⟩ := exists_step_of_mem hread (List.mem_of_find?_eq_some hfound)
        have hcode' : r'.getStr? "locale" = some code.text := by simpa using List.find?_some hfound
        have hsame := h.eq_of_locale hconforming hkind hmem' hmem
          ((locale_of_read hkind hreads').symm.trans (hcode'.trans hcode.symm))
        rw [hsame, hreads] at hreads'
        rw [Except.ok.inj hreads']
    simp only [hfind, hreads, Except.map]

/-- The variants of a template that are read together, one kind after the other, are of different
kinds or of different locales. -/
theorem Holds.contents_pairwise (h : s.Holds contents) (hconforming : contents.Conforming)
    {emails texts : List Record}
    (hemails : (s.database.variantRows .email template).mapM (Descriptor.shipped .email).ofRow =
      .ok emails)
    (htexts : (s.database.variantRows .sms template).mapM (Descriptor.shipped .sms).ofRow =
      .ok texts) : ((emails ++ texts).mergeSort variantLe).Pairwise Record.VariantBefore := by
  obtain ⟨hemail, hemails⟩ := h.variants_read hconforming (by decide) hemails
  obtain ⟨htext, htexts⟩ := h.variants_read hconforming (by decide) htexts
  have hne : ∀ {a b : Record}, a.VariantBefore b → Record.compareVariants a b ≠ .eq := by
    intro a b hbefore heq
    rw [Record.compareVariants_eq_lt.mpr hbefore] at heq
    cases heq
  have hdiffer : (emails ++ texts).Pairwise fun a b => Record.compareVariants a b ≠ .eq := by
    refine List.pairwise_append.mpr ⟨hemails.imp hne, htexts.imp hne, fun a ha b hb heq => ?_⟩
    have hkind := (Record.compareVariants_eq_eq.mp heq).2
    rw [hemail a ha, htext b hb] at hkind
    cases hkind
  exact (pairwise_mergeSort_lt hdiffer).imp Record.compareVariants_eq_lt.mp

theorem filter_kind {own : RecordKind} (hkind : ∀ r ∈ rs, r.kind = own) :
    (rs.filter fun r => r.kind = kind) = if own = kind then rs else [] := by
  split
  · next heq => exact List.filter_eq_self.mpr fun r hr => decide_eq_true ((hkind r hr).trans heq)
  · next hne =>
    exact List.filter_eq_nil_iff.mpr fun r hr heq =>
      hne ((hkind r hr).symm.trans (of_decide_eq_true heq))

/-- All variants of a template are those of each kind: records of the kind in the contents are
what the rows of the kind are read as. -/
theorem Holds.filter_contents (h : s.Holds contents) (hconforming : contents.Conforming)
    (hfound : s.contents template = .ok found) (hkind : kind ∈ RecordKind.variants) :
    (s.database.variantRows kind template).mapM (Descriptor.shipped kind).ofRow =
      .ok (found.filter fun r => r.kind = kind) := by
  obtain ⟨-, emails, texts, hemails, htexts, rfl⟩ :=
    (contents_eq_ok_iff h.registry_eq h.database.installed).mp hfound
  obtain ⟨hemail, hbefore⟩ := h.variants_read hconforming (by decide) hemails
  obtain ⟨htext, hbefore'⟩ := h.variants_read hconforming (by decide) htexts
  have hsorted := h.contents_pairwise hconforming hemails htexts
  have hperm := (List.mergeSort_perm (emails ++ texts) variantLe).filter fun r => r.kind = kind
  rw [List.filter_append] at hperm
  -- Sorting all variants leaves those of one kind in the order in which they are listed.
  rcases List.mem_pair.mp hkind with rfl | rfl
  · rw [filter_kind hemail, filter_kind htext, if_pos rfl, if_neg (by decide),
      List.append_nil] at hperm
    rw [hemails, Record.VariantBefore.eq_of_perm (hsorted.filter _) hbefore hperm]
  · rw [filter_kind hemail, filter_kind htext, if_neg (by decide), if_pos rfl,
      List.nil_append] at hperm
    rw [htexts, Record.VariantBefore.eq_of_perm (hsorted.filter _) hbefore' hperm]

/-- In every store of a run that is supplied with records obtained before, the contents of a
template are what the stored rows that name it are read as, each once, in strict order of their
locales and kinds. The variant of a kind in a locale is the one among them, and the listing of a
kind is the part of that kind. -/
theorem SuppliedRun.contents_outcome {ops : List Operation} (h : SuppliedRun ops)
    (hfound : (initial.run ops).contents template = .ok found) :
    (∀ r ∈ found, r.kind ∈ RecordKind.variants) ∧
    found.Pairwise Record.VariantBefore ∧
    ∀ kind ∈ RecordKind.variants,
      (∃ rows, rows.Perm (((initial.run ops).database.records kind).filter
          (Table.holds "template" template.text)) ∧
        List.Forall₂ (fun row r => (Descriptor.shipped kind).ofRow row = .ok r) rows
          (found.filter fun r => r.kind = kind)) ∧
      (∀ code : LocaleCode, (initial.run ops).findVariant kind template code =
        .ok (found.find? fun r => r.kind = kind ∧ r.getStr? "locale" = some code.text)) ∧
      ∀ archived, (initial.run ops).list kind { template := some template, archived } =
        .ok (found.filter fun r => r.kind = kind) := by
  obtain ⟨contents, hholds, hconforming⟩ := h.conforming _ ⟨ops, List.prefix_rfl, rfl⟩
  have hreg := hholds.registry_eq
  have hinstalled := hholds.database.installed
  have hpart : ∀ kind ∈ RecordKind.variants,
      ((initial.run ops).database.variantRows kind template).mapM (Descriptor.shipped kind).ofRow =
        .ok (found.filter fun r => r.kind = kind) :=
    fun kind hkind => hholds.filter_contents hconforming hfound hkind
  obtain ⟨-, emails, texts, hemails, htexts, rfl⟩ := (contents_eq_ok_iff hreg hinstalled).mp hfound
  refine ⟨fun r hr => ?_, hholds.contents_pairwise hconforming hemails htexts,
    fun kind hkind => ⟨⟨_, List.mergeSort_perm _ _, mapM_eq_ok_iff.mp (hpart kind hkind)⟩,
      fun code => ?_, fun archived => ?_⟩⟩
  · rcases List.mem_append.mp (List.mem_mergeSort.mp hr) with hr | hr
    · exact List.mem_pair.mpr (.inl ((hholds.variants_read hconforming (by decide) hemails).1 r hr))
    · exact List.mem_pair.mpr (.inr ((hholds.variants_read hconforming (by decide) htexts).1 r hr))
  · rw [hholds.findVariant_of_read hconforming hkind (hpart kind hkind), List.find?_filter]
    simp only [Bool.decide_and, Bool.decide_eq_true]
  · rw [list_template hreg hinstalled hkind, hpart kind hkind]

/-- The contents of the sample template in two locales are its email and its texts, by locale and
then by kind; its texts are listed in that order, and each is found by its locale. -/
theorem contents_bilingual :
    (initial.run bilingual).contents (.uuid .sample) =
      .ok [englishEmail, englishText, frenchText] ∧
    (initial.run bilingual).list .sms { template := some (.uuid .sample) } =
      .ok [englishText, frenchText] ∧
    (initial.run bilingual).findVariant .sms (.uuid .sample) ⟨"fr-FR", rfl⟩ =
      .ok (some frenchText) ∧
    (initial.run bilingual).findVariant .email (.uuid .sample) ⟨"fr-FR", rfl⟩ = .ok none := by
  have htemplate : (initial.run bilingual).get .template (.uuid .sample) =
      .ok (.sampleTemplate .sample) := by
    have hmem : .sampleTemplate .sample ∈ bilingualContents .template := List.mem_singleton_self _
    exact (holds_bilingual.get_of_mem hmem).trans (ofRow_bilingual .template _ hmem)
  obtain ⟨found, hfound⟩ := exists_contents holds_bilingual.registry_eq
    holds_bilingual.database.installed htemplate fun kind _ => readable_bilingual kind
  obtain ⟨hkinds, hbefore, hparts⟩ := suppliedRun_bilingual.contents_outcome hfound
  -- Each part is read from the rows of its kind, all of which name the template.
  have hpart : ∀ kind ∈ RecordKind.variants,
      (found.filter fun r => r.kind = kind).Perm (bilingualContents kind) := by
    intro kind hkind
    obtain ⟨⟨rows, hperm, hread⟩, -⟩ := hparts kind hkind
    have hall : ((bilingualContents kind).map Record.row).filter
        (Table.holds "template" (RecordId.uuid .sample).text) =
          (bilingualContents kind).map Record.row := by
      rcases List.mem_pair.mp hkind with rfl | rfl <;> rfl
    rw [holds_bilingual.database.records_eq, hall] at hperm
    obtain ⟨records, hrecords, hsame⟩ := List.perm_comp_forall₂ hperm.symm hread
    rw [Record.eq_of_forall₂_ofRow (ofRow_bilingual kind) hrecords] at hsame
    exact hsame.symm
  have hperm : found.Perm [englishEmail, englishText, frenchText] := by
    have hrest : (found.filter fun r => !decide (r.kind = .email)) =
        found.filter fun r => r.kind = .sms := by
      refine List.filter_congr fun r hr => ?_
      rcases List.mem_pair.mp (hkinds r hr) with hkind | hkind <;> simp [hkind]
    have hsplit := List.filter_append_perm (fun r => decide (r.kind = .email)) found
    rw [hrest] at hsplit
    exact hsplit.symm.trans (((hpart .email (by decide)).append (hpart .sms (by decide))).trans
      (.cons _ (.swap ..)))
  have hsorted : [englishEmail, englishText, frenchText].Pairwise
      fun a b => a.compareVariants b = .lt := by
    decide +kernel
  obtain rfl := Record.VariantBefore.eq_of_perm hbefore
    (hsorted.imp Record.compareVariants_eq_lt.mp) hperm
  refine ⟨hfound, ?_, ?_, ?_⟩
  · exact (hparts .sms (by decide)).2.2 false
  · exact (hparts .sms (by decide)).2.1 _
  · exact (hparts .email (by decide)).2.1 _

end Store
end Phrasebook
