import Mathlib.Data.List.Perm.Subperm
import Phrasebook.Proofs.Installation
import Phrasebook.Proofs.Lines
import Phrasebook.Record
import Phrasebook.Store.Error

/-!
# Names of violated indexes

The engine tells a clash by the columns of the index, each after the name of its table. The index
is found again by its set of columns, whatever their order and whatever points the name of the
table has. So a clash in a table of the shipped definitions is a duplicate in the index it violates.

## Main definitions

* `ColumnName`: a name that is found again in a list of columns
* `Descriptor.clashText`: the text of a clash
* `IndexSpec.Over`: a unique index over exactly some columns
* `Descriptor.Legible`: the columns of a clash can be told from its text
-/
namespace Phrasebook

/-! ## Lists of columns -/

/-- What stands between two columns. -/
def columnBreak : List Char := [',', ' ']

/-- A character that does not begin a break belongs to the first column. -/
theorem splitColumns_cons {c : Char} {rest piece : List Char} {pieces : List (List Char)}
    (h : ¬ columnBreak <+: c :: rest) (hrest : splitColumns rest = piece :: pieces) :
    splitColumns (c :: rest) = (c :: piece) :: pieces := by
  unfold splitColumns
  split
  · contradiction
  · next heq => exact absurd (heq ▸ List.prefix_append columnBreak _) h
  · next heq =>
    cases heq
    rw [hrest]

theorem splitColumns_of_not_infix {piece : List Char} (h : ¬ columnBreak <:+: piece) :
    splitColumns piece = [piece] := by
  induction piece with
  | nil => rfl
  | cons c piece ih =>
    obtain ⟨hstart, hrest⟩ := not_or.mp (List.infix_cons_iff.not.mp h)
    exact splitColumns_cons hstart (ih hrest)

theorem splitColumns_append {piece : List Char} (rest : List Char)
    (h : ¬ columnBreak <:+: piece) :
    splitColumns (piece ++ (columnBreak ++ rest)) = piece :: splitColumns rest := by
  induction piece with
  | nil => rfl
  | cons c piece ih =>
    obtain ⟨hstart, hrest⟩ := not_or.mp (List.infix_cons_iff.not.mp h)
    refine splitColumns_cons ?_ (ih hrest)
    -- A break would begin with the last character of the column, but a comma follows.
    cases piece with
    | nil => simp [columnBreak, List.cons_prefix_cons]
    | cons d piece => simpa [columnBreak, List.cons_prefix_cons] using hstart

/-- Columns without a break are told from their list. -/
theorem splitColumns_join {columns : List String} (hne : columns ≠ [])
    (h : ∀ column ∈ columns, ¬ columnBreak <:+: column.toList) :
    splitColumns (Text.join ", " columns).toList = columns.map String.toList := by
  induction columns with
  | nil => contradiction
  | cons first rest ih =>
    obtain ⟨hfirst, hothers⟩ := List.forall_mem_cons.mp h
    cases rest with
    | nil => exact splitColumns_of_not_infix hfirst
    | cons next rest =>
      have hjoin : (Text.join ", " (first :: next :: rest)).toList =
          first.toList ++ (columnBreak ++ (Text.join ", " (next :: rest)).toList) := by
        simp [Text.join, columnBreak]
      rw [hjoin, splitColumns_append _ hfirst, ih (List.cons_ne_nil _ _) hothers]
      rfl

/-! ## Columns of a table -/

theorem afterLastPoint_append (table : List Char) {column : List Char} (h : '.' ∉ column) :
    afterLastPoint (table ++ '.' :: column) = column := by
  obtain ⟨first, pieces, hsplit⟩ := Text.splitOn_append_last table h
  simp [afterLastPoint, hsplit, List.getLast?_cons]

/-- There is no break around the point between a table and a column. -/
theorem not_infix_append {table column : List Char} (htable : ¬ columnBreak <:+: table)
    (hcolumn : ¬ columnBreak <:+: column) : ¬ columnBreak <:+: table ++ '.' :: column := by
  rw [List.infix_append_iff]
  rintro (h | h | ⟨before, after, hbreak, hbefore, hafter⟩)
  · exact htable h
  · rcases List.infix_cons_iff.mp h with h | h
    · simp [columnBreak, List.cons_prefix_cons] at h
    · exact hcolumn h
  · cases after with
    | nil =>
      rw [List.append_nil] at hbreak
      exact htable (hbreak ▸ hbefore.isInfix)
    | cons c after =>
      -- The part after the table would begin with a point.
      obtain ⟨rfl, -⟩ := List.cons_prefix_cons.mp hafter
      have hpoint : '.' ∈ columnBreak := by simp [hbreak]
      exact absurd hpoint (by decide)

/-! ## Clashes -/

/-- A name that is found again in a list of columns: it has neither points nor breaks. -/
def ColumnName (name : String) : Prop := '.' ∉ name.toList ∧ ¬ columnBreak <:+: name.toList

instance (name : String) : Decidable (ColumnName name) :=
  inferInstanceAs (Decidable (_ ∧ _))

/-- A unique index over exactly some columns. -/
def IndexSpec.Over (index : IndexSpec) (columns : List String) : Prop :=
  index.unique = true ∧ ∀ name, name ∈ index.fields ↔ name ∈ columns

instance (index : IndexSpec) (columns : List String) : Decidable (index.Over columns) :=
  decidable_of_iff (index.unique = true ∧ (∀ name ∈ index.fields, name ∈ columns) ∧
      ∀ name ∈ columns, name ∈ index.fields) (by
    simp only [IndexSpec.Over, iff_def, forall_and])

/-- An index is found for columns if it is a unique one over exactly them. -/
theorem IndexSpec.over_iff {index : IndexSpec} {columns : List String}
    (hindex : index.fields.Nodup) (hcolumns : columns.Nodup) :
    (index.unique && index.fields.length == columns.length &&
      index.fields.all columns.contains) = true ↔ index.Over columns := by
  simp only [Bool.and_eq_true, beq_iff_eq, List.all_eq_true, List.contains_iff_mem, and_assoc, Over]
  refine and_congr_right fun _ => ?_
  constructor
  · rintro ⟨hlength, hsubset⟩
    have hperm := (List.subperm_of_subset hindex hsubset).perm_of_length_le hlength.ge
    exact fun name => hperm.mem_iff
  · intro hsame
    have hperm := (List.perm_ext_iff_of_nodup hindex hcolumns).mpr hsame
    exact ⟨hperm.length_eq, fun name => (hsame name).mp⟩

namespace Descriptor

/-- The text by which the engine tells a clash in some columns of the table. -/
def clashText (d : Descriptor) (columns : List String) : String :=
  "UNIQUE constraint failed: " ++
    Text.join ", " (columns.map fun column => d.table ++ "." ++ column)

/-- The columns of a clash can be told from its text: the name of the table has no breaks, and
indexes name fields, each of them once and none with points or breaks in its name. -/
structure Legible (d : Descriptor) : Prop where
  table : ¬ columnBreak <:+: d.table.toList
  indexed : ∀ index ∈ d.storage.indexes, ∀ name ∈ index.fields, ColumnName name
  nonempty : ∀ index ∈ d.storage.indexes, index.fields ≠ []
  nodup : ∀ index ∈ d.storage.indexes, index.fields.Nodup

/-- The first unique index over exactly some columns. -/
def FirstOver (d : Descriptor) (columns : List String) (index : IndexSpec) : Prop :=
  ∃ before after, d.storage.indexes = before ++ index :: after ∧ index.Over columns ∧
    ∀ other ∈ before, ¬ other.Over columns

variable {d : Descriptor} {columns : List String}

/-- The columns of a clash are told from its text. -/
theorem columns_clashText (htable : ¬ columnBreak <:+: d.table.toList) (hne : columns ≠ [])
    (hnames : ∀ column ∈ columns, ColumnName column) :
    ∃ rest, Text.afterStart? "UNIQUE constraint failed: ".toList (d.clashText columns).toList =
        some rest ∧
      ((splitColumns rest).map fun cs => String.ofList (afterLastPoint cs)) = columns := by
  have hbreaks : ∀ column ∈ columns.map fun column => d.table ++ "." ++ column,
      ¬ columnBreak <:+: column.toList := by
    intro column hcolumn
    obtain ⟨name, hname, rfl⟩ := List.mem_map.mp hcolumn
    simpa using not_infix_append htable (hnames name hname).2
  refine ⟨_, Text.afterStart?_eq_some_iff.mpr String.toList_append, ?_⟩
  rw [splitColumns_join (by simpa using hne) hbreaks, List.map_map, List.map_map]
  conv_rhs => rw [← List.map_id columns]
  refine List.map_congr_left fun name hname => ?_
  simp [afterLastPoint_append _ (hnames name hname).1]

/-- Other columns than the key alone are those of the first unique index over them, or of none. -/
theorem violatedIndex?_cases (h : d.Legible) (hne : columns ≠ []) (hnodup : columns.Nodup)
    (hnames : ∀ column ∈ columns, ColumnName column) (hkey : columns ≠ [idField]) :
    (∃ first, d.FirstOver columns first ∧
      d.violatedIndex? (d.clashText columns) = some first.name) ∨
    (∀ index ∈ d.storage.indexes, ¬ index.Over columns) ∧
      d.violatedIndex? (d.clashText columns) = some (Text.join ", " columns) := by
  obtain ⟨rest, hrest, hcolumns⟩ := columns_clashText h.table hne hnames
  have hsearch : ∀ index ∈ d.storage.indexes,
      (index.unique && index.fields.length == columns.length &&
        index.fields.all columns.contains) = true ↔ index.Over columns :=
    fun index hindex => IndexSpec.over_iff (h.nodup index hindex) hnodup
  have hkey' : (columns == ["_id"]) = false := by simpa [idField] using hkey
  simp only [violatedIndex?, hrest, Option.bind_eq_bind, Option.bind_some, hcolumns, hkey',
    Bool.false_eq_true, if_false]
  split
  · next first hfirst =>
    obtain ⟨hover, before, after, hsplit, hbefore⟩ := List.find?_eq_some_iff_append.mp hfirst
    refine .inl ⟨first, ⟨before, after, hsplit, ?_, ?_⟩, rfl⟩
    · exact (hsearch first (by simp [hsplit])).mp hover
    · intro other hother hover
      have hfound := (hsearch other (by simp [hsplit, hother])).mpr hover
      simpa [hfound] using hbefore other hother
  · next hnone =>
    refine .inr ⟨fun index hindex hover => ?_, rfl⟩
    exact List.find?_eq_none.mp hnone index hindex ((hsearch index hindex).mpr hover)

/-- The columns of a unique index, in any order, are those of the first unique index over them. -/
theorem violatedIndex?_of_perm (h : d.Legible) {index : IndexSpec}
    (hindex : index ∈ d.storage.indexes) (hunique : index.unique = true)
    (hkey : index.fields ≠ [idField]) (hperm : columns.Perm index.fields) :
    ∃ first, d.FirstOver columns first ∧
      d.violatedIndex? (d.clashText columns) = some first.name := by
  have hover : index.Over columns := ⟨hunique, fun name => hperm.symm.mem_iff⟩
  have hne : columns ≠ [] := by
    rintro rfl
    exact h.nonempty index hindex hperm.nil_eq.symm
  have hnodup : columns.Nodup := hperm.nodup_iff.mpr (h.nodup index hindex)
  have hnames : ∀ column ∈ columns, ColumnName column :=
    fun column hcolumn => h.indexed index hindex column (hperm.mem_iff.mp hcolumn)
  have hkey' : columns ≠ [idField] := by
    rintro rfl
    exact hkey (List.perm_singleton.mp hperm.symm)
  rcases violatedIndex?_cases h hne hnodup hnames hkey' with hfirst | ⟨hnone, -⟩
  · exact hfirst
  · exact absurd hover (hnone index hindex)

/-- The text of a clash in the key alone names the primary index. -/
theorem violatedIndex?_key (h : d.Legible) :
    d.violatedIndex? (d.clashText [idField]) = some primaryIndexName := by
  have hnames : ∀ column ∈ [idField], ColumnName column := by decide
  obtain ⟨rest, hrest, hcolumns⟩ := columns_clashText h.table (List.cons_ne_nil _ _) hnames
  simp only [violatedIndex?, hrest, Option.bind_eq_bind, Option.bind_some, hcolumns]
  rfl

/-- The text of a clash in the columns of a unique index, in any order, names the first unique
index over exactly these columns, unless they are the key alone. That of the key alone names the
primary index, and that of other columns which no unique index is over names the columns. -/
theorem violatedIndex?_clashText (h : d.Legible) :
    (∀ index ∈ d.storage.indexes, index.unique = true → index.fields ≠ [idField] →
      ∀ columns, columns.Perm index.fields →
        ∃ first, d.FirstOver columns first ∧
          d.violatedIndex? (d.clashText columns) = some first.name) ∧
    d.violatedIndex? (d.clashText [idField]) = some primaryIndexName ∧
    ∀ columns, columns ≠ [] → columns.Nodup → (∀ column ∈ columns, ColumnName column) →
      columns ≠ [idField] → (∀ index ∈ d.storage.indexes, ¬ index.Over columns) →
        d.violatedIndex? (d.clashText columns) = some (Text.join ", " columns) := by
  refine ⟨?_, ?_, ?_⟩
  · intro index hindex hunique hkey columns hperm
    exact violatedIndex?_of_perm h hindex hunique hkey hperm
  · exact violatedIndex?_key h
  · intro columns hne hnodup hnames hkey hnone
    rcases violatedIndex?_cases h hne hnodup hnames hkey with
      ⟨first, ⟨before, after, hsplit, hover, -⟩, -⟩ | ⟨-, hcolumns⟩
    · exact absurd hover (hnone first (by simp [hsplit]))
    · exact hcolumns

/-- Texts with two unique indexes over the same columns and one that is not unique, in a table with
a point in its name. -/
def overlapping : Descriptor where
  kind := .sms
  title := "Text"
  fields := [.generatedId, .createdTime, .updatedTime, .parentTemplate, .variantLocale]
  storage := .utf8 "main.sms" [⟨"i_locale", ["locale"], false⟩,
    ⟨"ui_locale_template", ["locale", "template"], true⟩, .uniqueTemplateLocale] []

/-- The first of the unique indexes is named for their columns in either order, the key is that of
the primary index, and a column without a unique index is named itself. -/
theorem violatedIndex?_overlapping :
    (∃ first, overlapping.FirstOver ["template", "locale"] first ∧
      overlapping.violatedIndex? "UNIQUE constraint failed: main.sms.template, main.sms.locale" =
        some first.name) ∧
    overlapping.violatedIndex? "UNIQUE constraint failed: main.sms.template, main.sms.locale" =
      some "ui_locale_template" ∧
    overlapping.violatedIndex? "UNIQUE constraint failed: main.sms._id" = some "primary" ∧
    overlapping.violatedIndex? "UNIQUE constraint failed: main.sms.locale" = some "locale" := by
  have h : overlapping.Legible := ⟨by decide, by decide, by decide, by decide⟩
  obtain ⟨hindexes, hkey, hothers⟩ := violatedIndex?_clashText h
  refine ⟨?_, by decide, hkey, ?_⟩
  · exact hindexes .uniqueTemplateLocale (by decide) rfl (by decide) _ (.refl _)
  · exact hothers ["locale"] (by decide) (by decide) (by decide) (by decide) (by decide)

/-! ## Failures of the engine -/

/-- The engine shows names without quotes as they are. -/
theorem message_unique (htable : '"' ∉ d.table.toList)
    (hcolumns : ∀ column ∈ columns, '"' ∉ column.toList) :
    (EngineError.unique d.table columns).message = d.clashText columns := by
  have hshown : ∀ raw : String, '"' ∉ raw.toList → shownName raw = raw := by
    intro raw hraw
    simp [shownName, Database.nameOf?_of_notMem hraw]
  have hnames : (columns.map fun column => shownName d.table ++ "." ++ shownName column) =
      columns.map fun column => d.table ++ "." ++ column := by
    refine List.map_congr_left fun column hcolumn => ?_
    rw [hshown _ htable, hshown column (hcolumns column hcolumn)]
  unfold EngineError.message clashText
  dsimp only
  rw [hnames]

/-- A clash is a duplicate in the index that its text names. -/
theorem storeError_unique {name : String} (h : d.violatedIndex? (d.clashText columns) = some name)
    (htable : '"' ∉ d.table.toList) (hcolumns : ∀ column ∈ columns, '"' ∉ column.toList) :
    d.storeError (.unique d.table columns) = .duplicate d.kind name := by
  simp [storeError, EngineError.isConstraint, message_unique htable hcolumns, h]

/-! ## The shipped definitions -/

/-- The columns of clashes in tables of shipped kinds can be told. -/
theorem legible_shipped (kind : RecordKind) : (shipped kind).Legible := by
  cases kind <;> exact ⟨by decide, by decide, by decide, by decide⟩

/-- The indexes of a shipped kind are over columns of its table, whose names have no quotes. -/
theorem index_shipped (kind : RecordKind) : '"' ∉ (shipped kind).table.toList ∧
    ∀ index ∈ ((shipped kind).recordTable []).indexes,
      index.columns.all ((shipped kind).recordTable []).hasColumn = true ∧
        ∀ column ∈ index.columns, '"' ∉ column.toList := by
  cases kind <;> decide

/-- A shipped kind has one unique index over any columns, and none over the key alone. -/
theorem over_shipped (kind : RecordKind) : ∀ index ∈ (shipped kind).storage.indexes,
    index.fields ≠ [idField] ∧
      ∀ other ∈ (shipped kind).storage.indexes, other.Over index.fields → other = index := by
  cases kind <;> decide

/-- A clash in the table of a shipped kind is a duplicate in the index that its text names. -/
theorem storeError_shipped {kind : RecordKind} {index : Index} {name : String}
    (hindex : index ∈ ((shipped kind).recordTable []).indexes)
    (h : (shipped kind).violatedIndex? ((shipped kind).clashText index.columns) = some name) :
    (shipped kind).storeError (((shipped kind).recordTable []).clashError index) =
      .duplicate kind name := by
  obtain ⟨htable, hindexes⟩ := index_shipped kind
  obtain ⟨hcolumns, hquotes⟩ := hindexes index hindex
  have hclash : ((shipped kind).recordTable []).clashError index =
      .unique (shipped kind).table index.columns := if_pos hcolumns
  rw [hclash, storeError_unique h htable hquotes, kind_shipped]

/-- A clash of the primary index is reported as such. -/
theorem storeError_primary (kind : RecordKind) :
    (shipped kind).storeError (((shipped kind).recordTable []).clashError
      (Database.primaryIndex (shipped kind).table idField)) = .duplicate kind primaryIndexName :=
  storeError_shipped List.mem_cons_self (violatedIndex?_key (legible_shipped kind))

/-- A clash of a declared unique index is reported by the name of the index. -/
theorem storeError_clash (kind : RecordKind) : ∀ index ∈ (shipped kind).storage.indexes,
    index.unique = true →
      (shipped kind).storeError (((shipped kind).recordTable []).clashError
        ⟨(shipped kind).indexName index .sqlite, index.fields, index.unique⟩) =
          .duplicate kind index.name := by
  intro index hindex hunique
  obtain ⟨hkey, honly⟩ := over_shipped kind index hindex
  obtain ⟨first, ⟨before, after, hsplit, hover, -⟩, hname⟩ :=
    violatedIndex?_of_perm (legible_shipped kind) hindex hunique hkey (.refl _)
  rw [honly first (by simp [hsplit]) hover] at hname
  exact storeError_shipped (List.mem_cons_of_mem _ (List.mem_map_of_mem hindex)) hname

end Descriptor
end Phrasebook
