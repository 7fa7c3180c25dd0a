import Phrasebook.Proofs.Affixes
import Phrasebook.Proofs.Installed
import Phrasebook.Proofs.Results

/-!
# What statements create

Of the statements that create tables and indexes, the first one of a name takes effect and
the later ones of the same name are passed over. Whatever definitions are installed, the
tables have the columns and the indexes of the first statements of their names.

## Main definitions

* `Statement.First`: a statement is the first one of its name
* `Database.Makes`: everything a statement can do
* `Database.CreatedBy`: the tables are those of the first statements
-/
namespace Phrasebook

/-! ## First statements -/

theorem Text.asciiLower_append (a b : String) :
    asciiLower (a ++ b) = asciiLower a ++ asciiLower b := by
  simp [asciiLower]

namespace Statement

/-- The name of what a statement creates. -/
def name : Statement → String
  | table name _ => name
  | index _ name _ _ => name

/-- A statement is the first one of its name. -/
def First (statements : List Statement) (st : Statement) : Prop :=
  (statements.find? fun other => sameName other.name st.name) = some st

instance (statements : List Statement) (st : Statement) : Decidable (First statements st) :=
  inferInstanceAs (Decidable (_ = _))

variable {statements : List Statement} {st other : Statement}

theorem First.mem (h : First statements st) : st ∈ statements := List.mem_of_find?_eq_some h

/-- There is a first statement of every name that occurs. -/
theorem exists_first (h : st ∈ statements) :
    ∃ first, First statements first ∧ sameName first.name st.name = true := by
  have hsome : (statements.find? fun other => sameName other.name st.name).isSome = true :=
    List.find?_isSome.mpr ⟨st, h, sameName_self st.name⟩
  obtain ⟨first, hfirst⟩ := Option.isSome_iff_exists.mp hsome
  have hname : sameName first.name st.name = true := by simpa using List.find?_some hfirst
  refine ⟨first, ?_, hname⟩
  simpa only [First, sameName_congr hname] using hfirst

theorem First.unique (h : First statements st) (h' : First statements other)
    (hname : sameName st.name other.name = true) : st = other := by
  simp only [First, sameName_congr hname] at h
  exact Option.some.inj (h.symm.trans h')

/-- A further statement is a first one if its name is new; the first ones before it stay. -/
theorem first_concat : First (statements ++ [st]) other ↔
    First statements other ∨
      other = st ∧ ∀ before ∈ statements, sameName before.name st.name = false := by
  simp only [First, List.find?_append, Option.or_eq_some_iff, List.find?_eq_none,
    Bool.not_eq_true]
  refine or_congr_right ⟨?_, ?_⟩
  · rintro ⟨hnew, hfound⟩
    obtain rfl : other = st := by simpa using List.mem_of_find?_eq_some hfound
    exact ⟨rfl, hnew⟩
  · rintro ⟨rfl, hnew⟩
    exact ⟨hnew, by simp⟩

/-- A statement of a name that has occurred adds no first one. -/
theorem first_concat_of_known (h : ∃ before ∈ statements, sameName before.name st.name = true) :
    First (statements ++ [st]) other ↔ First statements other := by
  obtain ⟨before, hbefore, hname⟩ := h
  rw [first_concat, or_iff_left]
  rintro ⟨-, hnew⟩
  rw [hnew before hbefore] at hname
  cases hname

end Statement

/-! ## Running a statement -/

namespace Database

open Statement (First first_concat first_concat_of_known)

/-- A table with one more index. -/
def withIndex (t : Table) (index : Index) : Table := { t with indexes := t.indexes ++ [index] }

/-- Everything a statement can do: it creates what has a new name, and passes over what
exists. -/
inductive Makes (db : Database) : Statement → Database → Prop where
  | table {name : String} {columns : List ColumnSpec} (free : db.table? name = none)
    (unused : db.hasIndex name = false) :
    Makes db (.table name columns) ⟨db.tables ++ [freshTable name columns]⟩
  | tableKept {name : String} {columns : List ColumnSpec}
    (taken : (db.table? name).isSome = true) : Makes db (.table name columns) db
  | index {unique : Bool} {name parent : String} {columns : List String} {t : Table}
    (found : db.table? parent = some t) (free : db.table? name = none)
    (unused : db.hasIndex name = false) :
    Makes db (.index unique name parent columns)
      (db.put (withIndex t ⟨name, columns, unique⟩))
  | indexKept {unique : Bool} {name parent : String} {columns : List String} {t : Table}
    (found : db.table? parent = some t) (allowed : reserved name = false)
    (taken : db.hasIndex name = true) : Makes db (.index unique name parent columns) db

variable {db db' : Database} {sql : String} {st : Statement}

theorem readName_eq_ok {lead raw name : String} (h : readName sql lead raw = .ok name) :
    name = raw := by
  unfold readName at h
  split at h
  · exact (Except.ok.inj h).symm
  · cases h

theorem createTable_makes {name : String} {columns : List ColumnSpec}
    (h : db.createTable name columns = .ok db') : db.Makes (.table name columns) db' := by
  unfold createTable at h
  split at h
  · cases h
  · split at h
    · next htaken =>
      cases h
      exact .tableKept htaken
    · next hfree =>
      split at h
      · cases h
      · next hunused =>
        split at h
        · cases h
        · cases h
          exact .table (by simpa using hfree) (by simpa using hunused)

theorem createIndex_makes {index : Index} {parent : String}
    (h : db.createIndex index parent = .ok db') :
    db.Makes (.index index.unique index.name parent index.columns) db' := by
  obtain ⟨t, ht, h⟩ := bind_eq_ok_iff.mp h
  have hfound := table_eq_ok_iff.mp ht
  split at h
  · cases h
  · next hallowed =>
    split at h
    · cases h
    · next hfree =>
      split at h
      · next htaken =>
        cases h
        exact .indexKept hfound (by simpa using hallowed) htaken
      · next hunused =>
        split at h
        · cases h
        · cases h
          exact .index hfound (by simpa using hfree) (by simpa using hunused)

/-- A statement that succeeds does one of these. -/
theorem run_makes (h : db.run sql st = .ok db') : db.Makes st db' := by
  cases st with
  | table raw columns =>
    obtain ⟨name, hname, hread⟩ := bind_eq_ok_iff.mp h
    obtain ⟨specs, hspecs, hcreate⟩ := bind_eq_ok_iff.mp hread
    have hcolumns : specs = columns := by
      refine mapM_eq_self (fun c c' hc => ?_) hspecs
      obtain ⟨column, hcolumn, hc⟩ := bind_eq_ok_iff.mp hc
      rw [← Except.ok.inj hc, readName_eq_ok hcolumn]
    rw [readName_eq_ok hname, hcolumns] at hcreate
    exact createTable_makes hcreate
  | index unique raw parent columns =>
    obtain ⟨name, hname, hread⟩ := bind_eq_ok_iff.mp h
    obtain ⟨table, htable, hread⟩ := bind_eq_ok_iff.mp hread
    dsimp only at hread
    split at hread
    · cases hread
    · obtain ⟨names, hnames, hcreate⟩ := bind_eq_ok_iff.mp hread
      rw [readName_eq_ok hname, readName_eq_ok htable,
        mapM_eq_self (fun _ _ => readName_eq_ok) hnames] at hcreate
      exact createIndex_makes hcreate

end Database

/-! ## Tables of first statements -/

open Statement (First first_concat first_concat_of_known)

/-- A table has the columns of the first statement of its name and the indexes of the first
statements of theirs, and no rows. -/
structure Table.CreatedBy (t : Table) (statements : List Statement)
    (columns : List ColumnSpec) : Prop where
  first : First statements (.table t.name columns)
  columns_eq : t.columns = columns.map fun c => ⟨c.name, c.notNull⟩
  rows_eq : t.rows = []
  mem_indexes : ∀ index, index ∈ t.indexes ↔
    (∃ c ∈ columns, c.primary = true ∧ index = Database.primaryIndex t.name c.name) ∨
      ∃ parent, First statements (.index index.unique index.name parent index.columns) ∧
        sameName parent t.name = true

namespace Table.CreatedBy

variable {t : Table} {statements : List Statement} {st : Statement} {name : String}

/-- A further statement that adds no index to a table leaves it as it is. -/
theorem concat {columns : List ColumnSpec} (h : t.CreatedBy statements columns)
    (hnone : ∀ (index : Index) parent,
      First (statements ++ [st]) (.index index.unique index.name parent index.columns) →
        sameName parent t.name = true →
          First statements (.index index.unique index.name parent index.columns)) :
    t.CreatedBy (statements ++ [st]) columns where
  first := first_concat.mpr (.inl h.first)
  columns_eq := h.columns_eq
  rows_eq := h.rows_eq
  mem_indexes index := by
    rw [h.mem_indexes]
    refine or_congr_right (exists_congr fun parent => and_congr_left fun hparent => ?_)
    exact ⟨fun hfirst => first_concat.mpr (.inl hfirst),
      fun hfirst => hnone index parent hfirst hparent⟩

/-- A statement of a new name creates a table without rows, if no index was to be on it. -/
theorem fresh {columns : List ColumnSpec}
    (hnew : ∀ before ∈ statements, sameName before.name name = false)
    (hnone : ∀ before ∈ statements, ∀ (index : Index) parent,
      before = .index index.unique index.name parent index.columns →
        sameName parent name = false) :
    (Database.freshTable name columns).CreatedBy (statements ++ [.table name columns]) columns where
  first := first_concat.mpr (.inr ⟨rfl, hnew⟩)
  columns_eq := rfl
  rows_eq := rfl
  mem_indexes index := by
    rw [or_iff_left]
    · simp only [Database.freshTable, List.mem_map, List.mem_filter, and_assoc]
      exact exists_congr fun c => and_congr_right fun _ => and_congr_right fun _ => eq_comm
    · rintro ⟨parent, hfirst, hparent⟩
      rcases first_concat.mp hfirst with hfirst | ⟨heq, -⟩
      · rw [show (Database.freshTable name columns).name = name from rfl,
          hnone _ hfirst.mem index parent rfl] at hparent
        cases hparent
      · cases heq

/-- A statement of a new name adds its index to its table. -/
theorem add_index {specs : List ColumnSpec} {unique : Bool} {parent : String}
    {columns : List String} (h : t.CreatedBy statements specs)
    (hnew : ∀ before ∈ statements, sameName before.name name = false)
    (hparent : sameName parent t.name = true) :
    (Database.withIndex t ⟨name, columns, unique⟩).CreatedBy
      (statements ++ [.index unique name parent columns]) specs where
  first := first_concat.mpr (.inl h.first)
  columns_eq := h.columns_eq
  rows_eq := h.rows_eq
  mem_indexes index := by
    rw [Database.withIndex, List.mem_append, List.mem_singleton, h.mem_indexes, or_assoc]
    refine or_congr_right ⟨?_, ?_⟩
    · rintro (⟨other, hfirst, hother⟩ | rfl)
      · exact ⟨other, first_concat.mpr (.inl hfirst), hother⟩
      · exact ⟨parent, first_concat.mpr (.inr ⟨rfl, hnew⟩), hparent⟩
    · rintro ⟨other, hfirst, hother⟩
      rcases first_concat.mp hfirst with hfirst | ⟨heq, -⟩
      · exact .inl ⟨other, hfirst, hother⟩
      · cases index
        cases heq
        exact .inr rfl

end Table.CreatedBy

/-- The tables are those of the first statements. -/
structure Database.CreatedBy (db : Database) (statements : List Statement) : Prop where
  tables : ∀ t ∈ db.tables, ∃ columns, t.CreatedBy statements columns
  found : ∀ t ∈ db.tables, db.table? t.name = some t
  has_table : ∀ {name columns}, .table name columns ∈ statements →
    (db.table? name).isSome = true
  has_parent : ∀ {unique name parent columns}, .index unique name parent columns ∈ statements →
    (db.table? parent).isSome = true
  has_index : ∀ {unique name parent columns}, .index unique name parent columns ∈ statements →
    db.hasIndex name = true

namespace Database

variable {db db' : Database} {statements : List Statement} {st : Statement} {name : String}

theorem hasIndex_iff : db.hasIndex name = true ↔
    ∃ t ∈ db.tables, ∃ index ∈ t.indexes, sameName index.name name = true := by
  simp [hasIndex]

theorem table?_concat (t : Table) : (Database.mk (db.tables ++ [t])).table? name =
    (db.table? name).or (if sameName t.name name then some t else none) := by
  simp only [table?, List.find?_append, List.find?_singleton]

/-- The name of the index of a primary key is reserved. -/
theorem reserved_primaryIndex {table column : String}
    (h : sameName (primaryIndex table column).name name = true) : reserved name = true := by
  have hstart : Text.asciiLower "sqlite_autoindex_" = "sqlite_" ++ "autoindex_" := by
    decide +kernel
  have hlower : Text.asciiLower name =
      "sqlite_" ++ ("autoindex_" ++ Text.asciiLower table ++ Text.asciiLower "_1") :=
    calc Text.asciiLower name
      _ = Text.asciiLower ("sqlite_autoindex_" ++ table ++ "_1") := (sameName_iff.mp h).symm
      _ = Text.asciiLower "sqlite_autoindex_" ++ Text.asciiLower table ++ Text.asciiLower "_1" := by
        rw [Text.asciiLower_append, Text.asciiLower_append]
      _ = _ := by
        rw [hstart, String.append_assoc, String.append_assoc, String.append_assoc]
  unfold reserved
  rw [hlower]
  exact Text.startsWith_append _ _

/-- Putting a table leaves it and the tables of other names. -/
theorem mem_put {t : Table} (u : Table) (h : db.table? name = some t) (hname : u.name = t.name)
    {v : Table} : v ∈ (db.put u).tables ↔ v = u ∨ v ∈ db.tables ∧ sameName v.name name = false := by
  have ht := List.mem_of_find?_eq_some h
  have hself := sameName_of_table? h
  simp only [put, List.mem_map, hname, sameName_congr hself]
  constructor
  · rintro ⟨w, hw, rfl⟩
    split
    · exact .inl rfl
    · next hne => exact .inr ⟨hw, by simpa using hne⟩
  · rintro (rfl | ⟨hv, hne⟩)
    · exact ⟨t, ht, by simp [hself]⟩
    · exact ⟨v, hv, by simp [hne]⟩

/-- Adding an index adds its name to those of the indexes. -/
theorem hasIndex_put {parent : String} {t : Table} {index : Index}
    (hfound : db.table? parent = some t) (hunique : ∀ u ∈ db.tables, db.table? u.name = some u) :
    (db.put (withIndex t index)).hasIndex name = true ↔
      db.hasIndex name = true ∨ sameName index.name name = true := by
  have hmem := fun v => mem_put (withIndex t index) hfound rfl (v := v)
  rw [hasIndex_iff, hasIndex_iff]
  constructor
  · rintro ⟨u, hu, other, hother, hname⟩
    rcases (hmem u).mp hu with rfl | ⟨hu, -⟩
    · rcases List.mem_append.mp hother with hother | hother
      · exact .inl ⟨t, List.mem_of_find?_eq_some hfound, other, hother, hname⟩
      · exact .inr (List.mem_singleton.mp hother ▸ hname)
    · exact .inl ⟨u, hu, other, hother, hname⟩
  · rintro (⟨u, hu, other, hother, hname⟩ | hname)
    · by_cases hsame : sameName u.name parent = true
      · obtain rfl : u = t := by
          rw [← Option.some_inj, ← hunique u hu, table?_congr hsame, hfound]
        exact ⟨_, (hmem _).mpr (.inl rfl), other, List.mem_append_left _ hother, hname⟩
      · exact ⟨u, (hmem u).mpr (.inr ⟨hu, by simpa using hsame⟩), other, hother, hname⟩
    · exact ⟨_, (hmem _).mpr (.inl rfl), index, List.mem_append_right _ List.mem_cons_self, hname⟩

namespace CreatedBy

variable (h : db.CreatedBy statements)
include h

/-- The table of a name is made by the statements. -/
theorem of_table? (ht : db.table? name = some t) : ∃ specs, t.CreatedBy statements specs :=
  h.tables t (List.mem_of_find?_eq_some ht)

theorem exists_table {columns : List ColumnSpec} (hst : .table name columns ∈ statements) :
    ∃ t specs, db.table? name = some t ∧ t.CreatedBy statements specs := by
  obtain ⟨t, ht⟩ := Option.isSome_iff_exists.mp (h.has_table hst)
  obtain ⟨specs, hcreated⟩ := h.of_table? ht
  exact ⟨t, specs, ht, hcreated⟩

/-- No statement makes a row. -/
theorem rows_of_table? (ht : db.table? name = some t) : t.rows = [] := by
  obtain ⟨specs, hcreated⟩ := h.of_table? ht
  exact hcreated.rows_eq

/-- A name without a table and an index is new. -/
theorem new_name (hfree : db.table? name = none) (hunused : db.hasIndex name = false) :
    ∀ before ∈ statements, sameName before.name name = false := by
  intro before hbefore
  refine Bool.eq_false_iff.mpr fun hname => ?_
  cases before with
  | table other columns =>
    have hother : sameName other name = true := hname
    have hsome := h.has_table hbefore
    rw [table?_congr hother, hfree] at hsome
    cases hsome
  | index unique other parent columns =>
    obtain ⟨t, ht, index, hindex, hother⟩ := hasIndex_iff.mp (h.has_index hbefore)
    have htaken : db.hasIndex name = true :=
      hasIndex_iff.mpr ⟨t, ht, index, hindex, sameName_congr hname index.name ▸ hother⟩
    rw [htaken] at hunused
    cases hunused

/-- The name of a table is that of an earlier statement. -/
theorem known_table (htaken : (db.table? name).isSome = true) :
    ∃ before ∈ statements, sameName before.name name = true := by
  obtain ⟨t, ht⟩ := Option.isSome_iff_exists.mp htaken
  obtain ⟨columns, hcreated⟩ := h.of_table? ht
  exact ⟨_, hcreated.first.mem, sameName_of_table? ht⟩

/-- The name of an index that a statement may have is that of an earlier statement. -/
theorem known_index (hallowed : reserved name = false) (htaken : db.hasIndex name = true) :
    ∃ before ∈ statements, sameName before.name name = true := by
  obtain ⟨t, ht, index, hindex, hname⟩ := hasIndex_iff.mp htaken
  obtain ⟨columns, hcreated⟩ := h.tables t ht
  rcases (hcreated.mem_indexes index).mp hindex with ⟨c, -, -, rfl⟩ | ⟨parent, hfirst, -⟩
  · rw [reserved_primaryIndex hname] at hallowed
    cases hallowed
  · exact ⟨_, hfirst.mem, hname⟩

/-- A further statement keeps this if the tables and indexes are still there, each table is that of
the first statements, and the names that the statement uses are found. -/
theorem concat (htables : ∀ t ∈ db'.tables, ∃ columns, t.CreatedBy (statements ++ [st]) columns)
    (hfound : ∀ t ∈ db'.tables, db'.table? t.name = some t)
    (hkept : ∀ name, (db.table? name).isSome = true → (db'.table? name).isSome = true)
    (hindexed : ∀ name, db.hasIndex name = true → db'.hasIndex name = true)
    (htable : ∀ {name columns}, st = .table name columns → (db'.table? name).isSome = true)
    (hindex : ∀ {unique name parent columns}, st = .index unique name parent columns →
      (db'.table? parent).isSome = true ∧ db'.hasIndex name = true) :
    CreatedBy db' (statements ++ [st]) where
  tables := htables
  found := hfound
  has_table hmem := by
    rcases List.mem_append.mp hmem with hmem | hmem
    · exact hkept _ (h.has_table hmem)
    · exact htable (List.mem_singleton.mp hmem).symm
  has_parent hmem := by
    rcases List.mem_append.mp hmem with hmem | hmem
    · exact hkept _ (h.has_parent hmem)
    · exact (hindex (List.mem_singleton.mp hmem).symm).1
  has_index hmem := by
    rcases List.mem_append.mp hmem with hmem | hmem
    · exact hindexed _ (h.has_index hmem)
    · exact (hindex (List.mem_singleton.mp hmem).symm).2

/-- A statement whose name is taken changes nothing. -/
theorem keep (hknown : ∃ before ∈ statements, sameName before.name st.name = true)
    (htable : ∀ {name columns}, st = .table name columns → (db.table? name).isSome = true)
    (hindex : ∀ {unique name parent columns}, st = .index unique name parent columns →
      (db.table? parent).isSome = true ∧ db.hasIndex name = true) :
    CreatedBy db (statements ++ [st]) := by
  refine h.concat (fun t ht => ?_) h.found (fun _ => id) (fun _ => id) htable hindex
  obtain ⟨columns, hcreated⟩ := h.tables t ht
  exact ⟨columns, hcreated.concat fun _ _ hfirst _ => (first_concat_of_known hknown).mp hfirst⟩

/-- A new table comes after the others. -/
theorem add_table {columns : List ColumnSpec} (hfree : db.table? name = none)
    (hunused : db.hasIndex name = false) :
    CreatedBy ⟨db.tables ++ [freshTable name columns]⟩ (statements ++ [.table name columns]) := by
  refine h.concat (fun t ht => ?_) (fun t ht => ?_) (fun other hother => ?_)
    (fun other hother => ?_) (fun heq => ?_) fun heq => ?_
  · rcases List.mem_append.mp ht with ht | ht
    · obtain ⟨specs, hcreated⟩ := h.tables t ht
      refine ⟨specs, hcreated.concat fun index parent hfirst _ => ?_⟩
      exact (first_concat.mp hfirst).resolve_right fun heq => nomatch heq.1
    · obtain rfl := List.mem_singleton.mp ht
      refine ⟨columns, .fresh (h.new_name hfree hunused) fun st hst index parent heq => ?_⟩
      -- An index on the table would have had to find it.
      refine Bool.eq_false_iff.mpr fun hparent => ?_
      have hsome := h.has_parent (heq ▸ hst)
      rw [table?_congr hparent, hfree] at hsome
      cases hsome
  · rcases List.mem_append.mp ht with ht | ht
    · simp [table?_concat, h.found t ht]
    · obtain rfl := List.mem_singleton.mp ht
      simp [table?_concat, freshTable, hfree]
  · rw [table?_concat, Option.isSome_or, hother, Bool.true_or]
  · obtain ⟨t, ht, hindex⟩ := hasIndex_iff.mp hother
    exact hasIndex_iff.mpr ⟨t, List.mem_append_left _ ht, hindex⟩
  · cases heq
    simp [table?_concat, freshTable]
  · cases heq

/-- A new index comes after the others of its table. -/
theorem add_index {unique : Bool} {parent : String} {columns : List String} {t : Table}
    (hfound : db.table? parent = some t) (hfree : db.table? name = none)
    (hunused : db.hasIndex name = false) :
    CreatedBy (db.put (withIndex t ⟨name, columns, unique⟩))
      (statements ++ [.index unique name parent columns]) := by
  have ht := List.mem_of_find?_eq_some hfound
  have hparent := sameName_of_table? hfound
  have hmem : ∀ v, v ∈ (db.put (withIndex t ⟨name, columns, unique⟩)).tables ↔
      v = withIndex t ⟨name, columns, unique⟩ ∨ v ∈ db.tables ∧ sameName v.name parent = false :=
    fun _ => mem_put (withIndex t ⟨name, columns, unique⟩) hfound rfl
  have htable : ∀ other, ((db.put (withIndex t ⟨name, columns, unique⟩)).table? other).isSome =
      (db.table? other).isSome := by
    intro other
    rw [table?_put]
    split <;> simp
  refine h.concat (fun u hu => ?_) (fun u hu => ?_) (fun other hother => ?_)
    (fun other hother => ?_) (fun heq => ?_) fun heq => ?_
  · rcases (hmem u).mp hu with rfl | ⟨hu, hne⟩
    · obtain ⟨specs, hcreated⟩ := h.tables t ht
      exact ⟨specs, hcreated.add_index (h.new_name hfree hunused)
        (sameName_comm parent t.name ▸ hparent)⟩
    · obtain ⟨specs, hcreated⟩ := h.tables u hu
      refine ⟨specs, hcreated.concat fun index other hfirst hother => ?_⟩
      refine (first_concat.mp hfirst).resolve_right fun ⟨heq, _⟩ => ?_
      cases heq
      rw [sameName_comm, hother] at hne
      cases hne
  · rcases (hmem u).mp hu with rfl | ⟨hu, hne⟩
    · rw [table?_put, if_pos (sameName_self _), show (withIndex t _).name = t.name from rfl,
        h.found t ht]
      rfl
    · have hother : sameName t.name u.name = false := by
        rw [sameName_comm, sameName_congr hparent, hne]
      rw [table?_put, if_neg (by simpa [withIndex] using hother), h.found u hu]
  · rw [htable, hother]
  · exact (hasIndex_put hfound h.found).mpr (.inl hother)
  · cases heq
  · cases heq
    rw [htable, hfound]
    exact ⟨rfl, (hasIndex_put hfound h.found).mpr (.inr (sameName_self name))⟩

/-- Whatever a statement does, the tables are those of the first statements. -/
theorem step (hmakes : db.Makes st db') : db'.CreatedBy (statements ++ [st]) := by
  cases hmakes with
  | table free unused => exact h.add_table free unused
  | tableKept taken =>
    refine h.keep (h.known_table taken) (fun heq => ?_) fun heq => ?_
    · cases heq
      exact taken
    · cases heq
  | index found free unused => exact h.add_index found free unused
  | indexKept found allowed taken =>
    refine h.keep (h.known_index allowed taken) (fun heq => ?_) fun heq => ?_
    · cases heq
    · cases heq
      exact ⟨found ▸ rfl, taken⟩

/-- Statements run one after another create tables for all of them. -/
theorem runBatch {lead : String} {batch : List (Statement × String)}
    (hrun : db.runBatch lead batch = .ok db') :
    db'.CreatedBy (statements ++ batch.map Prod.fst) := by
  induction batch generalizing db statements lead with
  | nil =>
    cases hrun
    simpa using h
  | cons first rest ih =>
    obtain ⟨db₁, hfirst, hrest⟩ := bind_eq_ok_iff.mp hrun
    have hstep := ih (h.step (run_makes hfirst)) hrest
    rwa [List.append_assoc] at hstep

end CreatedBy
end Database

/-! ## Installing -/

/-- The statements that create the tables of a kind. -/
def Descriptor.statements (d : Descriptor) : List Statement :=
  d.sqliteRecordStatements ++ d.sqliteChangeStatements

/-- The statements that create the tables of all kinds. -/
def Registry.statements (registry : Registry) : List Statement :=
  registry.descriptors.flatMap Descriptor.statements

theorem Descriptor.sqliteBatch_statements (d : Descriptor) :
    d.sqliteBatch.map Prod.fst = d.statements := by
  have hapart : ∀ texts : List String, (setApart texts).length = texts.length := by
    intro texts
    cases texts <;> rfl
  refine List.map_fst_zip ?_
  simp [hapart]

/-- Installing creates the tables of the first statements. -/
theorem Store.createdBy_install {s s' : Store} (hempty : s.database = .empty)
    (h : s.install = .ok s') :
    s'.registry = s.registry ∧ s'.database.CreatedBy s.registry.statements := by
  unfold install at h
  split at h
  · next db hrun =>
    cases h
    refine ⟨rfl, ?_⟩
    have hall : ∀ (ds : List Descriptor) (before : List Statement) (db₀ : Database),
        db₀.CreatedBy before →
        ds.foldlM (fun db (d : Descriptor) => db.runBatch "" d.sqliteBatch) db₀ = .ok db →
        db.CreatedBy (before ++ ds.flatMap Descriptor.statements) := by
      intro ds
      induction ds with
      | nil =>
        intro before db₀ hbefore hds
        cases hds
        simpa using hbefore
      | cons d ds ih =>
        intro before db₀ hbefore hds
        rw [List.foldlM_cons] at hds
        obtain ⟨db₁, hd, hds⟩ := bind_eq_ok_iff.mp hds
        have hstep := ih _ _ (hbefore.runBatch hd) hds
        rwa [d.sqliteBatch_statements, List.append_assoc] at hstep
    rw [hempty] at hrun
    refine hall s.registry.descriptors [] .empty ⟨?_, ?_, ?_, ?_, ?_⟩ hrun <;> simp [Database.empty]
  · cases h

end Phrasebook
