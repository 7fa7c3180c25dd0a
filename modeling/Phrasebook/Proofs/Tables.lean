import Mathlib.Data.List.Pairwise
import Mathlib.Logic.Basic
import Phrasebook.Proofs.Results
import Phrasebook.Store.Database

/-!
# Tables that keep their constraints

What inserting, updating and deleting do to the rows of a table, and that no two
rows ever agree on a unique index and none has a forbidden null. Replacing a table of
a database leaves every table of another name as it is.

## Main definitions

* `Table.Agree`: two rows hold the same texts in the columns of a unique index
* `Table.Distinct`: no two rows agree on any index
* `Table.Full`: no row has a null that its table forbids
-/
namespace Phrasebook

/-! ## Cells -/

namespace Row

theorem value?_cons (entry : String × Option String) (row : Row) (name : String) :
    value? (entry :: row) name = if entry.1 = name then some entry.2 else value? row name := by
  by_cases h : entry.1 = name <;> simp [value?, h]

/-- The value of a name in a row that lists values by field. -/
theorem value?_map {α : Type} (fields : List α) (key : α → String) (text : α → Option String)
    (name : String) :
    value? (fields.map fun f => (key f, text f)) name =
      (fields.find? fun f => key f == name).map text := by
  simp [value?, List.find?_map, Function.comp_def]

end Row

namespace Table

variable {t : Table} {given : Assignment} {index : Index} {row : Row} {rows others : List Row}

theorem value?_assign (given : Assignment) (row : Row) (name : String) :
    Row.value? (assign given row) name =
      (Row.value? row name).map ((Row.value? given name).getD ·) := by
  induction row with
  | nil => rfl
  | cons entry row ih =>
    have hcons : assign given (entry :: row) =
        (entry.1, (Row.value? given entry.1).getD entry.2) :: assign given row := rfl
    rw [hcons, Row.value?_cons, ih, Row.value?_cons]
    by_cases h : entry.1 = name <;> simp [h]

/-! ## Agreement on an index -/

/-- Two rows hold the same texts, and no null, in the columns of a unique
index. -/
def Agree (index : Index) (a b : Row) : Prop :=
  index.unique = true ∧ (keyOf index a).all Option.isSome = true ∧ keyOf index a = keyOf index b

/-- No two rows agree on an index of the table. -/
def Distinct (t : Table) (rows : List Row) : Prop :=
  ∀ index ∈ t.indexes, rows.Pairwise fun a b => ¬ Agree index a b

theorem Agree.symm {a b : Row} (h : Agree index a b) : Agree index b a :=
  ⟨h.1, h.2.2 ▸ h.2.1, h.2.2.symm⟩

/-- Agreement is a matter of the columns of the index. -/
theorem Agree.congr {a b other : Row} (h : Agree index a other)
    (hcells : ∀ name ∈ index.columns, Row.cell b name = Row.cell a name) : Agree index b other := by
  have hkey : keyOf index b = keyOf index a := List.map_inj_left.mpr hcells
  rw [Agree, hkey]
  exact h

/-- Rows that agree on an index agree on a unique index of some of its columns. -/
theorem Agree.mono {other : Index} {a b : Row} (h : Agree index a b) (hunique : other.unique = true)
    (hsub : other.columns ⊆ index.columns) : Agree other a b := by
  obtain ⟨-, hall, hkey⟩ := h
  simp only [keyOf, List.all_map, List.all_eq_true, List.map_inj_left] at hall hkey
  refine ⟨hunique, ?_, ?_⟩
  · simpa only [keyOf, List.all_map, List.all_eq_true] using fun name hname => hall name (hsub hname)
  · simpa only [keyOf, List.map_inj_left] using fun name hname => hkey name (hsub hname)

/-- Distinct rows that agree on an index are the same row. -/
theorem Distinct.eq_of_agree (h : t.Distinct rows) (hindex : index ∈ t.indexes) {a b : Row}
    (ha : a ∈ rows) (hb : b ∈ rows) (hagree : Agree index a b) : a = b := by
  have hsymm : Std.Symm fun a b => ¬ Agree index a b := ⟨fun _ _ hne hagree => hne hagree.symm⟩
  by_contra hne
  exact (h index hindex).forall ha hb hne hagree

theorem clashes_iff :
    clashes index row others = true ↔ ∃ other ∈ others, Agree index row other := by
  simp only [clashes, Agree, Bool.and_eq_true, List.any_eq_true, beq_iff_eq]
  constructor
  · rintro ⟨⟨hunique, hall⟩, other, hmem, hkey⟩
    exact ⟨other, hmem, hunique, hall, hkey.symm⟩
  · rintro ⟨other, hmem, hunique, hall, hkey⟩
    exact ⟨⟨hunique, hall⟩, other, hmem, hkey.symm⟩

/-- The rows have a text in every column that cannot be null. -/
def Full (t : Table) (rows : List Row) : Prop :=
  ∀ row ∈ rows, ∀ c ∈ t.columns, c.notNull = true → (Row.cell row c.name).isSome = true

/-- A row passes the check if it has no forbidden null and agrees with no other
row. -/
theorem check_eq_ok_iff : t.check others row = .ok () ↔
    (∀ c ∈ t.columns, c.notNull = true → (Row.cell row c.name).isSome = true) ∧
      ∀ index ∈ t.indexes, ∀ other ∈ others, ¬ Agree index row other := by
  unfold check
  split
  · next c hc =>
    have hnull := List.find?_some hc
    simp only [reduceCtorEq, false_iff, not_and]
    intro hcols
    have := hcols c (List.mem_of_find?_eq_some hc)
    simp_all
  · next hcols =>
    have hnull : ∀ c ∈ t.columns, c.notNull = true → (Row.cell row c.name).isSome = true := by
      intro c hc hn
      have := List.find?_eq_none.mp hcols c hc
      simpa [hn, Option.isSome_iff_ne_none] using this
    split
    · next index hindex =>
      have hclash : clashes index row others = true := by simpa using List.find?_some hindex
      obtain ⟨other, hmem, hagree⟩ := clashes_iff.mp hclash
      have hin : index ∈ t.indexes := List.mem_reverse.mp (List.mem_of_find?_eq_some hindex)
      simp only [reduceCtorEq, false_iff, not_and]
      exact fun _ hall => hall index hin other hmem hagree
    · next hindexes =>
      simp only [true_iff]
      refine ⟨hnull, fun index hin other hmem hagree => ?_⟩
      exact List.find?_eq_none.mp hindexes index (List.mem_reverse.mpr hin)
        (clashes_iff.mpr ⟨other, hmem, hagree⟩)

/-- A row without forbidden nulls that fails the check agrees with another row on the index
that the failure names. -/
theorem check_eq_error {e : EngineError} (h : t.check others row = .error e)
    (hnull : ∀ c ∈ t.columns, c.notNull = true → (Row.cell row c.name).isSome = true) :
    ∃ index ∈ t.indexes, e = t.clashError index ∧ ∃ other ∈ others, Agree index row other := by
  unfold check at h
  split at h
  · next c hc =>
    have hbad := List.find?_some hc
    have hcell := hnull c (List.mem_of_find?_eq_some hc)
    simp_all
  · split at h
    · next index hindex =>
      cases h
      exact ⟨index, List.mem_reverse.mp (List.mem_of_find?_eq_some hindex), rfl,
        clashes_iff.mp (by simpa using List.find?_some hindex)⟩
    · cases h

/-- Such a row is never refused for a null. -/
theorem check_ne_notNull (table column : String)
    (hnull : ∀ c ∈ t.columns, c.notNull = true → (Row.cell row c.name).isSome = true) :
    t.check others row ≠ .error (.notNull table column) := by
  intro h
  obtain ⟨index, -, heq, -⟩ := check_eq_error h hnull
  unfold clashError at heq
  split at heq <;> cases heq

/-! ## Inserting -/

theorem insert_eq_ok_iff {t' : Table} : t.insert given = .ok t' ↔
    (∀ entry ∈ given, t.hasColumn entry.1 = true) ∧ t.check t.rows (t.rowOf given) = .ok () ∧
      t' = { t with rows := t.rows ++ [t.rowOf given] } := by
  unfold insert
  split
  · next entry hentry =>
    have hbad := List.find?_some hentry
    have hmem := List.mem_of_find?_eq_some hentry
    simp only [reduceCtorEq, false_iff, not_and]
    intro hcols
    simp_all
  · next hnone =>
    have hcols : ∀ entry ∈ given, t.hasColumn entry.1 = true := by
      intro entry hmem
      simpa using List.find?_eq_none.mp hnone entry hmem
    cases hcheck : t.check t.rows (t.rowOf given) with
    | error e => simp [hcheck, bind, Except.bind]
    | ok u =>
      simp only [hcheck, bind, Except.bind, Except.ok.injEq, true_and]
      exact ⟨fun h => ⟨hcols, h.symm⟩, fun h => h.2.symm⟩

/-- Inserting values of columns that are there is a matter of checking the row. -/
theorem insert_eq (h : ∀ entry ∈ given, t.hasColumn entry.1 = true) :
    t.insert given = (t.check t.rows (t.rowOf given)).map fun _ =>
      { t with rows := t.rows ++ [t.rowOf given] } := by
  cases hrun : t.insert given with
  | ok t' =>
    obtain ⟨-, hcheck, rfl⟩ := insert_eq_ok_iff.mp hrun
    simp [hcheck, Except.map]
  | error e =>
    unfold insert at hrun
    split at hrun
    · next entry hentry =>
      simpa [h entry (List.mem_of_find?_eq_some hentry)] using List.find?_some hentry
    · rcases bind_eq_error_iff.mp hrun with hcheck | ⟨-, -, hrun⟩
      · simp [hcheck, Except.map]
      · cases hrun

theorem insert_ne_notNull (table column : String)
    (hnull : ∀ c ∈ t.columns, c.notNull = true → (Row.cell (t.rowOf given) c.name).isSome = true) :
    t.insert given ≠ .error (.notNull table column) := by
  intro h
  unfold insert at h
  split at h
  · cases h
  · rcases bind_eq_error_iff.mp h with hcheck | ⟨-, -, h⟩
    · exact check_ne_notNull table column hnull hcheck
    · cases h

/-- A checked row may join rows that are distinct. -/
theorem Distinct.append (h : t.Distinct rows) (hcheck : t.check rows row = .ok ()) :
    t.Distinct (rows ++ [row]) := by
  intro index hin
  refine List.pairwise_append.mpr ⟨h index hin, List.pairwise_singleton _ _, ?_⟩
  intro a ha b hb hagree
  rw [List.mem_singleton] at hb
  subst hb
  exact (check_eq_ok_iff.mp hcheck).2 index hin a ha hagree.symm

/-- A checked row may join rows without forbidden nulls. -/
theorem Full.append (h : t.Full rows) (hcheck : t.check rows row = .ok ()) :
    t.Full (rows ++ [row]) := by
  intro other hother
  rcases List.mem_append.mp hother with hother | hother
  · exact h other hother
  · exact List.mem_singleton.mp hother ▸ (check_eq_ok_iff.mp hcheck).1

/-! ## Updating -/

/-- What an update makes of a row. -/
def revise (selected : Row → Bool) (given : Assignment) (row : Row) : Row :=
  if selected row then assign given row else row

/-- An update checks and revises the next row if it is selected, and passes it otherwise. -/
theorem updateRows_cons_ok {selected : Row → Bool} {done rest : List Row} {count n : Nat}
    {result : List Row}
    (h : t.updateRows selected given done count (row :: rest) = .ok (result, n)) :
    (selected row = true ∧ t.check (done ++ rest) (assign given row) = .ok () ∧
      t.updateRows selected given (done ++ [assign given row]) (count + 1) rest =
        .ok (result, n)) ∨
    (¬ selected row = true ∧
      t.updateRows selected given (done ++ [row]) count rest = .ok (result, n)) := by
  rw [updateRows] at h
  split at h
  · next hsel =>
    cases hcheck : t.check (done ++ rest) (assign given row) with
    | error e => simp [hcheck, bind, Except.bind] at h
    | ok u =>
      simp only [hcheck, bind, Except.bind] at h
      exact .inl ⟨hsel, rfl, h⟩
  · next hsel => exact .inr ⟨hsel, h⟩

/-- An update that succeeds revises every row and counts the selected ones. -/
theorem updateRows_ok {selected : Row → Bool} {done : List Row} {count n : Nat}
    {result : List Row} (h : t.updateRows selected given done count rows = .ok (result, n)) :
    result = done ++ rows.map (revise selected given) ∧ n = count + rows.countP selected := by
  induction rows generalizing done count with
  | nil =>
    simp only [updateRows, Except.ok.injEq, Prod.mk.injEq] at h
    simp [h.1.symm, h.2.symm]
  | cons row rest ih =>
    rcases updateRows_cons_ok h with ⟨hsel, -, h⟩ | ⟨hsel, h⟩
    · obtain ⟨hresult, hn⟩ := ih h
      refine ⟨by simp [hresult, revise, hsel], ?_⟩
      rw [hn, List.countP_cons_of_pos hsel]
      omega
    · obtain ⟨hresult, hn⟩ := ih h
      refine ⟨by simp [hresult, revise, hsel], ?_⟩
      rw [hn, List.countP_cons_of_neg hsel]

/-- The rows passed and the rows to come stay distinct throughout an update. -/
theorem Distinct.updateRows {selected : Row → Bool} {done : List Row} {count n : Nat}
    {result : List Row} (hd : t.Distinct (done ++ rows))
    (h : t.updateRows selected given done count rows = .ok (result, n)) : t.Distinct result := by
  induction rows generalizing done count with
  | nil =>
    simp only [Table.updateRows, Except.ok.injEq, Prod.mk.injEq] at h
    simpa [h.1.symm] using hd
  | cons row rest ih =>
    rcases updateRows_cons_ok h with ⟨-, hcheck, h⟩ | ⟨-, h⟩
    · refine ih (fun index hin => ?_) h
      obtain ⟨hdone, hrest, hcross⟩ := List.pairwise_append.mp (hd index hin)
      obtain ⟨-, hrest⟩ := List.pairwise_cons.mp hrest
      have hnew := (check_eq_ok_iff.mp hcheck).2 index hin
      rw [List.append_assoc, List.singleton_append]
      refine List.pairwise_append.mpr ⟨hdone, List.pairwise_cons.mpr ⟨?_, hrest⟩, ?_⟩
      · exact fun b hb => hnew b (List.mem_append_right _ hb)
      · intro a ha b hb hagree
        rcases List.mem_cons.mp hb with rfl | hb
        · exact hnew a (List.mem_append_left _ ha) hagree.symm
        · exact hcross a ha b (List.mem_cons_of_mem _ hb) hagree
    · exact ih (by simpa using hd) h

/-- An update checks every row that it changes. -/
theorem Full.updateRows {selected : Row → Bool} {done : List Row} {count n : Nat}
    {result : List Row} (hfull : t.Full (done ++ rows))
    (h : t.updateRows selected given done count rows = .ok (result, n)) : t.Full result := by
  induction rows generalizing done count with
  | nil =>
    simp only [Table.updateRows, Except.ok.injEq, Prod.mk.injEq] at h
    simpa [h.1.symm] using hfull
  | cons row rest ih =>
    have hdone : t.Full done := fun other hother => hfull other (List.mem_append_left _ hother)
    have hrest : t.Full rest := fun other hother =>
      hfull other (List.mem_append_right _ (List.mem_cons_of_mem _ hother))
    rcases updateRows_cons_ok h with ⟨-, hcheck, h⟩ | ⟨-, h⟩
    · refine ih (fun other hother => ?_) h
      rw [List.append_assoc, List.singleton_append] at hother
      rcases List.mem_append.mp hother with hother | hother
      · exact hdone other hother
      · rcases List.mem_cons.mp hother with rfl | hother
        · exact (check_eq_ok_iff.mp hcheck).1
        · exact hrest other hother
    · exact ih (by simpa using hfull) h

theorem update_ok {t' : Table} {column text : String} {n : Nat}
    (h : t.update column text given = .ok (t', n)) :
    t' = { t with rows := t.rows.map (revise (holds column text) given) } ∧
      n = t.rows.countP (holds column text) ∧
      (t.Distinct t.rows → t.Distinct t'.rows) ∧ (t.Full t.rows → t.Full t'.rows) := by
  unfold update at h
  split at h
  · simp at h
  · cases hrows : t.updateRows (holds column text) given [] 0 t.rows with
    | error e => simp [hrows, bind, Except.bind] at h
    | ok result =>
      simp only [hrows, bind, Except.bind, Except.ok.injEq, Prod.mk.injEq] at h
      obtain ⟨rfl, rfl⟩ := h
      obtain ⟨hresult, hcount⟩ := updateRows_ok hrows
      refine ⟨by simp [hresult], by simp [hcount], fun hd => ?_, fun hfull => ?_⟩
      · exact Distinct.updateRows (by simpa using hd) hrows
      · exact Full.updateRows (by simpa using hfull) hrows

theorem updateRows_ne_notNull {selected : Row → Bool} {done : List Row} {count : Nat}
    (table column : String)
    (hnull : ∀ row ∈ rows, ∀ c ∈ t.columns, c.notNull = true →
      (Row.cell (assign given row) c.name).isSome = true) :
    t.updateRows selected given done count rows ≠ .error (.notNull table column) := by
  induction rows generalizing done count with
  | nil => nofun
  | cons row rest ih =>
    obtain ⟨hrow, hrest⟩ := List.forall_mem_cons.mp hnull
    intro h
    rw [updateRows] at h
    split at h
    · rcases bind_eq_error_iff.mp h with hcheck | ⟨-, -, h⟩
      · exact check_ne_notNull table column hrow hcheck
      · exact ih hrest h
    · exact ih hrest h

/-- Full rows are only refused for a null if one is written. -/
theorem Full.update_ne_notNull {key text : String} (table column : String) (hfull : t.Full t.rows)
    (hgiven : ∀ c ∈ t.columns, c.notNull = true → Row.value? given c.name ≠ some none) :
    t.update key text given ≠ .error (.notNull table column) := by
  intro h
  unfold update at h
  split at h
  · cases h
  · rcases bind_eq_error_iff.mp h with hrows | ⟨⟨changed, n⟩, -, h⟩
    · refine updateRows_ne_notNull table column (fun row hrow c hc hnotNull => ?_) hrows
      have hcell := hfull row hrow c hc hnotNull
      have hvalue := hgiven c hc hnotNull
      rw [Row.cell] at hcell ⊢
      rw [value?_assign]
      cases hold : Row.value? row c.name with
      | none => rfl
      | some old =>
        rw [hold] at hcell
        cases hnew : Row.value? given c.name with
        | none => exact hcell
        | some new =>
          cases new with
          | none => exact absurd hnew hvalue
          | some _ => rfl
    · cases h

/-- Nothing selected, nothing changed. -/
theorem updateRows_of_none {selected : Row → Bool} {done : List Row} {count : Nat}
    (h : rows.filter selected = []) :
    t.updateRows selected given done count rows = .ok (done ++ rows, count) := by
  induction rows generalizing done with
  | nil => simp [updateRows]
  | cons first rest ih =>
    rw [List.filter_cons] at h
    split at h
    · cases h
    · next hfirst =>
      rw [updateRows, if_neg hfirst, ih h, List.append_assoc]
      rfl

/-- Where one row is selected, an update is a matter of checking its new version among the
other rows. -/
theorem updateRows_of_one {selected : Row → Bool} {done : List Row} {count : Nat}
    (h : rows.filter selected = [row]) :
    t.updateRows selected given done count rows =
      (t.check (done ++ rows.filter fun other => !selected other) (assign given row)).map
        fun _ => (done ++ rows.map (revise selected given), count + 1) := by
  induction rows generalizing done with
  | nil => cases h
  | cons first rest ih =>
    rw [List.filter_cons] at h
    split at h
    · next hfirst =>
      obtain ⟨rfl, hrest⟩ := List.cons.inj h
      have hothers : ∀ other ∈ rest, selected other = false := by
        simpa using List.filter_eq_nil_iff.mp hrest
      have hkept : (rest.filter fun other => !selected other) = rest :=
        List.filter_eq_self.mpr fun other hother => by simp [hothers other hother]
      have hrevised : rest.map (revise selected given) = rest :=
        (List.map_congr_left fun other hother => by simp [revise, hothers other hother]).trans
          (List.map_id rest)
      rw [updateRows, if_pos hfirst, List.filter_cons_of_neg (by simp [hfirst]), hkept]
      cases hcheck : t.check (done ++ rest) (assign given first) with
      | error e => simp [hcheck, bind, Except.bind, Except.map]
      | ok u =>
        simp [hcheck, bind, Except.bind, Except.map, updateRows_of_none hrest, hrevised, revise,
          hfirst]
    · next hfirst =>
      rw [updateRows, if_neg hfirst, ih h, List.filter_cons_of_pos (by simp [hfirst])]
      simp [revise, hfirst]

theorem update_of_one {column text : String} (hcolumns : ∀ entry ∈ given, t.hasColumn entry.1)
    (h : t.rows.filter (holds column text) = [row]) : t.update column text given =
      (t.check (t.rows.filter fun other => !holds column text other) (assign given row)).map
        fun _ => ({ t with rows := t.rows.map (revise (holds column text) given) }, 1) := by
  have hnone : (given.find? fun entry => !t.hasColumn entry.1) = none :=
    List.find?_eq_none.mpr fun entry hentry => by simp [hcolumns entry hentry]
  rw [update, hnone]
  simp only [updateRows_of_one h, List.nil_append]
  cases t.check (t.rows.filter fun other => !holds column text other) (assign given row) <;> rfl

/-! ## Deleting -/

theorem delete_rows (t : Table) (column text : String) :
    (t.delete column text).1 =
      { t with rows := t.rows.filter fun row => !holds column text row } := rfl

/-- Deleting counts the rows that are gone. -/
theorem delete_count (t : Table) (column text : String) :
    (t.delete column text).2 = t.rows.countP (holds column text) := by
  have h := List.length_eq_countP_add_countP (holds column text) (l := t.rows)
  have hkept : (t.rows.filter fun row => !holds column text row).length =
      t.rows.countP fun row => ¬ holds column text row = true := by
    rw [← List.countP_eq_length_filter]
    simp
  simp only [delete, hkept]
  omega

theorem Full.filter (h : t.Full rows) (p : Row → Bool) : t.Full (rows.filter p) :=
  fun row hrow => h row (List.mem_filter.mp hrow).1

theorem Distinct.filter (h : t.Distinct rows) (p : Row → Bool) : t.Distinct (rows.filter p) :=
  fun index hin => (h index hin).filter p

end Table
end Phrasebook
