import Mathlib.Logic.Basic
import Phrasebook.Json.Value

/-!
# Sorted fields

Fields whose names strictly ascend are determined by the values they give to
names. Inserting, overriding and erasing keep the order, and act on values name by
name.

## Main definitions

* `Fields.Sorted`: names strictly ascend
-/
namespace Phrasebook.Fields

/-- Names strictly ascend. -/
def Sorted (fields : Fields) : Prop := fields.Pairwise fun a b => a.1 < b.1

instance (fields : Fields) : Decidable (Sorted fields) :=
  inferInstanceAs (Decidable (List.Pairwise _ fields))

variable {fields changes : Fields} {name other : String} {value : Json}

/-! ## Values of names -/

@[simp] theorem get?_nil : get? [] name = none := rfl

theorem get?_cons (entry : String × Json) (rest : Fields) :
    get? (entry :: rest) name = if entry.1 = name then some entry.2 else get? rest name := by
  by_cases h : entry.1 = name <;> simp [get?, h]

theorem mem_of_get? (h : get? fields name = some value) : (name, value) ∈ fields := by
  obtain ⟨entry, hfind, rfl⟩ := Option.map_eq_some_iff.mp h
  have hname : entry.1 = name := by simpa using List.find?_some hfind
  rw [← hname]
  exact List.mem_of_find?_eq_some hfind

/-- A name without a value is the name of no entry. -/
theorem get?_eq_none_iff : get? fields name = none ↔ ∀ entry ∈ fields, entry.1 ≠ name := by
  simp [get?]

theorem has_iff : has fields name = true ↔ ∃ value, (name, value) ∈ fields := by
  rw [has, Option.isSome_iff_ne_none, ne_eq, get?_eq_none_iff]
  simp

/-- In sorted fields the value of a name is that of its one entry. -/
theorem Sorted.get?_eq_some_iff (h : Sorted fields) :
    get? fields name = some value ↔ (name, value) ∈ fields := by
  refine ⟨mem_of_get?, fun hmem => ?_⟩
  induction fields with
  | nil => simp at hmem
  | cons entry rest ih =>
    obtain ⟨hfirst, hrest⟩ := List.pairwise_cons.mp h
    rw [get?_cons]
    rcases List.mem_cons.mp hmem with heq | hmem
    · simp [← heq]
    · have hne : entry.1 ≠ name := String.ne_of_lt (hfirst _ hmem)
      simp [hne, ih hrest hmem]

/-! ## Inserting -/

theorem insert_cons_of_lt {k : String} {v : Json} (h : name < k) :
    insert name value ((k, v) :: fields) = (name, value) :: (k, v) :: fields :=
  if_pos h

theorem insert_cons_of_gt {k : String} {v : Json} (h : k < name) :
    insert name value ((k, v) :: fields) = (k, v) :: insert name value fields := by
  rw [insert, if_neg (String.lt_asymm h), if_neg (String.ne_of_lt h).symm]

theorem insert_cons_self {v : Json} :
    insert name value ((name, v) :: fields) = (name, value) :: fields := by
  rw [insert, if_neg (String.lt_irrefl name), if_pos rfl]

@[simp] theorem get?_insert :
    get? (insert name value fields) other =
      if name = other then some value else get? fields other := by
  induction fields with
  | nil => simp [insert, get?_cons]
  | cons entry rest ih =>
    obtain ⟨k, v⟩ := entry
    simp only [insert]
    split
    · simp [get?_cons]
    · split
      · next heq => subst heq; simp only [get?_cons]; split <;> rfl
      · next hne =>
        rw [get?_cons, ih, get?_cons]
        by_cases hk : k = other
        · subst hk; simp [hne]
        · simp [hk]

theorem mem_insert {entry : String × Json} (h : entry ∈ insert name value fields) :
    entry = (name, value) ∨ entry ∈ fields := by
  induction fields with
  | nil => simpa [insert] using h
  | cons first rest ih =>
    obtain ⟨k, v⟩ := first
    simp only [insert] at h
    split at h
    · simpa using h
    · split at h
      · rcases List.mem_cons.mp h with h | h
        · exact .inl h
        · exact .inr (List.mem_cons_of_mem _ h)
      · rcases List.mem_cons.mp h with h | h
        · exact .inr (h ▸ List.mem_cons_self)
        · exact (ih h).imp_right (List.mem_cons_of_mem _)

theorem Sorted.insert (h : Sorted fields) : Sorted (insert name value fields) := by
  induction fields with
  | nil => exact List.pairwise_singleton _ _
  | cons entry rest ih =>
    obtain ⟨k, v⟩ := entry
    obtain ⟨hfirst, hrest⟩ := List.pairwise_cons.mp h
    simp only [Fields.insert]
    split
    · next hlt =>
      refine List.pairwise_cons.mpr ⟨?_, h⟩
      intro e he
      rcases List.mem_cons.mp he with rfl | he
      · exact hlt
      · exact String.lt_trans hlt (hfirst e he)
    · next hle =>
      split
      · next heq => subst heq; exact List.pairwise_cons.mpr ⟨hfirst, hrest⟩
      · next hne =>
        refine List.pairwise_cons.mpr ⟨?_, ih hrest⟩
        intro e he
        rcases mem_insert he with rfl | he
        · exact Decidable.byContradiction fun hn =>
            hne (String.le_antisymm (String.not_lt.mp hn) (String.not_lt.mp hle))
        · exact hfirst e he

/-! ## Overriding -/

theorem Sorted.override (h : Sorted fields) : Sorted (override fields changes) := by
  induction changes generalizing fields with
  | nil => exact h
  | cons entry rest ih => exact ih h.insert

theorem sorted_ofList (entries : List (String × Json)) : Sorted (ofList entries) :=
  Sorted.override List.Pairwise.nil

/-- Overriding gives a name its changed value if it has one. -/
theorem get?_override (h : Sorted changes) :
    get? (override fields changes) name = (get? changes name).or (get? fields name) := by
  induction changes generalizing fields with
  | nil => rfl
  | cons entry rest ih =>
    obtain ⟨hfirst, hrest⟩ := List.pairwise_cons.mp h
    have hstep : override fields (entry :: rest) =
        override (Fields.insert entry.1 entry.2 fields) rest := rfl
    rw [hstep, ih hrest, get?_insert, get?_cons]
    by_cases heq : entry.1 = name
    · have hnone : get? rest name = none := by
        refine get?_eq_none_iff.mpr fun e he hname => ?_
        exact String.ne_of_lt (hfirst e he) (heq.trans hname.symm)
      simp [heq, hnone]
    · simp [heq]

/-- Overriding by the values that a function has gives their names these values, whatever the
order of the entries. -/
theorem get?_override_of_forall {g : String → Option Json}
    (h : ∀ entry ∈ changes, g entry.1 = some entry.2) (name : String) :
    get? (override fields changes) name =
      if name ∈ names changes then g name else get? fields name := by
  induction changes generalizing fields with
  | nil => simp [names, override]
  | cons entry rest ih =>
    obtain ⟨hfirst, hrest⟩ := List.forall_mem_cons.mp h
    have hstep : override fields (entry :: rest) =
        override (Fields.insert entry.1 entry.2 fields) rest := rfl
    rw [hstep, ih hrest, get?_insert]
    by_cases heq : entry.1 = name
    · subst heq
      have hmem : entry.1 ∈ names (entry :: rest) := List.mem_cons_self
      rw [if_pos rfl, if_pos hmem, ← hfirst, ite_self]
    · have hnames : name ∈ names (entry :: rest) ↔ name ∈ names rest := by
        simp [names, Ne.symm heq]
      simp only [hnames, if_neg heq]

/-- An entry of overridden fields comes from the fields or from the changes. -/
theorem mem_override {entry : String × Json} (h : entry ∈ override fields changes) :
    entry ∈ changes ∨ entry ∈ fields := by
  induction changes generalizing fields with
  | nil => exact .inr h
  | cons first rest ih =>
    rcases ih h with h | h
    · exact .inl (List.mem_cons_of_mem _ h)
    · rcases mem_insert h with rfl | h
      · exact .inl List.mem_cons_self
      · exact .inr h

/-! ## Dropping entries -/

theorem Sorted.filter (h : Sorted fields) (p : String × Json → Bool) :
    Sorted (fields.filter p) := List.Pairwise.filter p h

theorem get?_filter (p : String → Bool) :
    get? (fields.filter fun entry => p entry.1) name =
      if p name then get? fields name else none := by
  induction fields with
  | nil => simp
  | cons entry rest ih =>
    rw [List.filter_cons]
    by_cases hp : p entry.1 <;> by_cases hn : entry.1 = name <;>
      simp_all [get?_cons]

/-! ## Extensionality -/

/-- Sorted fields that give every name the same value are equal. -/
theorem Sorted.ext {a b : Fields} (ha : Sorted a) (hb : Sorted b)
    (h : ∀ name, get? a name = get? b name) : a = b := by
  have hmem : ∀ entry, entry ∈ a ↔ entry ∈ b := by
    intro entry
    rw [← ha.get?_eq_some_iff, ← hb.get?_eq_some_iff, h]
  have irrefl : ∀ x : String × Json, ¬ x.1 < x.1 := fun x => String.lt_irrefl x.1
  have nodup : ∀ {fields : Fields}, Sorted fields → fields.Nodup := by
    intro fields hs
    refine List.Pairwise.imp ?_ hs
    rintro x y hlt rfl
    exact irrefl x hlt
  refine List.Perm.eq_of_pairwise ?_ ha hb
    ((List.perm_ext_iff_of_nodup (nodup ha) (nodup hb)).mpr hmem)
  intro x y _ _ hxy hyx
  exact absurd (String.lt_trans hxy hyx) (irrefl x)

/-- The object of entries that are sorted already has just these entries. -/
theorem Sorted.ofList_eq (h : Sorted fields) : ofList fields = fields := by
  refine (sorted_ofList fields).ext h fun name => ?_
  rw [ofList, get?_override h, get?_nil, Option.or_none]

/-! ## Changing values -/

/-- Change or drop the value of every entry. -/
def mapValues (change : String → Json → Option Json) (fields : Fields) : Fields :=
  fields.filterMap fun entry => (change entry.1 entry.2).map fun value => (entry.1, value)

variable {change : String → Json → Option Json}

theorem mem_mapValues {entry : String × Json} : entry ∈ mapValues change fields ↔
    ∃ value, (entry.1, value) ∈ fields ∧ change entry.1 value = some entry.2 := by
  simp only [mapValues, List.mem_filterMap, Option.map_eq_some_iff, Prod.exists]
  constructor
  · rintro ⟨name, value, hmem, changed, hchange, rfl⟩
    exact ⟨value, hmem, hchange⟩
  · rintro ⟨value, hmem, hchange⟩
    exact ⟨entry.1, value, hmem, entry.2, hchange, rfl⟩

theorem Sorted.mapValues (h : Sorted fields) : Sorted (mapValues change fields) := by
  refine List.Pairwise.filterMap _ ?_ h
  intro a b hab a' ha b' hb
  obtain ⟨x, -, rfl⟩ := Option.map_eq_some_iff.mp ha
  obtain ⟨y, -, rfl⟩ := Option.map_eq_some_iff.mp hb
  exact hab

theorem Sorted.get?_mapValues (h : Sorted fields) :
    get? (Fields.mapValues change fields) name = (get? fields name).bind (change name) := by
  refine Option.ext fun value => ?_
  rw [h.mapValues.get?_eq_some_iff, mem_mapValues, Option.bind_eq_some_iff]
  simp only [h.get?_eq_some_iff]

end Phrasebook.Fields
