import Mathlib.Order.Basic
import Phrasebook.Store.Table

/-!
# The order of texts

The engine compares texts byte by byte, and the model by code points. The two orders are the
same: a larger code point has a larger encoding, whatever follows.

## Main definitions

* `Text.bytes`: the bytes of the encoding of a text
* `Row.key`: the bytes of some columns of a row
-/
namespace Phrasebook

/-! ## Comparisons -/

/-- Comparisons that agree on what comes first are the same. -/
theorem compare_eq_of_lt_iff {α β : Type} [Ord α] [Ord β] [Std.OrientedOrd α] [Std.OrientedOrd β]
    {f : α → β} (h : ∀ a b, compare (f a) (f b) = .lt ↔ compare a b = .lt) (a b : α) :
    compare (f a) (f b) = compare a b := by
  have hgt : compare (f a) (f b) = .gt ↔ compare a b = .gt := by
    rw [Std.OrientedCmp.gt_iff_lt, h, ← Std.OrientedCmp.gt_iff_lt]
  cases hab : compare a b with
  | lt => exact (h a b).mpr hab
  | gt => exact hgt.mpr hab
  | eq =>
    cases hfab : compare (f a) (f b) with
    | lt => exact absurd ((h a b).mp hfab) (by simp [hab])
    | gt => exact absurd (hgt.mp hfab) (by simp [hab])
    | eq => rfl

/-- Comparing lists item by item is their lexicographic order. -/
theorem compare_list_eq_lt {α : Type} [Ord α] [LT α] [Std.LawfulEqOrd α]
    (h : ∀ a b : α, compare a b = .lt ↔ a < b) {as bs : List α} :
    compare as bs = .lt ↔ as < bs := by
  induction as generalizing bs with
  | nil => cases bs <;> simp
  | cons a as ih =>
    cases bs with
    | nil => simp
    | cons b bs =>
      rw [List.compare_cons_cons, Ordering.then_eq_lt, h, Std.LawfulEqOrd.compare_eq_iff_eq, ih,
        List.cons_lt_cons_iff]

/-! ## Texts -/

namespace Text

/-- The bytes of the UTF-8 encoding of a text. -/
def bytes (s : String) : List UInt8 := s.toByteArray.data.toList

theorem bytes_eq (s : String) : bytes s = s.toList.flatMap String.utf8EncodeChar := by
  have hbytes : s.toByteArray = s.toList.utf8Encode := by
    rw [← String.toByteArray_ofList, String.ofList_toList]
  rw [bytes, hbytes, List.utf8Encode, List.toList_data_toByteArray]

/-- The encoding of a smaller code point is smaller, whatever follows. -/
theorem encodeChar_lt {c d : Char} (h : c < d) (after after' : List UInt8) :
    String.utf8EncodeChar c ++ after < String.utf8EncodeChar d ++ after' := by
  have hlt : c.val.toNat < d.val.toNat := h
  have hrange : d.val.toNat < 0x110000 := by
    have hvalid := d.valid
    simp only [UInt32.isValidChar, Nat.isValidChar] at hvalid
    omega
  unfold String.utf8EncodeChar
  generalize c.val.toNat = m at *
  generalize d.val.toNat = n at *
  dsimp only
  -- Encodings of different lengths differ in the first byte, others of the same length in the
  -- first digit that differs.
  split_ifs
  all_goals
    simp only [List.cons_append, List.nil_append, List.cons_lt_cons_iff, UInt8.lt_iff_toNat_lt,
      ← UInt8.toNat_inj, UInt8.toNat_ofNat']
    simp (disch := omega) only [Nat.mod_eq_of_lt]
    omega

theorem flatMap_lt {cs ds : List Char} (h : cs < ds) :
    cs.flatMap String.utf8EncodeChar < ds.flatMap String.utf8EncodeChar := by
  induction cs generalizing ds with
  | nil =>
    cases ds with
    | nil => exact absurd h (List.lt_irrefl _)
    | cons d ds =>
      obtain ⟨byte, rest, hbytes⟩ :=
        List.exists_cons_of_ne_nil (String.utf8EncodeChar_ne_nil (c := d))
      rw [List.flatMap_nil, List.flatMap_cons, hbytes]
      exact List.nil_lt_cons _ _
  | cons c cs ih =>
    cases ds with
    | nil => exact absurd h (List.not_lt_nil _)
    | cons d ds =>
      rw [List.flatMap_cons, List.flatMap_cons]
      rcases List.cons_lt_cons_iff.mp h with hlt | ⟨rfl, hlt⟩
      · exact encodeChar_lt hlt _ _
      · exact List.append_left_lt (ih hlt)

/-- The order of texts is the order of their bytes. -/
theorem bytes_lt_iff {a b : String} : bytes a < bytes b ↔ a < b := by
  have hmono : ∀ {a b : String}, a < b → bytes a < bytes b := by
    intro a b hlt
    rw [bytes_eq, bytes_eq]
    exact flatMap_lt (String.lt_iff.mp hlt)
  refine ⟨fun hlt => ?_, hmono⟩
  by_contra hnot
  by_cases hgt : b < a
  · exact List.lt_asymm hlt (hmono hgt)
  · obtain rfl := String.le_antisymm (String.not_lt.mp hgt) (String.not_lt.mp hnot)
    exact List.lt_irrefl _ hlt

theorem bytes_injective : Function.Injective bytes := by
  intro a b heq
  have hnot : ∀ {a b : String}, bytes a = bytes b → ¬ a < b := fun heq hlt =>
    List.lt_irrefl _ (heq ▸ bytes_lt_iff.mpr hlt)
  exact String.le_antisymm (String.not_lt.mp (hnot heq.symm)) (String.not_lt.mp (hnot heq))

theorem compare_toList (s t : String) : compare s.toList t.toList = compare s t := by
  refine compare_eq_of_lt_iff (fun s t => ?_) s t
  rw [compare_list_eq_lt fun _ _ => compareOfLessAndEq_eq_lt, ← String.lt_iff]
  exact compareOfLessAndEq_eq_lt.symm

/-- Texts compare as their bytes do. -/
theorem compare_bytes (s t : String) : compare (bytes s) (bytes t) = compare s t := by
  refine compare_eq_of_lt_iff (fun s t => ?_) s t
  rw [compare_list_eq_lt fun _ _ => compareOfLessAndEq_eq_lt, bytes_lt_iff]
  exact compareOfLessAndEq_eq_lt.symm

end Text

/-! ## Rows -/

/-- The bytes of some columns of a row. -/
def Row.key (columns : List String) (row : Row) : List (Option (List UInt8)) :=
  columns.map fun c => (Row.cell row c).map Text.bytes

theorem Row.key_cons (c : String) (columns : List String) (row : Row) :
    row.key (c :: columns) = (Row.cell row c).map Text.bytes :: row.key columns := rfl

namespace Table

variable {columns : List String} {x y : Option String} {a b : Row}

/-- Contents are ordered by their bytes, null first. -/
theorem compareCell_eq_lt : compareCell x y = .lt ↔ x.map Text.bytes < y.map Text.bytes := by
  have hstring : ∀ s t : String, compare s t = .lt ↔ s < t := fun _ _ => compareOfLessAndEq_eq_lt
  cases x <;> cases y <;> simp [compareCell, Text.bytes_lt_iff, hstring]

theorem compareCell_eq_eq : compareCell x y = .eq ↔ x = y := by
  cases x <;> cases y <;> simp [compareCell]

/-- Rows are ordered by the bytes of their columns. -/
theorem compareRows_eq_lt :
    compareRows columns a b = .lt ↔ Row.key columns a < Row.key columns b := by
  induction columns with
  | nil => simp [compareRows, Row.key]
  | cons c rest ih =>
    have hbytes : (Row.cell a c).map Text.bytes = (Row.cell b c).map Text.bytes ↔
        Row.cell a c = Row.cell b c :=
      ⟨fun heq => Option.map_injective Text.bytes_injective heq, congrArg _⟩
    rw [compareRows, Ordering.then_eq_lt, compareCell_eq_lt, compareCell_eq_eq, ih, Row.key_cons,
      Row.key_cons, List.cons_lt_cons_iff, hbytes]

theorem compareRows_eq_eq :
    compareRows columns a b = .eq ↔ ∀ c ∈ columns, Row.cell a c = Row.cell b c := by
  induction columns with
  | nil => simp [compareRows]
  | cons c rest ih =>
    rw [compareRows, Ordering.then_eq_eq, compareCell_eq_eq, ih, List.forall_mem_cons]

instance : Std.TransCmp compareCell :=
  have heq : compareCell = compare := by
    funext x y
    cases x <;> cases y <;> rfl
  heq ▸ inferInstanceAs (Std.TransOrd (Option String))

instance transCmp_compareRows (columns : List String) : Std.TransCmp (compareRows columns) := by
  induction columns with
  | nil => exact { eq_swap := rfl, isLE_trans := fun _ _ => rfl }
  | cons c rest ih =>
    have hfirst : Std.TransCmp fun a b : Row => compareCell (Row.cell a c) (Row.cell b c) :=
      { eq_swap := Std.OrientedCmp.eq_swap, isLE_trans := Std.TransCmp.isLE_trans }
    exact inferInstanceAs (Std.TransCmp (compareLex _ (compareRows rest)))

theorem compareRows_swap (columns : List String) (a b : Row) :
    compareRows columns b a = (compareRows columns a b).swap :=
  Std.OrientedCmp.eq_swap

end Table
end Phrasebook
