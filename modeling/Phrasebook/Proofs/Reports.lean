import Mathlib.Data.List.Nodup
import Phrasebook.Validation.Violation

/-!
# Reports of violations

A report has the violations it is made of, sorted by field. Where none of them is
repeated, none is dropped.
-/
namespace Phrasebook.Violation

variable {v : Violation} {vs : List Violation}

/-- Violations by their fields. -/
def Sorted (vs : List Violation) : Prop := vs.Pairwise fun v w => v.field ≤ w.field

theorem insertByField_perm (v : Violation) (vs : List Violation) :
    (insertByField v vs).Perm (v :: vs) := by
  induction vs with
  | nil => exact List.Perm.refl _
  | cons w rest ih =>
    rw [insertByField]
    split
    · exact (ih.cons w).trans (List.Perm.swap v w rest)
    · exact List.Perm.refl _

theorem Sorted.insertByField (h : Sorted vs) : Sorted (insertByField v vs) := by
  induction vs with
  | nil => exact List.pairwise_singleton _ _
  | cons w rest ih =>
    obtain ⟨hfirst, hrest⟩ := List.pairwise_cons.mp h
    rw [Violation.insertByField]
    split
    · next hle =>
      refine List.pairwise_cons.mpr ⟨fun x hx => ?_, ih hrest⟩
      rcases List.mem_cons.mp ((insertByField_perm v rest).mem_iff.mp hx) with rfl | hx
      · exact hle
      · exact hfirst x hx
    · next hnot =>
      have hle : v.field ≤ w.field := (String.le_total _ _).resolve_left hnot
      refine List.pairwise_cons.mpr ⟨fun x hx => ?_, h⟩
      rcases List.mem_cons.mp hx with rfl | hx
      · exact hle
      · exact String.le_trans hle (hfirst x hx)

/-- Sorting keeps the violations. -/
theorem sortByField_perm (vs : List Violation) : (sortByField vs).Perm vs := by
  have hfold : ∀ sorted : List Violation,
      (vs.foldl (fun sorted v => insertByField v sorted) sorted).Perm (sorted ++ vs) := by
    induction vs with
    | nil => simp
    | cons v rest ih =>
      intro sorted
      refine (ih _).trans (((insertByField_perm v sorted).append_right rest).trans ?_)
      exact List.perm_middle.symm
  exact hfold []

theorem sorted_sortByField (vs : List Violation) : Sorted (sortByField vs) := by
  have hfold : ∀ sorted : List Violation, Sorted sorted →
      Sorted (vs.foldl (fun sorted v => insertByField v sorted) sorted) := by
    induction vs with
    | nil => exact fun sorted h => h
    | cons v rest ih => exact fun sorted h => ih _ h.insertByField
  exact hfold [] List.Pairwise.nil

theorem dropRepeats_eq_nil_iff : dropRepeats vs = [] ↔ vs = [] := by
  induction vs with
  | nil => simp [dropRepeats]
  | cons v rest ih =>
    cases rest with
    | nil => simp [dropRepeats]
    | cons w rest =>
      rw [dropRepeats]
      split
      · simpa using ih
      · simp

/-- Some violation is reported if there is any. -/
theorem report_eq_nil_iff : report vs = [] ↔ vs = [] := by
  rw [report, dropRepeats_eq_nil_iff]
  exact ⟨fun h => (h ▸ sortByField_perm vs).nil_eq.symm, fun h => by rw [h]; rfl⟩

theorem dropRepeats_of_nodup (h : vs.Nodup) : dropRepeats vs = vs := by
  induction vs with
  | nil => rfl
  | cons v rest ih =>
    cases rest with
    | nil => rfl
    | cons w rest =>
      obtain ⟨hfirst, hrest⟩ := List.nodup_cons.mp h
      have hne : v ≠ w := fun heq => hfirst (heq ▸ List.mem_cons_self)
      rw [dropRepeats, if_neg hne, ih hrest]

/-- Of violations that are all different none is dropped. -/
theorem report_of_nodup (h : vs.Nodup) : report vs = sortByField vs :=
  dropRepeats_of_nodup ((sortByField_perm vs).nodup_iff.mpr h)

theorem sorted_report (h : vs.Nodup) : Sorted (report vs) :=
  report_of_nodup h ▸ sorted_sortByField vs

theorem nodup_report (h : vs.Nodup) : (report vs).Nodup :=
  report_of_nodup h ▸ (sortByField_perm vs).nodup_iff.mpr h

theorem mem_report (h : vs.Nodup) : v ∈ report vs ↔ v ∈ vs :=
  report_of_nodup h ▸ (sortByField_perm vs).mem_iff

end Phrasebook.Violation
