import Mathlib.Data.List.Pairwise
import Phrasebook.Proofs.Results
import Phrasebook.Schema.Builtin

/-!
# Registries of accepted descriptors

A registry that accepts some descriptors keeps them in the order of their kinds, one for each
kind. What looks a descriptor up by its kind and what goes through all descriptors
therefore see the same ones.
-/
namespace Phrasebook

/-- Different kinds have different ranks. -/
theorem RecordKind.rank_injective : Function.Injective RecordKind.rank := by
  intro a b h
  cases a <;> cases b <;> first | rfl | cases h

namespace Registry

variable {registry : Registry} {ds held : List Descriptor} {d e : Descriptor}

/-- The shipped definitions are accepted. -/
theorem ofDescriptors_builtin : ofDescriptors builtin.descriptors = .ok builtin := by
  decide +kernel

/-- The kinds of the descriptors grow. -/
def Ordered (ds : List Descriptor) : Prop := ds.Pairwise fun d e => d.kind.rank < e.kind.rank

theorem mem_insert (h : e ∈ insert d held) : e = d ∨ e ∈ held := by
  induction held with
  | nil => exact .inl (List.mem_singleton.mp h)
  | cons first rest ih =>
    rw [insert] at h
    split at h
    · simpa using h
    · split at h
      · rcases List.mem_cons.mp h with rfl | hrest
        · exact .inl rfl
        · exact .inr (List.mem_cons_of_mem _ hrest)
      · rcases List.mem_cons.mp h with rfl | hrest
        · exact .inr List.mem_cons_self
        · exact (ih hrest).imp_right (List.mem_cons_of_mem _)

theorem Ordered.insert (h : Ordered held) (d : Descriptor) : Ordered (insert d held) := by
  induction held with
  | nil => exact List.pairwise_singleton _ d
  | cons first rest ih =>
    obtain ⟨hfirst, hrest⟩ := List.pairwise_cons.mp h
    rw [Registry.insert]
    split
    · next hlt =>
      refine List.pairwise_cons.mpr ⟨fun e he => ?_, h⟩
      rcases List.mem_cons.mp he with rfl | he
      · exact hlt
      · exact Nat.lt_trans hlt (hfirst e he)
    · next hge =>
      split
      · next heq => exact List.pairwise_cons.mpr ⟨fun e he => heq ▸ hfirst e he, hrest⟩
      · next hne =>
        refine List.pairwise_cons.mpr ⟨fun e he => ?_, ih hrest⟩
        rcases mem_insert he with rfl | he
        · have hrank : first.kind.rank ≠ e.kind.rank := fun heq =>
            hne (RecordKind.rank_injective heq).symm
          omega
        · exact hfirst e he

theorem Ordered.addAll {held' : List Descriptor} (h : Ordered held)
    (hrun : addAll held ds = .ok held') : Ordered held' := by
  induction ds generalizing held with
  | nil =>
    cases hrun
    exact h
  | cons d rest ih =>
    rw [Registry.addAll] at hrun
    split at hrun
    · exact ih (h.insert d) hrun
    · cases hrun

/-- A registry of accepted descriptors has one for each kind. -/
theorem get?_of_mem (h : ofDescriptors ds = .ok registry) (hd : d ∈ registry.descriptors) :
    registry.get? d.kind = some d := by
  obtain ⟨held, hrun, rfl⟩ := map_eq_ok_iff.mp h
  have hordered : Ordered held := Ordered.addAll List.Pairwise.nil hrun
  refine List.find?_eq_some_iff_append.mpr ⟨beq_self_eq_true d.kind, ?_⟩
  obtain ⟨before, after, hsplit⟩ := List.append_of_mem hd
  refine ⟨before, after, hsplit, fun e he => ?_⟩
  have hlt : e.kind.rank < d.kind.rank := by
    change held = _ at hsplit
    rw [Ordered, hsplit] at hordered
    exact (List.pairwise_append.mp hordered).2.2 e he d List.mem_cons_self
  have hne : e.kind ≠ d.kind := fun heq => Nat.lt_irrefl _ (heq ▸ hlt)
  simpa using hne

theorem eq_of_kind (h : ofDescriptors ds = .ok registry) (hd : d ∈ registry.descriptors)
    (he : e ∈ registry.descriptors) (hkind : d.kind = e.kind) : d = e :=
  Option.some.inj ((get?_of_mem h hd).symm.trans (hkind ▸ get?_of_mem h he))

theorem mem_referencing {kind target : RecordKind} {f : FieldSpec} :
    (kind, f) ∈ registry.referencing target ↔
      ∃ d ∈ registry.descriptors, d.kind = kind ∧ (f, target) ∈ d.referenceFields := by
  simp only [referencing, List.mem_flatMap, List.mem_map, List.mem_filter, beq_iff_eq,
    Prod.exists, Prod.mk.injEq]
  constructor
  · rintro ⟨d, hd, f, target, ⟨href, rfl⟩, rfl, rfl⟩
    exact ⟨d, hd, rfl, href⟩
  · rintro ⟨d, hd, rfl, href⟩
    exact ⟨d, hd, f, target, ⟨href, rfl⟩, rfl, rfl⟩

end Registry
end Phrasebook
