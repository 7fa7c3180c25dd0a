import Phrasebook.Command.Display

/-!
# Failing actions

A sequence of actions fails where one of its actions does, with what the actions before it
have changed. A record that is refused changes nothing, and printing does not fail.

## Main definitions

* `Action.Total`: an action that does not fail
* `Action.ReadOnly`: an action that changes nothing
-/
namespace Phrasebook.Command

variable {α β ε : Type} {context : Context} {w w' : World} {d : Diagnostic}

/-! ## Sequences -/

/-- What a sequence of actions does. -/
theorem bind_run (x : Action α) (f : α → Action β) : (x >>= f) context w =
    match x context w with
    | (.ok a, w₁) => f a context w₁
    | (.error d, w₁) => (.error d, w₁) := by
  show (ExceptT.bind (x context) fun a => f a context) w = _
  simp only [ExceptT.bind, ExceptT.mk, bind, StateT.bind, ExceptT.bindCont]
  rcases x context w with ⟨⟨e⟩ | ⟨a⟩, w₁⟩ <;> rfl

theorem read_bind_run (f : Context → Action α) :
    ((read : Action Context) >>= f) context w = f context context w := rfl

/-- A sequence of actions fails where one of them does. -/
theorem bind_error {x : Action α} {f : α → Action β}
    (h : (x >>= f) context w = (.error d, w')) : x context w = (.error d, w') ∨
      ∃ a w₁, x context w = (.ok a, w₁) ∧ f a context w₁ = (.error d, w') := by
  rw [bind_run] at h
  rcases hx : x context w with ⟨⟨e⟩ | ⟨a⟩, w₁⟩
  · rw [hx] at h
    cases h
    exact .inl rfl
  · rw [hx] at h
    exact .inr ⟨a, w₁, rfl, h⟩

/-- An action that does not fail. -/
def Action.Total (x : Action α) : Prop := ∀ context w, ∃ a w', x context w = (.ok a, w')

namespace Action.Total

variable {x : Action α}

theorem ne_error (h : x.Total) : x context w ≠ (.error d, w') := by
  obtain ⟨a, w₁, hx⟩ := h context w
  rw [hx]
  nofun

theorem bind {f : α → Action β} (hx : x.Total) (hf : ∀ a, (f a).Total) : (x >>= f).Total := by
  intro context w
  obtain ⟨a, w₁, hrun⟩ := hx context w
  obtain ⟨b, w₂, hrest⟩ := hf a context w₁
  exact ⟨b, w₂, by rw [bind_run, hrun]; exact hrest⟩

end Action.Total

theorem total_pure (a : α) : (pure a : Action α).Total := fun _ w => ⟨a, w, rfl⟩

/-- An action that changes nothing. -/
def Action.ReadOnly (x : Action α) : Prop := ∀ context w, (x context w).2 = w

theorem Action.ReadOnly.eq {x : Action α} {result : Except Diagnostic α} (h : x.ReadOnly)
    (hrun : x context w = (result, w')) : w' = w := by
  have hsame := h context w
  rwa [hrun] at hsame

theorem Action.ReadOnly.bind {x : Action α} {f : α → Action β} (hx : x.ReadOnly)
    (hf : ∀ a, (f a).ReadOnly) : (x >>= f).ReadOnly := by
  intro context w
  rw [bind_run]
  rcases hrun : x context w with ⟨⟨d⟩ | ⟨a⟩, w₁⟩
  · exact hx.eq hrun
  · exact (hf a context w₁).trans (hx.eq hrun)

theorem readOnly_pure (a : α) : (pure a : Action α).ReadOnly := fun _ _ => rfl

theorem readOnly_read : (read : Action Context).ReadOnly := fun _ _ => rfl

theorem readOnly_files : files.ReadOnly := fun _ _ => rfl

/-! ## Results -/

theorem readOnly_orFail (show' : ε → Diagnostic) (result : Except ε α) :
    (orFail show' result).ReadOnly := by
  cases result <;> exact fun _ _ => rfl

theorem orFail_ok {show' : ε → Diagnostic} {result : Except ε α} {a : α}
    (h : orFail show' result context w = (.ok a, w')) : result = .ok a ∧ w' = w := by
  refine ⟨?_, (readOnly_orFail show' result).eq h⟩
  cases result <;> cases h
  rfl

/-! ## Printing -/

theorem total_printLine (text : String) : (printLine text).Total :=
  fun _ w => ⟨(), { w with printed := w.printed ++ (text ++ "\n") }, rfl⟩

theorem total_printLines (lines : List String) : (printLines lines).Total := by
  induction lines with
  | nil => exact total_pure ()
  | cons line rest ih => exact (total_printLine line).bind fun _ => ih

theorem total_report (options : Options) (line : String) : (report options line).Total := by
  unfold report
  split
  · exact total_pure ()
  · exact total_printLine line

/-! ## Documents -/

theorem readOnly_readDocument (file : Path) : (readDocument file).ReadOnly := by
  refine readOnly_read.bind fun context => ?_
  split
  · exact readOnly_pure _
  · exact readOnly_files.bind fun tree => (readOnly_orFail _ _).bind fun content => readOnly_pure _

/-! ## The store -/

theorem total_save (s : OpenStore) (changed : Store) : (s.save changed).Total := by
  intro context w
  unfold OpenStore.save
  cases s.place? with
  | none => exact ⟨(), w, rfl⟩
  | some place =>
    exact ⟨(), { w with files := w.files.put place (.file (.database changed.database)) }, rfl⟩

/-- A record that is refused changes nothing. -/
theorem createRecord_error {s : OpenStore} {r : Record}
    (h : createRecord s r context w = (.error d, w')) : w' = w := by
  unfold createRecord at h
  rcases bind_error h with hactor | ⟨name, w₁, hactor, hrest⟩
  · cases hactor
  cases hactor
  rw [read_bind_run] at hrest
  rcases bind_error hrest with hrefused | ⟨changed, w₁, -, hsave⟩
  · exact (readOnly_orFail _ _).eq hrefused
  · exact absurd hsave (total_save s changed).ne_error

end Phrasebook.Command
