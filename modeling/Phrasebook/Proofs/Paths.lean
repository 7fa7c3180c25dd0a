import Mathlib.Data.List.TakeWhile
import Phrasebook.Validation.Check

/-!
# Places in a candidate

A field whose name has no character to escape is named by itself, and an entry of it by
the escaped key after a point, so that different places have different names.

## Main definitions

* `PlainName`: a name without points and without characters to escape
* `placeField`: the field that a place belongs to
-/
namespace Phrasebook

/-! ## Escaping -/

/-- What a character of a name is escaped to. -/
def escapeChar (c : Char) : List Char :=
  if c = '~' then ['~', '0'] else if c = '/' then ['~', '1'] else [c]

theorem escapeName_toList (name : String) :
    (escapeName name).toList = name.toList.flatMap escapeChar := by
  rw [escapeName, String.toList_ofList]
  rfl

theorem escapeChar_cases (c : Char) : (c = '~' ∧ escapeChar c = ['~', '0']) ∨
    (c = '/' ∧ escapeChar c = ['~', '1']) ∨ (c ≠ '~' ∧ c ≠ '/' ∧ escapeChar c = [c]) := by
  by_cases htilde : c = '~'
  · exact .inl ⟨htilde, if_pos htilde⟩
  · by_cases hslash : c = '/'
    · exact .inr (.inl ⟨hslash, by simp [escapeChar, hslash]⟩)
    · exact .inr (.inr ⟨htilde, hslash, by simp [escapeChar, htilde, hslash]⟩)

theorem escapeChar_ne_nil (c : Char) : escapeChar c ≠ [] := by
  rcases escapeChar_cases c with ⟨-, hc⟩ | ⟨-, hc⟩ | ⟨-, -, hc⟩ <;> simp [hc]

/-- The first character tells which character has been escaped, unless it is a tilde; then
the second one does. -/
theorem escapeChar_append {c d : Char} {cs ds : List Char}
    (h : escapeChar c ++ cs = escapeChar d ++ ds) : c = d ∧ cs = ds := by
  rcases escapeChar_cases c with ⟨hc, hcs⟩ | ⟨hc, hcs⟩ | ⟨hc, -, hcs⟩ <;>
    rcases escapeChar_cases d with ⟨hd, hds⟩ | ⟨hd, hds⟩ | ⟨hd, -, hds⟩ <;>
    rw [hcs, hds] at h <;> grind

theorem escapeName_injective {a b : String} (h : escapeName a = escapeName b) : a = b := by
  have hchars : ∀ cs ds : List Char, cs.flatMap escapeChar = ds.flatMap escapeChar → cs = ds := by
    intro cs
    induction cs with
    | nil =>
      intro ds hds
      cases ds with
      | nil => rfl
      | cons d ds => exact absurd hds.symm (by simp [escapeChar_ne_nil])
    | cons c cs ih =>
      intro ds hds
      cases ds with
      | nil => exact absurd hds (by simp [escapeChar_ne_nil])
      | cons d ds =>
        rw [List.flatMap_cons, List.flatMap_cons] at hds
        obtain ⟨rfl, hrest⟩ := escapeChar_append hds
        rw [ih ds hrest]
  refine String.toList_injective (hchars _ _ ?_)
  rw [← escapeName_toList, ← escapeName_toList, h]

theorem isEmpty_escapeName {name : String} : (escapeName name).isEmpty = true ↔ name = "" := by
  rw [String.isEmpty_iff]
  constructor
  · exact fun h => escapeName_injective h
  · rintro rfl
    rfl

/-- A name without a character to escape stays as it is. -/
theorem escapeName_of_forall {name : String} (h : ∀ c ∈ name.toList, c ≠ '~' ∧ c ≠ '/') :
    escapeName name = name := by
  have hchars : ∀ cs : List Char, (∀ c ∈ cs, c ≠ '~' ∧ c ≠ '/') → cs.flatMap escapeChar = cs := by
    intro cs hcs
    induction cs with
    | nil => rfl
    | cons c cs ih =>
      obtain ⟨⟨htilde, hslash⟩, hrest⟩ := List.forall_mem_cons.mp hcs
      rw [List.flatMap_cons, ih hrest, escapeChar, if_neg htilde, if_neg hslash,
        List.singleton_append]
  refine String.toList_injective ?_
  rw [escapeName_toList, hchars _ h]

/-! ## Plain names -/

/-- A name that is not empty and has neither points nor characters to escape. -/
def PlainName (name : String) : Prop :=
  name ≠ "" ∧ ∀ c ∈ name.toList, c ≠ '.' ∧ c ≠ '~' ∧ c ≠ '/'

instance (name : String) : Decidable (PlainName name) :=
  decidable_of_iff (name ≠ "" ∧ name.toList.all (fun c => c != '.' && c != '~' && c != '/') = true)
    (by simp [PlainName, and_assoc])

variable {name other key : String}

theorem PlainName.escapeName (h : PlainName name) : escapeName name = name :=
  escapeName_of_forall fun c hc => (h.2 c hc).2

/-! ## Places -/

theorem pathText_field (h : PlainName name) : pathText [name] = name := by
  have hempty : name.isEmpty = false := by simpa [String.isEmpty_iff] using h.1
  simp [pathText, h.escapeName, hempty, Text.join]

/-- The place of an entry is that of its field, followed by the key unless that is
empty. -/
theorem pathText_entry (h : PlainName name) :
    pathText [name, key] = if key = "" then name else name ++ "." ++ escapeName key := by
  have hempty : name.isEmpty = false := by simpa [String.isEmpty_iff] using h.1
  split
  · next hkey =>
    simp [pathText, h.escapeName, hempty, isEmpty_escapeName.mpr hkey, Text.join]
  · next hkey =>
    have hnonempty : (Phrasebook.escapeName key).isEmpty = false := by
      rw [← Bool.not_eq_true, isEmpty_escapeName]
      exact hkey
    simp [pathText, h.escapeName, hempty, hnonempty, Text.join]

/-- The part of a place in front of the first point. -/
def placeField (place : String) : List Char := place.toList.takeWhile (· != '.')

theorem PlainName.placeField (h : PlainName name) : placeField name = name.toList := by
  refine List.takeWhile_eq_self_iff.mpr fun c hc => ?_
  simpa using (h.2 c hc).1

theorem placeField_entry (h : PlainName name) :
    placeField (pathText [name, key]) = name.toList := by
  rw [pathText_entry h]
  split
  · exact h.placeField
  · have hname : ∀ c ∈ name.toList, (c != '.') = true := fun c hc => by simpa using (h.2 c hc).1
    simp [Phrasebook.placeField, List.takeWhile_append_of_pos hname]

/-- Entries with different keys are in different places. -/
theorem pathText_entry_injective (h : PlainName name) {key other : String}
    (heq : pathText [name, key] = pathText [name, other]) : key = other := by
  rw [pathText_entry h, pathText_entry h] at heq
  have hlonger : ∀ k : String, name ≠ name ++ "." ++ escapeName k := by
    intro k hk
    have hlength := congrArg String.length hk
    have hpoint : ".".length = 1 := by decide
    rw [String.length_append, String.length_append] at hlength
    omega
  split at heq <;> split at heq
  · simp_all
  · exact absurd heq (hlonger other)
  · exact absurd heq.symm (hlonger key)
  · exact escapeName_injective (by simpa using heq)

end Phrasebook
