import Phrasebook.Proofs.JsonText
import Phrasebook.Store.Change

/-!
# Reading recorded changes back

An entry of a history is read back from its text if its fields are plain values.
-/
namespace Phrasebook.ChangeItems

open Json

theorem actionOf_name (action : ChangeAction) (c : Cursor) :
    actionOf action.name c = .ok action := by
  cases action <;> rfl

theorem readText_quoted (s : String) : Reads readText ('"' :: unopened s) s := by
  intro c rest hc
  rw [List.cons_append] at hc
  obtain ⟨c', hread, hrest⟩ := readString_quoted s c.next rest (rest_next hc)
  refine ⟨c', ?_, hrest⟩
  simp [readText, skipBlank_eq hc, peek?_eq hc, Cursor.isBlank, hread]

theorem readAction_quoted (action : ChangeAction) :
    Reads readAction ('"' :: unopened action.name) action := by
  intro c rest hc
  rw [List.cons_append] at hc
  obtain ⟨c', hread, hrest⟩ := readString_quoted action.name c.next rest (rest_next hc)
  refine ⟨c', ?_, hrest⟩
  simp [readAction, skipBlank_eq hc, peek?_eq hc, Cursor.isBlank, hread, actionOf_name, bind,
    Except.bind]

theorem readFields_text {fields : Fields} (h : Plain (.obj fields)) {depth : Nat}
    (hdepth : height (.obj fields) < depth) :
    Reads (readFields depth) (compact (.obj fields)).toList fields := by
  intro c rest hc
  have hfuel : (compact (.obj fields)).toList.length ≤ 2 * c.rest.length + 4 := by
    rw [hc, List.length_append]
    omega
  obtain ⟨c', hread, hrest⟩ := readValue_text h hdepth hfuel c rest hc
  refine ⟨c', ?_, hrest⟩
  rw [compact_obj, List.cons_append] at hc
  simp [readFields, skipBlank_eq hc, peek?_eq hc, Cursor.isBlank, hread, bind, Except.bind]

/-! ## Parts -/

section Parts

variable (fuel : Nat) (given : Partial) {first : Bool} {c : Cursor} {rest : List Char}
  {more : Fields}

/-- The closing brace of an entry whose user and action are known. -/
theorem readParts_closing {user : String} {action : ChangeAction} (huser : given.user = some user)
    (haction : given.action = some action) (hc : c.rest = '\x7d' :: rest) :
    readParts (fuel + 1) first given c = .ok (⟨user, action, given.fields.getD []⟩, c.next) := by
  simp [readParts, nextKey_closing first hc, assemble, huser, haction, bind, Except.bind]

/-- The key of a part is read up to its value. -/
theorem readKey_text {key : String} {value : Json}
    (hc : c.rest = entriesText first ((key, value) :: more) ++ rest) :
    ∃ c₁ : Cursor, nextKey first c = .ok (some key, c₁) ∧ readColon c₁ = .ok c₁.next ∧
      c₁.next.rest = value.compact.toList ++ (entriesText false more ++ rest) := by
  have hkey : c.rest = ((if first then [] else [',']) ++ '"' :: unopened key) ++
      ':' :: (value.compact.toList ++ (entriesText false more ++ rest)) := by
    rw [hc, entriesText]
    simp
  obtain ⟨c₁, hread, hrest⟩ := nextKey_text first key c _ hkey
  exact ⟨c₁, hread, readColon_text hrest, rest_next hrest⟩

theorem readParts_user {user : String} (hgiven : given.user = none)
    (hc : c.rest = entriesText first (("user", .str user) :: more) ++ rest) :
    ∃ c' : Cursor, c'.rest = entriesText false more ++ rest ∧
      readParts (fuel + 1) first given c = readParts fuel false { given with user := user } c' := by
  obtain ⟨c₁, hkey, hcolon, hvalue⟩ := readKey_text hc
  rw [compact, quote_toList] at hvalue
  obtain ⟨c', hread, hrest⟩ := readText_quoted user c₁.next _ hvalue
  refine ⟨c', hrest, ?_⟩
  simp [readParts, hkey, hcolon, hread, hgiven, bind, Except.bind]

theorem readParts_action {action : ChangeAction} (hgiven : given.action = none)
    (hc : c.rest = entriesText first (("action", .str action.name) :: more) ++ rest) :
    ∃ c' : Cursor, c'.rest = entriesText false more ++ rest ∧
      readParts (fuel + 1) first given c =
        readParts fuel false { given with action := action } c' := by
  obtain ⟨c₁, hkey, hcolon, hvalue⟩ := readKey_text hc
  rw [compact, quote_toList] at hvalue
  obtain ⟨c', hread, hrest⟩ := readAction_quoted action c₁.next _ hvalue
  refine ⟨c', hrest, ?_⟩
  simp [readParts, hkey, hcolon, hread, hgiven, bind, Except.bind]

theorem readParts_fields {fields : Fields} (hgiven : given.fields = none)
    (hplain : Plain (.obj fields)) (hheight : height (.obj fields) < depthLimit - 1)
    (hc : c.rest = entriesText first (("fields", .obj fields) :: more) ++ rest) :
    ∃ c' : Cursor, c'.rest = entriesText false more ++ rest ∧
      readParts (fuel + 1) first given c =
        readParts fuel false { given with fields := fields } c' := by
  obtain ⟨c₁, hkey, hcolon, hvalue⟩ := readKey_text hc
  obtain ⟨c', hread, hrest⟩ := readFields_text hplain hheight c₁.next _ hvalue
  refine ⟨c', hrest, ?_⟩
  simp [readParts, hkey, hcolon, hread, hgiven, bind, Except.bind]

end Parts

/-- The parts of an entry are read in the order they are written in. -/
theorem readParts_text {user : String} {action : ChangeAction} {fields : Fields}
    (h : Plain (.obj fields)) (hheight : height (.obj fields) < depthLimit - 1) (fuel : Nat) :
    Reads (readParts (fuel + 4) true {})
      (entriesText true (("user", .str user) :: ("action", .str action.name) ::
        if fields.isEmpty then [] else [("fields", .obj fields)]))
      ⟨user, action, fields⟩ := by
  intro c rest hc
  obtain ⟨c₁, hrest₁, huser⟩ := readParts_user (fuel + 3) {} rfl hc
  obtain ⟨c₂, hrest₂, haction⟩ := readParts_action (fuel + 2) { user } rfl hrest₁
  rw [huser, haction]
  split at hrest₂
  · next hempty =>
    rw [List.isEmpty_iff.mp hempty]
    refine ⟨c₂.next, ?_, rest_next hrest₂⟩
    exact readParts_closing (fuel + 1) { user, action } rfl rfl hrest₂
  · obtain ⟨c₃, hrest₃, hfields⟩ :=
      readParts_fields (fuel + 1) { user, action } rfl h hheight hrest₂
    rw [hfields]
    exact ⟨c₃.next, readParts_closing fuel { user, action, fields } rfl rfl hrest₃,
      rest_next hrest₃⟩

/-- An entry with plain fields of bounded nesting is read back from its text. -/
theorem read_text {items : ChangeItems} (h : Plain (.obj items.fields))
    (hheight : height (.obj items.fields) < depthLimit - 1) : read items.text = .ok items := by
  obtain ⟨user, action, fields⟩ := items
  have htext : (Cursor.ofString (text ⟨user, action, fields⟩)).rest =
      '\x7b' :: (entriesText true (("user", .str user) :: ("action", .str action.name) ::
        if fields.isEmpty then [] else [("fields", .obj fields)]) ++ []) := by
    simp only [Cursor.ofString, text, compact_obj, List.cons_append, List.nil_append,
      List.append_nil]
  rw [read]
  generalize Cursor.ofString (text ⟨user, action, fields⟩) = c at htext
  have hlength : ∃ fuel, c.rest.length + 2 = fuel + 4 := by
    refine ⟨c.rest.length - 2, ?_⟩
    rw [htext]
    simp only [entriesText, List.length_cons, List.length_append]
    omega
  obtain ⟨fuel, hfuel⟩ := hlength
  obtain ⟨c', hread, hrest⟩ := readParts_text h hheight fuel c.next [] (rest_next htext)
  simp only [skipBlank_eq htext rfl, peek?_eq htext, hfuel, hread, readEnd_done hrest, bind,
    Except.bind]

end Phrasebook.ChangeItems
