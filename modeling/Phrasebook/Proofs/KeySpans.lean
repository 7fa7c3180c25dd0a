import Phrasebook.Document.Record
import Phrasebook.Proofs.Lines
import Mathlib.Data.List.Forall2

/-!
# Places of keys in a document

A violation is shown at the first line of the document that begins with a key of its field.
The place is counted in lines without their line ends and one byte for each: it is the place of
that line exactly if no `\r\n` stands in front of it. A field without such a line is shown at
the first line, which lies in the document unless that is empty.

## Main definitions

* `Span.KeyStarts`: a line begins with a key
* `Span.Addresses`: a span is the rest of a line from a key on
* `Span.FirstKeyLine`: the first line of a key
* `Span.Locates`: a span is that of the first line of a key
* `Span.Shown`: where a field is shown
-/
namespace Phrasebook
namespace Span

/-! ## Lines of a key -/

/-- After its white space, a line begins with a key and a colon. -/
def KeyStarts (key line : List Char) : Prop := key ++ [':'] <+: Text.trimStartChars line

instance (key line : List Char) : Decidable (KeyStarts key line) :=
  inferInstanceAs (Decidable (key ++ [':'] <+: Text.trimStartChars line))

/-- A line without its white space in front, where `before` comes before the line. -/
def ofLine (before line : List Char) : Span :=
  ⟨Text.utf8Length before + Text.utf8Length (line.takeWhile Text.isSpace),
    Text.utf8Length (Text.trimStartChars line)⟩

/-- A line of a text that begins with a key. -/
structure IsKeyLine (content key before line after : List Char) : Prop where
  isLine : Text.IsLine content before line after
  starts : KeyStarts key line

/-- A span is the rest of a line from a key on. -/
def Addresses (content key : List Char) (span : Span) : Prop :=
  ∃ before line after, IsKeyLine content key before line after ∧ span = ofLine before line

/-- A span lies in a text. -/
def Inside (content : List Char) (span : Span) : Prop :=
  span.offset + span.length ≤ Text.utf8Length content

instance (content : List Char) (span : Span) : Decidable (span.Inside content) :=
  inferInstanceAs (Decidable (span.offset + span.length ≤ Text.utf8Length content))

/-- The first line of a text that begins with a key. -/
structure FirstKeyLine (content key before line after : List Char) : Prop
    extends IsKeyLine content key before line after where
  first : ∀ {before' line' after'}, IsKeyLine content key before' line' after' →
    (ofLine before line).offset ≤ (ofLine before' line').offset

section Lines

variable {content piece key before line after : List Char}

theorem inLine?_eq (key line : List Char) (offset : Nat) :
    inLine? key offset line = if KeyStarts key line then
      some ⟨offset + Text.utf8Length (line.takeWhile Text.isSpace),
        Text.utf8Length (Text.trimStartChars line)⟩ else none := by
  have htrim := Text.utf8Length_trimStart line
  have hiff : (Text.afterStart? (key ++ [':']) (Text.trimStartChars line)).isSome = true ↔
      KeyStarts key line := by
    simp only [Option.isSome_iff_exists, Text.afterStart?_eq_some_iff]
    exact exists_congr fun rest => eq_comm
  simp only [inLine?, hiff]
  congr 3
  omega

theorem KeyStarts.ne_nil (h : KeyStarts key line) : line ≠ [] := by
  rintro rfl
  simp [KeyStarts, Text.trimStartChars] at h

/-- A key line of a text with a line end is its first line, or a key line of the text after. -/
theorem isKeyLine_iff (rest : List Char) (h : '\n' ∉ piece) :
    IsKeyLine (piece ++ '\n' :: rest) key before line after ↔
      (before = [] ∧ line = Text.dropReturn piece ∧ piece ++ '\n' :: rest = line ++ after ∧
        KeyStarts key line) ∨
      ∃ start, before = piece ++ '\n' :: start ∧ IsKeyLine rest key start line after := by
  by_cases hbefore : before = []
  · subst hbefore
    constructor
    · rintro ⟨hline, hstarts⟩
      obtain ⟨rfl, heq⟩ := (Text.isLine_first_iff rest h).mp hline
      exact .inl ⟨rfl, rfl, heq, hstarts⟩
    · rintro (⟨-, hline, heq, hstarts⟩ | ⟨start, hstart, -⟩)
      · exact ⟨(Text.isLine_first_iff rest h).mpr ⟨hline, heq⟩, hstarts⟩
      · simp at hstart
  · constructor
    · rintro ⟨hline, hstarts⟩
      obtain ⟨start, rfl, hlater⟩ := (Text.isLine_later_iff rest h hbefore).mp hline
      exact .inr ⟨start, rfl, hlater, hstarts⟩
    · rintro (⟨hnil, -⟩ | ⟨start, hstart, hline, hstarts⟩)
      · exact absurd hnil hbefore
      · exact ⟨(Text.isLine_later_iff rest h hbefore).mpr ⟨start, hstart, hline⟩, hstarts⟩

theorem isKeyLine_later_iff (rest : List Char) (h : '\n' ∉ piece)
    (hkey : ¬ KeyStarts key (Text.dropReturn piece)) :
    IsKeyLine (piece ++ '\n' :: rest) key before line after ↔
      ∃ start, before = piece ++ '\n' :: start ∧ IsKeyLine rest key start line after := by
  rw [isKeyLine_iff rest h]
  refine or_iff_right ?_
  rintro ⟨-, rfl, -, hstarts⟩
  exact hkey hstarts

theorem offset_ofLine_append (piece start line : List Char) :
    (ofLine (piece ++ '\n' :: start) line).offset =
      Text.utf8Length piece + 1 + (ofLine start line).offset := by
  simp only [ofLine, Text.utf8Length_append, Text.utf8Length_newline_cons]
  omega

/-- The only line of a text without a line end is the first that begins with a key. -/
theorem firstKeyLine_last (h : '\n' ∉ content) (hkey : KeyStarts key content) :
    FirstKeyLine content key [] content [] := by
  refine ⟨⟨(Text.isLine_last_iff h).mpr ⟨rfl, rfl, rfl, hkey.ne_nil⟩, hkey⟩, fun hother => ?_⟩
  obtain ⟨rfl, rfl, -⟩ := (Text.isLine_last_iff h).mp hother.isLine
  exact Nat.le_refl _

/-- The first line of a text comes before all that begin with a key. -/
theorem exists_firstKeyLine (rest : List Char) (h : '\n' ∉ piece)
    (hkey : KeyStarts key (Text.dropReturn piece)) :
    ∃ after, FirstKeyLine (piece ++ '\n' :: rest) key [] (Text.dropReturn piece) after := by
  obtain ⟨tail, htail⟩ := Text.dropReturn_prefix piece
  have hline : piece ++ '\n' :: rest = Text.dropReturn piece ++ (tail ++ '\n' :: rest) := by
    rw [← List.append_assoc, htail]
  refine ⟨tail ++ '\n' :: rest, (isKeyLine_iff rest h).mpr (.inl ⟨rfl, rfl, hline, hkey⟩),
    fun hother => ?_⟩
  rcases (isKeyLine_iff rest h).mp hother with ⟨rfl, rfl, -⟩ | ⟨start, rfl, -⟩
  · exact Nat.le_refl _
  · have hwidth := Text.utf8Length_trimStart (Text.dropReturn piece)
    have hpiece := congrArg Text.utf8Length htail
    rw [Text.utf8Length_append] at hpiece
    rw [offset_ofLine_append]
    simp only [ofLine, Text.utf8Length_nil]
    omega

/-- The first key line of what follows a line without the key. -/
theorem FirstKeyLine.later {rest start : List Char} (h : '\n' ∉ piece)
    (hkey : ¬ KeyStarts key (Text.dropReturn piece))
    (hfirst : FirstKeyLine rest key start line after) :
    FirstKeyLine (piece ++ '\n' :: rest) key (piece ++ '\n' :: start) line after := by
  refine ⟨(isKeyLine_later_iff rest h hkey).mpr ⟨start, rfl, hfirst.toIsKeyLine⟩,
    fun hother => ?_⟩
  obtain ⟨start', rfl, hstart⟩ := (isKeyLine_later_iff rest h hkey).mp hother
  rw [offset_ofLine_append, offset_ofLine_append]
  exact Nat.add_le_add_left (hfirst.first hstart) _

end Lines

/-! ## Searching -/

/-- A span is that of the first line of a key in a text that starts at `offset`, moved back a
byte for each `\r\n` in front of the line. -/
structure Locates (content key : List Char) (offset : Nat) (span : Span)
    (before line after : List Char) : Prop extends FirstKeyLine content key before line after where
  length_eq : span.length = (ofLine before line).length
  offset_eq : span.offset + Text.returns before = offset + (ofLine before line).offset

/-- What a search for a key in a text comes to, if the text starts at `offset`. -/
inductive Finds (content key : List Char) (offset : Nat) : Option Span → Prop
  | nowhere (h : ∀ before line after, ¬ IsKeyLine content key before line after) :
    Finds content key offset none
  | somewhere {before line after : List Char} {span : Span}
    (h : Locates content key offset span before line after) : Finds content key offset (some span)

section Finds

variable {content piece key before line after : List Char} {span : Span} {offset : Nat}

theorem finds_last (h : '\n' ∉ content) :
    Finds content key offset (inLines? key offset (Text.linesOf (Text.splitOn '\n' content))) := by
  rw [Text.linesOf_last h]
  by_cases hkey : KeyStarts key content
  · rw [if_neg (by simpa using hkey.ne_nil), inLines?, inLine?_eq, if_pos hkey]
    exact .somewhere ⟨firstKeyLine_last h hkey, rfl, by simp [ofLine, Text.returns]⟩
  · have hnone : inLines? key offset (if content.isEmpty then [] else [content]) = none := by
      split
      · rfl
      · simp [inLines?, inLine?_eq, hkey]
    rw [hnone]
    refine .nowhere fun before line after hother => hkey ?_
    obtain ⟨-, rfl, -⟩ := (Text.isLine_last_iff h).mp hother.isLine
    exact hother.starts

theorem finds_line (rest : List Char) (h : '\n' ∉ piece)
    (hrest : ∀ offset, Finds rest key offset
      (inLines? key offset (Text.linesOf (Text.splitOn '\n' rest)))) :
    Finds (piece ++ '\n' :: rest) key offset
      (inLines? key offset (Text.linesOf (Text.splitOn '\n' (piece ++ '\n' :: rest)))) := by
  rw [Text.linesOf_line rest h, inLines?, inLine?_eq]
  by_cases hkey : KeyStarts key (Text.dropReturn piece)
  · obtain ⟨after, hfirst⟩ := exists_firstKeyLine rest h hkey
    rw [if_pos hkey]
    exact .somewhere ⟨hfirst, rfl, by simp [ofLine, Text.returns]⟩
  · rw [if_neg hkey]
    have hfinds := hrest (offset + Text.utf8Length (Text.dropReturn piece) + 1)
    dsimp only
    generalize inLines? key _ _ = found at hfinds ⊢
    cases hfinds with
    | nowhere hnone =>
      refine .nowhere fun before line after hother => ?_
      obtain ⟨start, -, hstart⟩ := (isKeyLine_later_iff rest h hkey).mp hother
      exact hnone _ _ _ hstart
    | @somewhere start line after span hlocates =>
      have hreturns := Text.utf8Length_dropReturn start h
      have hoffset := hlocates.offset_eq
      refine .somewhere ⟨hlocates.toFirstKeyLine.later h hkey, hlocates.length_eq, ?_⟩
      rw [offset_ofLine_append]
      omega

/-- A search for a key finds its first line. -/
theorem finds_inLines? (content key : List Char) (offset : Nat) : Finds content key offset
    (inLines? key offset (Text.linesOf (Text.splitOn '\n' content))) := by
  -- Every line moves the offset of the text after it, so the induction is for all offsets.
  induction content using Text.lineInduction generalizing offset with
  | last content h => exact finds_last h
  | line piece rest h ih => exact finds_line rest h ih

theorem Locates.addresses_iff (h : Locates content key 0 span before line after) :
    Addresses content key span ↔ Text.returns before = 0 := by
  have hoffset := h.offset_eq
  constructor
  · rintro ⟨before', line', after', hother, rfl⟩
    have hle := h.first hother
    omega
  · intro hreturns
    refine ⟨before, line, after, h.toIsKeyLine, ?_⟩
    rw [hreturns, Nat.zero_add, Nat.add_zero] at hoffset
    have hlength := h.length_eq
    cases span
    cases hlength
    cases hoffset
    rfl

theorem Locates.inside (h : Locates content key 0 span before line after) :
    span.Inside content := by
  have hwidth := Text.utf8Length_trimStart line
  have htext := congrArg Text.utf8Length h.isLine.eq
  rw [Text.utf8Length_append, Text.utf8Length_append] at htext
  have hlength := h.length_eq
  have hoffset := h.offset_eq
  simp only [ofLine] at hlength hoffset
  rw [Inside]
  omega

theorem IsKeyLine.ne_nil (h : IsKeyLine content key before line after) : content ≠ [] := by
  rintro rfl
  have hline := h.isLine.eq
  simp only [List.nil_eq, List.append_eq_nil_iff] at hline
  exact h.starts.ne_nil hline.1.2

/-- An addressed key and its colon stand in the text at the offset of the span. -/
theorem Addresses.exists_front (h : Addresses content key span) :
    ∃ front, Text.utf8Length front = span.offset ∧ front ++ (key ++ [':']) <+: content := by
  obtain ⟨before, line, after, ⟨hline, ⟨rest, hrest⟩⟩, rfl⟩ := h
  refine ⟨before ++ line.takeWhile Text.isSpace, Text.utf8Length_append _ _, rest ++ after, ?_⟩
  calc before ++ line.takeWhile Text.isSpace ++ (key ++ [':']) ++ (rest ++ after)
      = before ++ (line.takeWhile Text.isSpace ++ (key ++ [':'] ++ rest)) ++ after := by
        simp only [List.append_assoc]
    _ = before ++ line ++ after := by
        rw [hrest, Text.trimStartChars, List.takeWhile_append_dropWhile]
    _ = content := hline.eq.symm

theorem firstLine_inside_iff : (firstLine content).Inside content ↔ content ≠ [] := by
  have hline := Text.utf8Length_append (content.takeWhile (· != '\n'))
    (content.dropWhile (· != '\n'))
  rw [List.takeWhile_append_dropWhile] at hline
  simp only [Inside, firstLine]
  constructor
  · rintro hinside rfl
    simp at hinside
  · intro hne
    have hpos := Text.utf8Length_pos hne
    omega

end Finds

/-! ## Fields -/

/-- The keys a field is looked for by: its last part, then the part before it. -/
def fieldKeys (field : String) : List (List Char) :=
  ((Text.splitOn '.' field.toList).filter fun part => !part.isEmpty).reverse.take 2

/-- Where a field is shown in a text: at the first line if no line begins with a key of it, else
at a line of a key, which is addressed exactly if no `\r\n` stands in front of it. -/
inductive Shown (content : List Char) (field : String) (span : Span) : Prop
  | atFirstLine
    (h : ∀ key ∈ fieldKeys field, ∀ before line after, ¬ IsKeyLine content key before line after)
    (span_eq : span = firstLine content) : Shown content field span
  | atKey {key before line after : List Char} (mem : key ∈ fieldKeys field)
    (h : Locates content key 0 span before line after)
    (addresses_iff : Addresses content key span ↔ Text.returns before = 0) :
    Shown content field span

section Fields

variable {content : List Char}

theorem ofField_eq (content : List Char) (field : String) : ofField content field =
    ((fieldKeys field).findSome? (ofKey? content)).getD (firstLine content) := by
  rw [ofField, fieldKeys]
  split
  · next h => rw [h, Option.getD_some]
  · next h => rw [h, Option.getD_none]

theorem shown_ofField (content : List Char) (field : String) :
    Shown content field (ofField content field) := by
  have hfinds : ∀ key, Finds content key 0 (ofKey? content key) := fun key =>
    finds_inLines? content key 0
  rw [ofField_eq]
  cases hfound : (fieldKeys field).findSome? (ofKey? content) with
  | none =>
    refine .atFirstLine (fun key hkey => ?_) rfl
    have hkeyFinds := hfinds key
    rw [List.findSome?_eq_none_iff.mp hfound key hkey] at hkeyFinds
    cases hkeyFinds with
    | nowhere h => exact h
  | some span =>
    obtain ⟨key, hkey, hspan⟩ := List.exists_of_findSome?_eq_some hfound
    have hkeyFinds := hfinds key
    rw [hspan] at hkeyFinds
    cases hkeyFinds with
    | somewhere h => exact .atKey hkey h h.addresses_iff

theorem Shown.inside_iff {field : String} {span : Span} (h : Shown content field span) :
    span.Inside content ↔ content ≠ [] := by
  cases h with
  | atFirstLine _ span_eq => rw [span_eq, firstLine_inside_iff]
  | atKey _ h _ => exact iff_of_true h.inside h.ne_nil

end Fields
end Span

/-! ## Refusals -/

/-- All labels of a refusal lie in the document unless it is empty. Each violation is shown at
the first line of a key of its field or, without one, at the first line; a line found by a key
is addressed exactly if no `\r\n` stands in front of it. -/
theorem DocumentError.ofValidation_spans (filename content : String) (e : ValidationError) :
    ∃ findings, ofValidation filename content e = .invalid filename findings e.violations ∧
      findings ≠ [] ∧
      ((∀ f ∈ findings, f.span.Inside content.toList) ↔ content ≠ "") ∧
      ((e.violations = [] ∧ findings.map Finding.span = [Span.firstLine content.toList]) ∨
        List.Forall₂ (fun v f => Span.Shown content.toList v.field f.span)
          e.violations findings) := by
  refine ⟨_, rfl, ?_⟩
  have hempty : content.toList ≠ [] ↔ content ≠ "" := by
    rw [Ne, Ne, String.toList_eq_nil_iff]
  by_cases hnone : e.violations = []
  · rw [if_pos (by rw [hnone]; rfl)]
    refine ⟨List.cons_ne_nil _ _, ?_, .inl ⟨hnone, rfl⟩⟩
    rw [← hempty, List.forall_mem_singleton, Span.firstLine_inside_iff]
  · rw [if_neg (by simpa using hnone)]
    refine ⟨by simpa using hnone, ?_, .inr ?_⟩
    · obtain ⟨v, hv⟩ := List.exists_mem_of_ne_nil _ hnone
      rw [← hempty, List.forall_mem_map]
      exact ⟨fun h => (Span.shown_ofField _ _).inside_iff.mp (h v hv),
        fun h v _ => (Span.shown_ofField _ _).inside_iff.mpr h⟩
    · rw [List.forall₂_map_right_iff, List.forall₂_same]
      exact fun v _ => Span.shown_ofField _ _

/-- With `\r\n` at the ends of lines, a field is shown two bytes in front of its line, and an empty
document is shown to have a first byte. -/
theorem DocumentError.ofValidation_returns :
    let content := "variables:\r\n  user: string\r\nname: has spaces\r\n"
    let vs : List Violation := [⟨"name", .patternMismatch "^[A-Za-z0-9_\\-]+$"⟩]
    (∃ f, ofValidation "a.template.yaml" content (.fields .template vs) =
        .invalid "a.template.yaml" [f] vs ∧
      Span.ofKey? content.toList "name".toList = some f.span ∧
      ¬ Span.Addresses content.toList "name".toList f.span) ∧
    ∃ f, ofValidation "a.template.yaml" "" (.notAMapping .template) =
        .invalid "a.template.yaml" [f] [] ∧ ¬ f.span.Inside "".toList := by
  intro content vs
  refine ⟨⟨_, rfl, by decide +kernel, fun haddresses => ?_⟩, _, rfl, by decide⟩
  obtain ⟨front, hoffset, hprefix⟩ := haddresses.exists_front
  have hfront : front = content.toList.take 26 := by
    refine Text.eq_of_prefix ((List.prefix_append _ _).trans hprefix) (List.take_prefix _ _) ?_
    rw [hoffset]
    decide +kernel
  rw [hfront] at hprefix
  revert hprefix
  decide +kernel

end Phrasebook
