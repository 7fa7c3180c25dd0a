import Phrasebook.Proofs.KeySpans

/-!
# Fields of block documents

A document in block style is a sequence of fields, each with a line of its own that is not
indented; variables and texts have indented lines below it. The lines of a document are searched
from the top, and indentation is skipped: a field is shown at its own line exactly if no line
above begins with it, be it an entry or a line of text.

## Main definitions

* `Block`: a field with its lines
* `Block.document`: a document in block style
* `Block.Leads`: the line of a field is the first that a search for it meets
-/
namespace Phrasebook

/-! ## Documents -/

/-- A name and a type below the line of the variables. -/
structure Block.Entry where
  indent : List Char
  name : List Char
  type : List Char
  deriving DecidableEq, Repr

/-- A field of a document. What follows the colon has its blank with it. -/
inductive Block where
  | value (field content : List Char)
  | types (entries : List Block.Entry)
  | text (field header : List Char) (lines : List (List Char))
  deriving DecidableEq, Repr

namespace Block

/-- The name of a field. -/
def field : Block → List Char
  | value field _ | text field _ _ => field
  | types _ => "variables".toList

/-- What follows the name and the colon on the line of a field. -/
def after : Block → List Char
  | value _ content => content
  | types _ => []
  | text _ header _ => header

/-- The line of a field. -/
def head (b : Block) : List Char := b.field ++ ':' :: b.after

/-- The line of an entry. -/
def Entry.line (e : Entry) : List Char := e.indent ++ e.name ++ ':' :: ' ' :: e.type

/-- The lines below the line of a field. -/
def body : Block → List (List Char)
  | value _ _ => []
  | types entries => entries.map Entry.line
  | text _ _ lines => lines

/-- The lines of a field. -/
def lines (b : Block) : List (List Char) := b.head :: b.body

/-- The line of a field is not indented, and the lines below it are, unless they are empty. -/
structure WellFormed (b : Block) : Prop where
  plain : ∀ line ∈ b.lines, Text.PlainLine line
  unindented : b.field.head?.any (!Text.isSpace ·) = true
  indented : ∀ line ∈ b.body, line.head?.all Text.isSpace = true

instance (b : Block) : Decidable b.WellFormed :=
  decidable_of_iff ((∀ line ∈ b.lines, Text.PlainLine line) ∧
      b.field.head?.any (!Text.isSpace ·) = true ∧
      ∀ line ∈ b.body, line.head?.all Text.isSpace = true)
    ⟨fun h => ⟨h.1, h.2.1, h.2.2⟩, fun h => ⟨h.plain, h.unindented, h.indented⟩⟩

/-- The document of fields. -/
def document (blocks : List Block) : String :=
  String.ofList (Text.unlines (blocks.flatMap lines))

/-- The place of the line of a field below the lines of others. -/
def span (front : List Block) (b : Block) : Span :=
  Span.ofLine (Text.unlines (front.flatMap lines)) b.head

/-- A search for a field meets its line first: no line above begins with the key by which the
field is found. A field without such a key must stand at the top. -/
def Leads (front : List Block) (b : Block) (back : List Block) (field : String) : Prop :=
  match (Span.fieldKeys field).find? fun key =>
    ((front ++ b :: back).flatMap lines).any (Span.KeyStarts key) with
  | some key => Span.KeyStarts key b.head ∧ ∀ line ∈ front.flatMap lines, ¬ Span.KeyStarts key line
  | none => front = []

end Block

/-! ## Searching in lines -/

namespace Span

variable {key head : List Char} {span : Span} {offset : Nat} {above below xs : List (List Char)}

theorem inLines?_append (key : List Char) (offset : Nat) (above below : List (List Char)) :
    inLines? key offset (above ++ below) = (inLines? key offset above).or
      (inLines? key (offset + Text.utf8Length (Text.unlines above)) below) := by
  induction above generalizing offset with
  | nil => rfl
  | cons line above ih =>
    rw [List.cons_append, inLines?, inLines?]
    cases inLine? key offset line with
    | some span => rfl
    | none =>
      rw [ih, Text.unlines_cons, Text.utf8Length_append, Text.utf8Length_newline_cons]
      simp only [Nat.add_assoc]

theorem inLines?_eq_none_iff :
    inLines? key offset xs = none ↔ ∀ line ∈ xs, ¬ KeyStarts key line := by
  induction xs generalizing offset with
  | nil => simp [inLines?]
  | cons line xs ih =>
    rw [inLines?, inLine?_eq, List.forall_mem_cons]
    by_cases hkey : KeyStarts key line
    · simp [hkey]
    · simp [hkey, ih]

theorem isSome_inLines? (key : List Char) (offset : Nat) (xs : List (List Char)) :
    (inLines? key offset xs).isSome = xs.any (KeyStarts key) := by
  rw [Bool.eq_iff_iff, Option.isSome_iff_ne_none, Ne, inLines?_eq_none_iff]
  simp

/-- What is found begins in one of the lines. -/
theorem inLines?_bounds (h : inLines? key offset xs = some span) :
    offset ≤ span.offset ∧ span.offset < offset + Text.utf8Length (Text.unlines xs) := by
  induction xs generalizing offset with
  | nil => cases h
  | cons line xs ih =>
    have hwidth := Text.utf8Length_trimStart line
    rw [Text.unlines_cons, Text.utf8Length_append, Text.utf8Length_newline_cons]
    rw [inLines?, inLine?_eq] at h
    by_cases hkey : KeyStarts key line
    · rw [if_pos hkey] at h
      cases h
      dsimp only
      omega
    · rw [if_neg hkey] at h
      have hbounds := ih h
      omega

/-- A search ends at a line exactly if the line begins with the key and no line above does. -/
theorem inLines?_eq_ofLine_iff :
    inLines? key 0 (above ++ head :: below) = some (ofLine (Text.unlines above) head) ↔
      KeyStarts key head ∧ ∀ line ∈ above, ¬ KeyStarts key line := by
  have hwidth := Text.utf8Length_trimStart head
  rw [inLines?_append, Nat.zero_add]
  cases habove : inLines? key 0 above with
  | some span =>
    have hbounds := inLines?_bounds habove
    refine iff_of_false ?_ fun ⟨_, hnone⟩ => ?_
    · rintro heq
      cases heq
      simp only [ofLine] at hbounds
      omega
    · rw [inLines?_eq_none_iff.mpr hnone] at habove
      cases habove
  | none =>
    rw [Option.none_or, and_iff_left (inLines?_eq_none_iff.mp habove), inLines?, inLine?_eq]
    by_cases hkey : KeyStarts key head
    · simp [hkey, ofLine]
    · -- What is found below begins after the end of this line.
      rw [if_neg hkey]
      refine iff_of_false (fun hfound => ?_) hkey
      have hbounds := inLines?_bounds hfound
      simp only [ofLine] at hbounds
      omega

end Span

/-! ## Places of fields -/

namespace Block

variable {front back blocks : List Block} {own : Block} {field : String}

theorem toList_document (blocks : List Block) :
    (document blocks).toList = Text.unlines (blocks.flatMap lines) :=
  String.toList_ofList

/-- The lines of a document are those of its fields. -/
theorem ofKey?_document (h : ∀ b ∈ blocks, b.WellFormed) (key : List Char) :
    Span.ofKey? (document blocks).toList key = Span.inLines? key 0 (blocks.flatMap lines) := by
  rw [Span.ofKey?, toList_document, Text.linesOf_unlines]
  intro line hline
  obtain ⟨b, hb, hmem⟩ := List.mem_flatMap.mp hline
  exact (h b hb).plain line hmem

theorem lines_split (front : List Block) (own : Block) (back : List Block) :
    (front ++ own :: back).flatMap lines =
      front.flatMap lines ++ own.head :: (own.body ++ back.flatMap lines) := by
  rw [List.flatMap_append, List.flatMap_cons]
  rfl

theorem WellFormed.exists_field (h : own.WellFormed) :
    ∃ c rest, own.field = c :: rest ∧ Text.isSpace c = false := by
  obtain ⟨c, hhead, hc⟩ := (Option.any_eq_true _ _).mp h.unindented
  obtain ⟨rest, hfield⟩ := List.head?_eq_some_iff.mp hhead
  exact ⟨c, rest, hfield, by simpa using hc⟩

theorem WellFormed.takeWhile_head (h : own.WellFormed) :
    own.head.takeWhile Text.isSpace = [] := by
  obtain ⟨c, rest, hfield, hc⟩ := h.exists_field
  rw [head, hfield, List.cons_append, List.takeWhile_cons, if_neg (by simp [hc])]

theorem WellFormed.trimStart_head (h : own.WellFormed) :
    Text.trimStartChars own.head = own.head := by
  conv_rhs => rw [← List.takeWhile_append_dropWhile (p := Text.isSpace) (l := own.head)]
  rw [h.takeWhile_head]
  rfl

/-- The line of a field begins with its name. -/
theorem WellFormed.keyStarts_head (h : own.WellFormed) : Span.KeyStarts own.field own.head := by
  rw [Span.KeyStarts, h.trimStart_head]
  exact ⟨own.after, by simp [head]⟩

/-- The first line of a document is that of its first field. -/
theorem firstLine_eq_span_iff (h : own.WellFormed) :
    Span.firstLine (document (front ++ own :: back)).toList = own.span front ↔ front = [] := by
  constructor
  · intro heq
    have hoffset := congrArg Span.offset heq
    cases front with
    | nil => rfl
    | cons b front =>
      have hpos : 0 < Text.utf8Length (Text.unlines ((b :: front).flatMap lines)) :=
        Text.utf8Length_pos (by simp [lines])
      simp only [span, Span.ofLine, Span.firstLine] at hoffset
      omega
  · rintro rfl
    have hwhole : ∀ c ∈ own.head, (c != '\n') = true := by
      intro c hc
      have hplain := h.plain own.head List.mem_cons_self
      exact bne_iff_ne.mpr fun heq => hplain.whole (heq ▸ hc)
    have hpos : 0 < Text.utf8Length own.head := Text.utf8Length_pos (by simp [head])
    have hline : (document ([] ++ own :: back)).toList.takeWhile (· != '\n') = own.head := by
      rw [toList_document, List.nil_append, List.flatMap_cons, lines, List.cons_append,
        Text.unlines_cons, List.takeWhile_append_of_pos hwhole]
      simp
    rw [Span.firstLine, hline, span, Span.ofLine, h.takeWhile_head, h.trimStart_head]
    simp [Text.unlines]
    omega

/-- A field is shown at a line exactly if that line leads the search for it. -/
theorem ofField_eq_span_iff (h : ∀ b ∈ front ++ own :: back, b.WellFormed) (field : String) :
    Span.ofField (document (front ++ own :: back)).toList field = own.span front ↔
      own.Leads front back field := by
  have hany : ∀ key, ((front ++ own :: back).flatMap lines).any (Span.KeyStarts key) =
      (Span.ofKey? (document (front ++ own :: back)).toList key).isSome := fun key => by
    rw [ofKey?_document h, Span.isSome_inLines?]
  rw [Span.ofField_eq, Leads]
  simp only [hany]
  cases hfind : (Span.fieldKeys field).find? fun key =>
      (Span.ofKey? (document (front ++ own :: back)).toList key).isSome with
  | none =>
    have hnone : (Span.fieldKeys field).findSome?
        (Span.ofKey? (document (front ++ own :: back)).toList) = none :=
      List.findSome?_eq_none_iff.mpr fun key hmem => by
        simpa using List.find?_eq_none.mp hfind key hmem
    rw [hnone]
    exact firstLine_eq_span_iff (h own (by simp))
  | some key =>
    obtain ⟨hfound, skipped, others, hkeys, hskipped⟩ := List.find?_eq_some_iff_append.mp hfind
    obtain ⟨span, hspan⟩ := Option.isSome_iff_exists.mp hfound
    have hsome : (Span.fieldKeys field).findSome?
        (Span.ofKey? (document (front ++ own :: back)).toList) = some span :=
      List.findSome?_eq_some_iff.mpr ⟨skipped, key, others, hkeys, hspan, fun other hother => by
        simpa using hskipped other hother⟩
    rw [ofKey?_document h, lines_split] at hspan
    rw [hsome, Option.getD_some]
    dsimp only
    rw [← Span.inLines?_eq_ofLine_iff, hspan, Option.some_inj]
    rfl

/-- A name without a dot is the only key of its field. -/
theorem fieldKeys_of_notMem (hne : field.toList ≠ []) (hdot : '.' ∉ field.toList) :
    Span.fieldKeys field = [field.toList] := by
  rw [Span.fieldKeys, Text.splitOn_of_notMem hdot]
  simp [hne]

/-- For a name without a dot, the line of its field leads unless a line above begins with it. -/
theorem leads_iff (hown : own.WellFormed) (hfield : field.toList = own.field)
    (hdot : '.' ∉ own.field) : own.Leads front back field ↔
      ∀ line ∈ front.flatMap lines, ¬ Span.KeyStarts own.field line := by
  have hne : field.toList ≠ [] := by
    obtain ⟨c, rest, hcons, -⟩ := hown.exists_field
    rw [hfield, hcons]
    exact List.cons_ne_nil _ _
  have hany : ((front ++ own :: back).flatMap lines).any (Span.KeyStarts own.field) = true := by
    refine List.any_eq_true.mpr ⟨own.head, ?_, decide_eq_true hown.keyStarts_head⟩
    rw [lines_split]
    simp
  rw [Leads, fieldKeys_of_notMem hne (hfield ▸ hdot), hfield, List.find?_cons, hany]
  exact and_iff_right hown.keyStarts_head

end Block

/-! ## Refusals -/

/-- A violation of a field of a block document is shown at the line of the field exactly if that
line leads the search: for a name without a dot, exactly if no line above begins with it. -/
theorem DocumentError.ofValidation_ownLine {front back : List Block} {own : Block}
    (h : ∀ b ∈ front ++ own :: back, b.WellFormed) (filename : String) (e : ValidationError)
    (hsome : e.violations ≠ []) :
    ∃ findings, ofValidation filename (Block.document (front ++ own :: back)) e =
        .invalid filename findings e.violations ∧
      List.Forall₂ (fun v f => v.field.toList = own.field →
        (f.span = own.span front ↔ own.Leads front back v.field) ∧
        ('.' ∉ own.field → (f.span = own.span front ↔
          ∀ line ∈ front.flatMap Block.lines, ¬ Span.KeyStarts own.field line)))
        e.violations findings := by
  refine ⟨_, rfl, ?_⟩
  rw [if_neg (by simpa using hsome), List.forall₂_map_right_iff, List.forall₂_same]
  intro v _ hfield
  have hiff := Block.ofField_eq_span_iff h v.field
  exact ⟨hiff, fun hdot => hiff.trans (Block.leads_iff (h own (by simp)) hfield hdot)⟩

/-- Below an entry and a text that do not begin with it, a field is shown at its line. -/
theorem DocumentError.ofValidation_ownLine_below :
    let front : List Block := [.types [⟨"  ".toList, "first_name".toList, "string".toList⟩],
      .text "content".toList " |".toList ["  Your name: first_name".toList]]
    let own : Block := .value "name".toList " has spaces".toList
    let e : ValidationError := .fields .template [⟨"name", .patternMismatch "^[a-z]+$"⟩]
    (∀ b ∈ front ++ own :: [], b.WellFormed) ∧ e.violations ≠ [] ∧
      ∃ f, ofValidation "a.template.yaml" (Block.document (front ++ own :: [])) e =
        .invalid "a.template.yaml" [f] e.violations ∧ f.span = own.span front := by
  intro front own e
  have hblocks : ∀ b ∈ front ++ own :: [], b.WellFormed := by decide +kernel
  have hsome : e.violations ≠ [] := by decide
  obtain ⟨findings, heq, hall⟩ := ofValidation_ownLine hblocks "a.template.yaml" e hsome
  cases hall with
  | @cons v f _ findings hspan hrest =>
    cases hrest
    exact ⟨hblocks, hsome, f, heq, ((hspan rfl).2 (by decide)).mpr (by decide +kernel)⟩

/-- Below an entry of its name, a field is shown at that entry. -/
theorem DocumentError.ofValidation_entryLine :
    let entry : Block.Entry := ⟨"  ".toList, "name".toList, "string".toList⟩
    let own : Block := .value "name".toList " has spaces".toList
    let e : ValidationError := .fields .template [⟨"name", .patternMismatch "^[a-z]+$"⟩]
    (∀ b ∈ [.types [entry], own], b.WellFormed) ∧
      ∃ f, ofValidation "a.template.yaml" (Block.document [.types [entry], own]) e =
          .invalid "a.template.yaml" [f] e.violations ∧
        f.span = Span.ofLine "variables:\n".toList entry.line ∧
        f.span ≠ own.span [.types [entry]] := by
  intro entry own e
  exact ⟨by decide +kernel, _, rfl, by decide +kernel, by decide +kernel⟩

end Phrasebook
