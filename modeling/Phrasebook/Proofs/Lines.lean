import Phrasebook.Proofs.Affixes
import Mathlib.Data.List.Infix

/-!
# Lines of a text

A text is a last piece without a line end, or a piece, its `\n` and a text. Cutting a text into
its lines follows these two forms, and so does every proof about them. A line lies in its text
between what comes before it and what comes after it.

## Main definitions

* `returns`: how many line ends of a text are `\r\n`
* `unlines`: the text of lines
* `IsLine`: a line of a text at its place
-/
namespace Phrasebook.Text

/-! ## Bytes -/

@[simp] theorem utf8Length_nil : utf8Length [] = 0 := rfl

theorem utf8Length_append (cs ds : List Char) :
    utf8Length (cs ++ ds) = utf8Length cs + utf8Length ds := by
  induction cs with
  | nil => simp [utf8Length]
  | cons c cs ih =>
    simp only [utf8Length, List.cons_append, List.foldr_cons] at ih ⊢
    omega

theorem utf8Length_cons (c : Char) (cs : List Char) :
    utf8Length (c :: cs) = c.utf8Size + utf8Length cs := rfl

@[simp] theorem utf8Length_newline_cons (cs : List Char) :
    utf8Length ('\n' :: cs) = 1 + utf8Length cs := rfl

theorem utf8Length_append_return (cs : List Char) :
    utf8Length (cs ++ ['\r']) = utf8Length cs + 1 :=
  utf8Length_append cs ['\r']

theorem utf8Length_pos {cs : List Char} (h : cs ≠ []) : 0 < utf8Length cs := by
  cases cs with
  | nil => exact absurd rfl h
  | cons c cs =>
    have hc := c.utf8Size_pos
    rw [utf8Length_cons]
    omega

/-- A beginning of a text is determined by its number of bytes. -/
theorem eq_of_prefix {as bs cs : List Char} (has : as <+: cs) (hbs : bs <+: cs)
    (h : utf8Length as = utf8Length bs) : as = bs := by
  have hnil : ∀ ds es : List Char, utf8Length (ds ++ es) = utf8Length ds → es = [] := by
    intro ds es hlength
    by_contra hne
    have hpos := utf8Length_pos hne
    rw [utf8Length_append] at hlength
    omega
  rcases List.prefix_or_prefix_of_prefix has hbs with ⟨es, rfl⟩ | ⟨es, rfl⟩
  · rw [hnil as es h.symm, List.append_nil]
  · rw [hnil bs es h, List.append_nil]

/-- A text is its leading white space and the rest. -/
theorem utf8Length_trimStart (cs : List Char) :
    utf8Length (cs.takeWhile isSpace) + utf8Length (trimStartChars cs) = utf8Length cs := by
  rw [← utf8Length_append, trimStartChars, List.takeWhile_append_dropWhile]

/-! ## Pieces between line ends -/

/-- A text is cut at its first line end, or has none. -/
theorem lineInduction {motive : List Char → Prop} (last : ∀ cs, '\n' ∉ cs → motive cs)
    (line : ∀ piece rest, '\n' ∉ piece → motive rest → motive (piece ++ '\n' :: rest))
    (cs : List Char) : motive cs := by
  induction hlength : cs.length using Nat.strong_induction_on generalizing cs with
  | h n ih =>
    by_cases hmem : '\n' ∈ cs
    · obtain ⟨piece, rest, rfl, hpiece⟩ := List.eq_append_cons_of_mem hmem
      refine line piece rest hpiece (ih rest.length ?_ rest rfl)
      simp only [List.length_append, List.length_cons] at hlength
      omega
    · exact last cs hmem

/-- What stands before and after the first occurrence of a character is determined. -/
theorem append_cons_inj_of_notMem {c : Char} {as bs cs ds : List Char} (has : c ∉ as)
    (hcs : c ∉ cs) : as ++ c :: bs = cs ++ c :: ds ↔ as = cs ∧ bs = ds := by
  refine ⟨fun h => ?_, fun ⟨has, hbs⟩ => has ▸ hbs ▸ rfl⟩
  induction as generalizing cs with
  | nil =>
    cases cs with
    | nil => exact ⟨rfl, List.tail_eq_of_cons_eq h⟩
    | cons d cs => exact absurd (List.head_eq_of_cons_eq h ▸ List.mem_cons_self) hcs
  | cons a as ih =>
    cases cs with
    | nil => exact absurd (List.head_eq_of_cons_eq h ▸ List.mem_cons_self) has
    | cons d cs =>
      obtain ⟨rfl, htail⟩ := List.cons.inj h
      obtain ⟨rfl, rfl⟩ :=
        ih (fun hmem => has (.tail _ hmem)) (fun hmem => hcs (.tail _ hmem)) htail
      exact ⟨rfl, rfl⟩

theorem splitOn_of_notMem {sep : Char} {cs : List Char} (h : sep ∉ cs) :
    splitOn sep cs = [cs] := by
  induction cs with
  | nil => rfl
  | cons c cs ih =>
    rw [splitOn, if_neg fun (hc : c = sep) => h (hc ▸ List.mem_cons_self), ih fun hmem => h (.tail _ hmem)]

theorem splitOn_append {sep : Char} {piece : List Char} (rest : List Char) (h : sep ∉ piece) :
    splitOn sep (piece ++ sep :: rest) = piece :: splitOn sep rest := by
  induction piece with
  | nil => rw [List.nil_append, splitOn, if_pos rfl]
  | cons c piece ih =>
    rw [List.cons_append, splitOn, if_neg fun (hc : c = sep) => h (hc ▸ List.mem_cons_self),
      ih fun hmem => h (.tail _ hmem)]

/-- The last piece of a text is what follows its last separator. -/
theorem splitOn_append_last {sep : Char} {last : List Char} (before : List Char)
    (h : sep ∉ last) :
    ∃ first pieces, splitOn sep (before ++ sep :: last) = first :: (pieces ++ [last]) := by
  induction before with
  | nil => exact ⟨[], [], by simp [splitOn, splitOn_of_notMem h]⟩
  | cons c before ih =>
    obtain ⟨first, pieces, hsplit⟩ := ih
    rw [List.cons_append, splitOn, hsplit]
    by_cases hc : c = sep
    · exact ⟨[], first :: pieces, by simp [hc]⟩
    · exact ⟨c :: first, pieces, by simp [hc]⟩

theorem splitOn_ne_nil (sep : Char) (cs : List Char) : splitOn sep cs ≠ [] := by
  cases cs with
  | nil => exact List.cons_ne_nil _ _
  | cons c cs =>
    rw [splitOn]
    split
    · exact List.cons_ne_nil _ _
    · split <;> exact List.cons_ne_nil _ _

theorem linesOf_last {cs : List Char} (h : '\n' ∉ cs) :
    linesOf (splitOn '\n' cs) = if cs.isEmpty then [] else [cs] := by
  rw [splitOn_of_notMem h, linesOf]

theorem linesOf_line {piece : List Char} (rest : List Char) (h : '\n' ∉ piece) :
    linesOf (splitOn '\n' (piece ++ '\n' :: rest)) =
      dropReturn piece :: linesOf (splitOn '\n' rest) := by
  rw [splitOn_append rest h]
  exact linesOf.eq_3 _ _ (splitOn_ne_nil '\n' rest)

/-! ## Carriage returns -/

theorem dropReturn_append (line : List Char) : dropReturn (line ++ ['\r']) = line := by
  rw [dropReturn, beforeEnd?_eq_some_iff.mpr rfl]
  rfl

theorem dropReturn_of_getLast? {line : List Char} (h : line.getLast? ≠ some '\r') :
    dropReturn line = line := by
  rw [dropReturn]
  cases hend : beforeEnd? ['\r'] line with
  | none => rfl
  | some start =>
    exact absurd (List.getLast?_eq_some_iff.mpr ⟨start, beforeEnd?_eq_some_iff.mp hend⟩) h

/-- A piece is its line, with or without a carriage return at the end. -/
theorem dropReturn_cases (piece : List Char) :
    piece = dropReturn piece ++ ['\r'] ∨
      dropReturn piece = piece ∧ piece.getLast? ≠ some '\r' := by
  by_cases hlast : piece.getLast? = some '\r'
  · obtain ⟨line, rfl⟩ := List.getLast?_eq_some_iff.mp hlast
    exact .inl (by rw [dropReturn_append])
  · exact .inr ⟨dropReturn_of_getLast? hlast, hlast⟩

theorem dropReturn_prefix (piece : List Char) : dropReturn piece <+: piece := by
  rcases dropReturn_cases piece with hend | ⟨hline, -⟩
  · exact ⟨_, hend.symm⟩
  · rw [hline]

/-- How many line ends of a text are `\r\n`. -/
def returns : List Char → Nat
  | [] => 0
  | c :: cs => (if c = '\r' ∧ cs.head? = some '\n' then 1 else 0) + returns cs

theorem returns_append {piece : List Char} (rest : List Char) (h : '\n' ∉ piece) :
    returns (piece ++ '\n' :: rest) =
      (if piece.getLast? = some '\r' then 1 else 0) + returns rest := by
  induction piece with
  | nil => simp [returns]
  | cons c piece ih =>
    rw [List.cons_append, returns, ih fun hmem => h (.tail _ hmem)]
    cases piece with
    | nil => simp
    | cons d piece =>
      have hd : d ≠ '\n' := fun heq => h (heq ▸ .tail _ List.mem_cons_self)
      simp [hd]

/-- A line lacks the carriage return of its line end. -/
theorem utf8Length_dropReturn {piece : List Char} (rest : List Char) (h : '\n' ∉ piece) :
    utf8Length (dropReturn piece) + returns (piece ++ '\n' :: rest) =
      utf8Length piece + returns rest := by
  rw [returns_append rest h]
  rcases dropReturn_cases piece with hend | ⟨hline, hlast⟩
  · have hlast : piece.getLast? = some '\r' := by rw [hend, List.getLast?_concat]
    have hlength : utf8Length piece = utf8Length (dropReturn piece) + 1 := by
      rw [← utf8Length_append_return, ← hend]
    rw [if_pos hlast]
    omega
  · rw [if_neg hlast, hline]
    omega

/-! ## Texts made of lines -/

/-- A line without a line end, or a part of one that a line end would complete. -/
structure PlainLine (line : List Char) : Prop where
  whole : '\n' ∉ line
  getLast?_ne : line.getLast? ≠ some '\r'

instance (line : List Char) : Decidable (PlainLine line) :=
  decidable_of_iff ('\n' ∉ line ∧ line.getLast? ≠ some '\r')
    ⟨fun h => ⟨h.1, h.2⟩, fun h => ⟨h.whole, h.getLast?_ne⟩⟩

/-- Lines, each with `\n` at its end. -/
def unlines (lines : List (List Char)) : List Char := lines.flatMap (· ++ ['\n'])

@[simp] theorem unlines_cons (line : List Char) (lines : List (List Char)) :
    unlines (line :: lines) = line ++ '\n' :: unlines lines := by
  rw [unlines, List.flatMap_cons, List.append_assoc]
  rfl

theorem linesOf_unlines {lines : List (List Char)} (h : ∀ line ∈ lines, PlainLine line) :
    linesOf (splitOn '\n' (unlines lines)) = lines := by
  induction lines with
  | nil => rfl
  | cons line lines ih =>
    obtain ⟨hline, hlines⟩ := List.forall_mem_cons.mp h
    rw [unlines_cons, linesOf_line _ hline.whole, dropReturn_of_getLast? hline.getLast?_ne,
      ih hlines]

/-! ## Places of lines -/

/-- A line of a text with what comes before and after it. Its line end, which comes after it, is
`\n` or `\r\n`; text without a line end is the last line. -/
structure IsLine (content before line after : List Char) : Prop where
  eq : content = before ++ line ++ after
  starts : before = [] ∨ before.getLast? = some '\n'
  whole : '\n' ∉ line
  ends : after = [] ∧ line ≠ [] ∨ after.head? = some '\n' ∧ line.getLast? ≠ some '\r' ∨
    ['\r', '\n'] <+: after

section IsLine

variable {content piece before line after : List Char}

/-- The only line of a text without a line end. -/
theorem isLine_last_iff (h : '\n' ∉ content) : IsLine content before line after ↔
    before = [] ∧ line = content ∧ after = [] ∧ content ≠ [] := by
  constructor
  · rintro ⟨rfl, hstarts, -, hends⟩
    simp only [List.mem_append, not_or] at h
    obtain ⟨⟨hbefore, -⟩, hafter⟩ := h
    obtain rfl : before = [] := by
      rcases hstarts with hnil | hlast
      · exact hnil
      · exact absurd (List.mem_of_getLast? hlast) hbefore
    rcases hends with ⟨rfl, hline⟩ | ⟨hhead, -⟩ | ⟨rest, rfl⟩
    · simpa using hline
    · exact absurd (List.mem_of_head? hhead) hafter
    · exact absurd (.tail _ List.mem_cons_self) hafter
  · rintro ⟨rfl, rfl, rfl, hne⟩
    exact ⟨by simp, .inl rfl, h, .inl ⟨rfl, hne⟩⟩

/-- The first line of a text with a line end. -/
theorem isLine_first_iff (rest : List Char) (h : '\n' ∉ piece) :
    IsLine (piece ++ '\n' :: rest) [] line after ↔
      line = dropReturn piece ∧ piece ++ '\n' :: rest = line ++ after := by
  constructor
  · rintro ⟨heq, -, hwhole, hends⟩
    refine ⟨?_, heq⟩
    rw [List.nil_append] at heq
    rcases hends with ⟨rfl, -⟩ | ⟨hhead, hlast⟩ | ⟨back, rfl⟩
    · rw [List.append_nil] at heq
      exact absurd (heq ▸ by simp) hwhole
    · obtain ⟨back, rfl⟩ := List.head?_eq_some_iff.mp hhead
      obtain ⟨rfl, -⟩ := (append_cons_inj_of_notMem h hwhole).mp heq
      exact (dropReturn_of_getLast? hlast).symm
    · have hwhole' : '\n' ∉ line ++ ['\r'] := by simpa using hwhole
      have heq' : piece ++ '\n' :: rest = line ++ ['\r'] ++ '\n' :: back := by simpa using heq
      obtain ⟨rfl, -⟩ := (append_cons_inj_of_notMem h hwhole').mp heq'
      exact (dropReturn_append line).symm
  · rintro ⟨rfl, heq⟩
    rcases dropReturn_cases piece with hend | ⟨hline, hlast⟩
    · refine ⟨heq, .inl rfl, fun hmem => h ?_, .inr (.inr ?_)⟩
      · rw [hend]
        exact List.mem_append_left _ hmem
      · rw [hend, dropReturn_append, List.append_assoc] at heq
        exact ⟨rest, List.append_cancel_left heq⟩
    · rw [hline] at heq ⊢
      refine ⟨heq, .inl rfl, h, .inr (.inl ⟨?_, hlast⟩)⟩
      rw [← List.append_cancel_left heq]
      rfl

/-- A later line of a text with a line end is a line of the text after it. -/
theorem isLine_later_iff (rest : List Char) (h : '\n' ∉ piece) (hbefore : before ≠ []) :
    IsLine (piece ++ '\n' :: rest) before line after ↔
      ∃ start, before = piece ++ '\n' :: start ∧ IsLine rest start line after := by
  constructor
  · rintro ⟨heq, hstarts, hwhole, hends⟩
    obtain ⟨front, rfl⟩ := List.getLast?_eq_some_iff.mp (hstarts.resolve_left hbefore)
    -- What comes before the line ends in the first `\n` of the text or in a later one.
    by_cases hmem : '\n' ∈ front
    · obtain ⟨first, start, rfl, hfirst⟩ := List.eq_append_cons_of_mem hmem
      simp only [List.append_assoc, List.cons_append] at heq
      obtain ⟨rfl, rfl⟩ := (append_cons_inj_of_notMem h hfirst).mp heq
      exact ⟨start ++ ['\n'], by simp, by simp, .inr (by simp), hwhole, hends⟩
    · simp only [List.append_assoc, List.cons_append, List.nil_append] at heq
      obtain ⟨rfl, rfl⟩ := (append_cons_inj_of_notMem h hmem).mp heq
      exact ⟨[], rfl, by simp, .inl rfl, hwhole, hends⟩
  · rintro ⟨start, rfl, rfl, hstarts, hwhole, hends⟩
    refine ⟨by simp, .inr ?_, hwhole, hends⟩
    rcases hstarts with rfl | hlast
    · simp
    · simp [List.getLast?_cons, hlast]

end IsLine

end Phrasebook.Text
