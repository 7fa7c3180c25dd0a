import Mathlib.Data.List.DropRight
import Phrasebook.Proofs.Lines
import Phrasebook.Text.Truncate

/-!
# Shortened texts

A text is shown by its first line, as it is or cut and followed by `...`. What is shown has no
line end and no more characters than the limit, three dots being always allowed. A text that is a
short single line but for the white space at its end should be shown as that line. It is shown so
if the white space begins with a line end. Other white space at the end of the line is taken for
text that is left out.

## Main definitions

* `Text.Fits`: a text that should be shown whole
* `Text.Shows`: how a text should be shown
-/
namespace Phrasebook.Text

/-- Without the white space at its end, a text is a single line of at most so many characters. -/
structure Fits (limit : Nat) (s : String) : Prop where
  single : '\n' ∉ (trimEnd s).toList
  length_le : charCount (trimEnd s) ≤ limit

/-- A text that fits is shown without the white space at its end, and any other text by the
beginning of its first line and `...`. -/
structure Shows (limit : Nat) (s shown : String) : Prop where
  length_le : charCount shown ≤ max limit 3
  single : '\n' ∉ shown.toList
  whole : Fits limit s → shown = trimEnd s
  cut : ¬ Fits limit s → ∃ kept, kept <+: (firstLine s).toList ∧
    shown.toList = kept ++ ['.', '.', '.']

variable {limit : Nat} {s : String}

/-! ## Beginnings of texts -/

theorem utf8ByteSize_ofList (cs : List Char) :
    (String.ofList cs).utf8ByteSize = utf8Length cs := by
  induction cs with
  | nil => rfl
  | cons c cs ih =>
    have hcons : String.ofList (c :: cs) = String.singleton c ++ String.ofList cs := by
      rw [String.singleton_eq_ofList, ← String.ofList_append]
      rfl
    rw [hcons, String.utf8ByteSize_append, String.utf8ByteSize_singleton, ih, utf8Length_cons]

/-- A beginning without a character ends before that character. -/
theorem prefix_of_notMem {c : Char} {start piece rest : List Char} (h : c ∉ start)
    (hbegins : start <+: piece ++ c :: rest) : start <+: piece := by
  rcases List.prefix_or_prefix_of_prefix hbegins (List.prefix_append piece _) with hle | ⟨more, rfl⟩
  · exact hle
  · rw [List.prefix_append_right_inj] at hbegins
    cases more with
    | nil => rw [List.append_nil]
    | cons d more =>
      obtain ⟨rfl, -⟩ := List.cons_prefix_cons.mp hbegins
      exact absurd (List.mem_append_right _ List.mem_cons_self) h

/-! ## White space at the end -/

theorem toList_trimEnd (s : String) : (trimEnd s).toList = s.toList.rdropWhile isSpace := by
  rw [trimEnd, String.toList_ofList]
  rfl

theorem trimEnd_isPrefix (s : String) : (trimEnd s).toList <+: s.toList := by
  rw [toList_trimEnd]
  exact List.rdropWhile_prefix isSpace s.toList

/-- The last character that is left is no white space. -/
theorem isSpace_of_getLast?_trimEnd {c : Char} (h : (trimEnd s).toList.getLast? = some c) :
    isSpace c = false := by
  obtain ⟨before, hbefore⟩ := List.getLast?_eq_some_iff.mp h
  rw [toList_trimEnd] at hbefore
  have hkept := List.rdropWhile_idempotent isSpace s.toList
  rw [hbefore, List.rdropWhile_concat] at hkept
  split at hkept
  · have hlength := (List.rdropWhile_prefix isSpace before).length_le
    rw [hkept, List.length_append, List.length_singleton] at hlength
    omega
  · next hspace => simpa using hspace

/-- A beginning that lacks no more than white space has the same white space to lose. -/
theorem rdropWhile_of_isPrefix {α : Type} {p : α → Bool} {start all : List α} (hall : start <+: all)
    (h : all.rdropWhile p <+: start) : start.rdropWhile p = all.rdropWhile p := by
  obtain ⟨rest, rfl⟩ := hall
  induction rest using List.reverseRecOn with
  | nil => rw [List.append_nil]
  | append_singleton rest c ih =>
    rw [← List.append_assoc, List.rdropWhile_concat] at h ⊢
    split
    · next hc =>
      rw [if_pos hc] at h
      exact ih h
    · next hc =>
      rw [if_neg hc] at h
      have hlength := h.length_le
      simp only [List.length_append, List.length_singleton] at hlength
      omega

/-! ## First lines -/

/-- The first line of a text is all of it or ends before a line end. -/
theorem firstLine_cases (s : String) :
    '\n' ∉ s.toList ∧ firstLine s = s ∨ ∃ piece rest, '\n' ∉ piece ∧
      s.toList = piece ++ '\n' :: rest ∧ (firstLine s).toList = dropReturn piece := by
  have hfirst : firstLine s = String.ofList ((linesOf (splitOn '\n' s.toList)).headD []) := by
    rw [firstLine, lines]
    cases linesOf (splitOn '\n' s.toList) <;> rfl
  by_cases hmem : '\n' ∈ s.toList
  · obtain ⟨piece, rest, hs, hpiece⟩ := List.eq_append_cons_of_mem hmem
    refine .inr ⟨piece, rest, hpiece, hs, ?_⟩
    rw [hfirst, hs, linesOf_line rest hpiece, List.headD_cons, String.toList_ofList]
  · refine .inl ⟨hmem, ?_⟩
    have hwhole : (linesOf (splitOn '\n' s.toList)).headD [] = s.toList := by
      rw [linesOf_last hmem]
      cases s.toList <;> rfl
    rw [hfirst, hwhole, String.ofList_toList]

theorem firstLine_isPrefix (s : String) : (firstLine s).toList <+: s.toList := by
  rcases firstLine_cases s with ⟨-, hall⟩ | ⟨piece, rest, -, hs, hline⟩
  · rw [hall]
  · rw [hs, hline]
    have hbefore := dropReturn_prefix piece
    exact hbefore.trans (List.prefix_append piece _)

theorem newline_notMem_firstLine (s : String) : '\n' ∉ (firstLine s).toList := by
  rcases firstLine_cases s with ⟨hnone, hall⟩ | ⟨piece, rest, hpiece, -, hline⟩
  · rwa [hall]
  · have hbefore := dropReturn_prefix piece
    rw [hline]
    exact fun hmem => hpiece (hbefore.subset hmem)

namespace Fits

/-- What is left of a text that fits begins its first line. -/
theorem isPrefix_firstLine (h : Fits limit s) : (trimEnd s).toList <+: (firstLine s).toList := by
  have hbegins := trimEnd_isPrefix s
  rcases firstLine_cases s with ⟨-, hall⟩ | ⟨piece, rest, -, hs, hline⟩
  · rwa [hall]
  · rw [hs] at hbegins
    have hpiece := prefix_of_notMem h.single hbegins
    rw [hline]
    rcases dropReturn_cases piece with hend | ⟨hsame, -⟩
    · rw [hend, List.prefix_concat_iff] at hpiece
      refine hpiece.resolve_left fun heq => ?_
      have hreturn : isSpace '\r' = false :=
        isSpace_of_getLast?_trimEnd (List.getLast?_eq_some_iff.mpr ⟨_, heq⟩)
      exact absurd hreturn (by decide)
    · rwa [hsame]

/-- Behind what is left of a text that fits, its first line has white space only. -/
theorem trimEnd_firstLine (h : Fits limit s) : trimEnd (firstLine s) = trimEnd s := by
  have hbegins := h.isPrefix_firstLine
  rw [toList_trimEnd] at hbegins
  refine String.toList_injective ?_
  rw [toList_trimEnd, toList_trimEnd, rdropWhile_of_isPrefix (firstLine_isPrefix s) hbegins]

end Fits

/-! ## Shortening -/

/-- The first line is shown as it is if it is short and nothing follows what is left of the text
in it. -/
theorem truncate_eq (limit : Nat) (s : String) : truncate limit s =
    if charCount (firstLine s) ≤ limit ∧ firstLine s = trimEnd s then firstLine s
    else String.ofList ((firstLine s).toList.take (limit - 3) ++ ['.', '.', '.']) := by
  have hsame : (firstLine s).utf8ByteSize = (trimEnd s).utf8ByteSize ↔ firstLine s = trimEnd s := by
    refine ⟨fun h => ?_, congrArg _⟩
    rw [← String.ofList_toList (s := firstLine s), ← String.ofList_toList (s := trimEnd s),
      utf8ByteSize_ofList, utf8ByteSize_ofList] at h
    refine String.toList_injective ?_
    exact eq_of_prefix (firstLine_isPrefix s) (trimEnd_isPrefix s) h
  simp only [truncate, Bool.and_eq_true, decide_eq_true_eq, beq_iff_eq, hsame]

theorem charCount_truncate_le (limit : Nat) (s : String) :
    charCount (truncate limit s) ≤ max limit 3 := by
  rw [truncate_eq]
  split
  · next hwhole => exact Nat.le_trans hwhole.1 (Nat.le_max_left ..)
  · simp only [charCount, String.toList_ofList, List.length_append, List.length_take,
      List.length_cons, List.length_nil]
    omega

theorem newline_notMem_truncate (limit : Nat) (s : String) : '\n' ∉ (truncate limit s).toList := by
  have hline := newline_notMem_firstLine s
  rw [truncate_eq]
  split
  · exact hline
  · rw [String.toList_ofList, List.mem_append, not_or]
    exact ⟨fun hmem => hline (List.mem_of_mem_take hmem), by decide⟩

/-- A text that does not fit is cut. -/
theorem exists_kept_of_not_fits (h : ¬ Fits limit s) : ∃ kept, kept <+: (firstLine s).toList ∧
    (truncate limit s).toList = kept ++ ['.', '.', '.'] := by
  have hcut : ¬ (charCount (firstLine s) ≤ limit ∧ firstLine s = trimEnd s) := by
    rintro ⟨hlength, hsame⟩
    exact h ⟨hsame ▸ newline_notMem_firstLine s, hsame ▸ hlength⟩
  rw [truncate_eq, if_neg hcut, String.toList_ofList]
  exact ⟨_, List.take_prefix _ _, rfl⟩

/-- A line cut before `...` is a beginning of it only if the beginning has the dots itself. -/
theorem take_append_dots_eq_iff {start line : List Char} (hstart : start <+: line)
    (hne : start ≠ line) (hlength : start.length ≤ limit) :
    line.take (limit - 3) ++ ['.', '.', '.'] = start ↔
      start.length = limit ∧ ['.', '.', '.'] <:+ start := by
  constructor
  · intro heq
    have hshorter : start.length < line.length :=
      Nat.lt_of_le_of_ne hstart.length_le fun hsame => hne (hstart.eq_of_length hsame)
    have hcount : min (limit - 3) line.length + 3 = start.length := by simp [← heq]
    exact ⟨by omega, _, heq⟩
  · rintro ⟨hfull, kept, rfl⟩
    obtain ⟨rest, rfl⟩ := hstart
    have hkept : limit - 3 = kept.length := by
      rw [← hfull, List.length_append]
      rfl
    rw [hkept, List.append_assoc, List.take_left]

/-- A text that fits is shown as the line that it is if this line has no white space at its end,
or else if it is as long as can be and ends in three dots itself. -/
theorem Fits.truncate_eq_iff (h : Fits limit s) : truncate limit s = trimEnd s ↔
    trimEnd (firstLine s) = firstLine s ∨
      charCount (trimEnd s) = limit ∧ ['.', '.', '.'] <:+ (trimEnd s).toList := by
  rw [h.trimEnd_firstLine, truncate_eq]
  by_cases hsame : trimEnd s = firstLine s
  · rw [if_pos ⟨hsame ▸ h.length_le, hsame.symm⟩]
    simp [hsame]
  · have hdots := take_append_dots_eq_iff h.isPrefix_firstLine
      (fun heq => hsame (String.toList_injective heq)) h.length_le
    rw [if_neg fun hwhole => hsame hwhole.2.symm, or_iff_right hsame, charCount, ← hdots,
      ← String.toList_inj, String.toList_ofList]

/-- What is shown has no line end and no more characters than are allowed, or three. A text is
shown as it should be unless it fits, its first line has white space at its end, and it is not as
long as can be with three dots of its own at the end. -/
theorem shows_truncate_iff (limit : Nat) (s : String) :
    charCount (truncate limit s) ≤ max limit 3 ∧ '\n' ∉ (truncate limit s).toList ∧
    (Shows limit s (truncate limit s) ↔ (Fits limit s → trimEnd (firstLine s) = firstLine s ∨
      charCount (trimEnd s) = limit ∧ ['.', '.', '.'] <:+ (trimEnd s).toList)) := by
  refine ⟨charCount_truncate_le limit s, newline_notMem_truncate limit s, ?_⟩
  constructor
  · intro hshows hfits
    exact hfits.truncate_eq_iff.mp (hshows.whole hfits)
  · intro h
    exact ⟨charCount_truncate_le limit s, newline_notMem_truncate limit s,
      fun hfits => hfits.truncate_eq_iff.mpr (h hfits), exists_kept_of_not_fits⟩

/-- One blank behind a short line is taken for text that is left out. -/
theorem not_shows_truncate :
    Fits 10 "hello " ∧ truncate 10 "hello " = "hello ..." ∧
      ¬ ∀ limit s, Shows limit s (truncate limit s) := by
  have hfits : Fits 10 "hello " := ⟨by decide, by decide⟩
  have hshown : truncate 10 "hello " = "hello ..." := by decide
  refine ⟨hfits, hshown, fun hall => ?_⟩
  have hwhole := (hall 10 "hello ").whole hfits
  rw [hshown] at hwhole
  exact absurd hwhole (by decide)

end Phrasebook.Text
