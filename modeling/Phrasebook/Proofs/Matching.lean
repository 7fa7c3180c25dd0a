import Mathlib.Logic.Basic
import Phrasebook.Pattern.Match

/-!
# What patterns match

A pattern denotes stretches of text, each judged together with the characters around
it. A search succeeds exactly on the texts that have such a stretch somewhere, provided
that no repetition asks for more turns than it allows.

## Main definitions

* `Pattern.Denotes`: a pattern denotes a stretch of text
* `Pattern.Consistent`: every repetition can take place as often as it must
* `Pattern.Finds`: a text has a stretch that the pattern denotes
-/
namespace Phrasebook.Pattern

/-! ## Stretches of text -/

/-- A property of a stretch of text and of the characters before and after it. -/
abbrev Stretch := Option Char → List Char → Option Char → Prop

/-- A stretch of the first kind followed by one of the second. -/
def Then (P Q : Stretch) : Stretch := fun before cs after =>
  ∃ first second, cs = first ++ second ∧ P before first (second.head?.or after) ∧
    Q (first.getLast?.or before) second after

/-- So many stretches, one after another. -/
def Repeated (P : Stretch) : Nat → Stretch
  | 0 => fun _ cs _ => cs = []
  | n + 1 => Then P (Repeated P n)

/-- The rest of a stretch whose first character, read after `before`, is `c`. -/
def Remainder (P : Stretch) (before : Option Char) (c : Char) : Stretch :=
  fun _ cs after => P before (c :: cs) after

section Stretch

variable {P Q : Stretch} {before after : Option Char} {c : Char} {cs : List Char} {n : Nat}

theorem getLast?_cons_or (first : List Char) :
    (c :: first).getLast?.or before = first.getLast?.or (some c) := by
  rw [List.getLast?_cons]
  cases first.getLast? <;> rfl

theorem then_nil : Then P Q before [] after ↔ P before [] after ∧ Q before [] after := by
  constructor
  · rintro ⟨first, second, hcs, hP, hQ⟩
    obtain ⟨rfl, rfl⟩ := List.append_eq_nil_iff.mp hcs.symm
    exact ⟨hP, hQ⟩
  · rintro ⟨hP, hQ⟩
    exact ⟨[], [], rfl, hP, hQ⟩

/-- The first character belongs to the second stretch if the first one is empty. -/
theorem then_cons : Then P Q before (c :: cs) after ↔
    (P before [] (some c) ∧ Q before (c :: cs) after) ∨
      Then (Remainder P before c) Q (some c) cs after := by
  constructor
  · rintro ⟨first, second, hcs, hP, hQ⟩
    cases first with
    | nil =>
      subst hcs
      exact .inl ⟨hP, hQ⟩
    | cons d first =>
      obtain ⟨rfl, rfl⟩ := List.cons.inj hcs
      exact .inr ⟨first, second, rfl, hP, getLast?_cons_or first ▸ hQ⟩
  · rintro (⟨hP, hQ⟩ | ⟨first, second, rfl, hP, hQ⟩)
    · exact ⟨[], c :: cs, rfl, hP, hQ⟩
    · exact ⟨c :: first, second, rfl, hP, (getLast?_cons_or first).symm ▸ hQ⟩

theorem repeated_nil : Repeated P n before [] after ↔ n = 0 ∨ P before [] after := by
  induction n with
  | zero => simp [Repeated]
  | succ n ih =>
    rw [Repeated, then_nil, ih]
    simp only [Nat.succ_ne_zero, false_or, and_iff_left_iff_imp]
    exact .inr

/-- Turns in front of the one that takes the first character are empty; `k` turns come
after it. -/
theorem repeated_cons : Repeated P n before (c :: cs) after ↔
    ∃ k < n, (k + 1 < n → P before [] (some c)) ∧
      Then (Remainder P before c) (Repeated P k) (some c) cs after := by
  induction n with
  | zero => simp [Repeated]
  | succ n ih =>
    rw [Repeated, then_cons, ih]
    constructor
    · rintro (⟨hempty, k, hk, -, hrest⟩ | hrest)
      · exact ⟨k, Nat.lt_succ_of_lt hk, fun _ => hempty, hrest⟩
      · exact ⟨n, Nat.lt_succ_self n, fun h => absurd h (Nat.lt_irrefl _), hrest⟩
    · rintro ⟨k, hk, hempty, hrest⟩
      rcases Nat.lt_succ_iff_lt_or_eq.mp hk with hlt | rfl
      · have hP := hempty (Nat.succ_lt_succ hlt)
        exact .inl ⟨hP, k, hlt, fun _ => hP, hrest⟩
      · exact .inr hrest

end Stretch

/-! ## Denotation -/

/-- A pattern denotes a stretch of text between two characters. -/
def Denotes : Pattern → Stretch
  | empty => fun _ cs _ => cs = []
  | chars set => fun _ cs _ => ∃ c, cs = [c] ∧ set.contains c = true
  | assertion a => fun before cs after => cs = [] ∧ a.holds before after = true
  | seq p q => Then p.Denotes q.Denotes
  | alt p q => fun before cs after => p.Denotes before cs after ∨ q.Denotes before cs after
  | times p least most => fun before cs after =>
    ∃ n, least ≤ n ∧ (∀ limit, most = some limit → n ≤ limit) ∧
      Repeated p.Denotes n before cs after

/-- No repetition asks for more turns than it allows. -/
def Consistent : Pattern → Prop
  | empty | chars _ | assertion _ => True
  | seq p q | alt p q => p.Consistent ∧ q.Consistent
  | times p least most => p.Consistent ∧ ∀ limit, most = some limit → least ≤ limit

/-- The text read after `before` begins with a stretch that the pattern denotes. -/
def Begins (p : Pattern) (before : Option Char) (cs : List Char) : Prop :=
  ∃ found rest, cs = found ++ rest ∧ p.Denotes before found rest.head?

/-- A text has a stretch that the pattern denotes. -/
def Finds (p : Pattern) (s : String) : Prop :=
  ∃ skipped rest, s.toList = skipped ++ rest ∧ p.Begins skipped.getLast? rest

variable {p q : Pattern} {before after : Option Char} {c : Char} {cs : List Char}

/-- A nullable pattern denotes the empty stretch. -/
theorem nullable_iff (h : p.Consistent) :
    p.nullable before after = true ↔ p.Denotes before [] after := by
  induction p generalizing before after with
  | empty => simp [nullable, Denotes]
  | chars set => simp [nullable, Denotes]
  | assertion a => simp [nullable, Denotes]
  | seq p q ihp ihq => simp [nullable, Denotes, then_nil, ihp h.1, ihq h.2]
  | alt p q ihp ihq => simp [nullable, Denotes, ihp h.1, ihq h.2]
  | times p least most ih =>
    obtain ⟨hp, hmost⟩ := h
    simp only [nullable, Denotes, repeated_nil, Bool.or_eq_true, beq_iff_eq, ih hp]
    constructor
    · rintro ((rfl | rfl) | hempty)
      · exact ⟨0, Nat.le_refl 0, fun limit _ => Nat.zero_le limit, .inl rfl⟩
      · exact ⟨0, hmost 0 rfl, fun limit _ => Nat.zero_le limit, .inl rfl⟩
      · exact ⟨least, Nat.le_refl least, hmost, .inr hempty⟩
    · rintro ⟨n, hleast, -, rfl | hempty⟩
      · exact .inl (.inl (Nat.le_zero.mp hleast))
      · exact .inr hempty

theorem denotes_andThen : (andThen p q).Denotes before cs after ↔
    Then p.Denotes q.Denotes before cs after := by
  cases p with
  | empty =>
    simp only [andThen, Denotes]
    constructor
    · exact fun hq => ⟨[], cs, rfl, rfl, hq⟩
    · rintro ⟨first, second, rfl, rfl, hq⟩
      exact hq
  | _ => rfl

/-! ## Residuals -/

/-- What is left of a repetition when a turn has read its first character. -/
def again (before : Option Char) (c : Char) (p : Pattern) (least : Nat) (most : Option Nat) :
    Pattern :=
  if most.map (· - 1) = some 0 then empty
  else times p (if p.nullable before (some c) then 0 else least - 1) (most.map (· - 1))

theorem residuals_times {least : Nat} {most : Option Nat} :
    residuals before c (times p least most) =
      if most = some 0 then []
      else (residuals before c p).map (andThen · (again before c p least most)) := by
  simp only [residuals, again, beq_iff_eq]

/-- The turns that are left: at least as many as are due, and one less than are allowed. -/
theorem denotes_again {least : Nat} {most : Option Nat} {prior : Option Char}
    (h : (times p least most).Consistent) (hmost : most ≠ some 0) :
    (again before c p least most).Denotes prior cs after ↔
      ∃ k, (p.nullable before (some c) = false → least ≤ k + 1) ∧
        (∀ limit, most = some limit → k + 1 ≤ limit) ∧ Repeated p.Denotes k prior cs after := by
  obtain ⟨-, hleast⟩ := h
  unfold again
  split
  · next hone =>
    obtain ⟨limit, rfl, hlimit⟩ := Option.map_eq_some_iff.mp hone
    have hne : limit ≠ 0 := fun h0 => hmost (congrArg some h0)
    have hle := hleast limit rfl
    have hbound : ∀ k, (∀ m, some limit = some m → k + 1 ≤ m) ↔ k = 0 := by
      intro k
      simp only [Option.some.injEq, forall_eq']
      omega
    simp only [hbound, Denotes]
    constructor
    · rintro rfl
      exact ⟨0, fun _ => by omega, rfl, rfl⟩
    · rintro ⟨k, -, rfl, hk⟩
      exact hk
  · next hone =>
    simp only [Denotes, Option.map_eq_some_iff]
    refine exists_congr fun k => and_congr ?_ (and_congr_left fun _ => ?_)
    · cases p.nullable before (some c) <;> simp
    · constructor
      · intro hk limit hlimit
        have hle := hk (limit - 1) ⟨limit, hlimit, rfl⟩
        have hne : limit ≠ 0 := fun h0 => hmost (hlimit.trans (congrArg some h0))
        omega
      · rintro hk _ ⟨limit, hlimit, rfl⟩
        exact Nat.le_sub_of_add_le (hk limit hlimit)

/-- The patterns that `q` is put after denote what they did, followed by `q`. -/
theorem exists_andThen {ps : List Pattern} {P : Stretch}
    (h : ∀ cs after, (∃ r ∈ ps, r.Denotes before cs after) ↔ P before cs after) :
    (∃ r ∈ ps.map (andThen · q), r.Denotes before cs after) ↔ Then P q.Denotes before cs after := by
  constructor
  · rintro ⟨_, hmem, hdenotes⟩
    obtain ⟨r, hr, rfl⟩ := List.mem_map.mp hmem
    obtain ⟨first, second, hcs, hfirst, hsecond⟩ := denotes_andThen.mp hdenotes
    exact ⟨first, second, hcs, (h first _).mp ⟨r, hr, hfirst⟩, hsecond⟩
  · rintro ⟨first, second, hcs, hfirst, hsecond⟩
    obtain ⟨r, hr, hdenotes⟩ := (h first _).mpr hfirst
    exact ⟨_, List.mem_map_of_mem hr,
      denotes_andThen.mpr ⟨first, second, hcs, hdenotes, hsecond⟩⟩

/-- A repetition that begins with a character is one turn that begins with it, and then the
turns that are left. -/
theorem denotes_times_cons {least : Nat} {most : Option Nat} (h : (times p least most).Consistent)
    (hmost : most ≠ some 0) :
    (times p least most).Denotes before (c :: cs) after ↔
      Then (Remainder p.Denotes before c) (again before c p least most).Denotes (some c) cs
        after := by
  simp only [Denotes, repeated_cons, ← nullable_iff h.1]
  constructor
  · rintro ⟨n, hleast, hlimit, k, hk, hempty, first, second, rfl, hfirst, hsecond⟩
    refine ⟨first, second, rfl, hfirst, (denotes_again h hmost).mpr ⟨k, ?_, ?_, hsecond⟩⟩
    · intro hnot
      rcases Nat.lt_or_ge (k + 1) n with hlt | hge
      · simp [hempty hlt] at hnot
      · exact Nat.le_trans hleast hge
    · exact fun limit heq => Nat.le_trans hk (hlimit limit heq)
  · rintro ⟨first, second, rfl, hfirst, hsecond⟩
    obtain ⟨k, hleast, hlimit, hk⟩ := (denotes_again h hmost).mp hsecond
    -- Empty turns in front make up for those that are due.
    refine ⟨max least (k + 1), Nat.le_max_left .., ?_, k, by omega, fun hlt => ?_,
      first, second, rfl, hfirst, hk⟩
    · exact fun limit heq => Nat.max_le.mpr ⟨h.2 limit heq, hlimit limit heq⟩
    · cases hnullable : p.nullable before (some c) with
      | true => rfl
      | false =>
        have := hleast hnullable
        omega

/-- No repetition of at most no turns begins with a character. -/
theorem not_denotes_times_cons {least : Nat} :
    ¬ (times p least (some 0)).Denotes before (c :: cs) after := by
  rintro ⟨n, -, hlimit, hrepeated⟩
  obtain rfl := Nat.le_zero.mp (hlimit 0 rfl)
  cases hrepeated

/-- The patterns that may follow a character denote what it leaves of a stretch. -/
theorem residuals_iff (h : p.Consistent) :
    (∃ r ∈ residuals before c p, r.Denotes (some c) cs after) ↔
      Remainder p.Denotes before c (some c) cs after := by
  unfold Remainder
  induction p generalizing cs after with
  | empty => simp [residuals, Denotes]
  | assertion a => simp [residuals, Denotes]
  | chars set =>
    by_cases hc : set.contains c = true <;> simp [residuals, Denotes, hc, and_assoc]
  | alt p q ihp ihq =>
    simp only [residuals, Denotes, List.mem_append, or_and_right, exists_or, ihp h.1, ihq h.2]
  | seq p q ihp ihq =>
    have hfirst : (∃ r ∈ (residuals before c p).map (andThen · q), r.Denotes (some c) cs after) ↔
        Then (Remainder p.Denotes before c) q.Denotes (some c) cs after :=
      exists_andThen fun cs after => ihp h.1
    simp only [residuals, List.mem_append, or_and_right, exists_or, hfirst, Denotes, then_cons,
      ← nullable_iff h.1]
    rw [or_comm]
    cases p.nullable before (some c) <;> simp [ihq h.2]
  | times p least most ih =>
    rw [residuals_times]
    by_cases hmost : most = some 0
    · subst hmost
      simp [not_denotes_times_cons]
    · rw [if_neg hmost, exists_andThen (P := Remainder p.Denotes before c) fun cs after => ih h.1,
        denotes_times_cons h hmost]

theorem Consistent.andThen (hp : p.Consistent) (hq : q.Consistent) : (andThen p q).Consistent := by
  cases p with
  | empty => exact hq
  | _ => exact ⟨hp, hq⟩

theorem Consistent.again {least : Nat} {most : Option Nat} (h : (times p least most).Consistent) :
    (again before c p least most).Consistent := by
  unfold Pattern.again
  split
  · trivial
  · refine ⟨h.1, fun limit hlimit => ?_⟩
    obtain ⟨m, hm, rfl⟩ := Option.map_eq_some_iff.mp hlimit
    have := h.2 m hm
    split <;> omega

/-- Nothing inconsistent follows a consistent pattern. -/
theorem Consistent.residuals (h : p.Consistent) : ∀ r ∈ residuals before c p, r.Consistent := by
  induction p with
  | empty | assertion a => simp [Pattern.residuals]
  | chars set =>
    intro r hr
    simp only [Pattern.residuals] at hr
    split at hr
    · rw [List.mem_singleton.mp hr]
      trivial
    · cases hr
  | alt p q ihp ihq =>
    intro r hr
    rcases List.mem_append.mp hr with hr | hr
    · exact ihp h.1 r hr
    · exact ihq h.2 r hr
  | seq p q ihp ihq =>
    intro r hr
    rcases List.mem_append.mp hr with hr | hr
    · obtain ⟨r', hr', rfl⟩ := List.mem_map.mp hr
      exact (ihp h.1 r' hr').andThen h.2
    · split at hr
      · exact ihq h.2 r hr
      · cases hr
  | times p least most ih =>
    intro r hr
    rw [residuals_times] at hr
    split at hr
    · cases hr
    · obtain ⟨r', hr', rfl⟩ := List.mem_map.mp hr
      exact (ih h.1 r' hr').andThen h.again

/-! ## Searching -/

theorem begins_nil (h : p.Consistent) : p.Begins before [] ↔ p.nullable before none = true := by
  rw [nullable_iff h]
  constructor
  · rintro ⟨found, rest, hcs, hdenotes⟩
    obtain ⟨rfl, rfl⟩ := List.append_eq_nil_iff.mp hcs.symm
    exact hdenotes
  · exact fun hdenotes => ⟨[], [], rfl, hdenotes⟩

theorem begins_cons (h : p.Consistent) : p.Begins before (c :: cs) ↔
    p.nullable before (some c) = true ∨ ∃ r ∈ residuals before c p, r.Begins (some c) cs := by
  rw [nullable_iff h]
  constructor
  · rintro ⟨found, rest, hcs, hdenotes⟩
    cases found with
    | nil =>
      subst hcs
      exact .inl hdenotes
    | cons d found =>
      obtain ⟨rfl, rfl⟩ := List.cons.inj hcs
      obtain ⟨r, hr, hrest⟩ := (residuals_iff h).mpr hdenotes
      exact .inr ⟨r, hr, found, rest, rfl, hrest⟩
  · rintro (hdenotes | ⟨r, hr, found, rest, rfl, hrest⟩)
    · exact ⟨[], c :: cs, rfl, hdenotes⟩
    · exact ⟨c :: found, rest, rfl, (residuals_iff h).mp ⟨r, hr, hrest⟩⟩

/-- At the end of the text there is only one place to begin. -/
theorem exists_skipped_nil {P : Option Char → List Char → Prop} :
    (∃ skipped rest, [] = skipped ++ rest ∧ P (skipped.getLast?.or before) rest) ↔
      P before [] := by
  constructor
  · rintro ⟨skipped, rest, hcs, hP⟩
    obtain ⟨rfl, rfl⟩ := List.append_eq_nil_iff.mp hcs.symm
    exact hP
  · exact fun hP => ⟨[], [], rfl, hP⟩

/-- The text begins here or after its first character. -/
theorem exists_skipped_cons {P : Option Char → List Char → Prop} :
    (∃ skipped rest, c :: cs = skipped ++ rest ∧ P (skipped.getLast?.or before) rest) ↔
      P before (c :: cs) ∨
        ∃ skipped rest, cs = skipped ++ rest ∧ P (skipped.getLast?.or (some c)) rest := by
  constructor
  · rintro ⟨skipped, rest, hcs, hP⟩
    cases skipped with
    | nil =>
      subst hcs
      exact .inl hP
    | cons d skipped =>
      obtain ⟨rfl, rfl⟩ := List.cons.inj hcs
      exact .inr ⟨skipped, rest, rfl, getLast?_cons_or skipped ▸ hP⟩
  · rintro (hP | ⟨skipped, rest, rfl, hP⟩)
    · exact ⟨[], c :: cs, rfl, hP⟩
    · exact ⟨c :: skipped, rest, rfl, (getLast?_cons_or skipped).symm ▸ hP⟩

/-- The states after a character, which are consistent if the states before it are. -/
theorem consistent_next {states : List Pattern} (hstates : ∀ q ∈ states, q.Consistent) :
    ∀ r ∈ (states.flatMap (residuals before c)).eraseDups, r.Consistent := by
  intro r hr
  obtain ⟨q, hq, hr⟩ := List.mem_flatMap.mp (List.mem_eraseDups.mp hr)
  exact (hstates q hq).residuals r hr

/-- The text begins with a stretch of one of the states if one of them may end here, or the
text after its first character begins with a stretch of one of the states that follow. -/
theorem exists_begins_cons {states : List Pattern} (hstates : ∀ q ∈ states, q.Consistent) :
    (∃ q ∈ states, q.Begins before (c :: cs)) ↔
      (∃ q ∈ states, q.nullable before (some c) = true) ∨
        ∃ r ∈ (states.flatMap (residuals before c)).eraseDups, r.Begins (some c) cs := by
  constructor
  · rintro ⟨q, hq, hbegins⟩
    rcases (begins_cons (hstates q hq)).mp hbegins with hnull | ⟨r, hr, hbegins⟩
    · exact .inl ⟨q, hq, hnull⟩
    · exact .inr ⟨r, List.mem_eraseDups.mpr (List.mem_flatMap.mpr ⟨q, hq, hr⟩), hbegins⟩
  · rintro (⟨q, hq, hnull⟩ | ⟨r, hr, hbegins⟩)
    · exact ⟨q, hq, (begins_cons (hstates q hq)).mpr (.inl hnull)⟩
    · obtain ⟨q, hq, hr⟩ := List.mem_flatMap.mp (List.mem_eraseDups.mp hr)
      exact ⟨q, hq, (begins_cons (hstates q hq)).mpr (.inr ⟨r, hr, hbegins⟩)⟩

/-- A search succeeds if the text from here begins with a stretch of one of the states, or
from here or later with one of the pattern. -/
theorem searchFrom_iff {states : List Pattern} (h : p.Consistent)
    (hstates : ∀ q ∈ states, q.Consistent) :
    p.searchFrom before states cs = true ↔ (∃ q ∈ states, q.Begins before cs) ∨
      ∃ skipped rest, cs = skipped ++ rest ∧ p.Begins (skipped.getLast?.or before) rest := by
  induction cs generalizing before states with
  | nil =>
    have hall : (∃ q ∈ states, q.Begins before []) ↔
        ∃ q ∈ states, q.nullable before none = true :=
      exists_congr fun q => and_congr_right fun hq => begins_nil (hstates q hq)
    rw [searchFrom, exists_skipped_nil, hall, begins_nil h, List.any_cons, Bool.or_eq_true,
      List.any_eq_true, or_comm]
  | cons c cs ih =>
    -- The pattern may begin at every character, so it joins the states.
    have hcurrent : ∀ q ∈ states.insert p, q.Consistent := by
      intro q hq
      rcases List.mem_insert_iff.mp hq with rfl | hq
      · exact h
      · exact hstates q hq
    calc p.searchFrom before states (c :: cs) = true
        ↔ (∃ q ∈ states.insert p, q.nullable before (some c) = true) ∨
            p.searchFrom (some c)
              ((states.insert p).flatMap (residuals before c)).eraseDups cs = true := by
          rw [← List.any_eq_true, ← Bool.or_eq_true]
          rfl
      _ ↔ (∃ q ∈ states.insert p, q.Begins before (c :: cs)) ∨ ∃ skipped rest,
            cs = skipped ++ rest ∧ p.Begins (skipped.getLast?.or (some c)) rest := by
          rw [ih (consistent_next hcurrent), exists_begins_cons hcurrent, or_assoc]
      _ ↔ (∃ q ∈ states, q.Begins before (c :: cs)) ∨ p.Begins before (c :: cs) ∨
            ∃ skipped rest,
              cs = skipped ++ rest ∧ p.Begins (skipped.getLast?.or (some c)) rest := by
          simp only [List.mem_insert_iff, or_and_right, exists_or, exists_eq_left]
          rw [or_comm (a := p.Begins before (c :: cs)), or_assoc]
      _ ↔ _ := by rw [exists_skipped_cons]

/-- Searching finds the texts that have a stretch denoted by the pattern. -/
theorem search_iff (h : p.Consistent) {s : String} : p.search s = true ↔ p.Finds s := by
  rw [search, searchFrom_iff h (by simp)]
  simp [Finds]

end Phrasebook.Pattern
