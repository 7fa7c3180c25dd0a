import Mathlib.Data.List.Induction
import Mathlib.Data.List.TakeWhile
import Phrasebook.Proofs.Calendar
import Phrasebook.Proofs.Decimals
import Phrasebook.Proofs.Results

/-!
# Timestamps

The text of an instant is read back as that instant if its year has four digits; any
other year is printed with a sign, and a sign is not read.

## Main definitions

* `Instant.Proper`: leap seconds extend the last second of a minute only
* `Instant.InYears`: the UTC year has four digits
* `Instant.WritesOffset`: the spellings of an offset from UTC
* `Instant.Reads`: the parts that a timestamp is read as
-/
namespace Phrasebook.Instant

open Text (digits)

/-- A leap second extends the last second of a minute. -/
def Proper (t : Instant) : Prop :=
  t.nanos < second ∨ t.nanos < 2 * second ∧ t.seconds % 60 = 59

/-- The UTC year of an instant lies between 0 and 9999. -/
def InYears (t : Instant) : Prop := 0 ≤ t.year ∧ t.year ≤ 9999

instance (t : Instant) : Decidable t.Proper := inferInstanceAs (Decidable (_ ∨ _))

instance (t : Instant) : Decidable t.InYears := inferInstanceAs (Decidable (_ ∧ _))

/-! ## Parts of a timestamp -/

theorem length_le_utf8Length (cs : List Char) : cs.length ≤ Text.utf8Length cs := by
  induction cs with
  | nil => exact Nat.le_refl 0
  | cons c rest ih =>
    have hsize := c.utf8Size_pos
    simp only [Text.utf8Length, List.foldr_cons, List.length_cons] at ih ⊢
    omega

theorem pair_digits {n : Nat} (h : n < 100) :
    pair (Nat.digitChar (n / 10 % 10)) (Nat.digitChar (n % 10)) = .ok n := by
  have htens : n / 10 % 10 < 10 := Nat.mod_lt _ (by decide)
  have hones : n % 10 < 10 := Nat.mod_lt _ (by decide)
  have hsum : n / 10 % 10 * 10 + n % 10 = n := by omega
  simp [pair, pair?, Text.isDigit_digitChar htens, Text.isDigit_digitChar hones,
    Text.digitValue_digitChar htens, Text.digitValue_digitChar hones, hsum]

theorem pair_eq_ok_iff {a b : Char} {n : Nat} :
    pair a b = .ok n ↔ n < 100 ∧ [a, b] = digits 2 n := by
  constructor
  · intro h
    unfold pair pair? at h
    split at h
    · next hsome =>
      cases h
      split at hsome
      · next hdigits =>
        cases hsome
        obtain ⟨ha, hb⟩ : Text.isDigit a = true ∧ Text.isDigit b = true := by simpa using hdigits
        have htens := Text.digitValue_lt ha
        have hones := Text.digitValue_lt hb
        have hdiv : (Text.digitValue a * 10 + Text.digitValue b) / 10 % 10 = Text.digitValue a := by
          omega
        have hmod : (Text.digitValue a * 10 + Text.digitValue b) % 10 = Text.digitValue b := by
          omega
        refine ⟨by omega, ?_⟩
        rw [Text.digits_two, hdiv, hmod, Text.digitChar_digitValue ha,
          Text.digitChar_digitValue hb]
      · cases hsome
    · cases h
  · rintro ⟨hlt, h⟩
    rw [Text.digits_two, List.cons_eq_cons, List.cons_eq_cons] at h
    rw [h.1, h.2.1, pair_digits hlt]

theorem parseDate_digits {year month day : Nat} (hyear : year < 10000) (hpos : 1 ≤ day)
    (hday : day ≤ daysInMonth year month) :
    parseDate (Nat.digitChar (year / 10 / 10 / 10 % 10)) (Nat.digitChar (year / 10 / 10 % 10))
      (Nat.digitChar (year / 10 % 10)) (Nat.digitChar (year % 10)) '-'
      (Nat.digitChar (month / 10 % 10)) (Nat.digitChar (month % 10)) '-'
      (Nat.digitChar (day / 10 % 10)) (Nat.digitChar (day % 10)) =
      .ok (daysOfDate year month day) := by
  have hmonth : month < 100 := by
    have hlast := (month_of_day hpos hday).2
    omega
  have hlt : day < 100 := by
    have hshort := daysInMonth_le year month
    omega
  have hcentury : pair (Nat.digitChar (year / 10 / 10 / 10 % 10))
      (Nat.digitChar (year / 10 / 10 % 10)) = .ok (year / 100) := by
    have hdiv : year / 10 / 10 = year / 100 := by omega
    rw [hdiv]
    exact pair_digits (by omega)
  have hyears : pair (Nat.digitChar (year / 10 % 10)) (Nat.digitChar (year % 10)) =
      .ok (year % 100) := by
    have htens : year / 10 % 10 = year % 100 / 10 % 10 := by omega
    have hones : year % 10 = year % 100 % 10 := by omega
    rw [htens, hones]
    exact pair_digits (by omega)
  have hsum : ((year / 100 : Nat) : Int) * 100 + ((year % 100 : Nat) : Int) = year := by omega
  simp only [parseDate, hcentury, hyears, pair_digits hmonth, pair_digits hlt, expect, bind,
    Except.bind, decide_true, if_true, hsum, hpos, hday, and_self]

theorem expect_eq_ok_iff {allowed : Bool} {u : Unit} :
    expect allowed = .ok u ↔ allowed = true := by
  cases allowed <;> simp [expect]

theorem parseDate_eq_ok_iff {y₁ y₂ y₃ y₄ s₁ m₁ m₂ s₂ d₁ d₂ : Char} {days : Int} :
    parseDate y₁ y₂ y₃ y₄ s₁ m₁ m₂ s₂ d₁ d₂ = .ok days ↔ ∃ year month day : Nat,
      year < 10000 ∧ 1 ≤ day ∧ day ≤ daysInMonth year month ∧
        [y₁, y₂, y₃, y₄, s₁, m₁, m₂, s₂, d₁, d₂] =
          digits 4 year ++ '-' :: (digits 2 month ++ '-' :: digits 2 day) ∧
        days = daysOfDate year month day := by
  constructor
  · intro h
    simp only [parseDate, bind_eq_ok_iff, expect_eq_ok_iff, decide_eq_true_eq,
      pair_eq_ok_iff] at h
    obtain ⟨century, ⟨hcentury, hy⟩, years, ⟨hyears, hy'⟩, -, rfl, month, ⟨-, hm⟩, -, rfl, day,
      ⟨-, hd⟩, h⟩ := h
    have hyear : ((century * 100 + years : Nat) : Int) = century * 100 + years := by omega
    have hdiv : (century * 100 + years) / 100 = century := by omega
    have hmod : (century * 100 + years) % 100 = years := by omega
    rw [← hyear] at h
    split at h
    · next hday =>
      cases h
      refine ⟨century * 100 + years, month, day, by omega, hday.1, hday.2, ?_, rfl⟩
      rw [Text.digits_four, hdiv, hmod, ← hy, ← hy', ← hm, ← hd]
      rfl
    · cases h
  · rintro ⟨year, month, day, hyear, hpos, hle, h, rfl⟩
    simp only [digits, List.nil_append, List.cons_append, List.cons.injEq, and_true] at h
    obtain ⟨rfl, rfl, rfl, rfl, rfl, rfl, rfl, rfl, rfl, rfl⟩ := h
    exact parseDate_digits hyear hpos hle

/-- Digits before a character that is none are read as a fraction, nine of them at most. -/
theorem parseFraction_append {ds rest : List Char} (hall : ∀ c ∈ ds, Text.isDigit c = true)
    (hne : ds ≠ []) (hrest : rest.takeWhile Text.isDigit = []) : parseFraction (ds ++ rest) =
      .ok (Text.natOfDigits (ds.take 9) * Nat.pow 10 (9 - (ds.take 9).length), rest) := by
  have htake : (ds ++ rest).takeWhile Text.isDigit = ds := by
    rw [List.takeWhile_append_of_pos hall, hrest, List.append_nil]
  have hdrop : (ds ++ rest).dropWhile Text.isDigit = rest := by
    rw [List.dropWhile_append_of_pos hall]
    simpa [hrest] using List.takeWhile_append_dropWhile (p := Text.isDigit) (l := rest)
  have hempty : ds.isEmpty = false := by simpa using hne
  simp [parseFraction, htake, hdrop, hempty]

/-- A fraction of at most nine digits is read in nanoseconds. -/
theorem parseFraction_digits (width : Nat) {n nanos : Nat} (hpos : 0 < width) (hle : width ≤ 9)
    (h : n < Nat.pow 10 width) (hnanos : n * Nat.pow 10 (9 - width) = nanos) :
    parseFraction (digits width n ++ ['Z']) = .ok (nanos, ['Z']) := by
  have hne : digits width n ≠ [] := by
    rw [← List.length_pos_iff, Text.length_digits]
    exact hpos
  have hkept : (digits width n).take 9 = digits width n :=
    List.take_of_length_le (by rw [Text.length_digits]; exact hle)
  rw [parseFraction_append (fun c hc => Text.isDigit_of_mem_digits hc) hne rfl, hkept,
    Text.natOfDigits_digits h, Text.length_digits, hnanos]

/-- The fraction of a second that has not been read yet, then the offset. -/
def readFraction (rest : List Char) : Except TimestampError (Nat × List Char) :=
  match rest with
  | '.' :: rest => parseFraction rest
  | _ => .ok (0, rest)

theorem readFraction_text {nanos : Nat} (h : nanos < second) :
    readFraction ((fractionText nanos).toList ++ ['Z']) = .ok (nanos, ['Z']) := by
  unfold second at h
  unfold fractionText
  split
  · next hzero => subst hzero; rfl
  · split
    · next hmilli =>
      have hlt : nanos / 1000000 < 1000 := by omega
      have hback : nanos / 1000000 * 1000000 = nanos := by omega
      have hread := parseFraction_digits 3 (by decide) (by decide) hlt hback
      simp [readFraction, Text.padNat_toList 3 (by decide) hlt, hread]
    · split
      · next hmicro =>
        have hlt : nanos / 1000 < 1000000 := by omega
        have hback : nanos / 1000 * 1000 = nanos := by omega
        have hread := parseFraction_digits 6 (by decide) (by decide) hlt hback
        simp [readFraction, Text.padNat_toList 6 (by decide) hlt, hread]
      · have hread := parseFraction_digits 9 (by decide) (by decide) h (Nat.mul_one nanos)
        simp [readFraction, Text.padNat_toList 9 (by decide) h, hread]

/-- Whatever fraction is written, reading it stops at the offset. -/
theorem readFraction_fractionText (nanos : Nat) : ∃ fraction,
    readFraction ((fractionText nanos).toList ++ ['Z']) = .ok (fraction, ['Z']) := by
  have hpad : ∀ width n, ∃ fraction,
      readFraction (("." ++ Text.padNat width n).toList ++ ['Z']) = .ok (fraction, ['Z']) := by
    intro width n
    have hread := parseFraction_append (fun c hc => Text.isDigit_of_mem_padNat hc)
      (Text.padNat_ne_nil width n) (show ['Z'].takeWhile Text.isDigit = [] from rfl)
    simp [readFraction, hread]
  unfold fractionText
  split
  · exact ⟨0, rfl⟩
  · split
    · exact hpad _ _
    · split <;> exact hpad _ _

theorem secondOfDay_eq_ok_iff {hour minute sec fraction secs nanos : Nat} :
    secondOfDay hour minute sec fraction = .ok (secs, nanos) ↔
      hour < 24 ∧ minute < 60 ∧ sec ≤ 60 ∧ secs = (hour * 60 + minute) * 60 + min sec 59 ∧
        nanos = fraction + if sec = 60 then second else 0 := by
  unfold secondOfDay
  split
  · split
    · simp only [Except.ok.injEq, Prod.mk.injEq]
      omega
    · simp only [Except.ok.injEq, Prod.mk.injEq]
      omega
  · simp only [reduceCtorEq, false_iff]
    omega

/-- The offset from UTC in minutes, as it is written. -/
inductive WritesOffset : Int → List Char → Prop
  | utc {c : Char} (hc : c = 'Z' ∨ c = 'z') : WritesOffset 0 [c]
  | east {hours minutes : Nat} (hhours : hours < 24) (hminutes : minutes < 60) :
    WritesOffset (hours * 60 + minutes) ('+' :: (digits 2 hours ++ ':' :: digits 2 minutes))
  | west {c : Char} {hours minutes : Nat} (hc : c = '-' ∨ c = '−') (hhours : hours < 24)
    (hminutes : minutes < 60) :
    WritesOffset (-(hours * 60 + minutes)) (c :: (digits 2 hours ++ ':' :: digits 2 minutes))

theorem offsetPair_eq_ok_iff {cs rest : List Char} {a b : Char} :
    offsetPair cs = .ok (a, b, rest) ↔ cs = a :: b :: rest := by
  unfold offsetPair
  split <;> simp

theorem parseOffset_digits {c : Char} {hours minutes : Nat} (hc : c = '+' ∨ c = '-' ∨ c = '−')
    (hhours : hours < 24) (hminutes : minutes < 60) :
    parseOffset (c :: (digits 2 hours ++ ':' :: digits 2 minutes)) =
      .ok (if c = '+' then hours * 3600 + minutes * 60 else -(hours * 3600 + minutes * 60),
        []) := by
  have hutc : (decide (c = 'Z') || decide (c = 'z')) = false := by
    rcases hc with rfl | rfl | rfl <;> decide
  have hsign : (decide (c = '+') || decide (c = '-') || decide (c = '−')) = true := by
    rcases hc with rfl | rfl | rfl <;> decide
  simp only [Text.digits_two, List.cons_append, List.nil_append, parseOffset, hutc, hsign,
    offsetPair, pair_digits (show hours < 100 by omega), pair_digits (show minutes < 100 by omega),
    bind, Except.bind, if_true, Bool.false_eq_true, if_false, if_neg (Nat.not_le.mpr hhours),
    if_neg (Nat.not_le.mpr hminutes), ge_iff_le]

/-- An offset as it is written is read. -/
theorem WritesOffset.parseOffset {minutes : Int} {cs : List Char} (h : WritesOffset minutes cs) :
    parseOffset cs = .ok (minutes * 60, []) := by
  cases h with
  | utc hc => simp [Instant.parseOffset, hc]
  | east hhours hminutes =>
    rw [parseOffset_digits (.inl rfl) hhours hminutes, if_pos rfl]
    simp only [Except.ok.injEq, Prod.mk.injEq, and_true]
    omega
  | @west c _ _ hc hhours hminutes =>
    have hplus : c ≠ '+' := by rcases hc with rfl | rfl <;> decide
    rw [parseOffset_digits (.inr hc) hhours hminutes, if_neg hplus]
    simp only [Except.ok.injEq, Prod.mk.injEq, and_true]
    omega

/-- What is read as an offset is written as one. -/
theorem exists_writesOffset {cs : List Char} {offset : Int}
    (h : parseOffset cs = .ok (offset, [])) :
    ∃ minutes, WritesOffset minutes cs ∧ offset = minutes * 60 := by
  unfold parseOffset at h
  split at h
  · cases h
  split at h
  · next c rest hc =>
    cases h
    exact ⟨0, .utc (by simpa using hc), rfl⟩
  split at h
  · next c rest _ hc =>
    simp only [bind_eq_ok_iff, Prod.exists, offsetPair_eq_ok_iff, pair_eq_ok_iff] at h
    obtain ⟨a, b, rest₁, rfl, hours, ⟨-, hhours⟩, h⟩ := h
    split at h <;> simp only [bind_eq_ok_iff, Prod.exists, offsetPair_eq_ok_iff,
      pair_eq_ok_iff, Except.ok.injEq, exists_eq_left', reduceCtorEq, false_and,
      exists_false] at h
    obtain ⟨a', b', last, rfl, minutes, ⟨-, hminutes⟩, h⟩ := h
    split at h
    · cases h
    split at h
    · cases h
    have hspelling : c :: a :: b :: ':' :: a' :: b' :: last =
        c :: (digits 2 hours ++ ':' :: (digits 2 minutes ++ last)) := by
      rw [← hhours, ← hminutes]
      rfl
    rw [hspelling]
    split at h
    · next hplus =>
      cases h
      subst hplus
      rw [List.append_nil]
      exact ⟨_, .east (by omega) (by omega), by omega⟩
    · next hplus =>
      cases h
      rw [List.append_nil]
      exact ⟨_, .west (by simpa [hplus] using hc) (by omega) (by omega), by omega⟩
  · cases h

theorem parseOffset_eq_ok_iff {cs : List Char} {offset : Int} :
    parseOffset cs = .ok (offset, []) ↔ ∃ minutes, WritesOffset minutes cs ∧
      offset = minutes * 60 :=
  ⟨exists_writesOffset, fun ⟨_, hwrites, heq⟩ => heq ▸ hwrites.parseOffset⟩

/-! ## Reading part by part -/

/-- The parts of a timestamp, read one after another. -/
inductive Reads : List Char → Instant → Prop
  | parts {y₁ y₂ y₃ y₄ s₁ m₁ m₂ s₂ d₁ d₂ mark h₁ h₂ n₁ n₂ c₁ c₂ : Char} {rest rest' : List Char}
    {days offset : Int} {hour minute sec fraction secs nanos : Nat}
    (date : parseDate y₁ y₂ y₃ y₄ s₁ m₁ m₂ s₂ d₁ d₂ = .ok days)
    (marked : mark = 'T' ∨ mark = 't' ∨ mark = ' ') (hours : pair h₁ h₂ = .ok hour)
    (minutes : pair n₁ n₂ = .ok minute) (seconds : pair c₁ c₂ = .ok sec)
    (decimals : readFraction rest = .ok (fraction, rest'))
    (clock : secondOfDay hour minute sec fraction = .ok (secs, nanos))
    (shift : parseOffset rest' = .ok (offset, [])) :
    Reads (y₁ :: y₂ :: y₃ :: y₄ :: s₁ :: m₁ :: m₂ :: s₂ :: d₁ :: d₂ :: mark :: h₁ :: h₂ :: ':' ::
      n₁ :: n₂ :: ':' :: c₁ :: c₂ :: rest) ⟨days * 86400 + secs - offset, nanos⟩

/-- Reading a timestamp is reading its parts. -/
theorem parseChars_eq_ok_iff {cs : List Char} {t : Instant} :
    parseChars cs = .ok t ↔ Reads cs t := by
  constructor
  · intro h
    unfold parseChars at h
    split at h
    · cases h
    split at h
    · next y₁ y₂ y₃ y₄ s₁ m₁ m₂ s₂ d₁ d₂ mark h₁ h₂ s₃ n₁ n₂ s₄ c₁ c₂ rest _ =>
      simp only [bind_eq_ok_iff, expect_eq_ok_iff, decide_eq_true_eq, Bool.or_eq_true,
        or_assoc] at h
      obtain ⟨days, hdate, -, hmark, hour, hhour, -, rfl, minute, hminute, -, rfl, sec, hsec,
        htail⟩ := h
      have hread : ∃ fraction rest', readFraction rest = .ok (fraction, rest') ∧
          ∃ secs nanos offset, secondOfDay hour minute sec fraction = .ok (secs, nanos) ∧
            parseOffset rest' = .ok (offset, []) ∧ t = ⟨days * 86400 + secs - offset, nanos⟩ := by
        split at htail <;> simp only [bind_eq_ok_iff] at htail
        all_goals
          obtain ⟨⟨fraction, rest'⟩, hfraction, ⟨secs, nanos⟩, hsecs, ⟨offset, last⟩, hoffset,
            ht⟩ := htail
          cases last with
          | nil =>
            cases ht
            exact ⟨fraction, rest', by simpa [readFraction] using hfraction, secs, nanos, offset,
              hsecs, hoffset, rfl⟩
          | cons c last => cases ht
      obtain ⟨fraction, rest', hfraction, secs, nanos, offset, hclock, hoffset, rfl⟩ := hread
      exact .parts hdate hmark hhour hminute hsec hfraction hclock hoffset
    · cases h
  · rintro ⟨hdate, hmark, hhour, hminute, hsec, hfraction, hclock, hoffset⟩
    rw [parseChars, if_neg]
    · simp only [hdate, hhour, hminute, hsec, expect, bind, Except.bind, decide_true, if_true,
        ← Bool.decide_or, or_assoc, hmark]
      unfold readFraction at hfraction
      split at hfraction
      · simp [hfraction, hclock, hoffset]
      · cases hfraction
        simp [hclock, hoffset]
    · intro hshort
      have hle := Nat.lt_of_le_of_lt (length_le_utf8Length _) hshort
      simp only [List.length_cons] at hle
      omega

/-! ## Reading what is written -/

/-- A timestamp in UTC is the time of day on its date. -/
theorem parseChars_parts (rest : List Char) {y₁ y₂ y₃ y₄ m₁ m₂ d₁ d₂ h₁ h₂ n₁ n₂ c₁ c₂ : Char}
    {days : Int} {hour minute sec fraction secs nanos : Nat}
    (hdate : parseDate y₁ y₂ y₃ y₄ '-' m₁ m₂ '-' d₁ d₂ = .ok days)
    (hhour : pair h₁ h₂ = .ok hour) (hminute : pair n₁ n₂ = .ok minute)
    (hsec : pair c₁ c₂ = .ok sec)
    (hrest : readFraction rest = .ok (fraction, ['Z']))
    (hsecs : secondOfDay hour minute sec fraction = .ok (secs, nanos)) :
    parseChars (y₁ :: y₂ :: y₃ :: y₄ :: '-' :: m₁ :: m₂ :: '-' :: d₁ :: d₂ :: 'T' :: h₁ :: h₂ ::
      ':' :: n₁ :: n₂ :: ':' :: c₁ :: c₂ :: rest) = .ok ⟨days * 86400 + secs, nanos⟩ := by
  have hoffset : parseOffset ['Z'] = .ok (0, []) := rfl
  have hreads := Reads.parts hdate (.inl rfl) hhour hminute hsec hrest hsecs hoffset
  rw [Int.sub_zero] at hreads
  exact parseChars_eq_ok_iff.mpr hreads

/-- The seconds of the day an instant lies in. -/
def daySeconds (t : Instant) : Nat := (t.seconds.fmod 86400).toNat

theorem daySeconds_spec (t : Instant) :
    t.daySeconds < 86400 ∧ t.seconds.fdiv 86400 * 86400 + t.daySeconds = t.seconds ∧
      (t.seconds % 60 = 59 → t.daySeconds % 60 = 59) := by
  unfold daySeconds
  rw [Int.fmod_eq_emod_of_nonneg _ (by decide), Int.fdiv_eq_ediv_of_nonneg _ (by decide)]
  omega

/-- The time of day an instant is printed with denotes its seconds of the day. -/
theorem secondOfDay_parts {t : Instant} (h : t.Proper) :
    secondOfDay (t.daySeconds / 3600) (t.daySeconds / 60 % 60)
      (t.daySeconds % 60 + if second ≤ t.nanos then 1 else 0)
      (if second ≤ t.nanos then t.nanos - second else t.nanos) = .ok (t.daySeconds, t.nanos) := by
  obtain ⟨hlt, -, hlast⟩ := t.daySeconds_spec
  rcases h with hplain | ⟨hleap, hminute⟩
  · have hnone : ¬second ≤ t.nanos := Nat.not_le.mpr hplain
    rw [if_neg hnone, if_neg hnone]
    refine secondOfDay_eq_ok_iff.mpr ⟨by omega, by omega, by omega, by omega, ?_⟩
    rw [if_neg (by omega)]
    rfl
  · have hfiftyNine := hlast hminute
    split
    · refine secondOfDay_eq_ok_iff.mpr ⟨by omega, by omega, by omega, by omega, ?_⟩
      rw [if_pos (by omega)]
      omega
    · refine secondOfDay_eq_ok_iff.mpr ⟨by omega, by omega, by omega, by omega, ?_⟩
      rw [if_neg (by omega)]
      rfl

/-- A time of day in range denotes a second of the day. -/
theorem secondOfDay_ok {hour minute sec : Nat} (hhour : hour < 24) (hminute : minute < 60)
    (hsec : sec ≤ 60) (fraction : Nat) :
    ∃ secs nanos, secondOfDay hour minute sec fraction = .ok (secs, nanos) ∧ secs < 86400 :=
  ⟨_, _, secondOfDay_eq_ok_iff.mpr ⟨hhour, hminute, hsec, rfl, rfl⟩, by omega⟩

/-- The text of an instant of a four-digit year, part by part. -/
theorem toList_text {t : Instant} {year month day : Nat}
    (hdate : dateOfDays (t.seconds.fdiv 86400) = (↑year, month, day)) (hyear : year < 10000)
    (hmonth : month < 100) (hday : day < 100) :
    t.text.toList = digits 4 year ++ '-' :: (digits 2 month ++ '-' :: (digits 2 day ++ 'T' ::
      (digits 2 (t.daySeconds / 3600) ++ ':' :: (digits 2 (t.daySeconds / 60 % 60) ++ ':' ::
        (digits 2 (t.daySeconds % 60 + if second ≤ t.nanos then 1 else 0) ++
          ((fractionText (if second ≤ t.nanos then t.nanos - second else t.nanos)).toList ++
            ['Z'])))))) := by
  obtain ⟨hlt, -, -⟩ := t.daySeconds_spec
  have hfour : 0 ≤ (year : Int) ∧ (year : Int) ≤ 9999 := by omega
  have hsec : (t.daySeconds % 60 + if second ≤ t.nanos then 1 else 0) < 100 := by
    split <;> omega
  have hseconds : (t.seconds.fmod 86400).toNat = t.daySeconds := rfl
  simp only [text, dateText, hdate, clockText, yearText, hseconds, if_pos hfour,
    Int.toNat_natCast, String.toList_append]
  rw [Text.padNat_toList 4 (by decide) hyear, Text.padNat_toList 2 (by decide) hmonth,
    Text.padNat_toList 2 (by decide) hday, Text.padNat_toList 2 (by decide) hsec,
    Text.padNat_toList 2 (by decide) (show t.daySeconds / 3600 < 100 by omega),
    Text.padNat_toList 2 (by decide) (show t.daySeconds / 60 % 60 < 100 by omega)]
  simp

/-- The text of an instant of a four-digit year is read as a time of the same day, as far as its
fraction and its time of day are read. -/
theorem parse_text_of {t : Instant} {fraction secs nanos : Nat} (hyears : t.InYears)
    (hfraction : readFraction
      ((fractionText (if second ≤ t.nanos then t.nanos - second else t.nanos)).toList ++ ['Z']) =
        .ok (fraction, ['Z']))
    (hclock : secondOfDay (t.daySeconds / 3600) (t.daySeconds / 60 % 60)
      (t.daySeconds % 60 + if second ≤ t.nanos then 1 else 0) fraction = .ok (secs, nanos)) :
    parse t.text = .ok ⟨t.seconds.fdiv 86400 * 86400 + secs, nanos⟩ := by
  obtain ⟨hmonth, hmonthLe, hday, hdayLe, hdate⟩ := dateOfDays_spec (t.seconds.fdiv 86400)
  obtain ⟨hlt, -, -⟩ := t.daySeconds_spec
  obtain ⟨hzero, hlast⟩ := hyears
  unfold year at hzero hlast
  generalize hyear : (dateOfDays (t.seconds.fdiv 86400)).1 = year at *
  generalize hm : (dateOfDays (t.seconds.fdiv 86400)).2.1 = month at *
  generalize hd : (dateOfDays (t.seconds.fdiv 86400)).2.2 = day at *
  have hparts : dateOfDays (t.seconds.fdiv 86400) = (year, month, day) := by
    rw [← hyear, ← hm, ← hd]
  obtain ⟨year, rfl⟩ := Int.eq_ofNat_of_zero_le hzero
  have hdayShort : day < 100 := by
    have hshort := daysInMonth_le year month
    omega
  have hread := parseChars_parts
    ((fractionText (if second ≤ t.nanos then t.nanos - second else t.nanos)).toList ++ ['Z'])
    (parseDate_digits (by omega) hday hdayLe)
    (pair_digits (n := t.daySeconds / 3600) (by omega))
    (pair_digits (n := t.daySeconds / 60 % 60) (by omega))
    (pair_digits (n := t.daySeconds % 60 + if second ≤ t.nanos then 1 else 0)
      (by split <;> omega)) hfraction hclock
  rw [hdate] at hread
  rw [parse, toList_text hparts (by omega) (by omega) hdayShort, ← hread]
  rfl

/-- An instant of a four-digit year is read back from its text. -/
theorem parse_text {t : Instant} (hproper : t.Proper) (hyears : t.InYears) :
    parse t.text = .ok t := by
  obtain ⟨-, hsum, -⟩ := t.daySeconds_spec
  have hfraction : (if second ≤ t.nanos then t.nanos - second else t.nanos) < second := by
    rcases hproper with hplain | ⟨hleap, -⟩
    · split <;> omega
    · split <;> omega
  rw [parse_text_of hyears (readFraction_text hfraction) (secondOfDay_parts hproper), hsum]

/-! ## What is read -/

theorem isDigit_of_parseDate {y₁ y₂ y₃ y₄ s₁ m₁ m₂ s₂ d₁ d₂ : Char} {days : Int}
    (h : parseDate y₁ y₂ y₃ y₄ s₁ m₁ m₂ s₂ d₁ d₂ = .ok days) : Text.isDigit y₁ = true := by
  obtain ⟨century, hcentury, -⟩ := bind_eq_ok_iff.mp h
  have hdigits := (pair_eq_ok_iff.mp hcentury).2
  exact Text.isDigit_of_mem_digits (hdigits ▸ List.mem_cons_self)

/-- A timestamp that is read starts with a digit. -/
theorem Reads.isDigit_head {cs : List Char} {t : Instant} (h : Reads cs t) :
    ∃ c rest, cs = c :: rest ∧ Text.isDigit c = true := by
  cases h with
  | parts date => exact ⟨_, _, rfl, isDigit_of_parseDate date⟩

/-- Only instants of four-digit years have a text that can be read. -/
theorem inYears_of_parse {t t' : Instant} (h : parse t.text = .ok t') : t.InYears := by
  apply Classical.byContradiction
  intro hyears
  obtain ⟨c, rest, htext, hc⟩ := (parseChars_eq_ok_iff.mp h).isDigit_head
  have hyear : ¬(0 ≤ (dateOfDays (t.seconds.fdiv 86400)).1 ∧
      (dateOfDays (t.seconds.fdiv 86400)).1 ≤ 9999) := hyears
  simp only [text, dateText, yearText, if_neg hyear] at htext
  split at htext <;> simp at htext <;> rw [← htext.1] at hc <;> revert hc <;> decide

/-- Only instants of four-digit years are read back from their text. -/
theorem parse_text_iff {t : Instant} (h : t.Proper) : parse t.text = .ok t ↔ t.InYears :=
  ⟨inYears_of_parse, parse_text h⟩

/-- The text of an instant of a four-digit year is read as a time of the same day. -/
theorem exists_parse_text {t : Instant} (hyears : t.InYears) : ∃ secs nanos : Nat,
    secs < 86400 ∧ parse t.text = .ok ⟨t.seconds.fdiv 86400 * 86400 + secs, nanos⟩ := by
  obtain ⟨hlt, -, -⟩ := t.daySeconds_spec
  obtain ⟨fraction, hfraction⟩ := readFraction_fractionText
    (if second ≤ t.nanos then t.nanos - second else t.nanos)
  have hsec : (t.daySeconds % 60 + if second ≤ t.nanos then 1 else 0) ≤ 60 := by
    split <;> omega
  obtain ⟨secs, nanos, hclock, hsecs⟩ := secondOfDay_ok
    (show t.daySeconds / 3600 < 24 by omega) (show t.daySeconds / 60 % 60 < 60 by omega) hsec
    fraction
  exact ⟨secs, nanos, hsecs, parse_text_of hyears hfraction hclock⟩

/-- Whatever the text of an instant is read as lies in a four-digit year. -/
theorem inYears_of_parse_text {t t' : Instant} (h : parse t.text = .ok t') : t'.InYears := by
  have hyears := inYears_of_parse h
  obtain ⟨secs, nanos, hsecs, hparse⟩ := exists_parse_text hyears
  rw [hparse] at h
  cases h
  have hday : (t.seconds.fdiv 86400 * 86400 + (secs : Int)).fdiv 86400 =
      t.seconds.fdiv 86400 := by
    rw [Int.fdiv_eq_ediv_of_nonneg _ (by decide), Int.fdiv_eq_ediv_of_nonneg _ (by decide)]
    omega
  rw [InYears, year, hday]
  exact hyears

/-- What is read without a sign in front of the year is read so where signs are allowed. -/
theorem parseExtended_of_parse {s : String} {t : Instant} (h : parse s = .ok t) :
    parseExtended s = .ok t := by
  obtain ⟨c, rest, hs, hc⟩ := (parseChars_eq_ok_iff.mp h).isDigit_head
  have hsigned : signedYear? s.toList = none := by
    have hsign : c ≠ '+' ∧ c ≠ '-' :=
      ⟨fun heq => absurd (heq ▸ hc) (by decide), fun heq => absurd (heq ▸ hc) (by decide)⟩
    simp [hs, signedYear?, hsign]
  rw [parseExtended, hsigned]
  exact h

/-- A fraction of a second is less than a second. -/
theorem parseFraction_lt {cs rest : List Char} {nanos : Nat}
    (h : parseFraction cs = .ok (nanos, rest)) : nanos < second := by
  simp only [parseFraction] at h
  split at h
  · cases h
  · simp only [Except.ok.injEq, Prod.mk.injEq] at h
    obtain ⟨hnanos, -⟩ := h
    generalize hkept : (cs.takeWhile Text.isDigit).take 9 = kept at hnanos
    have hdigits : ∀ c ∈ kept, Text.isDigit c = true := by
      intro c hc
      rw [← hkept] at hc
      exact List.mem_takeWhile_imp (List.mem_of_mem_take hc)
    have hlength : kept.length ≤ 9 := by
      rw [← hkept]
      exact List.length_take_le 9 _
    have hlt := Text.natOfDigits_lt kept hdigits
    calc nanos = Text.natOfDigits kept * Nat.pow 10 (9 - kept.length) := hnanos.symm
      _ < Nat.pow 10 kept.length * Nat.pow 10 (9 - kept.length) :=
        Nat.mul_lt_mul_of_pos_right hlt (Nat.pow_pos (by decide))
      _ = Nat.pow 10 (kept.length + (9 - kept.length)) := (Nat.pow_add 10 _ _).symm
      _ = second := by rw [Nat.add_sub_cancel' hlength]; rfl

theorem readFraction_lt {cs rest : List Char} {nanos : Nat}
    (h : readFraction cs = .ok (nanos, rest)) : nanos < second := by
  unfold readFraction at h
  split at h
  · exact parseFraction_lt h
  · cases h
    decide

theorem secondOfDay_proper {hour minute sec fraction secs nanos : Nat} (hlt : fraction < second)
    (h : secondOfDay hour minute sec fraction = .ok (secs, nanos)) :
    nanos < second ∨ nanos < 2 * second ∧ secs % 60 = 59 := by
  obtain ⟨-, -, -, rfl, rfl⟩ := secondOfDay_eq_ok_iff.mp h
  split
  · exact .inr ⟨by omega, by omega⟩
  · exact .inl hlt

/-- Every instant that is read has its leap seconds in the right place. -/
theorem proper_of_parse {s : String} {t : Instant} (h : parse s = .ok t) : t.Proper := by
  have hreads := parseChars_eq_ok_iff.mp h
  generalize s.toList = cs at hreads
  obtain ⟨-, -, -, -, -, hfraction, hclock, hoffset⟩ := hreads
  -- An offset is a whole number of minutes, so it does not move the last second of one.
  obtain ⟨minutes, -, rfl⟩ := parseOffset_eq_ok_iff.mp hoffset
  rcases secondOfDay_proper (readFraction_lt hfraction) hclock with hplain | ⟨hleap, hlast⟩
  · exact .inl hplain
  · exact .inr ⟨hleap, by simp only; omega⟩

end Phrasebook.Instant
