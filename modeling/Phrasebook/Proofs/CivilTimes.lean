import Phrasebook.Proofs.Timestamps

/-!
# Civil times

A timestamp spells a civil time: a date of the calendar, a time of day down to the nanosecond,
which may lie in a leap second, and an offset from UTC. What is read from a timestamp is the
instant of the civil time it spells, so instants of four-digit years are printed alike exactly
when they are the same time in UTC.

## Main definitions

* `Instant.WritesFraction`: the spellings of a fraction of a second
* `CivilTime`, and `CivilTime.Writes` for its spellings
* `CivilTime.SameTime`: civil times that are the same in UTC
-/
namespace Phrasebook

open Text (digits isDigit)

namespace Instant

/-! ## Fractions of a second -/

/-- The fraction of a second in nanoseconds, as it is written: digits after the ninth one are
below a nanosecond. -/
inductive WritesFraction : Nat → List Char → Prop
  | none : WritesFraction 0 []
  | digits {ds : List Char} (hne : ds ≠ []) (hdigits : ∀ c ∈ ds, isDigit c = true) :
    WritesFraction (Text.natOfDigits ds * second / Nat.pow 10 ds.length) ('.' :: ds)

theorem natOfDigits_nanos {ds : List Char} (hdigits : ∀ c ∈ ds, isDigit c = true) :
    Text.natOfDigits (ds.take 9) * Nat.pow 10 (9 - (ds.take 9).length) =
      Text.natOfDigits ds * second / Nat.pow 10 ds.length :=
  Text.natOfDigits_take hdigits 9

/-- A written fraction is read up to whatever cannot continue it. -/
theorem WritesFraction.readFraction {nanos : Nat} {cs rest : List Char}
    (h : WritesFraction nanos cs) (hrest : rest.takeWhile isDigit = [])
    (hpoint : rest.head? ≠ some '.') :
    readFraction (cs ++ rest) = .ok (nanos, rest) := by
  cases h with
  | none =>
    unfold Instant.readFraction
    split
    · next heq => exact absurd (congrArg List.head? heq) hpoint
    · rfl
  | digits hne hdigits =>
    rw [← natOfDigits_nanos hdigits]
    exact parseFraction_append hdigits hne hrest

/-- What is read as a fraction is the spelling of one. -/
theorem exists_writesFraction {nanos : Nat} {cs rest : List Char}
    (h : readFraction cs = .ok (nanos, rest)) :
    ∃ fraction, WritesFraction nanos fraction ∧ cs = fraction ++ rest := by
  unfold readFraction at h
  split at h
  · next cs =>
    unfold parseFraction at h
    simp only at h
    split at h
    · cases h
    · next hne =>
      simp only [Except.ok.injEq, Prod.mk.injEq] at h
      obtain ⟨rfl, rfl⟩ := h
      have hdigits : ∀ c ∈ cs.takeWhile isDigit, isDigit c = true :=
        fun c hc => List.mem_takeWhile_imp hc
      rw [natOfDigits_nanos hdigits]
      exact ⟨_, .digits (by simpa using hne) hdigits, by simp⟩
  · cases h
    exact ⟨[], .none, rfl⟩

/-- An offset cannot be taken for the end of a fraction. -/
theorem WritesOffset.head_spec {minutes : Int} {cs : List Char} (h : WritesOffset minutes cs) :
    cs.takeWhile isDigit = [] ∧ cs.head? ≠ some '.' := by
  cases h with
  | utc hc => rcases hc with rfl | rfl <;> decide
  | east => exact ⟨rfl, nofun⟩
  | west hc => rcases hc with rfl | rfl <;> exact ⟨rfl, nofun⟩

end Instant

/-! ## Civil times -/

/-- A date of the calendar and a time of day, with the offset from UTC in minutes. Second sixty is
a leap second. -/
structure CivilTime where
  year : Nat
  month : Nat
  day : Nat
  hour : Nat
  minute : Nat
  sec : Nat
  nanos : Nat
  offset : Int
  year_lt : year < 10000
  day_pos : 1 ≤ day
  day_le : day ≤ Instant.daysInMonth year month
  hour_lt : hour < 24
  minute_lt : minute < 60
  sec_le : sec ≤ 60
  nanos_lt : nanos < Instant.second

namespace CivilTime

open Instant (second dayNumber WritesFraction WritesOffset)

/-- The minute of UTC that a civil time lies in. -/
def utcMinute (c : CivilTime) : Int :=
  dayNumber c.year c.month c.day * 1440 + c.hour * 60 + c.minute - c.offset

/-- The same time in UTC to the nanosecond. A leap second is none of its neighbours. -/
structure SameTime (c c' : CivilTime) : Prop where
  minute : c.utcMinute = c'.utcMinute
  sec : c.sec = c'.sec
  nanos : c.nanos = c'.nanos

/-- The spellings of a civil time. -/
inductive Writes (c : CivilTime) : List Char → Prop
  | parts {mark : Char} {fraction offset : List Char}
    (marked : mark = 'T' ∨ mark = 't' ∨ mark = ' ') (decimals : WritesFraction c.nanos fraction)
    (shift : WritesOffset c.offset offset) :
    Writes c (digits 4 c.year ++ '-' :: (digits 2 c.month ++ '-' :: (digits 2 c.day ++
      mark :: (digits 2 c.hour ++ ':' :: (digits 2 c.minute ++ ':' :: (digits 2 c.sec ++
        (fraction ++ offset)))))))

/-- The instant of a civil time, a leap second being the end of the second before it. -/
def instant (c : CivilTime) : Instant where
  seconds := (c.utcMinute - dayNumber 1970 1 1 * 1440) * 60 + (min c.sec 59 : Nat)
  nanos := c.nanos + if c.sec = 60 then second else 0

/-- Civil times are the same in UTC if they are the same instant. -/
theorem instant_eq_iff {c c' : CivilTime} : c.instant = c'.instant ↔ c.SameTime c' := by
  have hsec := c.sec_le
  have hsec' := c'.sec_le
  have hnanos := c.nanos_lt
  have hnanos' := c'.nanos_lt
  rw [instant, instant, Instant.mk.injEq]
  constructor
  · rintro ⟨hseconds, hleap⟩
    have hsame : c.sec = 60 ↔ c'.sec = 60 := by
      split at hleap <;> split at hleap <;> omega
    exact ⟨by omega, by omega, by simpa [hsame] using hleap⟩
  · rintro ⟨hminute, hsecond, hnano⟩
    rw [hminute, hsecond, hnano]
    exact ⟨rfl, rfl⟩

/-- The seconds of the instant are those of the day, moved by the offset. -/
theorem seconds_instant (c : CivilTime) : c.instant.seconds =
    Instant.daysOfDate c.year c.month c.day * 86400 +
      ((c.hour * 60 + c.minute) * 60 + min c.sec 59 : Nat) - c.offset * 60 := by
  obtain ⟨hmonth, hlast⟩ := Instant.month_of_day c.day_pos c.day_le
  have hepoch : dayNumber 1970 1 1 = 719163 := by decide
  rw [Instant.daysOfDate_eq hmonth hlast, instant, utcMinute, hepoch]
  simp only
  omega

end CivilTime

namespace Instant

/-- The parts of a timestamp are read as the instant of a civil time exactly if they spell it. -/
theorem reads_iff {cs : List Char} {t : Instant} :
    Reads cs t ↔ ∃ c : CivilTime, c.Writes cs ∧ c.instant = t := by
  constructor
  · rintro ⟨date, marked, hours, minutes, seconds, decimals, clock, shift⟩
    obtain ⟨year, month, day, hyear, hpos, hle, hdate, rfl⟩ := parseDate_eq_ok_iff.mp date
    obtain ⟨-, hhours⟩ := pair_eq_ok_iff.mp hours
    obtain ⟨-, hminutes⟩ := pair_eq_ok_iff.mp minutes
    obtain ⟨-, hseconds⟩ := pair_eq_ok_iff.mp seconds
    obtain ⟨fraction, hfraction, rfl⟩ := exists_writesFraction decimals
    obtain ⟨offset, hoffset, rfl⟩ := parseOffset_eq_ok_iff.mp shift
    obtain ⟨hhour, hminute, hsec, rfl, rfl⟩ := secondOfDay_eq_ok_iff.mp clock
    let c : CivilTime :=
      { year, month, day, offset, hour := _, minute := _, sec := _, nanos := _, year_lt := hyear,
        day_pos := hpos, day_le := hle, hour_lt := hhour, minute_lt := hminute, sec_le := hsec,
        nanos_lt := readFraction_lt decimals }
    refine ⟨c, ?_, ?_⟩
    · simp only [digits, List.nil_append, List.cons_append, List.cons.injEq, and_true]
        at hdate hhours hminutes hseconds
      obtain ⟨rfl, rfl, rfl, rfl, rfl, rfl, rfl, rfl, rfl, rfl⟩ := hdate
      obtain ⟨rfl, rfl⟩ := hhours
      obtain ⟨rfl, rfl⟩ := hminutes
      obtain ⟨rfl, rfl⟩ := hseconds
      exact .parts marked hfraction hoffset
    · exact congrArg₂ Instant.mk c.seconds_instant rfl
  · rintro ⟨c, ⟨marked, decimals, shift⟩, rfl⟩
    have hhour := c.hour_lt
    have hminute := c.minute_lt
    have hsec := c.sec_le
    have hinstant : c.instant = ⟨_, c.instant.nanos⟩ := congrArg₂ Instant.mk c.seconds_instant rfl
    rw [hinstant]
    exact .parts (parseDate_digits c.year_lt c.day_pos c.day_le) marked
      (pair_digits (by omega)) (pair_digits (by omega)) (pair_digits (by omega))
      (decimals.readFraction shift.head_spec.1 shift.head_spec.2)
      (secondOfDay_eq_ok_iff.mpr ⟨hhour, hminute, hsec, rfl, rfl⟩)
      (parseOffset_eq_ok_iff.mpr ⟨_, shift, rfl⟩)

/-- A timestamp is read as the instant of the civil time it spells, and nothing else is read. -/
theorem parse_eq_ok_iff {s : String} {t : Instant} :
    parse s = .ok t ↔ ∃ c : CivilTime, c.Writes s.toList ∧ c.instant = t :=
  parseChars_eq_ok_iff.trans reads_iff

/-- The text of what is read from a timestamp is read back exactly in four-digit years, and there
two of them are printed alike exactly if they spell the same time in UTC. -/
theorem text_canonical {s s' : String} {t t' : Instant} (h : parse s = .ok t)
    (h' : parse s' = .ok t') :
    (parse t.text = .ok t ↔ t.InYears) ∧
      (∃ c : CivilTime, c.Writes s.toList ∧ c.instant = t) ∧
      ∀ c c' : CivilTime, c.Writes s.toList → c'.Writes s'.toList → t.InYears → t'.InYears →
        (t.text = t'.text ↔ c.SameTime c') := by
  refine ⟨parse_text_iff (proper_of_parse h), parse_eq_ok_iff.mp h, ?_⟩
  intro c c' hwrites hwrites' hyears hyears'
  -- A spelling is read as one instant only, so these are the instants of the civil times.
  have hinstant : c.instant = t :=
    Except.ok.inj ((parse_eq_ok_iff.mpr ⟨c, hwrites, rfl⟩).symm.trans h)
  have hinstant' : c'.instant = t' :=
    Except.ok.inj ((parse_eq_ok_iff.mpr ⟨c', hwrites', rfl⟩).symm.trans h')
  rw [← CivilTime.instant_eq_iff, hinstant, hinstant']
  constructor
  · intro htext
    have hback := parse_text (proper_of_parse h) hyears
    rw [htext, parse_text (proper_of_parse h') hyears'] at hback
    exact (Except.ok.inj hback).symm
  · rintro rfl
    rfl

/-- A leap second, spelled with two offsets. -/
theorem text_canonical_leapSecond :
    parse "2016-12-31T23:59:60Z" = .ok ⟨1483228799, 1000000000⟩ ∧
      parse "2017-01-01 00:59:60.000+01:00" = .ok ⟨1483228799, 1000000000⟩ ∧
      parse (text ⟨1483228799, 1000000000⟩) = .ok ⟨1483228799, 1000000000⟩ := by
  have hyears : InYears ⟨1483228799, 1000000000⟩ := by decide
  have h : parse "2016-12-31T23:59:60Z" = .ok ⟨1483228799, 1000000000⟩ := by decide
  have h' : parse "2017-01-01 00:59:60.000+01:00" = .ok ⟨1483228799, 1000000000⟩ := by decide
  exact ⟨h, h', (text_canonical h h').1.mpr hyears⟩

end Instant

end Phrasebook
