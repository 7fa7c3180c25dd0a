import Phrasebook.Identity.Uuid
import Phrasebook.Instant

/-!
# Text formats

The formats that typed text fields must have.

## Main definitions

* `Format.isUuid`: the hyphenated form of a UUID, in any case
* `Format.isDateTime`: an RFC 3339 timestamp with a `T` between date and time
-/
namespace Phrasebook.Format

/-- The hyphenated form of a UUID. -/
def isUuid (s : String) : Bool := (Uuid.ofHyphenated? s.toList).isSome

/-- Minute of the day, `HH:MM`. -/
def minuteOfDay? (h1 h2 m1 m2 : Char) : Option Nat := do
  let hour ← Instant.pair? h1 h2
  let minute ← Instant.pair? m1 m2
  if hour < 24 ∧ minute < 60 then some (hour * 60 + minute) else none

/-- Offset from UTC in minutes. -/
def offset? : List Char → Option Int
  | ['Z'] | ['z'] => some 0
  | ['+', h1, h2, ':', m1, m2] => (minuteOfDay? h1 h2 m1 m2).map fun n => (n : Int)
  | ['-', h1, h2, ':', m1, m2] => (minuteOfDay? h1 h2 m1 m2).map fun n => -(n : Int)
  | _ => none

/-- The text after an optional fraction of a second, which has at least one
digit. -/
def afterFraction? : List Char → Option (List Char)
  | '.' :: rest =>
    if (rest.takeWhile Text.isDigit).isEmpty then none else some (rest.dropWhile Text.isDigit)
  | cs => some cs

/-- A time of day with its offset. Second sixty is the last one of a UTC day. -/
def isTime : List Char → Bool
  | h1 :: h2 :: ':' :: m1 :: m2 :: ':' :: s1 :: s2 :: rest =>
    match minuteOfDay? h1 h2 m1 m2, Instant.pair? s1 s2, (afterFraction? rest).bind offset? with
    | some minute, some sec, some offset =>
      sec < 60 || (sec == 60 && ((minute : Int) - offset).emod 1440 == 1439)
    | _, _, _ => false
  | _ => false

/-- An RFC 3339 timestamp with a `T` between date and time. -/
def isDateTime (s : String) : Bool :=
  match s.toList with
  | y1 :: y2 :: y3 :: y4 :: a :: m1 :: m2 :: b :: d1 :: d2 :: t :: time =>
    (Instant.parseDate y1 y2 y3 y4 a m1 m2 b d1 d2).isOk && (t = 'T' || t = 't') && isTime time
  | _ => false

end Phrasebook.Format
