import Phrasebook.Text.Basic

/-!
# Instants

Points in UTC time with nanosecond resolution, read and written as RFC 3339
timestamps. A leap second is the fifty-ninth second with a fraction of a second
or more, so it lies after its predecessor and before its successor.

## Main definitions

* `Instant`, ordered by `Instant.compare`
* `Instant.parse`: the instant of an RFC 3339 timestamp
* `Instant.text`: the timestamp of an instant, in UTC with the fewest of
  0, 3, 6 or 9 fraction digits
-/
namespace Phrasebook

/-- Seconds since 1970 and nanoseconds into that second. Nanoseconds reach into
a second billion during a leap second. -/
structure Instant where
  seconds : Int
  nanos : Nat
  deriving DecidableEq, Repr, Inhabited

/-- Why a text is no timestamp. -/
inductive TimestampError where
  | tooShort | invalid | outOfRange | tooLong
  deriving DecidableEq, Repr

/-- The message of a malformed timestamp. -/
def TimestampError.message : TimestampError → String
  | .tooShort => "premature end of input"
  | .invalid => "input contains invalid characters"
  | .outOfRange => "input is out of range"
  | .tooLong => "trailing input"

namespace Instant

/-- A whole second. -/
def second : Nat := 1000000000

/-- Instants in order of time, leap seconds after the second they extend. -/
def compare (a b : Instant) : Ordering :=
  (Ord.compare a.seconds b.seconds).then (Ord.compare a.nanos b.nanos)

/-- The later of two instants. -/
def max (a b : Instant) : Instant := if a.compare b = .gt then a else b

/-! ## Dates -/

/-- Whether a year of the Gregorian calendar has a leap day. -/
def isLeapYear (year : Int) : Bool := year % 4 == 0 && (year % 100 != 0 || year % 400 == 0)

/-- Number of days of a month. -/
def daysInMonth (year : Int) (month : Nat) : Nat :=
  match month with
  | 1 | 3 | 5 | 7 | 8 | 10 | 12 => 31
  | 4 | 6 | 9 | 11 => 30
  | 2 => if isLeapYear year then 29 else 28
  | _ => 0

/-- Days from 1970-01-01 to a date. Years begin in March here, so that the leap
day is the last day of its year. -/
def daysOfDate (year : Int) (month day : Nat) : Int :=
  let y : Int := if month ≤ 2 then year - 1 else year
  let m : Int := if month ≤ 2 then month + 9 else month - 3
  let era := y.fdiv 400
  let yearOfEra := y - era * 400
  let dayOfYear := (153 * m + 2) / 5 + (day : Int) - 1
  let dayOfEra := yearOfEra * 365 + yearOfEra / 4 - yearOfEra / 100 + dayOfYear
  era * 146097 + dayOfEra - 719468

/-- The date a number of days after 1970-01-01, as year, month and day. -/
def dateOfDays (days : Int) : Int × Nat × Nat :=
  let z := days + 719468
  let era := z.fdiv 146097
  let doe := z - era * 146097
  let yoe := (doe - doe / 1460 + doe / 36524 - doe / 146096) / 365
  let doy := doe - (365 * yoe + yoe / 4 - yoe / 100)
  let mp := (5 * doy + 2) / 153
  let day := (doy - (153 * mp + 2) / 5 + 1).toNat
  let month := (if mp < 10 then mp + 3 else mp - 9).toNat
  (yoe + era * 400 + (if month ≤ 2 then 1 else 0), month, day)

/-- The UTC year of an instant. -/
def year (t : Instant) : Int := (dateOfDays (t.seconds.fdiv 86400)).1

/-! ## Reading -/

/-- The number two digits denote. -/
def pair? (a b : Char) : Option Nat :=
  if Text.isDigit a && Text.isDigit b then
    some (Text.digitValue a * 10 + Text.digitValue b)
  else none

/-- The number two digits denote, or an error. -/
def pair (a b : Char) : Except TimestampError Nat :=
  match pair? a b with
  | some n => .ok n
  | none => .error .invalid

/-- A separator at a fixed place. -/
def expect (allowed : Bool) : Except TimestampError Unit :=
  if allowed then .ok () else .error .invalid

/-- Read the fraction after its point: at least one digit, of which nine
count. -/
def parseFraction (cs : List Char) : Except TimestampError (Nat × List Char) :=
  let digits := cs.takeWhile Text.isDigit
  let rest := cs.dropWhile Text.isDigit
  if digits.isEmpty then .error (if cs.isEmpty then .tooShort else .invalid)
  else
    let kept := digits.take 9
    .ok (Text.natOfDigits kept * Nat.pow 10 (9 - kept.length), rest)

/-- Two digits of an offset. -/
def offsetPair (cs : List Char) : Except TimestampError (Char × Char × List Char) :=
  match cs with
  | a :: b :: rest => .ok (a, b, rest)
  | [a] => .error (if a.utf8Size = 1 then .tooShort else .invalid)
  | [] => .error .tooShort

/-- Read the offset from UTC, in seconds. -/
def parseOffset (cs : List Char) : Except TimestampError (Int × List Char) :=
  match cs with
  | [] => .error .tooShort
  | c :: rest =>
    if c = 'Z' || c = 'z' then .ok (0, rest)
    else if c = '+' || c = '-' || c = '−' then do
      let (a, b, rest) ← offsetPair rest
      let hours ← pair a b
      let rest ← match rest with
        | ':' :: rest => .ok rest
        | [] => .error .tooShort
        | _ => .error .invalid
      let (a, b, rest) ← offsetPair rest
      let minutes ← pair a b
      if minutes ≥ 60 then .error .outOfRange
      else if hours ≥ 24 then .error .outOfRange
      else
        let offset : Int := hours * 3600 + minutes * 60
        .ok (if c = '+' then offset else -offset, rest)
    else .error .invalid

/-- Read a date as days since 1970. -/
def parseDate (y1 y2 y3 y4 s1 m1 m2 s2 d1 d2 : Char) : Except TimestampError Int := do
  let century ← pair y1 y2
  let years ← pair y3 y4
  expect (s1 = '-')
  let month ← pair m1 m2
  expect (s2 = '-')
  let day ← pair d1 d2
  let year : Int := century * 100 + years
  if 1 ≤ day ∧ day ≤ daysInMonth year month then .ok (daysOfDate year month day)
  else .error .outOfRange

/-- The second of a day and the nanoseconds into it; second sixty extends the
fifty-ninth. -/
def secondOfDay (hour minute sec nanos : Nat) : Except TimestampError (Nat × Nat) :=
  if hour < 24 ∧ minute < 60 ∧ sec ≤ 60 then
    if sec = 60 then .ok (hour * 3600 + minute * 60 + 59, second + nanos)
    else .ok (hour * 3600 + minute * 60 + sec, nanos)
  else .error .outOfRange

/-- The instant of an RFC 3339 timestamp. A space may stand for the `T`. -/
def parseChars (cs : List Char) : Except TimestampError Instant :=
  if Text.utf8Length cs < 19 then .error .tooShort
  else match cs with
  | y1 :: y2 :: y3 :: y4 :: s1 :: m1 :: m2 :: s2 :: d1 :: d2 :: t :: h1 :: h2 :: s3 ::
      n1 :: n2 :: s4 :: c1 :: c2 :: rest => do
    let days ← parseDate y1 y2 y3 y4 s1 m1 m2 s2 d1 d2
    expect (t = 'T' || t = 't' || t = ' ')
    let hour ← pair h1 h2
    expect (s3 = ':')
    let minute ← pair n1 n2
    expect (s4 = ':')
    let sec ← pair c1 c2
    let (fraction, rest) ← match rest with
      | '.' :: rest => parseFraction rest
      | _ => .ok (0, rest)
    let (secs, nanos) ← secondOfDay hour minute sec fraction
    let (offset, rest) ← parseOffset rest
    if rest.isEmpty then .ok ⟨days * 86400 + secs - offset, nanos⟩
    else .error .tooLong
  | _ => .error .invalid

/-- The instant of an RFC 3339 timestamp. -/
def parse (s : String) : Except TimestampError Instant := parseChars s.toList

/-- Digits of a year with a sign in front: at least four of them. -/
def signedYear? (cs : List Char) : Option (Int × List Char) :=
  let read (rest : List Char) (sign : Int) : Option (Int × List Char) :=
    let digits := rest.takeWhile Text.isDigit
    if digits.length < 4 then none
    else some (sign * Text.natOfDigits digits, rest.dropWhile Text.isDigit)
  match cs with
  | '+' :: rest => read rest 1
  | '-' :: rest => read rest (-1)
  | _ => none

/-- The instant of a timestamp whose year may be signed and outside of
0 to 9999. The rest of the timestamp is read in a year of the same length. -/
def parseExtended (s : String) : Except TimestampError Instant :=
  match signedYear? s.toList with
  | none => parse s
  | some (year, rest) => do
    let model : Int := if isLeapYear year then 2000 else 2001
    let t ← parseChars ((Text.padNat 4 model.toNat).toList ++ rest)
    let shift := daysOfDate year 1 1 - daysOfDate model 1 1
    .ok { t with seconds := t.seconds + shift * 86400 }

/-! ## Writing -/

/-- Text of a year: four digits, signed outside of them. -/
def yearText (year : Int) : String :=
  if 0 ≤ year ∧ year ≤ 9999 then Text.padNat 4 year.toNat
  else (if year < 0 then "-" else "+") ++ Text.padNat 4 year.natAbs

/-- Text of a fraction of a second with its point, empty for none. -/
def fractionText (nanos : Nat) : String :=
  if nanos = 0 then ""
  else if nanos % 1000000 = 0 then "." ++ Text.padNat 3 (nanos / 1000000)
  else if nanos % 1000 = 0 then "." ++ Text.padNat 6 (nanos / 1000)
  else "." ++ Text.padNat 9 nanos

/-- Text of a date, `YYYY-MM-DD`. -/
def dateText (t : Instant) : String :=
  let (year, month, day) := dateOfDays (t.seconds.fdiv 86400)
  yearText year ++ "-" ++ Text.padNat 2 month ++ "-" ++ Text.padNat 2 day

/-- Text of the time of day down to the minute, `HH:MM`. -/
def clockText (t : Instant) : String :=
  let secs := (t.seconds.fmod 86400).toNat
  Text.padNat 2 (secs / 3600) ++ ":" ++ Text.padNat 2 (secs / 60 % 60)

/-- The RFC 3339 timestamp of an instant in UTC. -/
def text (t : Instant) : String :=
  let secs := (t.seconds.fmod 86400).toNat
  let leap := second ≤ t.nanos
  let sec := secs % 60 + (if leap then 1 else 0)
  let nanos := if leap then t.nanos - second else t.nanos
  t.dateText ++ "T" ++ t.clockText ++ ":" ++ Text.padNat 2 sec ++ fractionText nanos ++ "Z"

end Instant
end Phrasebook
