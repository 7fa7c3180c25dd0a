/-!
# Binary floating point numbers of 64 bits

Finite IEEE 754 `binary64` numbers as exact dyadic rationals. Rounding is done
on ratios of natural numbers, so the result of reading a decimal or of a
product is determined by integer arithmetic alone.

## Main definitions

* `Binary64.ofRatio`: the number nearest to a ratio, ties to even
* `Binary64.ofDecimal`: the number nearest to `digits * 10 ^ exponent`
* `Binary64.text`: the shortest decimal that reads back as the same number
-/
namespace Phrasebook

/-- A finite number `± significand * 2 ^ exponent`. Values built here are
canonical: `significand < 2 ^ 53`, and `2 ^ 52 ≤ significand` unless
`exponent = -1074`. -/
structure Binary64 where
  negative : Bool
  significand : Nat
  exponent : Int
  deriving DecidableEq, Repr, Inhabited

namespace Binary64

/-- The smallest exponent, that of subnormal numbers. -/
def minExponent : Int := -1074

/-- The largest exponent of a finite number. -/
def maxExponent : Int := 971

/-- The least significand of 53 binary digits, `2 ^ 52`. -/
def leastFull : Nat := 4503599627370496

/-- Zero with a sign. -/
def zero (negative : Bool) : Binary64 := ⟨negative, 0, minExponent⟩

/-- Both zeros are one number; otherwise numbers are equal when identical. -/
def same (a b : Binary64) : Bool := (a.significand == 0 && b.significand == 0) || a == b

/-- `num / den * 2 ^ (-e)` as a ratio. -/
private def scaled (num den : Nat) (e : Int) : Nat × Nat :=
  if e ≥ 0 then (num, den * Nat.pow 2 e.toNat) else (num * Nat.pow 2 (-e).toNat, den)

/-- Nearest natural number to a ratio, ties to even. -/
def roundRatio (num den : Nat) : Nat :=
  let q := num / den
  let r := num % den
  if 2 * r > den || (2 * r == den && q % 2 == 1) then q + 1 else q

/-- The finite number nearest to `num / den`, ties to even; `none` when the
ratio rounds past the largest finite number. -/
def ofRatio (negative : Bool) (num den : Nat) : Option Binary64 :=
  if num == 0 || den == 0 then some (zero negative)
  else
    let guess : Int := (Nat.log2 num : Int) - (Nat.log2 den : Int) - 52
    let (n, d) := scaled num den guess
    let e := if n / d < leastFull then guess - 1 else guess
    let e := if e < minExponent then minExponent else e
    let (n, d) := scaled num den e
    let q := roundRatio n d
    let (q, e) := if q ≥ 2 * leastFull then (leastFull, e + 1) else (q, e)
    if e > maxExponent then none else some ⟨negative, q, e⟩

/-- The number as an unsigned ratio. -/
def ratio (x : Binary64) : Nat × Nat :=
  if x.exponent ≥ 0 then (x.significand * Nat.pow 2 x.exponent.toNat, 1)
  else (x.significand, Nat.pow 2 (-x.exponent).toNat)

/-- The number nearest to `digits * 10 ^ exponent`. Exponents far outside the
range are decided without computing the power. -/
def ofDecimal (negative : Bool) (digits : Nat) (exponent : Int) : Option Binary64 :=
  if digits == 0 then some (zero negative)
  else
    let size : Int := ((Nat.toDigits 10 digits).length : Int) + exponent
    if size > 400 then none
    else if size < -400 then some (zero negative)
    else if exponent ≥ 0 then ofRatio negative (digits * Nat.pow 10 exponent.toNat) 1
    else ofRatio negative digits (Nat.pow 10 (-exponent).toNat)

/-- A natural number rounded to the nearest float. -/
def ofNat (negative : Bool) (n : Nat) : Option Binary64 := ofRatio negative n 1

/-- Rounded product; the sign is that of the first factor. -/
def mul (x y : Binary64) : Option Binary64 :=
  let (a, b) := x.ratio
  let (c, d) := y.ratio
  ofRatio x.negative (a * c) (b * d)

/-- Rounded quotient by a nonzero number; the sign is that of the dividend. -/
def div (x y : Binary64) : Option Binary64 :=
  let (a, b) := x.ratio
  let (c, d) := y.ratio
  ofRatio x.negative (a * d) (b * c)

/-! ## Shortest decimals -/

/-- Number of decimal digits in front of the point of a ratio: the `k` with
`10 ^ (k - 1) ≤ num / den < 10 ^ k`. -/
def decimalPoint (num den : Nat) : Int :=
  let guess : Int := ((Nat.log2 num : Int) - (Nat.log2 den : Int)) * 30103 / 100000
  let atLeast (k : Int) : Bool :=
    if k ≥ 0 then num ≥ den * Nat.pow 10 k.toNat else num * Nat.pow 10 (-k).toNat ≥ den
  let start := guess - 2
  start + ((List.range 6).filter fun (i : Nat) => atLeast (start + i)).length

/-- The candidates with `n` digits around a ratio whose point is at `k`, the
nearer one first. -/
def candidates (num den : Nat) (k : Int) (n : Nat) : List Nat :=
  let shift : Int := n - k
  let (a, b) := if shift ≥ 0 then (num * Nat.pow 10 shift.toNat, den)
    else (num, den * Nat.pow 10 (-shift).toNat)
  let q := a / b
  if roundRatio a b == q then [q, q + 1] else [q + 1, q]

/-- Search for the fewest digits that read back as `x`, from `n` on. -/
def shortestFrom (x : Binary64) (num den : Nat) (k : Int) : Nat → Nat → Nat × Int
  | 0, n => ((candidates num den k n).headD 0, k - n)
  | fuel + 1, n =>
    match (candidates num den k n).find? fun c =>
        ofDecimal x.negative c (k - n) == some x with
    | some c => (c, k - n)
    | none => shortestFrom x num den k fuel (n + 1)

/-- Drop trailing zeros of a digit run, counting them into the exponent. -/
def dropZeros : Nat → Nat → Int → Nat × Int
  | 0, c, e => (c, e)
  | fuel + 1, c, e => if c != 0 && c % 10 == 0 then dropZeros fuel (c / 10) (e + 1) else (c, e)

/-- Digits and exponent of the shortest decimal that reads back as a nonzero
number. -/
def shortest (x : Binary64) : Nat × Int :=
  let (num, den) := x.ratio
  let (c, e) := shortestFrom x num den (decimalPoint num den) 17 1
  dropZeros 20 c e

/-- Decimal text: positional between `1e-5` and `1e16`, with an exponent
outside; always marked as a fraction by a point or an exponent. -/
def text (x : Binary64) : String :=
  let sign := if x.negative then "-" else ""
  if x.significand == 0 then sign ++ "0.0"
  else
    let (c, e) := x.shortest
    let digits := Nat.toDigits 10 c
    let point : Int := digits.length + e
    let str (cs : List Char) := String.ofList cs
    let zeros (n : Nat) := List.replicate n '0'
    sign ++
      if 0 ≤ e && point ≤ 16 then str (digits ++ zeros e.toNat) ++ ".0"
      else if 0 < point && point ≤ 16 then
        str (digits.take point.toNat) ++ "." ++ str (digits.drop point.toNat)
      else if -5 < point && point ≤ 0 then
        "0." ++ str (zeros (-point).toNat ++ digits)
      else
        let fraction := digits.drop 1
        let mantissa := str (digits.take 1) ++
          if fraction.isEmpty then "" else "." ++ str fraction
        let power := point - 1
        mantissa ++ "e" ++ (if power < 0 then "-" else "+") ++ toString power.natAbs

end Binary64
end Phrasebook
