import Phrasebook.Json.Value
import Phrasebook.Text.Basic

/-!
# Reading JSON text

A reader for JSON text that reports where it gave up, as a line and a column
counted in bytes. Integers that fit 64 bits stay integers; any other number is
a float, computed from the leading digits that fit 64 bits and a power of ten.

## Main definitions

* `Json.Cursor`: a place in a text
* `Json.SyntaxError`: what is wrong and where
* `Json.read`: the value of a text
-/
namespace Phrasebook.Json

/-! ## Places and errors -/

/-- A place in a text: what is left to read, the line, and the number of bytes
read on that line. -/
structure Cursor where
  rest : List Char
  line : Nat
  column : Nat
  deriving Repr

/-- Ways a text can fail to be JSON. -/
inductive Problem where
  | eofList | eofObject | eofString | eofValue
  | expectedColon | expectedListCommaOrEnd | expectedObjectCommaOrEnd
  | expectedIdent | expectedValue
  | invalidEscape | invalidNumber | numberOutOfRange
  | controlCharacter | keyMustBeString
  | loneSurrogate | unexpectedEndOfHexEscape
  | trailingComma | trailingCharacters | recursionLimit
  | other (text : String)
  deriving DecidableEq, Repr

/-- The wording of a problem. -/
def Problem.text : Problem → String
  | .eofList => "EOF while parsing a list"
  | .eofObject => "EOF while parsing an object"
  | .eofString => "EOF while parsing a string"
  | .eofValue => "EOF while parsing a value"
  | .expectedColon => "expected \x60:\x60"
  | .expectedListCommaOrEnd => "expected \x60,\x60 or \x60]\x60"
  | .expectedObjectCommaOrEnd => "expected \x60,\x60 or \x60\x7d\x60"
  | .expectedIdent => "expected ident"
  | .expectedValue => "expected value"
  | .invalidEscape => "invalid escape"
  | .invalidNumber => "invalid number"
  | .numberOutOfRange => "number out of range"
  | .controlCharacter =>
    "control character (\\u0000-\\u001F) found while parsing a string"
  | .keyMustBeString => "key must be a string"
  | .loneSurrogate => "lone leading surrogate in hex escape"
  | .unexpectedEndOfHexEscape => "unexpected end of hex escape"
  | .trailingComma => "trailing comma"
  | .trailingCharacters => "trailing characters"
  | .recursionLimit => "recursion limit exceeded"
  | .other text => text

/-- A problem and its place. -/
structure SyntaxError where
  problem : Problem
  line : Nat
  column : Nat
  deriving DecidableEq, Repr

/-- The message of a syntax error. -/
def SyntaxError.message (e : SyntaxError) : String :=
  s!"{e.problem.text} at line {e.line} column {e.column}"

namespace Cursor

/-- The start of a text. -/
def ofString (s : String) : Cursor := ⟨s.toList, 1, 0⟩

/-- The place after reading one character. -/
def next (c : Cursor) : Cursor :=
  match c.rest with
  | [] => c
  | ch :: rest =>
    if ch = '\n' then ⟨rest, c.line + 1, 0⟩ else ⟨rest, c.line, c.column + ch.utf8Size⟩

/-- The character at a place. -/
def peek? (c : Cursor) : Option Char := c.rest.head?

/-- A problem with what has been read. -/
def fail (c : Cursor) (problem : Problem) : SyntaxError := ⟨problem, c.line, c.column⟩

/-- A problem with the byte about to be read. -/
def failAhead (c : Cursor) (problem : Problem) : SyntaxError :=
  match c.rest with
  | [] => ⟨problem, c.line, c.column⟩
  | ch :: _ =>
    if ch = '\n' then ⟨problem, c.line + 1, 0⟩ else ⟨problem, c.line, c.column + 1⟩

/-- White space between tokens. -/
def isBlank (ch : Char) : Bool := ch = ' ' || ch = '\n' || ch = '\t' || ch = '\r'

/-- Skip white space in a list of characters, keeping track of the place. -/
def skipBlankFrom : List Char → Nat → Nat → Cursor
  | [], line, column => ⟨[], line, column⟩
  | ch :: rest, line, column =>
    if ch = '\n' then skipBlankFrom rest (line + 1) 0
    else if isBlank ch then skipBlankFrom rest line (column + 1)
    else ⟨ch :: rest, line, column⟩

/-- The next place that holds no white space. -/
def skipBlank (c : Cursor) : Cursor := skipBlankFrom c.rest c.line c.column

end Cursor

/-- A reader: a value and the place after it, or an error. -/
abbrev Reader (α : Type) := Cursor → Except SyntaxError (α × Cursor)

/-! ## Numbers -/

/-- Bound of the digits kept exactly, `2 ^ 64`. -/
def digitLimit : Nat := 18446744073709551616

/-- Bound of the size of a negative integer, `2 ^ 63`; larger ones are floats. -/
def negativeLimit : Nat := 9223372036854775808

/-- Exponents from here on, `2 ^ 31`, are not computed with. -/
def exponentLimit : Nat := 2147483648

/-- Scale a run of digits by a power of ten in steps that floats can take, as
long as any step keeps the number finite. -/
def scaleBy : Nat → Binary64 → Int → Option Binary64
  | 0, _, _ => none
  | fuel + 1, x, e =>
    if e.natAbs ≤ 308 then do
      let power ← Binary64.ofDecimal false 1 e.natAbs
      if e ≥ 0 then x.mul power else x.div power
    else if x.significand == 0 then some x
    else if e ≥ 0 then none
    else do
      let power ← Binary64.ofDecimal false 1 308
      let y ← x.div power
      scaleBy fuel y (e + 308)

/-- The float with the given leading digits and exponent. -/
def floatOf (negative : Bool) (digits : Nat) (exponent : Int) : Option Binary64 := do
  let x ← Binary64.ofNat negative digits
  -- After four steps of 308 every number is zero, so this exponent is as good as any lower.
  scaleBy 8 x (if exponent < -2000 then -2000 else exponent)

/-- Skip decimal digits, counting them. -/
def skipDigits : Nat → Cursor → Nat → Cursor × Nat
  | 0, c, n => (c, n)
  | fuel + 1, c, n =>
    match c.peek? with
    | some ch => if Text.isDigit ch then skipDigits fuel c.next (n + 1) else (c, n)
    | none => (c, n)

/-- Read decimal digits as long as the number stays below the limit. The flag
tells whether a further digit would have passed it. -/
def takeDigits : Nat → Cursor → Nat → Nat → Cursor × Nat × Nat × Bool
  | 0, c, digits, n => (c, digits, n, false)
  | fuel + 1, c, digits, n =>
    match c.peek? with
    | some ch =>
      if Text.isDigit ch then
        let more := digits * 10 + Text.digitValue ch
        if more ≥ digitLimit then (c, digits, n, true)
        else takeDigits fuel c.next more (n + 1)
      else (c, digits, n, false)
    | none => (c, digits, n, false)

/-- Read the digits of an exponent, each number above the limit counting as the
limit. -/
def exponentDigits : Nat → Cursor → Nat → Nat × Cursor
  | 0, c, n => (n, c)
  | fuel + 1, c, n =>
    match c.peek? with
    | some ch =>
      if Text.isDigit ch then
        exponentDigits fuel c.next (min (n * 10 + Text.digitValue ch) digitLimit)
      else (n, c)
    | none => (n, c)

/-- The float of digits and exponent, or an error at the place after it. -/
def finishFloat (negative : Bool) (digits : Nat) (exponent : Int) (c : Cursor) :
    Except SyntaxError (Number × Cursor) :=
  match floatOf negative digits exponent with
  | some x => .ok (.float x, c)
  | none => .error (c.fail .numberOutOfRange)

/-- Read an exponent part from its `e` on. -/
def readExponent (negative : Bool) (digits : Nat) (exponent : Int) (c : Cursor) :
    Except SyntaxError (Number × Cursor) := do
  let c := c.next
  let (minus, c) := match c.peek? with
    | some '+' => (false, c.next)
    | some '-' => (true, c.next)
    | _ => (false, c)
  match c.peek? with
  | none => .error (c.fail .eofValue)
  | some ch =>
    if !Text.isDigit ch then .error (c.next.fail .invalidNumber)
    else
      let (n, c) := exponentDigits c.rest.length c 0
      if n ≥ exponentLimit then
        if digits != 0 && !minus then .error (c.fail .numberOutOfRange)
        else .ok (.float (Binary64.zero negative), c)
      else finishFloat negative digits (if minus then exponent - n else exponent + n) c

/-- Read what follows the digits of a fraction. -/
def afterDigits (negative : Bool) (digits : Nat) (exponent : Int) (c : Cursor) :
    Except SyntaxError (Number × Cursor) :=
  match c.peek? with
  | some 'e' | some 'E' => readExponent negative digits exponent c
  | _ => finishFloat negative digits exponent c

/-- Read a fraction from its point on. -/
def readFraction (negative : Bool) (digits : Nat) (exponent : Int) (c : Cursor) :
    Except SyntaxError (Number × Cursor) :=
  let c := c.next
  let (c, digits, n, more) := takeDigits c.rest.length c digits 0
  if more then
    let (c, _) := skipDigits c.rest.length c 0
    afterDigits negative digits (exponent - n) c
  else if n == 0 then
    match c.peek? with
    | some _ => .error (c.failAhead .invalidNumber)
    | none => .error (c.failAhead .eofValue)
  else afterDigits negative digits (exponent - n) c

/-- Read a number after its sign. -/
def readNumber (negative : Bool) (c : Cursor) : Except SyntaxError (Number × Cursor) :=
  match c.peek? with
  | none => .error (c.fail .eofValue)
  | some ch =>
    if !Text.isDigit ch then .error (c.next.fail .invalidNumber)
    else
      let (c, digits, _, more) :=
        if ch = '0' then (c.next, 0, 1, false) else takeDigits c.rest.length c 0 0
      if ch = '0' && (c.peek?.any Text.isDigit) then .error (c.failAhead .invalidNumber)
      else if more then
        let (c, n) := skipDigits c.rest.length c 0
        match c.peek? with
        | some '.' => readFraction negative digits n c
        | _ => afterDigits negative digits n c
      else
        match c.peek? with
        | some '.' => readFraction negative digits 0 c
        | some 'e' | some 'E' => readExponent negative digits 0 c
        | _ =>
          if !negative then .ok (.int digits, c)
          else if digits == 0 || digits > negativeLimit then
            match Binary64.ofNat true digits with
            | some x => .ok (.float x, c)
            | none => .error (c.fail .numberOutOfRange)
          else .ok (.int (-(digits : Int)), c)

/-! ## Strings -/

/-- Read four hexadecimal digits. -/
def readHex (c : Cursor) : Except SyntaxError (Nat × Cursor) :=
  match c.rest with
  | a :: b :: d :: e :: _ =>
    let after := c.next.next.next.next
    match Text.hexValue? a, Text.hexValue? b, Text.hexValue? d, Text.hexValue? e with
    | some a, some b, some d, some e => .ok (((a * 16 + b) * 16 + d) * 16 + e, after)
    | _, _, _, _ => .error (after.fail .invalidEscape)
  | [_, _, _] => .error (c.next.next.next.fail .eofString)
  | [_, _] => .error (c.next.next.fail .eofString)
  | [_] => .error (c.next.fail .eofString)
  | [] => .error (c.fail .eofString)

/-- Read an escape sequence after its backslash. -/
def readEscape (c : Cursor) : Except SyntaxError (Char × Cursor) :=
  match c.peek? with
  | none => .error (c.fail .eofString)
  | some ch =>
    let after := c.next
    match ch with
    | '"' => .ok ('"', after)
    | '\\' => .ok ('\\', after)
    | '/' => .ok ('/', after)
    | 'b' => .ok (Char.ofNat 8, after)
    | 'f' => .ok (Char.ofNat 12, after)
    | 'n' => .ok ('\n', after)
    | 'r' => .ok ('\r', after)
    | 't' => .ok ('\t', after)
    | 'u' => do
      let (high, c) ← readHex after
      if 0xDC00 ≤ high && high ≤ 0xDFFF then .error (c.fail .loneSurrogate)
      else if 0xD800 ≤ high && high ≤ 0xDBFF then
        match c.rest with
        | '\\' :: 'u' :: _ => do
          let (low, c) ← readHex c.next.next
          if 0xDC00 ≤ low && low ≤ 0xDFFF then
            .ok (Char.ofNat (0x10000 + (high - 0xD800) * 0x400 + (low - 0xDC00)), c)
          else .error (c.fail .loneSurrogate)
        | '\\' :: _ => .error (c.next.next.fail .unexpectedEndOfHexEscape)
        | [] => .error (c.fail .eofString)
        | _ => .error (c.next.fail .unexpectedEndOfHexEscape)
      else .ok (Char.ofNat high, c)
    | _ => .error (after.fail .invalidEscape)

/-- Read a string after its opening quote; `acc` holds the characters read so
far, last first. -/
def readStringFrom : Nat → Cursor → List Char → Except SyntaxError (String × Cursor)
  | 0, c, _ => .error (c.fail .eofString)
  | fuel + 1, c, acc =>
    match c.peek? with
    | none => .error (c.fail .eofString)
    | some ch =>
      if ch = '"' then .ok (String.ofList acc.reverse, c.next)
      else if ch = '\\' then do
        let (escaped, c) ← readEscape c.next
        readStringFrom fuel c (escaped :: acc)
      else if ch.toNat < 0x20 then .error (c.next.fail .controlCharacter)
      else readStringFrom fuel c.next (ch :: acc)

/-- Read a string after its opening quote. -/
def readString (c : Cursor) : Except SyntaxError (String × Cursor) :=
  readStringFrom (c.rest.length + 1) c []

/-! ## Values -/

/-- Read the rest of a word whose first letter has been seen. -/
def readWord (value : Json) : List Char → Reader Json
  | [], c => .ok (value, c)
  | w :: ws, c =>
    match c.peek? with
    | none => .error (c.fail .eofValue)
    | some ch => if ch = w then readWord value ws c.next else .error (c.next.fail .expectedIdent)

/-- The colon after a key. -/
def readColon (c : Cursor) : Except SyntaxError Cursor :=
  let c := c.skipBlank
  match c.peek? with
  | some ':' => .ok c.next
  | some _ => .error (c.failAhead .expectedColon)
  | none => .error (c.failAhead .eofObject)

/-- The place of the next item of an array, or of its closing bracket. -/
def nextItem (first : Bool) (c : Cursor) : Except SyntaxError (Bool × Cursor) :=
  let c := c.skipBlank
  match c.peek? with
  | none => .error (c.failAhead .eofList)
  | some ']' => .ok (false, c)
  | some ch =>
    if first then .ok (true, c)
    else if ch = ',' then
      let c := c.next.skipBlank
      match c.peek? with
      | some ']' => .error (c.failAhead .trailingComma)
      | some _ => .ok (true, c)
      | none => .error (c.failAhead .eofValue)
    else .error (c.failAhead .expectedListCommaOrEnd)

/-- The next key of an object, `none` at its closing brace. -/
def nextKey (first : Bool) (c : Cursor) : Except SyntaxError (Option String × Cursor) :=
  let c := c.skipBlank
  let key (c : Cursor) : Except SyntaxError (Option String × Cursor) :=
    match c.peek? with
    | some '"' => (readString c.next).map fun (s, c) => (some s, c)
    | some '\x7d' => .error (c.failAhead .trailingComma)
    | some _ => .error (c.failAhead .keyMustBeString)
    | none => .error (c.failAhead .eofValue)
  match c.peek? with
  | none => .error (c.failAhead .eofObject)
  | some '\x7d' => .ok (none, c)
  | some ch =>
    if first then key c
    else if ch = ',' then key c.next.skipBlank
    else .error (c.failAhead .expectedObjectCommaOrEnd)

mutual

/-- Read a value; `depth` more levels may be opened. -/
def readValue : Nat → Nat → Reader Json
  | 0, _, c => .error (c.failAhead .recursionLimit)
  | fuel + 1, depth, c =>
    let c := c.skipBlank
    match c.peek? with
    | none => .error (c.failAhead .eofValue)
    | some 'n' => readWord .null ['u', 'l', 'l'] c.next
    | some 't' => readWord (.bool true) ['r', 'u', 'e'] c.next
    | some 'f' => readWord (.bool false) ['a', 'l', 's', 'e'] c.next
    | some '-' => (readNumber true c.next).map fun (n, c) => (.num n, c)
    | some '"' => (readString c.next).map fun (s, c) => (.str s, c)
    | some '[' =>
      if depth ≤ 1 then .error (c.failAhead .recursionLimit)
      else readItems fuel (depth - 1) true [] c.next
    | some '\x7b' =>
      if depth ≤ 1 then .error (c.failAhead .recursionLimit)
      else readEntries fuel (depth - 1) true [] c.next
    | some ch =>
      if Text.isDigit ch then (readNumber false c).map fun (n, c) => (.num n, c)
      else .error (c.failAhead .expectedValue)

/-- Read the items of an array up to its closing bracket. -/
def readItems : Nat → Nat → Bool → List Json → Reader Json
  | 0, _, _, _, c => .error (c.failAhead .recursionLimit)
  | fuel + 1, depth, first, acc, c => do
    let (more, c) ← nextItem first c
    if more then
      let (item, c) ← readValue fuel depth c
      readItems fuel depth false (item :: acc) c
    else .ok (.arr acc.reverse, c.next)

/-- Read the entries of an object up to its closing brace. -/
def readEntries : Nat → Nat → Bool → Fields → Reader Json
  | 0, _, _, _, c => .error (c.failAhead .recursionLimit)
  | fuel + 1, depth, first, acc, c => do
    match ← nextKey first c with
    | (none, c) => .ok (.obj acc, c.next)
    | (some key, c) =>
      let c ← readColon c
      let (value, c) ← readValue fuel depth c
      readEntries fuel depth false (Fields.insert key value acc) c

end

/-- Nesting allowed in a text. -/
def depthLimit : Nat := 128

/-- Only white space may follow a value. -/
def readEnd (c : Cursor) : Except SyntaxError Unit :=
  let c := c.skipBlank
  match c.peek? with
  | none => .ok ()
  | some _ => .error (c.failAhead .trailingCharacters)

/-- The value a text denotes. -/
def read (s : String) : Except SyntaxError Json := do
  let c := Cursor.ofString s
  let (value, c) ← readValue (2 * c.rest.length + 4) depthLimit c
  readEnd c
  .ok value

end Phrasebook.Json
