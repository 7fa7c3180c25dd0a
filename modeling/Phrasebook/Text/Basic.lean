/-!
# Text as lists of characters

Plain text operations shared by the readers and printers of the library. They
work on lists of Unicode scalar values, so that every one of them is a
structural recursion, and their `String` forms only convert at the ends.

## Main definitions

* `Text.splitOn`: cut a text at every occurrence of a separator character
* `Text.lines`: the lines of a text, `\n` or `\r\n` terminated
* `Text.trimEnd`, `Text.trimStart`: drop white space at one end
* `Text.utf8Length`: length in bytes
-/
namespace Phrasebook.Text

/-! ## Characters -/

/-- The Unicode `White_Space` property. -/
def isSpace (c : Char) : Bool :=
  let n := c.toNat
  (9 ≤ n && n ≤ 13) || n == 0x20 || n == 0x85 || n == 0xA0 || n == 0x1680 ||
    (0x2000 ≤ n && n ≤ 0x200A) || n == 0x2028 || n == 0x2029 || n == 0x202F ||
    n == 0x205F || n == 0x3000

/-- An ASCII decimal digit. -/
def isDigit (c : Char) : Bool := '0' ≤ c && c ≤ '9'

/-- An ASCII letter or digit. -/
def isAsciiAlnum (c : Char) : Bool :=
  isDigit c || ('a' ≤ c && c ≤ 'z') || ('A' ≤ c && c ≤ 'Z')

/-- The value of a decimal digit; zero for any other character. -/
def digitValue (c : Char) : Nat := if isDigit c then c.toNat - '0'.toNat else 0

/-- The value of a hexadecimal digit of either case. -/
def hexValue? (c : Char) : Option Nat :=
  if '0' ≤ c && c ≤ '9' then some (c.toNat - '0'.toNat)
  else if 'a' ≤ c && c ≤ 'f' then some (c.toNat - 'a'.toNat + 10)
  else if 'A' ≤ c && c ≤ 'F' then some (c.toNat - 'A'.toNat + 10)
  else none

/-- The lower-case hexadecimal digit of a value below sixteen. -/
def hexDigit (n : Nat) : Char :=
  if n < 10 then Char.ofNat ('0'.toNat + n) else Char.ofNat ('a'.toNat + (n - 10))

/-- ASCII letters in lower case; every other character unchanged. -/
def asciiLower (s : String) : String := String.ofList (s.toList.map Char.toLower)

/-! ## Lengths -/

/-- Number of bytes of a text in UTF-8. -/
def utf8Length (cs : List Char) : Nat := cs.foldr (fun c n => c.utf8Size + n) 0

/-- Number of Unicode scalar values of a text. -/
def charCount (s : String) : Nat := s.toList.length

/-! ## Cutting and joining -/

/-- Cut at every `sep`; a text without it is one piece. -/
def splitOn (sep : Char) : List Char → List (List Char)
  | [] => [[]]
  | c :: cs =>
    if c = sep then [] :: splitOn sep cs
    else match splitOn sep cs with
      | [] => [[c]]
      | piece :: pieces => (c :: piece) :: pieces

/-- Cut a string at every `sep`. -/
def split (sep : Char) (s : String) : List String :=
  (splitOn sep s.toList).map String.ofList

/-- Join pieces with a separator between neighbours. -/
def join (sep : String) : List String → String
  | [] => ""
  | [s] => s
  | s :: rest => s ++ sep ++ join sep rest

/-- The text after a given beginning, if the text has that beginning. -/
def afterStart? : List Char → List Char → Option (List Char)
  | [], cs => some cs
  | _ :: _, [] => none
  | p :: ps, c :: cs => if p = c then afterStart? ps cs else none

/-- Whether a text begins with another. -/
def startsWith (s start : String) : Bool := (afterStart? start.toList s.toList).isSome

/-- The text before a given ending, if the text has that ending. -/
def beforeEnd? (ending cs : List Char) : Option (List Char) :=
  (afterStart? ending.reverse cs.reverse).map List.reverse

/-- Whether a text ends with another. -/
def endsWith (s ending : String) : Bool := (beforeEnd? ending.toList s.toList).isSome

/-- Whether a text contains another anywhere. -/
def containsText (needle : List Char) : List Char → Bool
  | [] => needle.isEmpty
  | c :: cs => (afterStart? needle (c :: cs)).isSome || containsText needle cs

/-- The text before and after the first occurrence of a character. -/
def splitFirst? (sep : Char) : List Char → Option (List Char × List Char)
  | [] => none
  | c :: cs =>
    if c = sep then some ([], cs)
    else (splitFirst? sep cs).map fun (before, after) => (c :: before, after)

/-! ## Lines -/

/-- Drop one carriage return at the end. -/
def dropReturn (cs : List Char) : List Char := (beforeEnd? ['\r'] cs).getD cs

/-- Lines of a text cut at `\n`: a terminated line loses the carriage return
before its `\n`, text after the last `\n` is a line of its own unless empty. -/
def linesOf : List (List Char) → List (List Char)
  | [] => []
  | [last] => if last.isEmpty then [] else [last]
  | line :: rest => dropReturn line :: linesOf rest

/-- The lines of a text without their terminators. -/
def lines (s : String) : List String :=
  (linesOf (splitOn '\n' s.toList)).map String.ofList

/-! ## White space at the ends -/

/-- Drop leading white space. -/
def trimStartChars (cs : List Char) : List Char := cs.dropWhile isSpace

/-- Drop trailing white space. -/
def trimEndChars (cs : List Char) : List Char := (cs.reverse.dropWhile isSpace).reverse

/-- Drop leading white space. -/
def trimStart (s : String) : String := String.ofList (trimStartChars s.toList)

/-- Drop trailing white space. -/
def trimEnd (s : String) : String := String.ofList (trimEndChars s.toList)

/-! ## Numbers -/

/-- The number a run of decimal digits denotes. -/
def natOfDigits (cs : List Char) : Nat := cs.foldl (fun n c => n * 10 + digitValue c) 0

/-- Decimal digits of `n`, with zeros in front up to `width`. -/
def padNat (width n : Nat) : String :=
  let digits := Nat.toDigits 10 n
  String.ofList (List.replicate (width - digits.length) '0' ++ digits)

/-- A text repeated `n` times. -/
def repeated (s : String) (n : Nat) : String := String.join (List.replicate n s)

/-- Capitalise ASCII letters; every other character unchanged. -/
def asciiUpper (s : String) : String := String.ofList (s.toList.map Char.toUpper)

end Phrasebook.Text
