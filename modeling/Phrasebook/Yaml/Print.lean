import Phrasebook.Json.Print

/-!
# Writing values as YAML

Block style with two spaces a level. Texts that would be read as something else
are quoted; texts of several lines become literal blocks.

## Main definitions

* `Yaml.isPlainSafe`: texts that are written as they are
* `Yaml.text`: the YAML text of a value
-/
namespace Phrasebook.Yaml

/-! ## Texts -/

/-- Words that plain scalars read as something else than a text. -/
def reservedWords : List String :=
  ["true", "false", "null", "~", "True", "False", "TRUE", "FALSE", "Null", "NULL"]

/-- Characters that a plain scalar does not start with. -/
def startMarks : List Char :=
  ['-', '&', '*', '!', '|', '>', '%', '@', '\x60', '\x7b', '\x7d', '[', ']', ',', '?', '\'', '"',
    ' ']

/-- Spellings of infinity and of no number. -/
def isSpecialFloat (cs : List Char) : Bool :=
  let word := Text.asciiLower (String.ofList (cs.dropWhile fun c => c = '+' || c = '-'))
  word == ".inf" || word == ".nan"

/-- Whether a text looks like a number: signs, then a digit, perhaps after a point. -/
def looksNumeric (cs : List Char) : Bool :=
  isSpecialFloat cs ||
    match cs.dropWhile fun c => c = '+' || c = '-' with
    | '.' :: d :: _ => Text.isDigit d
    | d :: _ => Text.isDigit d
    | [] => false

/-- Letters, digits and the signs that never need quotes. -/
def isWordChar (c : Char) : Bool :=
  Text.isAsciiAlnum c || c = '_' || c = '-' || c = '.' || c = '/'

/-- Control characters. -/
def isControl (c : Char) : Bool := c.toNat < 0x20 || (0x7F ≤ c.toNat && c.toNat < 0xA0)

/-- Texts that are written as they are. -/
def isPlainSafe (s : String) : Bool :=
  let cs := s.toList
  if cs.isEmpty || reservedWords.contains s || looksNumeric cs then false
  else
    cs.all isWordChar ||
      !(cs.head?.any startMarks.contains || cs.getLast? == some ' ' ||
        cs.any fun c => c = ':' || c = '#' || (isControl c && c != '\t'))

/-- The characters a character stands for inside double quotes. -/
def escape (c : Char) : List Char :=
  if c = '"' then ['\\', '"']
  else if c = '\\' then ['\\', '\\']
  else if c = '\n' then ['\\', 'n']
  else if c = '\r' then ['\\', 'r']
  else if c = '\t' then ['\\', 't']
  else if c.toNat = 0 then ['\\', '0']
  else if isControl c then
    ['\\', 'x', Text.hexDigit (c.toNat / 16), Text.hexDigit (c.toNat % 16)]
  else [c]

/-- A text in double quotes. -/
def quoted (s : String) : String :=
  String.ofList ('"' :: (s.toList.flatMap escape ++ ['"']))

/-- The number of line feeds at the end of a text. -/
def trailingBreaks (s : String) : Nat := (s.toList.reverse.takeWhile (· == '\n')).length

/-- How the line feeds at the end of a text are kept in a literal block. -/
def blockIndicator (s : String) : String :=
  match trailingBreaks s with
  | 0 => "|-"
  | 1 => "|"
  | _ => "|+"

/-- A literal block, its lines `indent` spaces deep. Every line feed at the end of
the text gets a line break of its own. -/
def block (indent : Nat) (s : String) : String :=
  let lines := (Text.lines s).map fun line => "\n" ++ Text.repeated " " indent ++ line
  blockIndicator s ++ String.join lines ++ Text.repeated "\n" (trailingBreaks s)

/-- A text; the lines of a block are `indent` spaces deep. -/
def textValue (indent : Nat) (s : String) : String :=
  if s.toList.contains '\n' then block indent s
  else if isPlainSafe s then s
  else quoted s

/-! ## Values -/

/-- A line break and the indentation of the next line. -/
def newLine (indent : Nat) : String := "\n" ++ Text.repeated " " indent

mutual

/-- The text of a value that stands behind an indicator. Blocks of text and
collections on lines of their own are `indent` spaces deep; `nested` tells whether
the value stands inside an item of a list. -/
def valueAt (nested : Bool) (indent : Nat) : Json → String
  | .null => "null"
  | .bool b => if b then "true" else "false"
  | .num n => n.text
  | .str s => textValue indent s
  | .arr items =>
    if items.isEmpty then "[]" else Text.join (newLine indent) (itemsAt indent items)
  | .obj entries =>
    if entries.isEmpty then "\x7b\x7d"
    else Text.join (newLine indent) (entriesAt nested indent entries)

/-- The texts of the items of a list whose indicators are `indent` spaces deep. -/
def itemsAt (indent : Nat) : List Json → List String
  | [] => []
  | item :: rest => ("- " ++ valueAt true (indent + 2) item) :: itemsAt indent rest

/-- The texts of the entries of a mapping whose keys are `indent` spaces deep. A
collection starts on the next line; inside an item of a list the blank after the
colon is written all the same. -/
def entriesAt (nested : Bool) (indent : Nat) : List (String × Json) → List String
  | [] => []
  | (key, value) :: rest =>
    let lead :=
      match value with
      | .arr (_ :: _) | .obj (_ :: _) => (if nested then " " else "") ++ newLine (indent + 2)
      | _ => " "
    (textValue indent key ++ ":" ++ lead ++ valueAt nested (indent + 2) value) ::
      entriesAt nested indent rest

end

/-- The text of a value, without a final line break of its own. -/
def text (value : Json) : String := valueAt false 0 value

end Phrasebook.Yaml
