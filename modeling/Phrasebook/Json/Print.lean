import Phrasebook.Json.Value
import Phrasebook.Text.Basic

/-!
# Text of JSON values

Compact and indented text. Object entries are printed in their order, which is
that of the keys, so equal values have equal texts.

## Main definitions

* `Json.compact`: text without white space
* `Json.indented`: text with one entry a line, two spaces a level
-/
namespace Phrasebook

namespace Number

/-- Decimal text of a number. -/
def text : Number → String
  | .int n => toString n
  | .float x => x.text

end Number

namespace Json

/-- The characters a character stands for inside a quoted text. -/
def escape (c : Char) : List Char :=
  if c = '"' then ['\\', '"']
  else if c = '\\' then ['\\', '\\']
  else if c = '\n' then ['\\', 'n']
  else if c = '\r' then ['\\', 'r']
  else if c = '\t' then ['\\', 't']
  else if c.toNat = 8 then ['\\', 'b']
  else if c.toNat = 12 then ['\\', 'f']
  else if c.toNat < 0x20 then
    ['\\', 'u', '0', '0', Text.hexDigit (c.toNat / 16), Text.hexDigit (c.toNat % 16)]
  else [c]

/-- A text in double quotes, escaped. -/
def quote (s : String) : String :=
  String.ofList ('"' :: (s.toList.flatMap escape ++ ['"']))

mutual

/-- Text of a value without white space. -/
def compact : Json → String
  | .null => "null"
  | .bool b => if b then "true" else "false"
  | .num n => n.text
  | .str s => quote s
  | .arr items => "[" ++ Text.join "," (compactItems items) ++ "]"
  | .obj entries => "\x7b" ++ Text.join "," (compactEntries entries) ++ "\x7d"

/-- Texts of the items of an array. -/
def compactItems : List Json → List String
  | [] => []
  | x :: xs => compact x :: compactItems xs

/-- Texts of the entries of an object. -/
def compactEntries : List (String × Json) → List String
  | [] => []
  | (k, x) :: xs => (quote k ++ ":" ++ compact x) :: compactEntries xs

end

/-- Brackets around entries, one a line and indented one level deeper than
`depth`; an empty list is just the brackets. -/
def bracketed (opening closing : String) (depth : Nat) (entries : List String) : String :=
  if entries.isEmpty then opening ++ closing
  else
    let inner := "\n" ++ Text.repeated "  " (depth + 1)
    opening ++ inner ++ Text.join ("," ++ inner) entries ++
      "\n" ++ Text.repeated "  " depth ++ closing

mutual

/-- Text of a value over several lines, starting at nesting depth `depth`. -/
def indentedAt (depth : Nat) : Json → String
  | .arr items => bracketed "[" "]" depth (indentedItems (depth + 1) items)
  | .obj entries => bracketed "\x7b" "\x7d" depth (indentedEntries (depth + 1) entries)
  | .null => "null"
  | .bool b => if b then "true" else "false"
  | .num n => n.text
  | .str s => quote s

/-- Texts of the items of an array. -/
def indentedItems (depth : Nat) : List Json → List String
  | [] => []
  | x :: xs => indentedAt depth x :: indentedItems depth xs

/-- Texts of the entries of an object. -/
def indentedEntries (depth : Nat) : List (String × Json) → List String
  | [] => []
  | (k, x) :: xs => (quote k ++ ": " ++ indentedAt depth x) :: indentedEntries depth xs

end

/-- Text of a value over several lines. -/
def indented (value : Json) : String := indentedAt 0 value

end Json
end Phrasebook
