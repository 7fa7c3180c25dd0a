import Phrasebook.Text.Basic

/-!
# Places of fields in a document

A violation is shown where its field stands in the text of the document. Fields
are looked for line by line: the key of a field is the last part of its dotted
name, and a line belongs to it if the key and a colon follow the indentation.

## Main definitions

* `Span`: a run of bytes of a text
* `Span.ofKey?`: the first line of a key
* `Span.ofField`: where a field is shown
-/
namespace Phrasebook

/-- A run of bytes of a text. -/
structure Span where
  offset : Nat
  length : Nat
  deriving DecidableEq, Repr

namespace Span

/-- The first line of a text, and at least one byte. -/
def firstLine (content : List Char) : Span :=
  ⟨0, max 1 (Text.utf8Length (content.takeWhile (· != '\n')))⟩

/-- The rest of a line from a key on, if the line starts with the key and a colon
after its white space. -/
def inLine? (key : List Char) (offset : Nat) (line : List Char) : Option Span :=
  let trimmed := Text.trimStartChars line
  if (Text.afterStart? (key ++ [':']) trimmed).isSome then
    some ⟨offset + (Text.utf8Length line - Text.utf8Length trimmed), Text.utf8Length trimmed⟩
  else none

/-- The span of a key in lines that start at `offset` and are one byte apart. -/
def inLines? (key : List Char) (offset : Nat) : List (List Char) → Option Span
  | [] => none
  | line :: rest =>
    match inLine? key offset line with
    | some span => some span
    | none => inLines? key (offset + Text.utf8Length line + 1) rest

/-- The first line of a key. -/
def ofKey? (content key : List Char) : Option Span :=
  inLines? key 0 (Text.linesOf (Text.splitOn '\n' content))

/-- Where a field is shown: at the line of its last part; failing that, at the
line of the part before; failing that, at the first line. -/
def ofField (content : List Char) (field : String) : Span :=
  let parts := (Text.splitOn '.' field.toList).filter fun part => !part.isEmpty
  match parts.reverse.take 2 |>.findSome? (ofKey? content) with
  | some span => span
  | none => firstLine content

end Span
end Phrasebook
