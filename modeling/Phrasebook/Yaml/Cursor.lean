import Phrasebook.Text.Basic

/-!
# Places in a YAML text

Where a reader of YAML stands, what can be wrong with a text, and how blank
space is passed over. Line breaks are single `\n` characters here; a text is
brought into that form first.

## Main definitions

* `Yaml.Problem`: ways a text can fail to be YAML, with their wording
* `Yaml.Cursor`: a place in a text
* `Yaml.Gap`: the blank space, comments and line breaks between two tokens
-/
namespace Phrasebook.Yaml

/-- Ways a text can fail to be YAML. -/
inductive Problem where
  /-- A tab where spaces have to indent. -/
  | tabIndentation
  /-- A value indicator where no key can stand. -/
  | mappingValue
  /-- A sequence entry where no block collection can start. -/
  | blockEntry
  /-- A line that is aligned with nothing. -/
  | indentation
  /-- An alias of an anchor that the text has not defined before. -/
  | unknownAlias (name : String)
  /-- A character that nothing can start or go on with. -/
  | unexpected
  /-- The text ends inside a quoted scalar or a flow collection. -/
  | unexpectedEnd
  /-- An escape sequence that stands for nothing. -/
  | badEscape
  /-- A value that its tag does not admit. -/
  | tagMismatch (tag : String)
  /-- A key that is no scalar. -/
  | keyNotScalar
  /-- A merge of something that is no mapping. -/
  | badMerge
  /-- Collections nested too deeply. -/
  | tooDeep
  deriving DecidableEq, Repr

/-- The wording of a problem. -/
def Problem.message : Problem → String
  | .tabIndentation => "found a tab character where an indentation space is expected"
  | .mappingValue => "mapping values are not allowed in this context"
  | .blockEntry => "block sequence entries are not allowed in this context"
  | .indentation => "inconsistent indentation"
  | .unknownAlias name => s!"unknown anchor: {name}"
  | .unexpected => "unexpected character"
  | .unexpectedEnd => "unexpected end of document"
  | .badEscape => "unknown escape character"
  | .tagMismatch tag => s!"value does not fit its tag {tag}"
  | .keyNotScalar => "mapping keys must be scalars"
  | .badMerge => "expected a mapping or a list of mappings for merging"
  | .tooDeep => "nesting is too deep"

/-! ## Characters -/

/-- Blank space inside a line. -/
def isBlank (ch : Char) : Bool := ch = ' ' || ch = '\t'

/-- Punctuation of flow collections. -/
def isFlowMark (ch : Char) : Bool :=
  ch = ',' || ch = '[' || ch = ']' || ch = '\x7b' || ch = '\x7d'

/-- Whether a word ends here: before blank space, a line break or the end. -/
def endsWord : List Char → Bool
  | [] => true
  | ch :: _ => isBlank ch || ch = '\n'

/-- Write every line break as `\n`. -/
def unifyBreaks : List Char → List Char
  | [] => []
  | '\r' :: '\n' :: rest => '\n' :: unifyBreaks rest
  | '\r' :: rest => '\n' :: unifyBreaks rest
  | ch :: rest => ch :: unifyBreaks rest

/-- A text without the byte order mark it may start with. -/
def dropMark : List Char → List Char
  | ch :: rest => if ch.toNat = 0xFEFF then rest else ch :: rest
  | [] => []

/-! ## Places -/

/-- A place in a text: what is left to read, the number of line breaks before it
and the number of characters before it on its line. -/
structure Cursor where
  rest : List Char
  line : Nat
  column : Nat
  deriving Repr

namespace Cursor

/-- The start of a text. -/
def ofString (s : String) : Cursor := ⟨unifyBreaks (dropMark s.toList), 0, 0⟩

/-- The place after one character. -/
def next (c : Cursor) : Cursor :=
  match c.rest with
  | [] => c
  | ch :: rest => if ch = '\n' then ⟨rest, c.line + 1, 0⟩ else ⟨rest, c.line, c.column + 1⟩

/-- The place `n` characters further on the same line. -/
def forward (c : Cursor) (n : Nat) : Cursor := ⟨c.rest.drop n, c.line, c.column + n⟩

/-- The character at a place. -/
def peek? (c : Cursor) : Option Char := c.rest.head?

/-- The place after the blank space of the line. -/
def skipBlanks (c : Cursor) : Cursor := c.forward (c.rest.takeWhile isBlank).length

/-- Whether a document marker, `---` or `...`, starts here. -/
def atMarker (c : Cursor) : Bool :=
  c.column == 0 &&
    match c.rest with
    | '-' :: '-' :: '-' :: after => endsWord after
    | '.' :: '.' :: '.' :: after => endsWord after
    | _ => false

/-- Whether the document ends here. -/
def atEnd (c : Cursor) : Bool := c.rest.isEmpty || c.atMarker

/-- Whether a given indicator starts here that needs blank space after it. -/
def atIndicator (c : Cursor) (indicator : Char) : Bool :=
  match c.rest with
  | ch :: after => ch == indicator && endsWord after
  | [] => false

end Cursor

/-! ## Gaps -/

/-- What lies between two tokens: the place of the second one, whether it is the
first of its line, how many spaces that line starts with, and whether a tab
stands on the line before the token. -/
structure Gap where
  cursor : Cursor
  fresh : Bool
  indent : Nat
  tabbed : Bool

/-- Pass over blank space, line breaks and comments. `blank` tells whether a
comment may start at once, `comment` whether one is being passed over. -/
def skipGapFrom : List Char → Nat → Nat → (fresh : Bool) → (indent : Nat) → (tabbed : Bool) →
    (blank : Bool) → (comment : Bool) → Gap
  | [], line, column, fresh, indent, tabbed, _, _ => ⟨⟨[], line, column⟩, fresh, indent, tabbed⟩
  | ch :: rest, line, column, fresh, indent, tabbed, blank, comment =>
    if ch = '\n' then skipGapFrom rest (line + 1) 0 true 0 false true false
    else if comment then skipGapFrom rest line (column + 1) fresh indent tabbed true true
    else if ch = ' ' then
      skipGapFrom rest line (column + 1) fresh (if tabbed then indent else indent + 1) tabbed
        true false
    else if ch = '\t' then skipGapFrom rest line (column + 1) fresh indent true true false
    else if ch = '#' && blank then
      skipGapFrom rest line (column + 1) fresh indent tabbed true true
    else ⟨⟨ch :: rest, line, column⟩, fresh, indent, tabbed⟩

/-- The gap after a place. At the start of a line the gap belongs to that line. -/
def Cursor.gap (c : Cursor) : Gap :=
  skipGapFrom c.rest c.line c.column (c.column == 0) 0 false (c.column == 0) false

end Phrasebook.Yaml
