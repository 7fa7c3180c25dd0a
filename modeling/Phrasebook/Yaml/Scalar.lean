import Phrasebook.Yaml.Cursor

/-!
# Scalars of YAML

Texts in their five spellings: plain, in single or double quotes, and as
literal or folded blocks. Lines of one scalar are folded: a single line break
stands for a space, and `k + 1` of them for `k` line feeds.

## Main definitions

* `Yaml.plainLine`, `Yaml.readPlain`: scalars without quotes
* `Yaml.readSingle`, `Yaml.readDouble`: quoted scalars
* `Yaml.readBlockText`: literal and folded blocks
-/
namespace Phrasebook.Yaml

/-- What a run of line breaks between two words of a scalar stands for. -/
def foldBreaks (breaks : Nat) : List Char :=
  if breaks == 1 then [' '] else List.replicate (breaks - 1) '\n'

/-! ## Plain scalars -/

/-- Whether a plain scalar can start here. -/
def startsPlain (flow : Bool) : List Char → Bool
  | [] => false
  | ch :: rest =>
    if ch = '-' || ch = '?' || ch = ':' then
      !endsWord rest && !(flow && rest.head?.any isFlowMark)
    else
      !(isFlowMark ch || isBlank ch || ch = '\n' || ch = '#' || ch = '&' || ch = '*' ||
        ch = '!' || ch = '|' || ch = '>' || ch = '\'' || ch = '"')

/-- The characters of a plain scalar up to the end of its line, a comment, a
value indicator or, in flow collections, their punctuation. -/
def plainRun (flow : Bool) : (blank : Bool) → List Char → List Char
  | _, [] => []
  | blank, ch :: rest =>
    if ch = '\n' || (ch = '#' && blank) || (flow && isFlowMark ch) then []
    else if ch = ':' && (endsWord rest || (flow && rest.head?.any isFlowMark)) then []
    else ch :: plainRun flow (isBlank ch) rest

/-- Drop blank space at the end. -/
def trimBlanksEnd (cs : List Char) : List Char := (cs.reverse.dropWhile isBlank).reverse

/-- The part of a plain scalar on the line of a place, and the place after it. -/
def plainLine (flow : Bool) (c : Cursor) : List Char × Cursor :=
  let text := trimBlanksEnd (plainRun flow false c.rest)
  (text, c.forward text.length)

/-- Pass over blank space and line breaks, counting the breaks and the spaces
that start the last line. -/
def skipBreaks : List Char → Nat → Nat → (breaks : Nat) → (indent : Nat) → (tabbed : Bool) →
    Nat × Nat × Cursor
  | [], line, column, breaks, indent, _ => (breaks, indent, ⟨[], line, column⟩)
  | ch :: rest, line, column, breaks, indent, tabbed =>
    if ch = '\n' then skipBreaks rest (line + 1) 0 (breaks + 1) 0 false
    else if ch = ' ' then
      skipBreaks rest line (column + 1) breaks (if tabbed then indent else indent + 1) tabbed
    else if ch = '\t' then skipBreaks rest line (column + 1) breaks indent true
    else (breaks, indent, ⟨ch :: rest, line, column⟩)

/-- Read further lines of a plain scalar; `acc` holds its characters so far, last
first. A line belongs to it if it is indented deeper than `parent`. -/
def plainLines (flow : Bool) (parent : Int) : Nat → List Char → Cursor → List Char × Cursor
  | 0, acc, c => (acc, c)
  | fuel + 1, acc, c =>
    let (breaks, indent, d) := skipBreaks c.rest c.line c.column 0 0 false
    if breaks == 0 || d.atEnd || d.peek? == some '#' || (!flow && (indent : Int) ≤ parent) then
      (acc, c)
    else
      match plainLine flow d with
      | ([], _) => (acc, c)
      | (text, after) =>
        plainLines flow parent fuel (text.reverse ++ (foldBreaks breaks).reverse ++ acc) after

/-- Read a plain scalar. -/
def readPlain (flow : Bool) (parent : Int) (c : Cursor) : String × Cursor :=
  let (first, after) := plainLine flow c
  let (acc, c) := plainLines flow parent c.rest.length first.reverse after
  (String.ofList acc.reverse, c)

/-! ## Quoted scalars -/

/-- What a quoted scalar is made of. -/
inductive Piece where
  /-- A character as written; blank space next to a line break does not count. -/
  | written (ch : Char)
  /-- A character by its escape sequence. -/
  | escaped (ch : Char)
  /-- A line break. -/
  | break
  /-- An escaped line break, which stands for nothing. -/
  | join

/-- The text so far of a quoted scalar: its characters, last first, the blank
space at its end that may turn out not to count, and the line breaks since. -/
structure Folding where
  text : List Char
  pending : List Char
  /-- Line breaks passed, and whether the first of them was escaped. -/
  breaks? : Option (Nat × Bool)

namespace Folding

/-- Nothing read yet. -/
def start : Folding := ⟨[], [], none⟩

/-- Put what the line breaks stand for behind the text. -/
def flush (f : Folding) : Folding :=
  match f.breaks? with
  | none => ⟨f.pending ++ f.text, [], none⟩
  | some (n, true) => ⟨List.replicate n '\n' ++ f.text, [], none⟩
  | some (n, false) => ⟨foldBreaks n ++ f.text, [], none⟩

/-- Add one piece. -/
def add (f : Folding) : Piece → Folding
  | .written ch =>
    if isBlank ch then
      if f.breaks?.isSome then f else { f with pending := ch :: f.pending }
    else { f.flush with text := ch :: f.flush.text }
  | .escaped ch => { f.flush with text := ch :: f.flush.text }
  | .break =>
    match f.breaks? with
    | some (n, escaped) => { f with breaks? := some (n + 1, escaped) }
    | none => ⟨f.text, [], some (1, false)⟩
  | .join => ⟨f.flush.text, [], some (0, true)⟩

/-- The whole text. -/
def finish (f : Folding) : String := String.ofList f.flush.text.reverse

end Folding

/-- Whether a line of a quoted scalar may start here: not before the indentation
of its collection, and not with a document marker. -/
def quotedLineAllowed (parent : Int) (c : Cursor) : Bool :=
  let spaces := (c.rest.takeWhile (· == ' ')).length
  match c.skipBlanks.rest with
  | [] => true
  | ch :: _ => ch == '\n' || ((spaces : Int) > parent && !c.atMarker)

/-- Read a scalar in single quotes after the opening one. -/
def readSingleFrom (parent : Int) : Nat → Folding → Cursor → Except Problem (String × Cursor)
  | 0, _, _ => .error .unexpectedEnd
  | fuel + 1, f, c =>
    match c.rest with
    | [] => .error .unexpectedEnd
    | '\'' :: '\'' :: _ => readSingleFrom parent fuel (f.add (.escaped '\'')) (c.forward 2)
    | '\'' :: _ => .ok (f.finish, c.next)
    | '\n' :: _ =>
      if quotedLineAllowed parent c.next then readSingleFrom parent fuel (f.add .break) c.next
      else .error .indentation
    | ch :: _ => readSingleFrom parent fuel (f.add (.written ch)) c.next

/-- The number that hexadecimal digits denote, if they are all such. -/
def hexNumber? (digits : List Char) : Option Nat :=
  digits.foldl (fun n? ch => do return (← n?) * 16 + (← Text.hexValue? ch)) (some 0)

/-- Read exactly `count` hexadecimal digits. -/
def readHex (count : Nat) (c : Cursor) : Except Problem (Nat × Cursor) :=
  let digits := c.rest.take count
  match hexNumber? digits with
  | some n => if digits.length == count then .ok (n, c.forward count) else .error .badEscape
  | none => .error .badEscape

/-- Read a code point of `count` hexadecimal digits. A leading surrogate needs
the escape of a trailing one behind it, and both are one character. -/
def readCodePoint (count : Nat) (c : Cursor) : Except Problem (Piece × Cursor) := do
  let (n, c) ← readHex count c
  if 0xD800 ≤ n && n ≤ 0xDBFF then
    match c.rest with
    | '\\' :: 'u' :: _ =>
      let (low, c) ← readHex 4 (c.forward 2)
      if 0xDC00 ≤ low && low ≤ 0xDFFF then
        .ok (.escaped (Char.ofNat (0x10000 + (n - 0xD800) * 0x400 + (low - 0xDC00))), c)
      else .error .badEscape
    | _ => .error .badEscape
  else if n.isValidChar then .ok (.escaped (Char.ofNat n), c)
  else .error .badEscape

/-- The character of an escape sequence of one letter. -/
def shortEscape? (ch : Char) : Option Char :=
  match ch with
  | '0' => some (Char.ofNat 0)
  | 'a' => some (Char.ofNat 7)
  | 'b' => some (Char.ofNat 8)
  | 't' | '\t' => some '\t'
  | 'n' => some '\n'
  | 'v' => some (Char.ofNat 11)
  | 'f' => some (Char.ofNat 12)
  | 'r' => some '\r'
  | 'e' => some (Char.ofNat 27)
  | ' ' => some ' '
  | '"' => some '"'
  | '/' => some '/'
  | '\\' => some '\\'
  | 'N' => some (Char.ofNat 0x85)
  | '_' => some (Char.ofNat 0xA0)
  | 'L' => some (Char.ofNat 0x2028)
  | 'P' => some (Char.ofNat 0x2029)
  | _ => none

/-- Read an escape sequence after its backslash. -/
def readEscape (c : Cursor) : Except Problem (Piece × Cursor) :=
  match c.rest with
  | [] => .error .unexpectedEnd
  | '\n' :: _ => .ok (.join, c.next)
  | 'x' :: _ => readCodePoint 2 c.next
  | 'u' :: _ => readCodePoint 4 c.next
  | 'U' :: _ => readCodePoint 8 c.next
  | ch :: _ =>
    match shortEscape? ch with
    | some plain => .ok (.escaped plain, c.next)
    | none => .error .badEscape

/-- Read a scalar in double quotes after the opening one. -/
def readDoubleFrom (parent : Int) : Nat → Folding → Cursor → Except Problem (String × Cursor)
  | 0, _, _ => .error .unexpectedEnd
  | fuel + 1, f, c =>
    match c.rest with
    | [] => .error .unexpectedEnd
    | '"' :: _ => .ok (f.finish, c.next)
    | '\\' :: _ => do
      let (piece, after) ← readEscape c.next
      if after.column == 0 && !quotedLineAllowed parent after then .error .indentation
      else readDoubleFrom parent fuel (f.add piece) after
    | '\n' :: _ =>
      if quotedLineAllowed parent c.next then readDoubleFrom parent fuel (f.add .break) c.next
      else .error .indentation
    | ch :: _ => readDoubleFrom parent fuel (f.add (.written ch)) c.next

/-- Read a scalar in single quotes from the opening one on. -/
def readSingle (parent : Int) (c : Cursor) : Except Problem (String × Cursor) :=
  readSingleFrom parent (c.rest.length + 1) .start c.next

/-- Read a scalar in double quotes from the opening one on. -/
def readDouble (parent : Int) (c : Cursor) : Except Problem (String × Cursor) :=
  readDoubleFrom parent (c.rest.length + 1) .start c.next

/-! ## Block scalars -/

/-- What happens to the line breaks at the end of a block. -/
inductive Chomping where
  /-- All are dropped. -/
  | strip
  /-- One is kept if there is one. -/
  | clip
  /-- All are kept. -/
  | keep
  deriving DecidableEq, Repr

/-- The header of a block: how it is chomped and how deep it says it is indented. -/
structure BlockHeader where
  chomping : Chomping
  step? : Option Nat

/-- Read the two indicators that may follow `|` or `>`, in either order. -/
def readIndicators (c : Cursor) : BlockHeader × Cursor :=
  let chomping? (c : Cursor) : Option Chomping :=
    match c.peek? with
    | some '-' => some .strip
    | some '+' => some .keep
    | _ => none
  let step? (c : Cursor) : Option Nat :=
    match c.peek? with
    | some ch => if '1' ≤ ch && ch ≤ '9' then some (Text.digitValue ch) else none
    | none => none
  match chomping? c with
  | some chomping =>
    match step? c.next with
    | some n => (⟨chomping, some n⟩, c.next.next)
    | none => (⟨chomping, none⟩, c.next)
  | none =>
    match step? c with
    | some n =>
      match chomping? c.next with
      | some chomping => (⟨chomping, some n⟩, c.next.next)
      | none => (⟨.clip, some n⟩, c.next)
    | none => (⟨.clip, none⟩, c)

/-- The lines of a block read so far, last first, how deep it is indented if that
is known, and the spaces of the longest blank line while it is not. -/
structure BlockLines where
  lines : List (List Char)
  indent? : Option Nat
  blankWidth : Nat
  /-- Whether the last line ends with a line break. -/
  terminated : Bool

/-- Read the lines of a block from the start of a line on. -/
def readBlockLines (parent : Int) : Nat → BlockLines → Cursor →
    Except Problem (BlockLines × Cursor)
  | 0, b, c => .ok (b, c)
  | fuel + 1, b, c =>
    if c.atEnd then .ok (b, c)
    else
      let spaces := (c.rest.takeWhile (· == ' ')).length
      let content := c.rest.drop spaces
      let line := c.rest.takeWhile (· != '\n')
      let after := (c.forward line.length).next
      let more (text : List Char) (indent? : Option Nat) : BlockLines :=
        ⟨text :: b.lines, indent?, max b.blankWidth spaces,
          !(c.rest.drop line.length).isEmpty⟩
      match b.indent? with
      | some indent =>
        match content with
        | [] | '\n' :: _ => readBlockLines parent fuel (more (line.drop indent) b.indent?) after
        | ch :: _ =>
          if spaces < indent then
            if ch = '\t' then .error .tabIndentation else .ok (b, c)
          else readBlockLines parent fuel (more (line.drop indent) b.indent?) after
      | none =>
        match content with
        | [] | '\n' :: _ => readBlockLines parent fuel (more [] none) after
        | ch :: _ =>
          if (spaces : Int) ≤ parent then
            if ch = '\t' then .error .tabIndentation else .ok (b, c)
          else if b.blankWidth > spaces then .error .indentation
          else readBlockLines parent fuel (more (line.drop spaces) (some spaces)) after

/-- Lines of a literal block: joined by line feeds. -/
def joinLiteral : List (List Char) → List Char
  | [] => []
  | [line] => line
  | line :: rest => line ++ '\n' :: joinLiteral rest

/-- Whether a line is set off from the folding around it. -/
def isSetOff (line : List Char) : Bool := line.head?.any isBlank

/-- Lines of a folded block after a line, with the empty lines passed since. -/
def joinFolded (before : Option (List Char)) (empties : Nat) : List (List Char) → List Char
  | [] => List.replicate empties '\n'
  | line :: rest =>
    if line.isEmpty then joinFolded before (empties + 1) rest
    else
      let gap :=
        match before with
        | none => List.replicate empties '\n'
        | some previous =>
          if isSetOff previous || isSetOff line then List.replicate (empties + 1) '\n'
          else foldBreaks (empties + 1)
      gap ++ line ++ joinFolded (some line) 0 rest

/-- The text of a block from its lines, last first. -/
def blockText (folded : Bool) (chomping : Chomping) (b : BlockLines) : List Char :=
  let trailing := (b.lines.takeWhile List.isEmpty).length
  let content := (b.lines.drop trailing).reverse
  let body := if folded then joinFolded none 0 content else joinLiteral content
  let ending :=
    match chomping with
    | .strip => 0
    | .clip => if content.isEmpty || (trailing == 0 && !b.terminated) then 0 else 1
    | .keep =>
      if content.isEmpty then trailing
      else if trailing == 0 && !b.terminated then 0 else trailing + 1
  body ++ List.replicate ending '\n'

/-- Read a block from its `|` or `>` on. -/
def readBlockText (parent : Int) (c : Cursor) : Except Problem (String × Cursor) := do
  let folded := c.peek? == some '>'
  let (header, c) := readIndicators c.next
  let d := c.skipBlanks
  let commented := d.peek? == some '#' && d.column > c.column
  if !(commented || d.rest.isEmpty || d.peek? == some '\n') then .error .unexpected
  else
    let line := d.rest.takeWhile (· != '\n')
    let start := (d.forward line.length).next
    let indent? := header.step?.map fun n => n + parent.toNat
    let (b, after) ← readBlockLines parent (start.rest.length + 1) ⟨[], indent?, 0, true⟩ start
    .ok (String.ofList (blockText folded header.chomping b), after)

end Phrasebook.Yaml
