import Phrasebook.Yaml.Node
import Phrasebook.Yaml.Scalar

/-!
# Reading YAML documents

The node that the first document of a text writes down. Block collections are
held together by the column of their entries; flow collections by brackets.

The readers of nodes count down `fuel`, which the length of the text bounds, and
`depth`, the number of collections that may still be opened inside each other.

## Main definitions

* `Yaml.readBlock`, `Yaml.readFlow`: a node in either style
* `Yaml.readDocument`: the root node of the first document
-/
namespace Phrasebook.Yaml

/-- Collections allowed inside each other. -/
def depthLimit : Nat := 128

/-! ## Properties -/

/-- A name after its indicator: up to blank space, a line break or punctuation. -/
def readName (c : Cursor) : String × Cursor :=
  let name := c.rest.takeWhile fun ch => !(isBlank ch || ch == '\n' || isFlowMark ch)
  (String.ofList name, c.forward name.length)

/-- A tag from its `!` on. -/
def readTag (c : Cursor) : Except Problem (String × Cursor) :=
  match c.rest with
  | '!' :: '<' :: rest =>
    let uri := rest.takeWhile fun ch => ch != '>' && ch != '\n'
    let after := c.forward (uri.length + 2)
    if after.peek? == some '>' then .ok (String.ofList uri, after.next) else .error .unexpected
  | _ => .ok (readName c)

/-- One property, if one starts here, and the blank space after it. -/
def readProperty (p : Properties) (c : Cursor) : Except Problem (Properties × Cursor) :=
  match c.peek? with
  | some '&' =>
    let (name, after) := readName c.next
    if name.isEmpty || p.anchor?.isSome then .error .unexpected
    else .ok ({ p with anchor? := some name }, after.skipBlanks)
  | some '!' => do
    let (tag, after) ← readTag c
    if p.tag?.isSome then .error .unexpected
    else .ok ({ p with tag? := some tag }, after.skipBlanks)
  | _ => .ok (p, c)

/-- The properties that start here. -/
def readProperties (c : Cursor) : Except Problem (Properties × Cursor) := do
  let (p, c) ← readProperty {} c
  readProperty p c

/-! ## Ends of values -/

/-- Whether a key ends here: before its value indicator. -/
def atValue (c : Cursor) : Bool := c.skipBlanks.atIndicator ':'

/-- Only a comment may follow a value on its line. -/
def endValue (c : Cursor) : Except Problem Cursor :=
  let d := c.skipBlanks
  match d.peek? with
  | none | some '\n' => .ok c
  | some '#' => if d.column > c.column then .ok c else .error .unexpected
  | some _ => .error (if d.atIndicator ':' then .mappingValue else .unexpected)

/-- A tab may not indent a block collection. -/
def checkIndent (parent : Int) (tabbed : Bool) : Except Problem Unit :=
  if !tabbed then .ok ()
  else if parent < 0 then .error .tabIndentation
  else .error .indentation

/-! ## Flow collections -/

/-- Blank space inside a flow collection: it may not end here, and lines have to
be indented deeper than the block collection around, closing brackets apart. -/
def flowGap (parent : Int) (c : Cursor) : Except Problem Cursor :=
  let gap := c.gap
  let d := gap.cursor
  if d.atEnd then .error .unexpectedEnd
  else
    let closing := d.peek? == some ']' || d.peek? == some '\x7d'
    if gap.fresh && !closing && (d.column : Int) ≤ parent then .error .indentation
    else .ok d

/-- Whether a value indicator stands here in a flow collection. After a quoted
key or a collection it needs no blank space behind it. -/
def atFlowValue (adjacent : Bool) (c : Cursor) : Bool :=
  match c.rest with
  | ':' :: rest => adjacent || endsWord rest || rest.head?.any isFlowMark
  | _ => false

/-- Whether a node ends with a bracket or a quote. -/
def isClosed : Node → Bool
  | .scalar _ plain _ => !plain
  | .alias _ => false
  | _ => true

/-- Whether a flow entry ends here without a node. -/
def atFlowEnd (c : Cursor) : Bool :=
  c.peek? == some ',' || c.peek? == some ']' || c.peek? == some '\x7d'

mutual

/-- Read a node of a flow collection, or a quoted scalar, collection or alias
that stands by itself. -/
def readFlow (parent : Int) : Nat → Nat → Cursor → Except Problem (Node × Cursor)
  | 0, _, _ => .error .tooDeep
  | fuel + 1, depth, c => do
    let (p, d) ← readProperties c
    let d ← if p.isEmpty then .ok d else flowGap parent d
    match d.peek? with
    | some '"' => (readDouble parent d).map fun (s, e) => (.scalar p false s, e)
    | some '\'' => (readSingle parent d).map fun (s, e) => (.scalar p false s, e)
    | some '*' =>
      let (name, e) := readName d.next
      if name.isEmpty || !p.isEmpty then .error .unexpected else .ok (.alias name, e)
    | some '[' =>
      match depth with
      | 0 => .error .tooDeep
      | depth + 1 =>
        let (items, e) ← readFlowItems parent fuel depth [] d.next
        .ok (.list p items, e)
    | some '\x7b' =>
      match depth with
      | 0 => .error .tooDeep
      | depth + 1 =>
        let (entries, e) ← readFlowEntries parent fuel depth [] d.next
        .ok (.mapping p entries, e)
    | _ =>
      if startsPlain true d.rest then
        let (s, e) := readPlain true parent d
        .ok (.scalar p true s, e)
      else if !p.isEmpty && (atFlowEnd d || atFlowValue false d) then .ok (.empty p, d)
      else if d.atIndicator '-' then .error .blockEntry
      else .error .unexpected

/-- Read a key and its value in a flow collection. The value is absent if no
value indicator follows the key. -/
def readFlowPair (parent : Int) :
    Nat → Nat → Cursor → Except Problem (Node × Option Node × Cursor)
  | 0, _, _ => .error .tooDeep
  | fuel + 1, depth, c => do
    let marked := c.atIndicator '?'
    let c ← if marked then flowGap parent c.next else .ok c
    let (key, d) ←
      if atFlowValue false c || (marked && atFlowEnd c) then .ok (Node.empty {}, c)
      else readFlow parent fuel depth c
    let e ← flowGap parent d
    if atFlowValue (isClosed key) e then
      let v ← flowGap parent e.next
      if atFlowEnd v then .ok (key, some (.empty {}), v)
      else
        let (value, w) ← readFlow parent fuel depth v
        .ok (key, some value, ← flowGap parent w)
    else .ok (key, if marked then some (.empty {}) else none, e)

/-- Read the items of a flow list up to its closing bracket. -/
def readFlowItems (parent : Int) :
    Nat → Nat → List Node → Cursor → Except Problem (List Node × Cursor)
  | 0, _, _, _ => .error .tooDeep
  | fuel + 1, depth, acc, c => do
    let d ← flowGap parent c
    if d.peek? == some ']' then .ok (acc.reverse, d.next)
    else
      let (key, value?, e) ← readFlowPair parent fuel depth d
      let item :=
        match value? with
        | some value => Node.mapping {} [(key, value)]
        | none => key
      match e.peek? with
      | some ',' => readFlowItems parent fuel depth (item :: acc) e.next
      | some ']' => .ok ((item :: acc).reverse, e.next)
      | _ => .error .unexpected

/-- Read the entries of a flow mapping up to its closing brace. -/
def readFlowEntries (parent : Int) :
    Nat → Nat → List (Node × Node) → Cursor → Except Problem (List (Node × Node) × Cursor)
  | 0, _, _, _ => .error .tooDeep
  | fuel + 1, depth, acc, c => do
    let d ← flowGap parent c
    if d.peek? == some '\x7d' then .ok (acc.reverse, d.next)
    else
      let (key, value?, e) ← readFlowPair parent fuel depth d
      let entry := (key, value?.getD (.empty {}))
      match e.peek? with
      | some ',' => readFlowEntries parent fuel depth (entry :: acc) e.next
      | some '\x7d' => .ok ((entry :: acc).reverse, e.next)
      | _ => .error .unexpected

end

/-! ## Block collections -/

/-- Whether a quoted scalar, a flow collection or an alias starts here. -/
def startsFlow (c : Cursor) : Bool :=
  c.peek? == some '"' || c.peek? == some '\'' || c.peek? == some '[' ||
    c.peek? == some '\x7b' || c.peek? == some '*'

/-- Read a key that stands on one line, up to its value indicator. -/
def readKey (parent : Int) (fuel depth : Nat) (c : Cursor) : Except Problem (Node × Cursor) := do
  let (p, d) ← readProperties c
  let (key, e) ←
    if d.atIndicator ':' then .ok (Node.empty p, d)
    else if startsFlow d then
      let (node, e) ← readFlow parent fuel depth d
      .ok (node.decorate p, e)
    else if startsPlain false d.rest then
      let (text, e) := plainLine false d
      .ok (Node.scalar p true (String.ofList text), e)
    else .error .unexpected
  let e := e.skipBlanks
  if e.line == c.line && e.atIndicator ':' then .ok (key, e) else .error .unexpected

/-- Whether a node on a fresh line belongs to a collection at `parent`: it has to
be indented deeper, except that a list may stand at the column of the key it
belongs to. -/
def belongs (parent : Int) (underKey : Bool) (gap : Gap) : Bool :=
  parent < gap.indent ||
    (underKey && (gap.indent : Int) == parent && !gap.tabbed && gap.cursor.atIndicator '-')

mutual

/-- Read the node after an indicator. `parent` is the column of the collection
around; `compact` tells whether a block collection may start on the same line,
`underKey` whether a list may stand at the column of the collection. -/
def readBlock (parent : Int) (compact underKey : Bool) :
    Nat → Nat → Cursor → Except Problem (Node × Cursor)
  | 0, _, _ => .error .tooDeep
  | fuel + 1, depth, c =>
    let gap := c.gap
    if gap.cursor.atEnd || (gap.fresh && !belongs parent underKey gap) then
      .ok (.empty {}, c)
    else
      readContent parent (gap.fresh || compact) underKey gap.tabbed {} fuel depth gap.cursor
termination_by structural fuel => fuel

/-- Read a node from its first character on. `outer` are properties on the lines
before. -/
def readContent (parent : Int) (startable underKey tabbed : Bool) (outer : Properties) :
    Nat → Nat → Cursor → Except Problem (Node × Cursor)
  | 0, _, _ => .error .tooDeep
  | fuel + 1, depth, c => do
    let (p, d) ← readProperties c
    let gap := d.gap
    if !p.isEmpty && (gap.fresh || gap.cursor.atEnd) then
      -- The properties stand alone on their line.
      if !outer.isEmpty then .error .unexpected
      else if gap.cursor.atEnd || !belongs parent underKey gap then .ok (.empty p, d)
      else readContent parent true underKey gap.tabbed p fuel depth gap.cursor
    else if d.atIndicator '-' then
      if !startable || !p.isEmpty then .error .blockEntry
      else
        checkIndent parent tabbed
        match depth with
        | 0 => .error .tooDeep
        | depth + 1 =>
          let (items, e) ← readItems parent d.column fuel depth [] d
          .ok (.list outer items, e)
    else if d.atIndicator '?' then
      if !startable || !p.isEmpty then .error .unexpected
      else
        checkIndent parent tabbed
        match depth with
        | 0 => .error .tooDeep
        | depth + 1 =>
          let (entries, e) ← readEntries d.column fuel depth [] d
          .ok (.mapping outer entries, e)
    else if d.peek? == some '|' || d.peek? == some '>' then
      let (text, e) ← readBlockText parent d
      .ok (.scalar (p.orElse outer) false text, e)
    else
      let (node, e) ←
        if d.atIndicator ':' then .ok (Node.empty p, d)
        else if startsFlow d then
          let (node, e) ← readFlow parent fuel depth d
          .ok (node.decorate p, e)
        else if startsPlain false d.rest then
          let (text, e) := plainLine false d
          .ok (Node.scalar p true (String.ofList text), e)
        else .error .unexpected
      if e.line == d.line && atValue e then
        if !startable then .error .mappingValue
        else
          checkIndent parent tabbed
          match depth with
          | 0 => .error .tooDeep
          | depth + 1 =>
            let (entries, e) ← readEntries c.column fuel depth [] c
            .ok (.mapping outer entries, e)
      else if startsFlow d then .ok (node.decorate outer, ← endValue e)
      else
        let (text, e) := readPlain false parent d
        .ok (.scalar (p.orElse outer) true text, ← endValue e)
termination_by structural fuel => fuel

/-- Read the entries of a list whose indicators stand at `column`. -/
def readItems (parent : Int) (column : Nat) :
    Nat → Nat → List Node → Cursor → Except Problem (List Node × Cursor)
  | 0, _, _, _ => .error .tooDeep
  | fuel + 1, depth, acc, c => do
    let (item, d) ← readBlock column true false fuel depth c.next
    let acc := item :: acc
    let gap := d.gap
    if gap.cursor.atEnd || gap.indent < column then .ok (acc.reverse, d)
    else if gap.tabbed || gap.indent > column then .error .indentation
    else if gap.cursor.atIndicator '-' then readItems parent column fuel depth acc gap.cursor
    else if parent == column then .ok (acc.reverse, d)
    else .error .unexpected
termination_by structural fuel => fuel

/-- Read the entries of a mapping whose keys stand at `column`. -/
def readEntries (column : Nat) :
    Nat → Nat → List (Node × Node) → Cursor → Except Problem (List (Node × Node) × Cursor)
  | 0, _, _, _ => .error .tooDeep
  | fuel + 1, depth, acc, c => do
    let (entry, d) ←
      if c.atIndicator '?' then
        let (key, d) ← readBlock column true false fuel depth c.next
        let gap := d.gap
        if gap.fresh && gap.indent == column && !gap.tabbed && gap.cursor.atIndicator ':' then
          let (value, e) ← readBlock column true true fuel depth gap.cursor.next
          .ok ((key, value), e)
        else .ok ((key, Node.empty {}), d)
      else
        let (key, d) ← readKey column fuel depth c
        let (value, e) ← readBlock column false true fuel depth d.next
        .ok ((key, value), e)
    let acc := entry :: acc
    let gap := d.gap
    if gap.cursor.atEnd || gap.indent < column then .ok (acc.reverse, d)
    else if gap.tabbed || gap.indent > column then .error .indentation
    else if gap.cursor.atIndicator '-' then .error .blockEntry
    else readEntries column fuel depth acc gap.cursor
termination_by structural fuel => fuel

end

/-! ## Documents -/

/-- Pass over the directives in front of a document. The flag tells whether there
are any. -/
def skipDirectives : Nat → Bool → Cursor → Bool × Cursor
  | 0, any, c => (any, c)
  | fuel + 1, any, c =>
    let d := c.gap.cursor
    if d.column == 0 && d.peek? == some '%' then
      skipDirectives fuel true (d.forward (d.rest.takeWhile (· != '\n')).length)
    else (any, c)

/-- Whether the marker that starts a document stands here. -/
def atStartMarker (c : Cursor) : Bool := c.atMarker && c.peek? == some '-'

/-- The root node of the first document of a text. -/
def readDocument (text : String) : Except Problem Node := do
  let c := Cursor.ofString text
  let fuel := 4 * c.rest.length + 8
  let (directives, c) := skipDirectives fuel false c
  let start := c.gap.cursor
  let (root, c) ←
    if atStartMarker start then readBlock (-1) false false fuel depthLimit (start.forward 3)
    else if directives then .error .unexpected
    else readBlock (-1) true false fuel depthLimit c
  if c.gap.cursor.atEnd then .ok root else .error .unexpected

end Phrasebook.Yaml
