import Phrasebook.Json.Value
import Phrasebook.Yaml.Read

/-!
# The values YAML nodes denote

Plain scalars are read by the core schema: `null`, booleans, integers that fit 64
bits, floats, and texts for the rest. Keys are texts. Floats that are not finite
have no JSON value and become `null`.

## Main definitions

* `Yaml.plainValue`: the value of a plain scalar
* `Yaml.valueOf`: the value of a node, where aliases have their meaning
* `Yaml.read`: the value of the first document of a text
-/
namespace Phrasebook.Yaml

/-! ## Plain scalars -/

/-- A number or something that is no JSON number. -/
inductive Numeral where
  | int (n : Int)
  | float (x : Binary64)
  | notFinite

/-- The value of a numeral. -/
def Numeral.value : Numeral → Json
  | .int n => .int n
  | .float x => .num (.float x)
  | .notFinite => .null

/-- The number that digits of a base denote; `none` for no digits and for digits
that are too large. -/
def digitsIn? (base : Nat) (cs : List Char) : Option Nat :=
  if cs.isEmpty then none
  else
    cs.foldl (fun n? ch => do
      let n ← n?
      let digit ← Text.hexValue? ch
      if digit < base then return n * base + digit else none) (some 0)

/-- A text after its sign. -/
def splitSign : List Char → Bool × List Char
  | '-' :: rest => (true, rest)
  | '+' :: rest => (false, rest)
  | cs => (false, cs)

/-- Whether an integer fits a signed word of 64 bits. -/
def fitsWord (n : Int) : Bool :=
  -9223372036854775808 ≤ n && n ≤ 9223372036854775807

/-- The integer that a text spells: decimal with an optional sign, `0x` or `0o`. -/
def integer? (cs : List Char) : Option Int :=
  let n? : Option Int :=
    match cs with
    | '0' :: 'x' :: digits => (digitsIn? 16 digits).map Int.ofNat
    | '0' :: 'o' :: digits => (digitsIn? 8 digits).map Int.ofNat
    | _ =>
      let (negative, digits) := splitSign cs
      (digitsIn? 10 digits).map fun n => if negative then -Int.ofNat n else Int.ofNat n
  n?.filter fitsWord

/-- Digits before and after the point, and what follows them. -/
def mantissa (cs : List Char) : List Char × List Char × List Char :=
  let whole := cs.takeWhile Text.isDigit
  match cs.dropWhile Text.isDigit with
  | '.' :: rest => (whole, rest.takeWhile Text.isDigit, rest.dropWhile Text.isDigit)
  | rest => (whole, [], rest)

/-- An exponent part: nothing, or `e`, an optional sign and digits. -/
def exponent? (cs : List Char) : Option Int :=
  match cs with
  | [] => some 0
  | e :: rest =>
    if e = 'e' || e = 'E' then
      let (negative, digits) := splitSign rest
      (digitsIn? 10 digits).map fun n => if negative then -Int.ofNat n else Int.ofNat n
    else none

/-- The float that a text spells in decimal. -/
def decimal? (negative : Bool) (cs : List Char) : Option Numeral := do
  let (whole, fraction, rest) := mantissa cs
  if whole.isEmpty && fraction.isEmpty then none
  else
    let exponent ← exponent? rest
    match Binary64.ofDecimal negative (Text.natOfDigits (whole ++ fraction))
        (exponent - fraction.length) with
    | some x => return .float x
    | none => return .notFinite

/-- Whether a text names infinity or no number at all, in the spelling with a
point or, in any case, as a word. -/
def isNotFinite (unsigned : List Char) (cs : List Char) : Bool :=
  let word := Text.asciiLower (String.ofList unsigned)
  word == "inf" || word == "infinity" || word == "nan" ||
    [".inf", ".Inf", ".INF"].contains (String.ofList unsigned) ||
    [".nan", ".NaN", ".NAN"].contains (String.ofList cs)

/-- The float that a text spells. -/
def float? (cs : List Char) : Option Numeral :=
  let (negative, unsigned) := splitSign cs
  if isNotFinite unsigned cs then some .notFinite else decimal? negative unsigned

/-- Whether a plain scalar is `null`. -/
def isNull (s : String) : Bool :=
  s == "" || s == "~" || s == "null" || s == "Null" || s == "NULL"

/-- The truth value that a plain scalar spells. -/
def bool? (s : String) : Option Bool :=
  if s == "true" || s == "True" || s == "TRUE" then some true
  else if s == "false" || s == "False" || s == "FALSE" then some false
  else none

/-- The number that a plain scalar spells. -/
def numeral? (s : String) : Option Numeral :=
  match integer? s.toList with
  | some n => some (.int n)
  | none => float? s.toList

/-- The value of a plain scalar. -/
def plainValue (s : String) : Json :=
  if isNull s then .null
  else match bool? s with
    | some b => .bool b
    | none =>
      match numeral? s with
      | some n => n.value
      | none => .str s

/-! ## Tags -/

/-- Tags of the core schema. -/
inductive CoreTag where
  | str | int | float | bool | null | seq | map
  deriving DecidableEq

/-- The core tag that a tag denotes. -/
def coreTag? (tag : String) : Option CoreTag :=
  match tag with
  | "!" | "!!str" | "tag:yaml.org,2002:str" => some .str
  | "!!int" | "tag:yaml.org,2002:int" => some .int
  | "!!float" | "tag:yaml.org,2002:float" => some .float
  | "!!bool" | "tag:yaml.org,2002:bool" => some .bool
  | "!!null" | "tag:yaml.org,2002:null" => some .null
  | "!!seq" | "tag:yaml.org,2002:seq" => some .seq
  | "!!map" | "tag:yaml.org,2002:map" => some .map
  | _ => none

/-- The float that a numeral denotes. -/
def Numeral.toFloat : Numeral → Numeral
  | .int n =>
    match Binary64.ofNat (n < 0) n.natAbs with
    | some x => .float x
    | none => .notFinite
  | other => other

/-- The value of a text under a core tag. -/
def coreValue? (tag : CoreTag) (s : String) : Option Json :=
  match tag with
  | .str => some (.str s)
  | .int => (integer? s.toList).map .int
  | .float => (numeral? s).map fun n => n.toFloat.value
  | .bool => (bool? s).map .bool
  | .null => if isNull s then some .null else none
  | .seq | .map => none

/-- The value of a scalar. -/
def scalarValue (p : Properties) (plain : Bool) (text : String) : Except Problem Json :=
  let untagged := if plain then plainValue text else .str text
  match p.tag? with
  | none => .ok untagged
  | some tag =>
    match coreTag? tag with
    | none => .ok (Json.object [(tag, untagged)])
    | some core =>
      match coreValue? core text with
      | some value => .ok value
      | none => .error (.tagMismatch tag)

/-- The value of a collection under its tag. -/
def collectionValue (p : Properties) (kind : CoreTag) (value : Json) : Except Problem Json :=
  match p.tag? with
  | none => .ok value
  | some tag =>
    match coreTag? tag with
    | none => .ok (Json.object [(tag, value)])
    | some core => if core = kind || tag == "!" then .ok value else .error (.tagMismatch tag)

/-! ## Nodes -/

/-- What an anchor stands for: a value, and the text it has as a key. -/
structure Meaning where
  value : Json
  keyText? : Option String

/-- Meanings of the anchors defined so far, the latest first. -/
abbrev Anchors := List (String × Meaning)

/-- Remember what an anchor stands for. -/
def Anchors.define (anchors : Anchors) (p : Properties) (meaning : Meaning) : Anchors :=
  match p.anchor? with
  | some name => (name, meaning) :: anchors
  | none => anchors

/-- What an alias stands for. -/
def Anchors.meaning (anchors : Anchors) (name : String) : Except Problem Meaning :=
  match anchors.find? fun entry => entry.1 == name with
  | some entry => .ok entry.2
  | none => .error (.unknownAlias name)

/-- The entries of a merged value: those of a mapping, or of a list of mappings,
the earlier ones winning. -/
def mergedEntries : Json → Except Problem Fields
  | .obj entries => .ok entries
  | .arr items =>
    items.foldr (fun item rest => do
      let rest ← rest
      match item with
      | .obj entries => .ok (Fields.override rest entries)
      | _ => .error .badMerge) (.ok [])
  | _ => .error .badMerge

/-- Replace the merge key of a mapping by the entries it names; its own entries
win. -/
def mergeEntries (entries : Fields) : Except Problem Fields :=
  match Fields.get? entries "<<" with
  | none => .ok entries
  | some merged => do
    let base ← mergedEntries merged
    .ok (Fields.override base (Fields.erase "<<" entries))

mutual

/-- What a node denotes, and the anchors defined up to its end. -/
def meaningOf (anchors : Anchors) : Node → Except Problem (Meaning × Anchors)
  | .scalar p plain text => do
    let meaning := ⟨← scalarValue p plain text, some text⟩
    .ok (meaning, anchors.define p meaning)
  | .list p items => do
    let (values, anchors) ← meaningsOf anchors items
    let meaning := ⟨← collectionValue p .seq (.arr values), none⟩
    .ok (meaning, anchors.define p meaning)
  | .mapping p entries => do
    let (fields, anchors) ← entriesOf anchors entries
    let meaning := ⟨← collectionValue p .map (.obj (← mergeEntries fields)), none⟩
    .ok (meaning, anchors.define p meaning)
  | .alias name => do
    .ok (← anchors.meaning name, anchors)

/-- The values of the items of a list. -/
def meaningsOf (anchors : Anchors) : List Node → Except Problem (List Json × Anchors)
  | [] => .ok ([], anchors)
  | item :: rest => do
    let (meaning, anchors) ← meaningOf anchors item
    let (values, anchors) ← meaningsOf anchors rest
    .ok (meaning.value :: values, anchors)

/-- The entries of a mapping. Of several entries of one key the last counts. -/
def entriesOf (anchors : Anchors) : List (Node × Node) → Except Problem (Fields × Anchors)
  | [] => .ok ([], anchors)
  | (key, node) :: rest => do
    let (keyMeaning, anchors) ← meaningOf anchors key
    let (meaning, anchors) ← meaningOf anchors node
    let (fields, anchors) ← entriesOf anchors rest
    match keyMeaning.keyText? with
    | none => .error .keyNotScalar
    | some text =>
      .ok (if Fields.has fields text then fields else Fields.insert text meaning.value fields,
        anchors)

end

/-- The value that a node denotes. -/
def valueOf (node : Node) : Except Problem Json :=
  (meaningOf [] node).map fun result => result.1.value

/-- The value that the first document of a text denotes. -/
def read (text : String) : Except Problem Json := do
  valueOf (← readDocument text)

end Phrasebook.Yaml
