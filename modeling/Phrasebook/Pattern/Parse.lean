import Phrasebook.Pattern.Match

/-!
# Reading patterns

The syntax of regular expressions: classes, escapes, groups with names and
flags, alternatives, greedy and lazy repetition, and assertions. Whether a
repetition is greedy does not change what is matched somewhere, so it is only
read. Back references and look-around are no part of the syntax.

## Main definitions

* `Pattern.parse?`: the pattern a text denotes, if it is well formed
-/
namespace Phrasebook.Pattern

/-- Settings that change what the following syntax means. -/
structure Flags where
  ignoreCase : Bool := false
  multiLine : Bool := false
  dotAll : Bool := false
  verbose : Bool := false
  deriving Repr

/-- A place in a pattern text: what is left, the flags in force and the group
names seen. -/
structure Scan where
  rest : List Char
  flags : Flags
  names : List String

/-- Continue at another place. -/
def Scan.goto (st : Scan) (rest : List Char) : Scan := { st with rest }

/-- A set as a pattern under flags. -/
def ofSet (flags : Flags) (set : CharSet) : Pattern :=
  .chars (if flags.ignoreCase then set.foldCase else set)

/-- What an escape stands for. -/
inductive Escape where
  | literal (c : Char)
  | set (s : CharSet)
  | assertion (a : Assertion)

/-- The character with a code given by hexadecimal digits. -/
def charOfHex? (cs : List Char) : Option Char := do
  let digits ← cs.mapM Text.hexValue?
  let n := digits.foldl (fun n d => n * 16 + d) 0
  if cs.isEmpty || cs.length > 8 then none
  else if n < 0xD800 || (0xE000 ≤ n && n ≤ CharSet.top) then some (Char.ofNat n) else none

/-- Read a code of `width` hexadecimal digits, or any number of them in
braces. -/
def hexEscape? (width : Nat) : List Char → Option (Char × List Char)
  | '\x7b' :: rest => do
    let (inside, rest) ← Text.splitFirst? '\x7d' rest
    let c ← charOfHex? inside
    some (c, rest)
  | cs => do
    if cs.length < width then none
    else
      let c ← charOfHex? (cs.take width)
      some (c, cs.drop width)

/-- Read a property after `\p`. -/
def propertyEscape? (cs : List Char) : Option (CharSet × List Char) :=
  match cs with
  | '\x7b' :: rest => do
    let (inside, rest) ← Text.splitFirst? '\x7d' rest
    let (negated, inside) := match inside with
      | '^' :: more => (true, more)
      | _ => (false, inside)
    let name := (Text.splitOn '=' inside).getLastD []
    let set ← CharSet.property? (String.ofList name)
    some (if negated then set.complement else set, rest)
  | c :: rest => do
    let set ← CharSet.property? (String.singleton c)
    some (set, rest)
  | [] => none

/-- Read an escape after its backslash. -/
def escape? (cs : List Char) : Option (Escape × List Char) :=
  match cs with
  | [] => none
  | c :: rest =>
    match c with
    | 'd' => some (.set CharSet.digit, rest)
    | 'D' => some (.set CharSet.digit.complement, rest)
    | 'w' => some (.set CharSet.word, rest)
    | 'W' => some (.set CharSet.word.complement, rest)
    | 's' => some (.set CharSet.space, rest)
    | 'S' => some (.set CharSet.space.complement, rest)
    | 'p' => (propertyEscape? rest).map fun (s, rest) => (.set s, rest)
    | 'P' => (propertyEscape? rest).map fun (s, rest) => (.set s.complement, rest)
    | 'A' => some (.assertion .textStart, rest)
    | 'z' => some (.assertion .textEnd, rest)
    | 'B' => some (.assertion .notWordBoundary, rest)
    | '<' => some (.assertion .wordStart, rest)
    | '>' => some (.assertion .wordEnd, rest)
    | 'b' =>
      let named (name : String) (a : Assertion) : Option (Escape × List Char) :=
        (Text.afterStart? name.toList rest).map fun rest => (.assertion a, rest)
      (named "\x7bstart\x7d" .wordStart).orElse fun _ =>
      (named "\x7bend\x7d" .wordEnd).orElse fun _ =>
      (named "\x7bstart-half\x7d" .wordStartHalf).orElse fun _ =>
      (named "\x7bend-half\x7d" .wordEndHalf).orElse fun _ =>
      some (.assertion .wordBoundary, rest)
    | 'x' => (hexEscape? 2 rest).map fun (c, rest) => (.literal c, rest)
    | 'u' => (hexEscape? 4 rest).map fun (c, rest) => (.literal c, rest)
    | 'U' => (hexEscape? 8 rest).map fun (c, rest) => (.literal c, rest)
    | 'a' => some (.literal (Char.ofNat 7), rest)
    | 'f' => some (.literal (Char.ofNat 12), rest)
    | 't' => some (.literal '\t', rest)
    | 'n' => some (.literal '\n', rest)
    | 'r' => some (.literal '\r', rest)
    | 'v' => some (.literal (Char.ofNat 11), rest)
    | _ =>
      if CharSet.punct.contains c || (c = ' ') then some (.literal c, rest) else none

/-! ## Character classes -/

/-- A set operation between the parts of a class. -/
inductive SetOp where
  | inter | diff | symmetric

/-- Combine two sets. -/
def SetOp.apply (op : SetOp) (a b : CharSet) : CharSet :=
  match op with
  | .inter => a.inter b
  | .diff => a.diff b
  | .symmetric => (a.diff b).union (b.diff a)

/-- Combine what is left of an operation with its right side. -/
def combine (pending : Option (SetOp × CharSet)) (set : CharSet) : CharSet :=
  match pending with
  | none => set
  | some (op, left) => op.apply left set

/-- Read a named class such as `[:alpha:]` after its first bracket. -/
def bracketClass? (cs : List Char) : Option (CharSet × List Char) := do
  let rest ← Text.afterStart? [':'] cs
  let (negated, rest) := match rest with
    | '^' :: more => (true, more)
    | _ => (false, rest)
  let (name, rest) ← Text.splitFirst? ':' rest
  let rest ← Text.afterStart? [']'] rest
  let set ← CharSet.bracketNamed? (String.ofList name)
  some (if negated then set.complement else set, rest)

/-- One item of a class: a set, or a character that may begin a range. -/
def classItem? (cs : List Char) : Option (Escape × List Char) :=
  match cs with
  | [] => none
  | '\\' :: rest => do
    match ← escape? rest with
    | (.assertion .wordBoundary, rest) => some (.literal (Char.ofNat 8), rest)
    | (.assertion _, _) => none
    | item => some item
  | c :: rest => some (.literal c, rest)

mutual

/-- Read the items of a class up to its closing bracket. `set` holds the items
since the last operator, `first` tells that none has been read. -/
def classItems? : Nat → Bool → Option (SetOp × CharSet) → CharSet → List Char →
    Option (CharSet × List Char)
  | 0, _, _, _, _ => none
  | fuel + 1, first, pending, set, cs =>
    let add (more : CharSet) (rest : List Char) : Option (CharSet × List Char) :=
      classItems? fuel false pending (set.union more) rest
    match cs with
    | [] => none
    | ']' :: rest =>
      if first then add (CharSet.single ']') rest
      else some (combine pending set, rest)
    | '&' :: '&' :: rest => classItems? fuel false (some (.inter, combine pending set)) [] rest
    | '-' :: '-' :: rest =>
      if first then add (CharSet.single '-') ('-' :: rest)
      else classItems? fuel false (some (.diff, combine pending set)) [] rest
    | '~' :: '~' :: rest =>
      classItems? fuel false (some (.symmetric, combine pending set)) [] rest
    | '[' :: rest =>
      match bracketClass? rest with
      | some (named, rest) => add named rest
      | none => do
        let (inner, rest) ← classBody? fuel rest
        add inner rest
    | _ => do
      let (item, rest) ← classItem? cs
      match item, rest with
      | .set s, '-' :: next :: _ => if next = ']' || next = '-' then add s rest else none
      | .set s, _ => add s rest
      | .assertion _, _ => none
      | .literal a, '-' :: next :: more =>
        if next = ']' || next = '-' then add (CharSet.single a) rest
        else do
          let (upper, rest) ← classItem? (next :: more)
          match upper with
          | .literal b => if a.toNat ≤ b.toNat then add (CharSet.range a b) rest else none
          | _ => none
      | .literal a, _ => add (CharSet.single a) rest

/-- Read a class after its opening bracket. -/
def classBody? : Nat → List Char → Option (CharSet × List Char)
  | 0, _ => none
  | fuel + 1, cs => do
    let (negated, cs) := match cs with
      | '^' :: rest => (true, rest)
      | _ => (false, cs)
    let (set, rest) ← classItems? fuel true none [] cs
    some (if negated then set.complement else set, rest)

end

/-! ## Groups and repetition -/

/-- Change one flag. -/
def setFlag? (flags : Flags) (on : Bool) : Char → Option Flags
  | 'i' => some { flags with ignoreCase := on }
  | 'm' => some { flags with multiLine := on }
  | 's' => some { flags with dotAll := on }
  | 'x' => some { flags with verbose := on }
  | 'U' | 'u' | 'R' => some flags
  | _ => none

/-- Read flags up to the `:` or `)` that ends them. -/
def readFlags? (flags : Flags) (on : Bool) (seen : List Char) :
    List Char → Option (Flags × Char × List Char)
  | [] => none
  | c :: rest =>
    if c = ':' || c = ')' then
      if seen.head? = some '-' || (c = ')' && seen.isEmpty) then none
      else some (flags, c, rest)
    else if c = '-' then
      if on then readFlags? flags false ('-' :: seen) rest else none
    else if seen.contains c then none
    else match setFlag? flags on c with
      | some flags => readFlags? flags on (c :: seen) rest
      | none => none

/-- Whether a text may name a group. -/
def isGroupName : List Char → Bool
  | [] => false
  | c :: cs =>
    (isWordChar c && !Text.isDigit c) &&
      cs.all fun d => isWordChar d || d = '.' || d = '[' || d = ']'

/-- Read the name of a group up to its closing angle bracket. -/
def groupName? (st : Scan) (cs : List Char) : Option Scan := do
  let (name, rest) ← Text.splitFirst? '>' cs
  let text := String.ofList name
  if isGroupName name && !st.names.contains text then
    some { st with rest, names := text :: st.names }
  else none

/-- Bounds of a repetition stay below `2 ^ 32`. -/
def countLimit : Nat := 4294967296

/-- Read a number with white space around it. -/
def count? (cs : List Char) : Option (Nat × List Char) :=
  let cs := Text.trimStartChars cs
  let digits := cs.takeWhile Text.isDigit
  let n := Text.natOfDigits digits
  if digits.isEmpty || n ≥ countLimit then none
  else some (n, Text.trimStartChars (cs.dropWhile Text.isDigit))

/-- Skip the mark of a lazy repetition. -/
def skipLazy : List Char → List Char
  | '?' :: rest => rest
  | cs => cs

/-- Read the bounds of a repetition, if one follows. The outer result is
`none` for malformed bounds. -/
def bounds? (cs : List Char) : Option (Option (Nat × Option Nat) × List Char) :=
  match cs with
  | '*' :: rest => some (some (0, none), skipLazy rest)
  | '+' :: rest => some (some (1, none), skipLazy rest)
  | '?' :: rest => some (some (0, some 1), skipLazy rest)
  | '\x7b' :: rest => do
    let (least, rest) ← count? rest
    match rest with
    | '\x7d' :: rest => some (some (least, some least), skipLazy rest)
    | ',' :: '\x7d' :: rest => some (some (least, none), skipLazy rest)
    | ',' :: rest => do
      let (most, rest) ← count? rest
      match rest with
      | '\x7d' :: rest =>
        if least ≤ most then some (some (least, some most), skipLazy rest) else none
      | _ => none
    | _ => none
  | _ => some (none, cs)

/-- Skip white space and comments where they are not significant. -/
def skipVerbose : List Char → List Char
  | [] => []
  | '#' :: rest => skipVerbose (rest.dropWhile (· != '\n'))
  | c :: rest => if Text.isSpace c then skipVerbose rest else c :: rest
termination_by cs => cs.length
decreasing_by
  · have := (List.dropWhile_sublist (· != '\n') (l := rest)).length_le
    simp; omega
  · simp

/-- Patterns one after another; `items` are given last first. -/
def sequence (items : List Pattern) : Pattern :=
  items.foldl (fun acc p => if acc = .empty then p else .seq p acc) .empty

/-- A further alternative. -/
def alternative (done : Option Pattern) (items : List Pattern) : Pattern :=
  match done with
  | none => sequence items
  | some p => .alt p (sequence items)

mutual

/-- Read alternatives up to the end of the text or of the group. `done` holds
the alternatives read, `items` those of the current one, last first;
`repeatable` tells whether a repetition may follow. -/
def alternatives? : Nat → Bool → Option Pattern → List Pattern → Bool → Scan →
    Option (Pattern × Scan)
  | 0, _, _, _, _, _ => none
  | fuel + 1, inGroup, done, items, repeatable, st => do
    let cs := if st.flags.verbose then skipVerbose st.rest else st.rest
    let push (p : Pattern) (rest : List Char) : Option (Pattern × Scan) :=
      alternatives? fuel inGroup done (p :: items) true (st.goto rest)
    match cs with
    | [] => if inGroup then none else some (alternative done items, st.goto [])
    | '|' :: rest =>
      alternatives? fuel inGroup (some (alternative done items)) [] false (st.goto rest)
    | ')' :: rest => if inGroup then some (alternative done items, st.goto rest) else none
    | '(' :: rest => do
      match ← group? fuel (st.goto rest) with
      | (some p, st) => alternatives? fuel inGroup done (p :: items) true st
      | (none, st) => alternatives? fuel inGroup done items false st
    | '[' :: rest => do
      let (set, rest) ← classBody? fuel rest
      push (ofSet st.flags set) rest
    | '.' :: rest =>
      push (.chars (if st.flags.dotAll then CharSet.all
        else (CharSet.single '\n').complement)) rest
    | '^' :: rest => push (.assertion (if st.flags.multiLine then .lineStart else .textStart)) rest
    | '$' :: rest => push (.assertion (if st.flags.multiLine then .lineEnd else .textEnd)) rest
    | '\\' :: rest => do
      match ← escape? rest with
      | (.literal c, rest) => push (ofSet st.flags (CharSet.single c)) rest
      | (.set s, rest) => push (ofSet st.flags s) rest
      | (.assertion a, rest) => push (.assertion a) rest
    | c :: rest => do
      match ← bounds? cs with
      | (none, _) => push (ofSet st.flags (CharSet.single c)) rest
      | (some (least, most), rest) =>
        match items with
        | last :: before =>
          if repeatable then
            alternatives? fuel inGroup done (.times last least most :: before) true (st.goto rest)
          else none
        | [] => none

/-- Read a group after its opening parenthesis; a group that only sets flags is
no pattern. -/
def group? : Nat → Scan → Option (Option Pattern × Scan)
  | 0, _ => none
  | fuel + 1, st => do
    let inside (inner : Scan) : Option (Option Pattern × Scan) := do
      let (p, after) ← alternatives? fuel true none [] false inner
      some (some p, { after with flags := st.flags })
    match st.rest with
    | '?' :: 'P' :: '<' :: rest => do inside (← groupName? st rest)
    | '?' :: '<' :: rest =>
      if rest.head? = some '=' || rest.head? = some '!' then none
      else do inside (← groupName? st rest)
    | '?' :: rest => do
      let (flags, stop, rest) ← readFlags? st.flags true [] rest
      if stop = ')' then some (none, { st with rest, flags })
      else inside { st with rest, flags }
    | _ => inside st

end

/-- The pattern a text denotes. -/
def parse? (s : String) : Option Pattern :=
  let cs := s.toList
  (alternatives? (2 * cs.length + 4) false none [] false ⟨cs, {}, []⟩).map Prod.fst

/-- Whether a text is a well-formed pattern. -/
def wellFormed (s : String) : Bool := (parse? s).isSome

end Phrasebook.Pattern
