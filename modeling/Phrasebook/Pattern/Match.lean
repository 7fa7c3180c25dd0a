import Phrasebook.Pattern.CharSet

/-!
# Patterns and what they match

A pattern denotes a set of texts, given the characters around them. Matching
follows partial derivatives: what may come after reading one character is a
finite set of patterns, so a search is one pass over the text.

## Main definitions

* `Pattern`: regular expressions with assertions and counted repetition
* `Pattern.nullable`: whether a pattern matches the empty text at a place
* `Pattern.residuals`: what may follow one character
* `Pattern.search`: whether a pattern matches anywhere in a text
-/
namespace Phrasebook

/-- Conditions on a place in a text. -/
inductive Assertion where
  | textStart | textEnd | lineStart | lineEnd
  | wordBoundary | notWordBoundary | wordStart | wordEnd | wordStartHalf | wordEndHalf
  deriving DecidableEq, Repr

/-- A regular expression. -/
inductive Pattern where
  /-- The empty text. -/
  | empty
  /-- One character of a set. -/
  | chars (set : CharSet)
  /-- The empty text where a condition holds. -/
  | assertion (a : Assertion)
  | seq (first second : Pattern)
  | alt (left right : Pattern)
  /-- At least `least` and, if given, at most `most` times. -/
  | times (body : Pattern) (least : Nat) (most : Option Nat)
  deriving DecidableEq, Repr

/-- Word characters of the word assertions: letters, digits, underscore, and
the letters outside ASCII. -/
def isWordChar (c : Char) : Bool := CharSet.word.contains c || CharSet.letters.contains c

/-- Whether a condition holds between two neighbouring characters. -/
def Assertion.holds (a : Assertion) (before after : Option Char) : Bool :=
  let inWord (c : Option Char) : Bool := c.any isWordChar
  match a with
  | .textStart => before.isNone
  | .textEnd => after.isNone
  | .lineStart => before.isNone || before == some '\n'
  | .lineEnd => after.isNone || after == some '\n'
  | .wordBoundary => inWord before != inWord after
  | .notWordBoundary => inWord before == inWord after
  | .wordStart => !inWord before && inWord after
  | .wordEnd => inWord before && !inWord after
  | .wordStartHalf => !inWord before
  | .wordEndHalf => !inWord after

namespace Pattern

/-- Whether a pattern matches the empty text between two characters. -/
def nullable (before after : Option Char) : Pattern → Bool
  | empty => true
  | chars _ => false
  | assertion a => a.holds before after
  | seq p q => nullable before after p && nullable before after q
  | alt p q => nullable before after p || nullable before after q
  | times p least most => least == 0 || most == some 0 || nullable before after p

/-- One pattern after another, without a leading empty pattern. -/
def andThen : Pattern → Pattern → Pattern
  | empty, q => q
  | p, q => seq p q

/-- What may follow the character `c` read after `before`. -/
def residuals (before : Option Char) (c : Char) : Pattern → List Pattern
  | empty => []
  | chars set => if set.contains c then [empty] else []
  | assertion _ => []
  | seq p q =>
    (residuals before c p).map (fun r => andThen r q) ++
      if nullable before (some c) p then residuals before c q else []
  | alt p q => residuals before c p ++ residuals before c q
  | times p least most =>
    if most == some 0 then []
    else
      -- Repetitions that match the empty text here may stand for all that are still due.
      let due := if nullable before (some c) p then 0 else least - 1
      let left := most.map (· - 1)
      let again := if left == some 0 then empty else times p due left
      (residuals before c p).map (fun r => andThen r again)

/-- Whether a pattern matches some part of a text that starts here or in one of
the states reached. -/
def searchFrom (p : Pattern) (before : Option Char) (states : List Pattern) :
    List Char → Bool
  | [] => (p :: states).any (nullable before none)
  | c :: cs =>
    let current := if states.contains p then states else p :: states
    current.any (nullable before (some c)) ||
      searchFrom p (some c) ((current.flatMap (residuals before c)).eraseDups) cs

/-- Whether a pattern matches some part of a text. -/
def search (p : Pattern) (s : String) : Bool := searchFrom p none [] s.toList

end Pattern
end Phrasebook
