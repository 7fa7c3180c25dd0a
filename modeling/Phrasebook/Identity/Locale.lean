/-!
# Locale codes

A locale code is two lower-case letters, a hyphen and two upper-case letters,
such as `en-US`.

## Main definitions

* `LocaleCode`, with its text and order
* `LocaleCode.parse`: the code a text spells
-/
namespace Phrasebook

/-- Whether characters spell a locale code. -/
def isLocaleText : List Char → Bool
  | [a, b, '-', c, d] =>
    let lower (x : Char) : Bool := 'a' ≤ x && x ≤ 'z'
    let upper (x : Char) : Bool := 'A' ≤ x && x ≤ 'Z'
    lower a && lower b && upper c && upper d
  | _ => false

/-- A language and region code. -/
structure LocaleCode where
  /-- The text of the code. -/
  text : String
  valid : isLocaleText text.toList = true
  deriving DecidableEq

/-- A text that is no locale code. -/
structure LocaleError where
  text : String
  deriving DecidableEq, Repr

/-- The message of a malformed locale code. -/
def LocaleError.message (e : LocaleError) : String :=
  s!"invalid locale '{e.text}': expected a code like 'en-US'"

namespace LocaleCode

/-- The code a text spells. -/
def ofText? (s : String) : Option LocaleCode :=
  if h : isLocaleText s.toList = true then some ⟨s, h⟩ else none

/-- The code a text spells, or an error naming the text. -/
def parse (s : String) : Except LocaleError LocaleCode :=
  match ofText? s with
  | some code => .ok code
  | none => .error ⟨s⟩

/-- Codes in the order of their texts. -/
def compare (a b : LocaleCode) : Ordering := Ord.compare a.text b.text

/-- Text of a code for diagnostics. -/
def debugText (code : LocaleCode) : String := "LocaleCode(\"" ++ code.text ++ "\")"

instance : Repr LocaleCode := ⟨fun code _ => code.debugText⟩

end LocaleCode
end Phrasebook
