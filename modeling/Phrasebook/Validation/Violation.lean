import Phrasebook.Text.Basic

/-!
# Violations

What can be wrong with a field of a candidate record, and how it is reported.

## Main definitions

* `Constraint`: the constraint a value fails
* `Violation`: a field and the constraint it fails
* `Violation.text`, `Violation.help?`
* `Violation.report`: violations in the order they are reported
-/
namespace Phrasebook

/-- A constraint a field can fail. -/
inductive Constraint where
  /-- A field that must be given is absent. -/
  | missing
  /-- The value is not of the declared type. -/
  | wrongType (expected : String)
  /-- The value does not match the declared pattern. -/
  | patternMismatch (pattern : String)
  /-- The text is longer than the declared maximum. -/
  | tooLong (limit : Nat)
  /-- The text is shorter than the declared minimum. -/
  | tooShort (limit : Nat)
  /-- The value is not one of the allowed ones. -/
  | invalidValue (allowed : List String)
  /-- The field is not declared. -/
  | unknownField
  deriving DecidableEq, Repr

/-- The name of a constraint. -/
def Constraint.name : Constraint → String
  | missing => "missing"
  | wrongType _ => "wrong type"
  | patternMismatch _ => "pattern mismatch"
  | tooLong _ => "too long"
  | tooShort _ => "too short"
  | invalidValue _ => "invalid value"
  | unknownField => "unknown field"

/-- A field failing a constraint. Entries of an object field are named by a
dotted path. -/
structure Violation where
  field : String
  constraint : Constraint
  deriving DecidableEq, Repr

namespace Violation

/-- The text of a violation. -/
def text (v : Violation) : String :=
  match v.constraint with
  | .missing => s!"'{v.field}' is required"
  | .wrongType expected => s!"'{v.field}' must be a {expected}"
  | .patternMismatch pattern => s!"'{v.field}' does not match {pattern}"
  | .tooLong limit => s!"'{v.field}' is longer than {limit} characters"
  | .tooShort limit => s!"'{v.field}' is shorter than {limit} characters"
  | .invalidValue allowed => s!"'{v.field}' must be one of: " ++ Text.join ", " allowed
  | .unknownField => s!"'{v.field}' is not a known field"

/-- A hint on how to mend a violation. -/
def help? (v : Violation) : Option String :=
  match v.constraint with
  | .missing => some s!"Add the '{v.field}' field"
  | .patternMismatch pattern =>
    if v.field == "locale" then some s!"Locale codes look like 'en-US' ({pattern})" else none
  | .invalidValue allowed => some ("Valid values: " ++ Text.join ", " allowed)
  | .unknownField => some s!"Remove the '{v.field}' field or check spelling"
  | _ => none

/-- Drop every element that equals the one before it. -/
def dropRepeats [DecidableEq α] : List α → List α
  | [] => []
  | [x] => [x]
  | x :: y :: rest => if x = y then dropRepeats (y :: rest) else x :: dropRepeats (y :: rest)

/-- Insert a violation in front of the first one with a greater field. -/
def insertByField (v : Violation) : List Violation → List Violation
  | [] => [v]
  | w :: rest => if w.field ≤ v.field then w :: insertByField v rest else v :: w :: rest

/-- Sort violations by field, keeping the order within a field. -/
def sortByField (vs : List Violation) : List Violation :=
  vs.foldl (fun sorted v => insertByField v sorted) []

/-- Violations in the order they are reported, without repetitions. -/
def report (vs : List Violation) : List Violation := dropRepeats (sortByField vs)

end Violation
end Phrasebook
