import Phrasebook.Json.Print
import Phrasebook.Json.Read
import Phrasebook.Schema.Descriptor

/-!
# Columns

How field values are kept as column texts. A string is its own text; truth
values, objects and anything else are JSON text; absent values and `null` are
null.

## Main definitions

* `FieldSpec.toColumn`, `FieldSpec.fromColumn`
-/
namespace Phrasebook

/-- The column text of a value, null for an absent one. -/
def FieldSpec.toColumn (f : FieldSpec) : Option Json → Option String
  | none => none
  | some .null => none
  | some (.str s) => if f.type = .object then some (Json.str s).compact else some s
  | some other => some other.compact

/-- The value a column text stands for. -/
def FieldSpec.fromColumn (f : FieldSpec) (text : String) : Except Json.SyntaxError Json :=
  match f.type with
  | .object | .boolean => Json.read text
  | _ => .ok (.str text)

end Phrasebook
