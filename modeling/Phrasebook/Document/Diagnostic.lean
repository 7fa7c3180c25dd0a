import Phrasebook.Document.Span
import Phrasebook.Json.Value

/-!
# Diagnostics

What is shown of a failure: a message, a code, a hint, and findings that point
into a document.

## Main definitions

* `Finding`: a message about a place in a document
* `Diagnostic`: a failure as it is shown
* `Diagnostic.toJson`: its JSON value, where what is absent is left out
-/
namespace Phrasebook

/-- A message about a place in a document. -/
structure Finding where
  span : Span
  hint : String
  message : String
  help? : Option String
  deriving DecidableEq, Repr

/-- A failure as it is shown. -/
structure Diagnostic where
  message : String
  code? : Option String := none
  help? : Option String := none
  findings : List Finding := []
  deriving DecidableEq, Repr

/-- An entry that is left out when there is nothing to say. -/
def optionalEntry (name : String) (value? : Option String) : List (String × Json) :=
  match value? with
  | some value => [(name, .str value)]
  | none => []

/-- The JSON value of a finding. -/
def Finding.toJson (f : Finding) : Json :=
  let label := .arr [Json.int f.span.offset, Json.int f.span.length, .str f.hint]
  Json.object ([("message", .str f.message), ("labels", .arr [label])] ++
    optionalEntry "help" f.help?)

namespace Diagnostic

/-- The entries of a diagnostic. -/
def entries (d : Diagnostic) : List (String × Json) :=
  [("message", .str d.message)] ++ optionalEntry "code" d.code? ++ optionalEntry "help" d.help? ++
    if d.findings.isEmpty then [] else [("related", .arr (d.findings.map Finding.toJson))]

/-- The JSON value of a diagnostic. -/
def toJson (d : Diagnostic) : Json := Json.object d.entries

end Diagnostic
end Phrasebook
