import Phrasebook.Document.Diagnostic
import Phrasebook.Validation.Validator
import Phrasebook.Yaml.Value

/-!
# Record documents

A record is written as a YAML document. Reading one fails if it is no YAML, or if
the value it denotes is no valid candidate; then every violation is shown at its
place in the document.

## Main definitions

* `DocumentError`: why a document is refused
* `DocumentError.ofValidation`: a refusal with its places
* `Registry.validateDocument`: the record of a document
* `readPatch`: the value of a document that changes a record
-/
namespace Phrasebook

/-- Why a document is refused. -/
inductive DocumentError where
  | notYaml (problem : Yaml.Problem)
  | invalid (filename : String) (findings : List Finding) (violations : List Violation)
  deriving DecidableEq, Repr

namespace DocumentError

/-- A violation at its place in a document. -/
def finding (content : String) (v : Violation) : Finding where
  span := Span.ofField content.toList v.field
  hint := v.constraint.name
  message := v.text
  help? := v.help?

/-- A refused candidate with the places of its violations. A candidate of the
wrong form is shown at the first line. -/
def ofValidation (filename content : String) (e : ValidationError) : DocumentError :=
  let findings :=
    if e.violations.isEmpty then [⟨Span.firstLine content.toList, "here", e.message, none⟩]
    else e.violations.map (finding content)
  .invalid filename findings e.violations

/-- The violations behind a refusal; none for a text that is no YAML. -/
def violations : DocumentError → List Violation
  | notYaml _ => []
  | invalid _ _ vs => vs

/-- How many errors a refusal counts for. -/
def count : DocumentError → Nat
  | notYaml _ => 1
  | invalid _ findings _ => findings.length

/-- A number of errors in words. -/
def errorsText (n : Nat) : String := if n == 1 then "1 error" else s!"{n} errors"

/-- Advice on a text that is no YAML, chosen by the wording of its problem. -/
def advice? (problem : Yaml.Problem) : Option String :=
  let message := (Text.asciiLower problem.message).toList
  if Text.containsText "tab".toList message then
    some "YAML requires spaces for indentation, not tabs. Replace tabs with spaces."
  else if Text.containsText "duplicate".toList message then
    some "Each field can only appear once. Remove the duplicate."
  else if Text.containsText "mapping values are not allowed".toList message then
    some "Values containing ': ' must be quoted, or use a block scalar (content: |)"
  else none

/-- The refusal as it is shown. -/
def diagnostic : DocumentError → Diagnostic
  | notYaml problem =>
    { message := "YAML syntax error", code? := some "mouth::document::syntax",
      help? := advice? problem }
  | invalid filename findings _ =>
    { message := s!"{filename} is invalid: {errorsText findings.length}",
      code? := some "mouth::document::invalid", findings }

end DocumentError

/-- The value of a document that changes a record. -/
def readPatch (content : String) : Except DocumentError Json :=
  (Yaml.read content).mapError .notYaml

/-- The record that a document describes, with `fresh` and `now` for a key and a
time it does not give. -/
def Registry.validateDocument (registry : Registry) (kind : RecordKind)
    (filename content : String) (fresh : Uuid) (now : Instant) :
    Except DocumentError Record := do
  let value ← readPatch content
  (registry.validate kind value fresh now).mapError (.ofValidation filename content)

end Phrasebook
