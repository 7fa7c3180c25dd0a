import Phrasebook.Document.Record
import Phrasebook.Files.Tree

/-!
# Validating many documents

Every file has an outcome of its own. A run reports the outcomes of all files,
or those up to the first failure, and counts them.

## Main definitions

* `Outcome`, `FileTree.outcome`: what validating a file comes to
* `throughFailure`: outcomes up to the first failure
* `Tally`, `Tally.of`: the counts of a run
-/
namespace Phrasebook

/-- What validating a file comes to. -/
inductive Outcome where
  /-- The name of the file declares no kind. -/
  | skipped
  | passed
  | unreadable (cause : FileError)
  | failed (cause : DocumentError)
  deriving DecidableEq, Repr

namespace Outcome

/-- Whether a file fails the run. -/
def isFailure : Outcome → Bool
  | skipped | passed => false
  | unreadable _ | failed _ => true

/-- How many errors an outcome counts for. -/
def errors : Outcome → Nat
  | skipped | passed => 0
  | unreadable _ => 1
  | failed cause => cause.count

end Outcome

/-- What validating a file comes to, as a document of the kind that is forced or
else declared by its name. -/
def FileTree.outcome (tree : FileTree) (working : Location) (registry : Registry)
    (kind? : Option RecordKind) (fresh : Uuid) (now : Instant) (file : Path) : Outcome :=
  let filename := file.fileName?.getD ""
  match kind?.or (RecordKind.ofFilename? filename) with
  | none => .skipped
  | some kind =>
    match tree.read working file with
    | .error cause => .unreadable cause
    | .ok content =>
      match registry.validateDocument kind filename content fresh now with
      | .ok _ => .passed
      | .error cause => .failed cause

/-- The items through the first that fails. -/
def throughFailure (fails : α → Bool) : List α → List α
  | [] => []
  | a :: rest => if fails a then [a] else a :: throughFailure fails rest

/-- The counts of a run. -/
structure Tally where
  checked : Nat := 0
  passed : Nat := 0
  failed : Nat := 0
  skipped : Nat := 0
  errors : Nat := 0
  deriving DecidableEq, Repr

namespace Tally

/-- Count one more outcome. -/
def add (t : Tally) (o : Outcome) : Tally :=
  match o with
  | .skipped => { t with skipped := t.skipped + 1 }
  | .passed => { t with checked := t.checked + 1, passed := t.passed + 1 }
  | .unreadable _ | .failed _ =>
    { t with
      checked := t.checked + 1
      failed := t.failed + 1
      errors := t.errors + o.errors }

/-- The counts of outcomes. -/
def of (outcomes : List Outcome) : Tally := outcomes.foldl add {}

end Tally
end Phrasebook
