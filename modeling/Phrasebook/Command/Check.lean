import Phrasebook.Command.Display
import Phrasebook.Document.Tally

/-!
# Validating files

The files named on the line, or every document of the project, are validated one
after another, up to the first failure unless told to keep going.

## Main definitions

* `filesToValidate`
* `validateFiles`
-/
namespace Phrasebook.Command

/-- The ending of a file name after its last point; a point that begins the name
does not count. -/
def nameEnding? (name : String) : Option String :=
  match (Text.splitOn '.' name.toList).reverse with
  | _ :: [] | [] => none
  | ending :: before => if before.all List.isEmpty then none else some (String.ofList ending)

/-- Whether a file name has the ending of a document. -/
def isDocumentName (name : String) : Bool :=
  match nameEnding? name with
  | some ending => ["yaml", "yml", "json"].contains ending
  | none => false

/-- Whether a file inside a folder is to be validated: nothing hidden is, and of
the rest the documents that declare their kind, or all documents if a kind is
forced. -/
def isWanted (forced : Bool) (names : Location) : Bool :=
  let name := names.getLastD ""
  !(names.any fun part => Text.startsWith part ".") &&
    ((forced && isDocumentName name) || (RecordKind.ofFilename? name).isSome)

/-- The files a path stands for: itself, or those inside the folder it names. -/
def filesOfPath (tree : FileTree) (working : Location) (forced : Bool) (p : Path) : List Path :=
  match tree.locate working p with
  | .ok l =>
    if tree.isFolder l then
      ((tree.filesBelow l).filter (isWanted forced)).map fun names =>
        p.child ⟨Text.join "/" names⟩
    else [p]
  | .error _ => [p]

/-- The files to validate: those named, or every record document of the
project. -/
def filesToValidate (request : ValidateRequest) : Action (List Path) := do
  let context ← read
  let tree ← files
  if request.paths.isEmpty then
    let project ← orFail (fun (e : ProjectError) => plainDiagnostic e.message)
      (tree.project context.working)
    return (tree.recordFiles project request.kind?).map fun names =>
      Location.path (project.root ++ names)
  else
    return request.paths.flatMap (filesOfPath tree context.working request.kind?.isSome)

/-- The lines on a file and what it came to. -/
def outcomeLines (file : Path) : Outcome → List String
  | .skipped => [s!"? {file.text} - unknown record kind (skipped)"]
  | .passed => ["✓ " ++ file.text]
  | .unreadable cause => [s!"✗ {file.text} - {cause.message}"]
  | .failed cause =>
    [s!"✗ {file.text} - {cause.count} error(s)", cause.diagnostic.toJson.compact]

/-- The lines on the counts of a run. -/
def tallyLines (t : Tally) : List String :=
  ["", ruleLine, "Validation Summary", ruleLine,
   s!"  Files checked:  {t.checked}",
   s!"  Files passed:   {t.passed}",
   s!"  Files failed:   {t.failed}",
   s!"  Total errors:   {t.errors}"] ++
  (if t.skipped > 0 then [s!"  Files skipped:  {t.skipped}"] else []) ++ [""]

/-- The message of a run in which files failed. -/
def failureMessage (failed : Nat) : String :=
  if failed == 1 then "Validation failed: 1 file has errors"
  else s!"Validation failed: {failed} files have errors"

/-- What a run reports: files with what they came to, all of them or through the
first failure. -/
def reported (keepGoing : Bool) (results : List (Path × Outcome)) : List (Path × Outcome) :=
  if keepGoing then results else throughFailure (fun result => result.2.isFailure) results

/-- Validate files. The run fails if one of them does. -/
def validateFiles (request : ValidateRequest) : Action Unit := do
  let context ← read
  let tree ← files
  let paths ← filesToValidate request
  let results := reported request.keepGoing <| paths.map fun p =>
    (p, tree.outcome context.working .builtin request.kind? context.fresh context.now p)
  printLines [s!"→ Validating {paths.length} file(s)...", ""]
  if !request.summary then
    printLines (results.flatMap fun (p, outcome) => outcomeLines p outcome)
  let tally := Tally.of (results.map Prod.snd)
  printLines (tallyLines tally)
  if tally.failed > 0 then fail (plainDiagnostic (failureMessage tally.failed))
  else printLine "✓ All files passed validation!"

end Phrasebook.Command
