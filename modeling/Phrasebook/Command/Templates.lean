import Phrasebook.Command.Display
import Phrasebook.Entity

/-!
# Commands on templates

A template is named by its key or by its name.

## Main definitions

* `runTemplate`
-/
namespace Phrasebook.Command

/-- The typed form of a template record. -/
def typedTemplate (r : Record) : Action Template :=
  orFail RecordError.diagnostic <| do
    r.expectKind .template
    (Template.ofJson r.toJson).mapError fun cause => .conversion .template cause.message

/-- The lines on a new template: its name and key, and its variables. -/
def createdTemplateLines (t : Template) : List String :=
  s!"✓ Created template {t.name} ({t.id.text})" ::
    t.variableTypes.map fun (name, type) => s!"   {name} {type.name}"

/-- Create a template from a document. -/
def addTemplate (options : Options) (file : Path) : Action Unit := do
  let context ← read
  let (content, filename) ← readDocument file
  let r ← orFail DocumentError.diagnostic
    (Registry.builtin.validateDocument .template filename content context.fresh context.now)
  let s ← openStore options
  createRecord s r
  let t ← typedTemplate r
  if options.format == .id then printLine t.id.text
  else if options.quiet then pure ()
  else printLines (createdTemplateLines t)

/-- The short name of a kind, filled up to the width of a column. -/
def kindCell (kind : RecordKind) : String :=
  let name := kind.shortName
  name ++ Text.repeated " " (6 - Text.charCount name)

/-- The line on a variant: key, kind, locale, day of the last update, and the
beginning of its content. -/
def variantLine (r : Record) : Action String := do
  let e ← orFail RecordError.diagnostic (Entity.ofRecord r.kind r)
  match e.variant? with
  | some (_, locale, preview) =>
    return Text.join " " [e.id.short, kindCell e.kind, locale.text, e.updated.dateText,
      Text.truncate 50 preview]
  | none => fail (plainDiagnostic s!"{r.kind.name} is not a template variant")

/-- Show every variant of a template. -/
def showContents (options : Options) (reference : String) : Action Unit := do
  let s ← openStore options
  let id ← templateOf s reference
  let rs ← orRefuse (s.store.contents id)
  match options.format with
  | .yaml => printYaml (.arr (rs.map Record.toJson))
  | .json => printJson (.arr (rs.map Record.toJson))
  | .id => printLines (rs.map fun r => r.id.text)
  | .auto =>
    if rs.isEmpty then report options "No variants"
    rs.forM fun r => do printLine (← variantLine r)

/-- Run a command on templates. -/
def runTemplate (options : Options) : TemplateRequest → Action Unit
  | .add file => addTemplate options file
  | .show reference => do
    let s ← openStore options
    let id ← templateOf s reference
    printRecord (← orRefuse (s.store.get .template id)) options.format
  | .list => do
    let s ← openStore options
    let rs ← orRefuse (s.store.list .template {})
    printRecords rs (← descriptorOf .template) options
  | .update reference file => do
    let s ← openStore options
    let id ← templateOf s reference
    let existing ← orRefuse (s.store.get .template id)
    let (content, filename) ← readDocument file
    let changed ← patchRecord existing content filename
    updateRecord s changed
    report options s!"✓ Updated template {changed.id.text}"
  | .delete reference => do
    let s ← openStore options
    let id ← templateOf s reference
    let removed ← deleteRecord s .template id
    report options s!"✓ Deleted template {id.text} ({removed - 1} variant(s) removed)"
  | .contents reference => showContents options reference

end Phrasebook.Command
