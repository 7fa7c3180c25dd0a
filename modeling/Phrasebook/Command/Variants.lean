import Phrasebook.Command.Display

/-!
# Commands on variants

The emails and the text messages of templates are handled alike; the kind is
fixed by the command.

## Main definitions

* `runVariant`
-/
namespace Phrasebook.Command

/-- Put the key of a template into a document's value, if that is a mapping. -/
def withTemplate (template : RecordId) : Json → Json
  | .obj fields => .obj (Fields.insert "template" (.str template.text) fields)
  | other => other

/-- The record of a document, for the template that is named beside it. -/
def recordForTemplate (kind : RecordKind) (template : RecordId) (content filename : String) :
    Action Record := do
  let context ← read
  let value ← orFail DocumentError.diagnostic (readPatch content)
  orFail (fun e => (DocumentError.ofValidation filename content e).diagnostic)
    (Registry.builtin.validate kind (withTemplate template value) context.fresh context.now)

/-- Create a variant from a document. -/
def addVariant (options : Options) (kind : RecordKind) (file : Path)
    (template? : Option String) : Action Unit := do
  let context ← read
  let s ← openStore options
  let (content, filename) ← readDocument file
  let r ← match template? with
    | none =>
      orFail DocumentError.diagnostic
        (Registry.builtin.validateDocument kind filename content context.fresh context.now)
    | some reference =>
      recordForTemplate kind (← templateOf s reference) content filename
  createRecord s r
  if options.format == .id then printLine r.id.text
  else report options <|
    s!"✓ Created {kind.shortName} {r.id.text} for locale " ++ (r.getStr? "locale").getD ""

/-- Run a command on the variants of a kind. -/
def runVariant (options : Options) (kind : RecordKind) : VariantRequest → Action Unit
  | .add file template? => addVariant options kind file template?
  | .show id => do
    let s ← openStore options
    printRecord (← orRefuse (s.store.get kind id)) options.format
  | .find reference locale => do
    let s ← openStore options
    let template ← templateOf s reference
    match ← orRefuse (s.store.findVariant kind template locale) with
    | some r => printRecord r options.format
    | none => fail <| plainDiagnostic <|
        s!"Template {reference} has no {kind.shortName} variant for {locale.text}"
  | .list template? locale => do
    let s ← openStore options
    let template ← template?.mapM (templateOf s)
    let rs ← orRefuse (s.store.list kind { template, locale })
    printRecords rs (← descriptorOf kind) options
  | .update id file => do
    let s ← openStore options
    let existing ← orRefuse (s.store.get kind id)
    let (content, filename) ← readDocument file
    let changed ← patchRecord existing content filename
    updateRecord s changed
    report options s!"✓ Updated {kind.shortName} {changed.id.text}"
  | .delete id => do
    let s ← openStore options
    let _ ← deleteRecord s kind id
    report options s!"✓ Deleted {kind.shortName} {id.text}"

end Phrasebook.Command
