import Phrasebook.Command.Display
import Phrasebook.Entity

/-!
# Commands on locales

Variants can only be written in locales that exist.

## Main definitions

* `runLocale`
-/
namespace Phrasebook.Command

/-- The typed form of a record of a kind. -/
def entityOf (kind : RecordKind) (r : Record) : Action Entity :=
  orFail RecordError.diagnostic (Entity.ofRecord kind r)

/-- The typed form of a locale record. -/
def localeOf (r : Record) : Action Locale :=
  orFail RecordError.diagnostic <| do
    r.expectKind .locale
    (Locale.ofJson r.toJson).mapError fun cause => .conversion .locale cause.message

/-- Add a locale. -/
def addLocale (options : Options) (code : LocaleCode) (name : String) : Action Unit := do
  let context ← read
  let candidate := Json.object [("_id", .str code.text), ("name", .str name)]
  let r ← orFail ValidationError.diagnostic
    (Registry.builtin.validate .locale candidate context.fresh context.now)
  let s ← openStore options
  createRecord s r
  let added ← localeOf r
  if options.format == .id then printLine added.code.text
  else report options s!"✓ Created locale {added.code.text} ({added.name})"

/-- The table of locales. -/
def localeTable (locales : List Locale) : TextTable where
  heading := ["CODE", "NAME", "ARCHIVED"]
  rows := locales.map fun l => [l.code.text, l.name, if l.archived then "yes" else ""]

/-- A locale as a value, its fields in the order they are declared. -/
def localeValue (l : Locale) : Json := .obj (Entity.locale l).entries

/-- List locales by name. -/
def listLocales (options : Options) (archived : Bool) : Action Unit := do
  let s ← openStore options
  let rs ← orRefuse (s.store.list .locale { archived })
  let locales ← rs.mapM localeOf
  match options.format with
  | .yaml => printYaml (.arr (locales.map localeValue))
  | .json => printJson (.arr (locales.map localeValue))
  | .id => printLines (locales.map fun l => l.code.text)
  | .auto =>
    printLine (localeTable locales).render
    if !options.quiet then printLines ["", s!"{locales.length} locale(s) found"]

/-- Change a locale by some fields. -/
def changeLocale (s : OpenStore) (code : LocaleCode) (changes : List (String × Json)) :
    Action Unit := do
  let existing ← orRefuse (s.store.get .locale (.locale code))
  let changed ← orFail ValidationError.diagnostic
    (Registry.builtin.validateUpdate existing (Json.object changes) (← read).now)
  updateRecord s changed

/-- Whether a locale is stored, archived or not. -/
def localeExists (s : OpenStore) (code : LocaleCode) : Action Bool :=
  match s.store.get .locale (.locale code) with
  | .ok _ => pure true
  | .error (.noRecord ..) => pure false
  | .error e => fail e.diagnostic

/-- Run a command on locales. -/
def runLocale (options : Options) : LocaleRequest → Action Unit
  | .add code name => addLocale options code name
  | .show code => do
    let s ← openStore options
    printRecord (← orRefuse (s.store.get .locale (.locale code))) options.format
  | .list archived => listLocales options archived
  | .update code name => do
    let s ← openStore options
    changeLocale s code [("name", .str name)]
    report options s!"✓ Renamed locale {code.text} to {name}"
  | .delete code archive => do
    let s ← openStore options
    if archive then
      changeLocale s code [(archivedField, .bool true)]
      report options s!"✓ Archived locale {code.text}"
    else
      let _ ← deleteRecord s .locale (.locale code)
      report options s!"✓ Deleted locale {code.text}"
  | .exists code => do
    let s ← openStore options
    printLine (if ← localeExists s code then "true" else "false")

end Phrasebook.Command
