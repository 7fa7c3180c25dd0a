import Phrasebook.Files.Path
import Phrasebook.Identity.Kind
import Phrasebook.Identity.RecordId

/-!
# The grammar of the command line

Commands, the options they know and the operands they take. Options of the
program itself may stand at any command.

## Main definitions

* `ValueForm`, `Value`: what a text on the line must spell, and what it spells
* `Flag`, `Operand`: options and operands
* `Grammar`: a command with its arguments and subcommands
* `grammar`: the commands of the program
-/
namespace Phrasebook.Command

/-! ## Values -/

/-- What a text on the command line must spell. -/
inductive ValueForm where
  | anyText
  /-- A path, which is not empty. -/
  | path
  | kind
  | locale
  | key
  | oneOf (names : List String)
  deriving DecidableEq, Repr

/-- What a text on the command line spells. -/
inductive Value where
  /-- The option itself, which takes no value. -/
  | given
  | text (text : String)
  | path (path : Path)
  | kind (kind : RecordKind)
  | locale (code : LocaleCode)
  | key (id : RecordId)
  deriving DecidableEq, Repr

/-- Why the words of a command line are no command. -/
inductive UsageError where
  /-- Help was asked for. -/
  | help
  /-- The version was asked for. -/
  | version
  /-- A command that needs a subcommand was given nothing at all. -/
  | nothingGiven
  | missingSubcommand
  | unknownSubcommand (word : String)
  | unknownArgument (word : String)
  | missingOperand (name : String)
  /-- A value is missing or none of those listed. -/
  | invalidValue (argument text : String)
  /-- A value does not spell what it should. -/
  | refusedValue (argument text reason : String)
  | repeated (argument : String)
  /-- An option that takes none was given a value. -/
  | unneededValue (argument : String)
  deriving DecidableEq, Repr

namespace UsageError

/-- The message of an error. -/
def message : UsageError → String
  | help => "help"
  | version => "version"
  | nothingGiven | missingSubcommand => "a subcommand is required"
  | unknownSubcommand word => s!"unrecognized subcommand '{word}'"
  | unknownArgument word => s!"unexpected argument '{word}'"
  | missingOperand name => s!"missing argument '{name}'"
  | invalidValue argument text => s!"invalid value '{text}' for '{argument}'"
  | refusedValue argument text reason => s!"invalid value '{text}' for '{argument}': {reason}"
  | repeated argument => s!"'{argument}' cannot be used multiple times"
  | unneededValue argument => s!"'{argument}' takes no value"

/-- The exit code of the program: asking for help or the version is no failure. -/
def exitCode : UsageError → Nat
  | help | version => 0
  | _ => 2

end UsageError

/-- Read the value of an argument. -/
def ValueForm.read (argument text : String) : ValueForm → Except UsageError Value
  | .anyText => .ok (.text text)
  | .path => if text.isEmpty then .error (.invalidValue argument text) else .ok (.path ⟨text⟩)
  | .oneOf names =>
    if names.contains text then .ok (.text text) else .error (.invalidValue argument text)
  | .kind =>
    match RecordKind.parse text with
    | .ok found => .ok (.kind found)
    | .error e => .error (.refusedValue argument text e.message)
  | .locale =>
    match LocaleCode.parse text with
    | .ok code => .ok (.locale code)
    | .error e => .error (.refusedValue argument text e.message)
  | .key =>
    match RecordId.parse text with
    | .ok id => .ok (.key id)
    | .error e => .error (.refusedValue argument text e.message)

/-! ## Arguments -/

/-- An option, with a value of some form or without any. -/
structure Flag where
  name : String
  short? : Option Char := none
  form? : Option ValueForm := none
  deriving DecidableEq, Repr

/-- An operand, known by its place. The last one may stand for any number. -/
structure Operand where
  name : String
  form : ValueForm
  required : Bool := true
  many : Bool := false
  deriving DecidableEq, Repr

/-- A command. -/
structure Grammar where
  name : String
  about : String
  flags : List Flag := []
  operands : List Operand := []
  commands : List Grammar := []

/-- The subcommand of a name. -/
def Grammar.command? (g : Grammar) (word : String) : Option Grammar :=
  g.commands.find? fun child => child.name == word

/-! ## The commands of the program -/

/-- The options every command knows. -/
def commonFlags : List Flag :=
  [{ name := "format", short? := some 'f', form? := some (.oneOf ["auto", "yaml", "json", "id"]) },
   { name := "quiet", short? := some 'q' },
   { name := "verbose", short? := some 'v' },
   { name := "database", form? := some .path }]

/-- The commands on locales. -/
def localeGrammar : Grammar where
  name := "locale"
  about := "Locale management"
  commands :=
    [{ name := "add", about := "Add a locale",
       operands := [{ name := "code", form := .locale }, { name := "name", form := .anyText }] },
     { name := "show", about := "Show a locale",
       operands := [{ name := "code", form := .locale }] },
     { name := "list", about := "List locales by name", flags := [{ name := "archived" }] },
     { name := "update", about := "Rename a locale",
       operands := [{ name := "code", form := .locale }, { name := "name", form := .anyText }] },
     { name := "delete", about := "Delete a locale that no variant uses, or archive it",
       flags := [{ name := "archive" }], operands := [{ name := "code", form := .locale }] },
     { name := "exists", about := "Print whether a locale exists",
       operands := [{ name := "code", form := .locale }] }]

/-- The commands on templates. -/
def templateGrammar : Grammar where
  name := "template"
  about := "Template management"
  commands :=
    [{ name := "add", about := "Create a template from a document (\"-\" for standard input)",
       operands := [{ name := "file", form := .path }] },
     { name := "show", about := "Show a template",
       operands := [{ name := "template", form := .anyText }] },
     { name := "list", about := "List templates" },
     { name := "update", about := "Update a template from a partial document",
       operands := [{ name := "template", form := .anyText }, { name := "file", form := .path }] },
     { name := "delete", about := "Delete a template and all of its variants",
       operands := [{ name := "template", form := .anyText }] },
     { name := "contents", about := "Show every variant of a template",
       operands := [{ name := "template", form := .anyText }] }]

/-- The commands on the variants of one kind. -/
def variantGrammar (name about : String) : Grammar where
  name := name
  about := about
  commands :=
    [{ name := "add", about := "Create a variant from a document (\"-\" for standard input)",
       flags := [{ name := "template", short? := some 't', form? := some .anyText }],
       operands := [{ name := "file", form := .path }] },
     { name := "show", about := "Show a variant", operands := [{ name := "id", form := .key }] },
     { name := "find", about := "Find the variant of a template in one locale",
       operands := [{ name := "template", form := .anyText },
         { name := "locale", form := .locale }] },
     { name := "list", about := "List variants",
       flags := [{ name := "template", short? := some 't', form? := some .anyText },
         { name := "locale", short? := some 'l', form? := some .locale }] },
     { name := "update", about := "Update a variant from a partial document",
       operands := [{ name := "id", form := .key }, { name := "file", form := .path }] },
     { name := "delete", about := "Delete a variant",
       operands := [{ name := "id", form := .key }] }]

/-- The dialects of SQL by name. -/
def dialectForm : ValueForm := .oneOf ["mysql", "sqlite"]

/-- The commands on definitions. -/
def schemaGrammar : Grammar where
  name := "schema"
  about := "Inspect record descriptors"
  commands :=
    [{ name := "list", about := "List all record kinds" },
     { name := "show", about := "Show the fields of a record kind", flags := [{ name := "raw" }],
       operands := [{ name := "kind", form := .kind }] },
     { name := "ddl", about := "Print CREATE TABLE statements",
       flags := [{ name := "dialect", short? := some 'd', form? := some dialectForm }],
       operands := [{ name := "kind", form := .kind, required := false }] }]

/-- The shells completions can be made for. -/
def shells : List String := ["bash", "elvish", "fish", "powershell", "zsh"]

/-- The program with all its commands. -/
def grammar : Grammar where
  name := "mouth"
  about := "Template records for a notification service"
  commands :=
    [{ name := "init", about := "Initialize a new mouth project", flags := [{ name := "force" }],
       operands := [{ name := "path", form := .path, required := false }] },
     { name := "install", about := "Create the record tables in the store" },
     { name := "validate", about := "Validate record files against their descriptors",
       flags := [{ name := "kind", short? := some 'k', form? := some .kind },
         { name := "keep-going" }, { name := "summary" }],
       operands := [{ name := "paths", form := .path, required := false, many := true }] },
     schemaGrammar, localeGrammar, templateGrammar,
     variantGrammar "email" "Email variant management",
     variantGrammar "sms" "SMS variant management",
     { name := "completions", about := "Generate shell completions",
       operands := [{ name := "shell", form := .oneOf shells }] }]

end Phrasebook.Command
