import Phrasebook.Command.Arguments
import Phrasebook.Schema.Ddl

/-!
# What a command line asks for

## Main definitions

* `Options`: the options of the program itself
* `Request`: a command with everything it needs
* `Request.read`: options and request that words spell
-/
namespace Phrasebook.Command

/-- How records are printed. -/
inductive OutputFormat where
  /-- For people: a sheet for one record, a table for several. -/
  | auto
  | yaml
  | json
  /-- Only keys. -/
  | id
  deriving DecidableEq, Repr, Inhabited

namespace OutputFormat

/-- All formats. -/
def all : List OutputFormat := [auto, yaml, json, id]

/-- The name of a format. -/
def name : OutputFormat → String
  | auto => "auto"
  | yaml => "yaml"
  | json => "json"
  | id => "id"

/-- The format of a name in any case. -/
def ofName? (s : String) : Option OutputFormat :=
  all.find? fun format => format.name == Text.asciiLower s

end OutputFormat

/-- The options of the program itself. -/
structure Options where
  format : OutputFormat := .auto
  quiet : Bool := false
  verbose : Bool := false
  database? : Option Path := none
  deriving DecidableEq, Repr

/-- A command on definitions. -/
inductive SchemaRequest where
  | list
  | show (kind : RecordKind) (raw : Bool)
  | ddl (kind? : Option RecordKind) (dialect : Dialect)
  deriving DecidableEq, Repr

/-- A command on locales. -/
inductive LocaleRequest where
  | add (code : LocaleCode) (name : String)
  | show (code : LocaleCode)
  | list (archived : Bool)
  | update (code : LocaleCode) (name : String)
  | delete (code : LocaleCode) (archive : Bool)
  | exists (code : LocaleCode)
  deriving DecidableEq, Repr

/-- A command on templates, which are named by key or by name. -/
inductive TemplateRequest where
  | add (file : Path)
  | show (template : String)
  | list
  | update (template : String) (file : Path)
  | delete (template : String)
  | contents (template : String)
  deriving DecidableEq, Repr

/-- A command on the variants of one kind. -/
inductive VariantRequest where
  | add (file : Path) (template? : Option String)
  | show (id : RecordId)
  | find (template : String) (locale : LocaleCode)
  | list (template? : Option String) (locale? : Option LocaleCode)
  | update (id : RecordId) (file : Path)
  | delete (id : RecordId)
  deriving DecidableEq, Repr

/-- What is to be validated, and how it is reported. -/
structure ValidateRequest where
  paths : List Path
  kind? : Option RecordKind
  keepGoing : Bool
  summary : Bool
  deriving DecidableEq, Repr

/-- What a command line asks for. -/
inductive Request where
  | init (path? : Option Path) (force : Bool)
  | install
  | validate (request : ValidateRequest)
  | schema (request : SchemaRequest)
  | locale (request : LocaleRequest)
  | template (request : TemplateRequest)
  | variant (kind : RecordKind) (request : VariantRequest)
  | completions (shell : String)
  deriving DecidableEq, Repr

/-! ## Values -/

namespace Values

/-- Whether an argument was given. -/
def has (values : Values) (name : String) : Bool := values.any fun entry => entry.1 == name

/-- What is picked from the first value of an argument. -/
def pick? (values : Values) (name : String) (pick : Value → Option α) : Option α :=
  (values.find? fun entry => entry.1 == name).bind fun entry => pick entry.2

/-- The text of an argument. -/
def text? (values : Values) (name : String) : Option String :=
  Values.pick? values name fun
    | .text text => some text
    | _ => none

/-- The path of an argument. -/
def path? (values : Values) (name : String) : Option Path :=
  Values.pick? values name fun
    | .path path => some path
    | _ => none

/-- The kind of an argument. -/
def kind? (values : Values) (name : String) : Option RecordKind :=
  Values.pick? values name fun
    | .kind kind => some kind
    | _ => none

/-- The locale of an argument. -/
def locale? (values : Values) (name : String) : Option LocaleCode :=
  Values.pick? values name fun
    | .locale code => some code
    | _ => none

/-- The key of an argument. -/
def key? (values : Values) (name : String) : Option RecordId :=
  Values.pick? values name fun
    | .key id => some id
    | _ => none

/-- All paths of an argument. -/
def paths (values : Values) (name : String) : List Path :=
  values.filterMap fun (given, value) =>
    match value with
    | .path path => if given == name then some path else none
    | _ => none

end Values

/-- What an operand was found to spell; the operand is missing otherwise. -/
def need (name : String) (found : Option α) : Except UsageError α :=
  match found with
  | some a => .ok a
  | none => .error (.missingOperand name)

/-! ## Requests -/

/-- The request of a command on definitions. -/
def SchemaRequest.read (values : Values) : String → Except UsageError SchemaRequest
  | "list" => .ok .list
  | "show" => do
    .ok (.show (← need "kind" (Values.kind? values "kind")) (Values.has values "raw"))
  | "ddl" =>
    let dialect := if Values.text? values "dialect" == some "sqlite" then Dialect.sqlite else .mysql
    .ok (.ddl (Values.kind? values "kind") dialect)
  | word => .error (.unknownSubcommand word)

/-- The request of a command on locales. -/
def LocaleRequest.read (values : Values) (word : String) : Except UsageError LocaleRequest :=
  let code := need "code" (Values.locale? values "code")
  let name := need "name" (Values.text? values "name")
  match word with
  | "add" => do .ok (.add (← code) (← name))
  | "show" => do .ok (.show (← code))
  | "list" => .ok (.list (Values.has values "archived"))
  | "update" => do .ok (.update (← code) (← name))
  | "delete" => do .ok (.delete (← code) (Values.has values "archive"))
  | "exists" => do .ok (.exists (← code))
  | _ => .error (.unknownSubcommand word)

/-- The request of a command on templates. -/
def TemplateRequest.read (values : Values) (word : String) : Except UsageError TemplateRequest :=
  let template := need "template" (Values.text? values "template")
  let file := need "file" (Values.path? values "file")
  match word with
  | "add" => do .ok (.add (← file))
  | "show" => do .ok (.show (← template))
  | "list" => .ok .list
  | "update" => do .ok (.update (← template) (← file))
  | "delete" => do .ok (.delete (← template))
  | "contents" => do .ok (.contents (← template))
  | _ => .error (.unknownSubcommand word)

/-- The request of a command on variants. -/
def VariantRequest.read (values : Values) (word : String) : Except UsageError VariantRequest :=
  let id := need "id" (Values.key? values "id")
  let file := need "file" (Values.path? values "file")
  let template? := Values.text? values "template"
  let locale? := Values.locale? values "locale"
  match word with
  | "add" => do .ok (.add (← file) template?)
  | "show" => do .ok (.show (← id))
  | "find" => do .ok (.find (← need "template" template?) (← need "locale" locale?))
  | "list" => .ok (.list template? locale?)
  | "update" => do .ok (.update (← id) (← file))
  | "delete" => do .ok (.delete (← id))
  | _ => .error (.unknownSubcommand word)

/-- The request of the commands of a line, the outermost first, where `values`
belong to the innermost. -/
def Request.ofCommands (values : Values) : List String → Except UsageError Request
  | ["init"] => .ok (.init (Values.path? values "path") (Values.has values "force"))
  | ["install"] => .ok .install
  | ["validate"] =>
    .ok (.validate ⟨Values.paths values "paths", Values.kind? values "kind",
      Values.has values "keep-going", Values.has values "summary"⟩)
  | ["schema", word] => do .ok (.schema (← SchemaRequest.read values word))
  | ["locale", word] => do .ok (.locale (← LocaleRequest.read values word))
  | ["template", word] => do .ok (.template (← TemplateRequest.read values word))
  | ["email", word] => do .ok (.variant .email (← VariantRequest.read values word))
  | ["sms", word] => do .ok (.variant .sms (← VariantRequest.read values word))
  | ["completions"] => do .ok (.completions (← need "shell" (Values.text? values "shell")))
  | _ => .error .missingSubcommand

/-- The options of the program; of several levels that give one, the innermost
counts, and the line before the environment. -/
def Options.ofLevels (database? : Option String) (levels : List Level) : Options where
  format := ((levels.findSome? fun l => Values.text? l.values "format").bind
    OutputFormat.ofName?).getD .auto
  quiet := levels.any fun l => Values.has l.values "quiet"
  verbose := levels.any fun l => Values.has l.values "verbose"
  database? := (levels.findSome? fun l => Values.path? l.values "database").or
    (database?.map Path.mk)

/-- The options and the request that the words of a line spell. -/
def Request.read (env : Environment) (words : List String) :
    Except UsageError (Options × Request) := do
  let database? := env.get? "MOUTH_DATABASE"
  let levels ← readWords database? grammar {} words
  let names := (levels.map (·.name)).reverse.drop 1
  let request ← Request.ofCommands ((levels.head?.map (·.values)).getD []) names
  .ok (Options.ofLevels database? levels, request)

end Phrasebook.Command
