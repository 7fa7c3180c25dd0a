import Phrasebook.Command.Arguments
import Phrasebook.Document.Diagnostic

/-!
# Help and failures in words

## Main definitions

* `helpText`: the commands of the program
* `Diagnostic.lines`: a failure for people
-/
namespace Phrasebook

/-- A failure for people: its message, where it arises in a document, and how to
mend it. -/
def Diagnostic.lines (d : Diagnostic) : List String :=
  let hint (help? : Option String) : List String := help?.toList.map ("  help: " ++ ·)
  ("Error: " ++ d.message) ::
    (d.findings.flatMap fun f =>
      s!"  {f.message} ({f.hint} at byte {f.span.offset})" :: hint f.help?) ++
    hint d.help?

namespace Command

/-- An operand as it is shown. -/
def Operand.usage (o : Operand) : String :=
  let name := "<" ++ Text.asciiUpper o.name ++ ">" ++ if o.many then "..." else ""
  if o.required then name else "[" ++ name ++ "]"

/-- An option as it is shown. -/
def Flag.usage (f : Flag) : String :=
  let value := if f.form?.isSome then " <" ++ Text.asciiUpper f.name ++ ">" else ""
  "[--" ++ f.name ++ value ++ "]"

/-- The line on a command, called by the names before it. -/
def Grammar.usageLine (before : String) (g : Grammar) : String :=
  Text.join " " ([before, g.name] ++ g.operands.map Operand.usage ++ g.flags.map Flag.usage)

/-- The lines on a command, or on each of its subcommands. -/
def Grammar.usageLines (before : String) (g : Grammar) : List String :=
  let lines (before : String) (g : Grammar) : List String :=
    ["  " ++ g.usageLine before, "      " ++ g.about]
  if g.commands.isEmpty then lines before g
  else g.commands.flatMap (lines (before ++ " " ++ g.name))

/-- The commands of the program and the options of all of them. -/
def helpText : String :=
  Text.join "\n" ([grammar.about, "", "Commands:"] ++
    grammar.commands.flatMap (Grammar.usageLines grammar.name) ++
    ["", "Options:", "  " ++
      Text.join " " ((commonFlags ++ [helpFlag, versionFlag]).map Flag.usage)])

/-- The name and version of the program. -/
def versionText : String := grammar.name ++ " 0.1.0"

/-- The answer to words that are no command. -/
def UsageError.answer : UsageError → String
  | .help => helpText
  | .version => versionText
  | .nothingGiven => helpText
  | e => "error: " ++ e.message ++ "\n\nFor more information, try '--help'."

end Command
end Phrasebook
