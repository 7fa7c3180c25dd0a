import Phrasebook.Command.Check
import Phrasebook.Command.Inspect
import Phrasebook.Command.Locales
import Phrasebook.Command.Setup
import Phrasebook.Command.Templates
import Phrasebook.Command.Variants

/-!
# Running a request

## Main definitions

* `runRequest`: the action a request stands for
* `run`: what a request comes to
-/
namespace Phrasebook.Command

/-- The words a shell completes the name of the program with. -/
def completionWords : List String := grammar.commands.map (·.name) ++ [helpFlag.name]

/-- The script that makes a shell complete commands. -/
def completionScript (shell : String) : String :=
  let words := Text.join " " completionWords
  match shell with
  | "fish" => s!"complete -c {grammar.name} -f -n __fish_use_subcommand -a '{words}'"
  | "zsh" => s!"#compdef {grammar.name}\n_arguments '1:command:({words})' '*:file:_files'"
  | "bash" => s!"complete -o default -W '{words}' {grammar.name}"
  | _ => words

/-- Run a request. -/
def runRequest (options : Options) : Request → Action Unit
  | .init path? force => initProject path? force
  | .install => installStore options
  | .validate request => validateFiles request
  | .schema request => runSchema options request
  | .locale request => runLocale options request
  | .template request => runTemplate options request
  | .variant kind request => runVariant options kind request
  | .completions shell => printLine (completionScript shell)

/-- The options with the format that settings choose, where the line leaves it
open. A format of an unknown name is passed over. -/
def Options.settle (options : Options) (settings : Settings) : Options :=
  if options.format == .auto then
    { options with
      format := (settings.defaultFormat?.bind OutputFormat.ofName?).getD options.format }
  else options

/-- What a request comes to: its failure, if any, what it printed, and the files
after it. -/
def run (context : Context) (tree : FileTree) (options : Options) (request : Request) :
    Except Diagnostic Unit × World :=
  let settings := tree.settings context.working context.environment
  ((runRequest (options.settle settings) request).run context).run.run { files := tree }

end Phrasebook.Command
