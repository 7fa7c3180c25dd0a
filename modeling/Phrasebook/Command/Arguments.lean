import Phrasebook.Command.Grammar
import Phrasebook.Project.Settings

/-!
# Reading a command line

The words of a command line are read against a grammar from left to right. A
value is checked once the argument it belongs to is complete, that is when the
next argument begins or the command ends; a subcommand ends before the command
that holds it. The first failure in this order is the answer.

## Main definitions

* `Scan`: what has been read of one command
* `Level`: a command of the line with its values
* `readWords`: the commands of the line, the innermost first
-/
namespace Phrasebook.Command

/-- Values by the names of their arguments, in the order of the line. -/
abbrev Values := List (String × Value)

/-- One command of the line with the values given at it. -/
structure Level where
  name : String
  values : Values
  deriving DecidableEq, Repr

/-- An argument that is not complete yet, with its texts so far. -/
structure Pending where
  argument : String
  form : ValueForm
  many : Bool
  texts : List String
  deriving DecidableEq, Repr

/-- What has been read of one command. -/
structure Scan where
  values : Values := []
  pending? : Option Pending := none
  /-- Number of operands that are not to be given again. -/
  operands : Nat := 0
  /-- Whether only operands can follow. -/
  operandsOnly : Bool := false
  deriving DecidableEq, Repr

/-! ## Words -/

/-- The shape of a word. -/
inductive Word where
  /-- The mark after which only operands follow. -/
  | mark
  | long (name : String) (value? : Option String)
  | short (letters : List Char)
  | plain
  deriving DecidableEq, Repr

/-- The shape of a word; a single hyphen is plain. -/
def Word.of (word : String) : Word :=
  match word.toList with
  | ['-', '-'] => .mark
  | '-' :: '-' :: rest =>
    match Text.splitFirst? '=' rest with
    | some (name, value) => .long (String.ofList name) (some (String.ofList value))
    | none => .long (String.ofList rest) none
  | '-' :: c :: rest => .short (c :: rest)
  | _ => .plain

/-! ## Arguments of a command -/

/-- The option that asks for help. -/
def helpFlag : Flag := { name := "help", short? := some 'h' }

/-- The option that asks for the version. -/
def versionFlag : Flag := { name := "version", short? := some 'V' }

/-- The options a command knows. -/
def Grammar.knownFlags (g : Grammar) : List Flag :=
  g.flags ++ commonFlags ++ [helpFlag, versionFlag]

/-- Whether a word names a subcommand, `help` being one of any command that has
subcommands. -/
def Grammar.isCommand (g : Grammar) (word : String) : Bool :=
  (g.command? word).isSome || (word == helpFlag.name && !g.commands.isEmpty)

/-- The error of a word that has no place. -/
def Grammar.misplaced (g : Grammar) (operandsOnly : Bool) (word : String) : UsageError :=
  if operandsOnly && g.isCommand word then .unknownArgument word
  else if !g.commands.isEmpty && g.operands.isEmpty then .unknownSubcommand word
  else .unknownArgument word

namespace Scan

/-- Whether an argument has been given. -/
def has (s : Scan) (argument : String) : Bool := s.values.any fun entry => entry.1 == argument

/-- Whether an option still needs its value. -/
def awaiting (s : Scan) : Bool := s.pending?.any fun p => p.texts.isEmpty

/-- Check and record the argument that is not complete yet. -/
def settle (s : Scan) : Except UsageError Scan :=
  match s.pending? with
  | none => .ok s
  | some p =>
    if p.texts.isEmpty then .error (.invalidValue p.argument "")
    else if !p.many && s.has p.argument then .error (.repeated p.argument)
    else do
      let values ← p.texts.mapM fun text => p.form.read p.argument text
      .ok { s with
        values := s.values ++ values.map fun value => (p.argument, value)
        pending? := none }

/-- Give the option that awaits a value the next text. -/
def supply (s : Scan) (text : String) : Scan :=
  { s with pending? := s.pending?.map fun p => { p with texts := p.texts ++ [text] } }

/-- Give an option without a value. -/
def giveFlag (s : Scan) (f : Flag) : Except UsageError Scan := do
  let s ← s.settle
  if f = helpFlag then .error .help
  else if f = versionFlag then .error .version
  else if s.has f.name then .error (.repeated f.name)
  else .ok { s with values := s.values ++ [(f.name, .given)] }

/-- Give an option with its value, or begin one whose value follows. -/
def giveOption (s : Scan) (f : Flag) (form : ValueForm) (value? : Option String) :
    Except UsageError Scan := do
  let s ← s.settle
  let begun : Scan := { s with pending? := some ⟨f.name, form, false, value?.toList⟩ }
  if value?.isSome then begun.settle else .ok begun

/-- Read an option by its name. -/
def long (g : Grammar) (s : Scan) (name : String) (value? : Option String) :
    Except UsageError Scan :=
  match g.knownFlags.find? fun f => f.name == name with
  | none => .error (.unknownArgument ("--" ++ name))
  | some f =>
    match f.form?, value? with
    | some form, _ => s.giveOption f form value?
    | none, some _ => .error (.unneededValue name)
    | none, none => s.giveFlag f

/-- The value attached to a letter, with or without an equals sign. -/
def attached? : List Char → Option String
  | [] => none
  | '=' :: value => some (String.ofList value)
  | value => some (String.ofList value)

/-- Read options by their letters; the first that takes a value takes the rest
of the word. -/
def short (g : Grammar) (s : Scan) : List Char → Except UsageError Scan
  | [] => .ok s
  | c :: rest =>
    match g.knownFlags.find? fun f => f.short? == some c with
    | none => .error (.unknownArgument (String.ofList ['-', c]))
    | some f =>
      match f.form? with
      | some form => s.giveOption f form (attached? rest)
      | none => do short g (← s.giveFlag f) rest

/-- Read an operand. -/
def operand (g : Grammar) (s : Scan) (word : String) : Except UsageError Scan :=
  match g.operands[s.operands]? with
  | none => .error (g.misplaced s.operandsOnly word)
  | some o =>
    if o.many && s.pending?.any (fun p => p.argument == o.name) then .ok (s.supply word)
    else do
      let s ← s.settle
      .ok { s with
        pending? := some ⟨o.name, o.form, o.many, [word]⟩
        operands := if o.many then s.operands else s.operands + 1 }

/-- Read a word that is no subcommand. -/
def word (g : Grammar) (s : Scan) (w : String) : Except UsageError Scan :=
  if s.operandsOnly then s.operand g w
  else match Word.of w with
    | .mark => .ok { s with operandsOnly := true }
    | .long name value? => s.long g name value?
    | .short letters => s.short g letters
    | .plain => if s.awaiting then .ok (s.supply w) else s.operand g w

end Scan

/-! ## The line -/

/-- The answer to `help` with the words after it. -/
def helpAnswer (g : Grammar) : List String → UsageError
  | [] => .help
  | word :: rest =>
    match g.command? word with
    | some child => helpAnswer child rest
    | none =>
      if g.isCommand word && rest.isEmpty then .help else .unknownSubcommand word

/-- End a command: check what is not complete, the store named by the
environment, and what is missing. -/
def finish (database? : Option String) (g : Grammar) (s : Scan) (inner : List Level) :
    Except UsageError (List Level) := do
  let s ← s.settle
  match database? with
  | some text => if s.has "database" then pure () else
    let _ ← ValueForm.path.read "database" text
  | none => pure ()
  if inner.isEmpty && !g.commands.isEmpty then
    .error (if s.values.isEmpty && database?.isNone then .nothingGiven else .missingSubcommand)
  else match g.operands.find? fun o => o.required && !s.has o.name with
    | some o => .error (.missingOperand o.name)
    | none => .ok (inner ++ [⟨g.name, s.values⟩])

/-- The commands that words name, the innermost first, each with its values.
`database?` is the store named by the environment. -/
def readWords (database? : Option String) : Grammar → Scan → List String →
    Except UsageError (List Level)
  | g, s, [] => finish database? g s []
  | g, s, word :: rest =>
    if !s.operandsOnly && !s.awaiting && g.isCommand word then
      match g.command? word with
      | some child => do
        let inner ← readWords database? child {} rest
        finish database? g s inner
      | none => .error (helpAnswer g rest)
    else do
      let s ← s.word g word
      readWords database? g s rest

end Phrasebook.Command
