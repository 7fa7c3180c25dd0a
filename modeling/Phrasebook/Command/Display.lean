import Phrasebook.Command.Console
import Phrasebook.Identity.Display
import Phrasebook.Text.Table
import Phrasebook.Yaml.Print

/-!
# Printing records

A single record is printed as a sheet with one field a line, several records as
a table of their short fields; or either as YAML, as JSON, or by key only.

## Main definitions

* `printRecord`, `printRecords`, `printJson`
-/
namespace Phrasebook.Command

/-- A line across the screen. -/
def ruleLine : String := Text.repeated "─" 60

/-- Print a value as indented JSON. -/
def printJson (value : Json) : Action Unit := printLine value.indented

/-- Print a value as YAML, which ends without a line end of its own. -/
def printYaml (value : Json) : Action Unit := print (Yaml.text value)

/-- A value for people: texts as they are, the entries of a mapping as
`name: text`, nothing for null, anything else as JSON. -/
def valueText : Json → String
  | .str s => s
  | .null => ""
  | .obj entries =>
    Text.join ", " (entries.map fun (name, value) => name ++ ": " ++ value.str?.getD "")
  | other => other.compact

/-- The lines of a field in a sheet: a text of several lines stands indented
below its label. -/
def fieldLines (f : FieldSpec) (value : Json) : List String :=
  let text := valueText value
  if text.toList.contains '\n' then
    (f.displayLabel ++ ":") :: (Text.lines text).map ("  " ++ ·)
  else [f.displayLabel ++ ": " ++ text]

/-- The sheet of a record: every field it has, except its key, which stands in
the heading. -/
def sheetLines (d : Descriptor) (r : Record) : List String :=
  [ruleLine, d.title ++ ": " ++ r.id.text, ruleLine] ++
    ((d.fields.filter fun f => f.name != idField).flatMap fun f =>
      match r.get? f.name with
      | some value => fieldLines f value
      | none => []) ++
    [ruleLine]

/-- Print a record. -/
def printRecord (r : Record) (format : OutputFormat) : Action Unit := do
  match format with
  | .yaml => printYaml r.toJson
  | .json => printJson r.toJson
  | .id => printLine r.id.text
  | .auto => printLines (sheetLines (← descriptorOf r.kind) r)

/-- The columns of a table of records: the key, the update time, and the fields
without a form element of their own. -/
def tableColumns (d : Descriptor) : List FieldSpec :=
  d.fields.filter fun f =>
    if f.name == idField || f.name == updatedField then true
    else if f.name == createdField then false
    else f.control.isNone

/-- The greatest length of a text in a table. -/
def cellLimit : Nat := 40

/-- A cell of a table of records. Keys are shortened. -/
def recordCell (r : Record) (f : FieldSpec) : String :=
  let value := (r.get? f.name).getD .null
  if f.name == idField || f.type == .uuid then RecordId.shortOfText (value.str?.getD "")
  else Text.truncate cellLimit (valueText value)

/-- The table of records of one kind. -/
def recordTable (d : Descriptor) (rs : List Record) : TextTable where
  heading := (tableColumns d).map fun f => Text.asciiUpper f.displayLabel
  rows := rs.map fun r => (tableColumns d).map (recordCell r)

/-- Print records of one kind. -/
def printRecords (rs : List Record) (d : Descriptor) (options : Options) : Action Unit := do
  match options.format with
  | .yaml => printYaml (.arr (rs.map Record.toJson))
  | .json => printJson (.arr (rs.map Record.toJson))
  | .id => printLines (rs.map fun r => r.id.text)
  | .auto =>
    printLine (recordTable d rs).render
    if !options.quiet then
      printLines ["", s!"{rs.length} {d.kind.shortName} record(s) found"]

/-- Print a line unless quiet. -/
def report (options : Options) (line : String) : Action Unit :=
  if options.quiet then pure () else printLine line

end Phrasebook.Command
