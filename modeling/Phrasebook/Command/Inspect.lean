import Phrasebook.Command.Display
import Phrasebook.Schema.Render

/-!
# Inspecting definitions

The commands that show the kinds of record, their fields, and the tables they
are stored in.

## Main definitions

* `runSchema`
-/
namespace Phrasebook.Command

/-- The table of all kinds. -/
def kindTable (registry : Registry) : TextTable where
  heading := ["KIND", "TITLE", "TABLE", "FIELDS"]
  rows := registry.descriptors.map fun d =>
    [d.kind.shortName, d.title, d.table, toString d.fields.length]

/-- Whether a field must be given, in a word. -/
def requiredText (f : FieldSpec) : String :=
  if f.required then "yes" else if f.serverAssigned then "auto" else ""

/-- The constraints of a field in words. -/
def constraintsText (f : FieldSpec) : String :=
  let bound (word : String) (n? : Option Nat) : List String :=
    n?.toList.map fun n => s!"{word} {n}"
  let reference := match f.references with
    | some target =>
      [s!"-> {target.name}" ++ if f.onDelete == .cascade then " (cascade)" else ""]
    | none => []
  Text.join ", " (bound "min" f.minLength ++ bound "max" f.maxLength ++
    (f.pattern.toList.map ("pattern " ++ ·)) ++
    (if f.values.isEmpty then [] else ["values " ++ Text.join "|" f.values]) ++ reference ++
    (if f.immutable && !f.serverAssigned then ["immutable"] else []))

/-- The table of the fields of a kind. -/
def fieldTable (d : Descriptor) : TextTable where
  heading := ["NAME", "TYPE", "REQ", "CONSTRAINTS", "COLUMN"]
  rows := d.fields.map fun f =>
    [f.name, f.type.name, requiredText f, constraintsText f, f.mysqlColumn]

/-- The line on an index. -/
def indexLine (index : IndexSpec) : String :=
  let word := if index.unique then "unique" else "index"
  s!"  {index.name} ({word}) on " ++ Text.join ", " index.fields

/-- The lines on a kind. -/
def descriptorLines (d : Descriptor) : List String :=
  [d.title, Text.repeated "=" d.title.utf8ByteSize] ++
  (if d.description.isEmpty then [] else [d.description, ""]) ++
  [(fieldTable d).render] ++
  (if d.storage.indexes.isEmpty then []
    else ["", "Indexes:"] ++ d.storage.indexes.map indexLine) ++
  (if d.assignedFields.isEmpty then []
    else ["", "Assigned when absent: " ++ Text.join ", " (d.assignedFields.map (·.name))]) ++
  ["", "Use --raw for the full JSON Schema"]

/-- Run a command on definitions. -/
def runSchema (options : Options) : SchemaRequest → Action Unit
  | .list => do
    printLine (kindTable .builtin).render
    if !options.quiet then
      printLines ["", "Use 'mouth schema show <kind>' for field details"]
  | .show kind raw => do
    let d ← descriptorOf kind
    if raw then printJson (d.jsonSchema .create) else printLines (descriptorLines d)
  | .ddl kind? dialect => do
    let ds ← match kind? with
      | some kind => do pure [← descriptorOf kind]
      | none => pure Registry.builtin.descriptors
    printLine (Text.join "\n" (ds.map fun d => d.createTable dialect))

end Phrasebook.Command
