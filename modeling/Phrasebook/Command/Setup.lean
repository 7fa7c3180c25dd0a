import Phrasebook.Command.Display

/-!
# Setting up

The commands that come before any record: creating a project, and creating the
tables of its store.

## Main definitions

* `initProject`
* `installStore`
-/
namespace Phrasebook.Command

/-- What a new project consists of, as its structure is shown. -/
def projectParts : List Path := [⟨".mouth/"⟩, ⟨".mouth/config.yaml"⟩, ⟨"templates/"⟩]

/-- The lines on a new project. -/
def createdLines (tree : FileTree) (project : Project) : List String :=
  let root := project.root.path
  [s!"✓ Initialized mouth project at {root.text}", "", "Created project structure:"] ++
    ((projectParts.filter fun part => (tree.entryAt? [] (root.child part)).isSome).map fun part =>
      "  " ++ part.text) ++
    ["", "Next steps:",
     "  mouth install Create the store tables",
     "  mouth template add templates/welcome.template.yaml Add a template",
     "  mouth validate Validate record files"]

/-- The folder a project is to be created in, made where it does not exist. -/
def projectFolder (path : Path) : Action Location := do
  let context ← read
  let failure := fun (e : FileError) => plainDiagnostic e.message
  if ((← files).entryAt? context.working path).isSome then pure ()
  else
    setFiles (← orFail failure ((← files).makeFolder context.working path))
    printLine s!"✓ Created directory {path.text}"
  orFail failure ((← files).locate context.working path)

/-- Create a project in a folder, the working folder unless another is named. A
project that exists is left as it is unless forced. -/
def initProject (path? : Option Path) (force : Bool) : Action Unit := do
  let root ← projectFolder (path?.getD ⟨"."⟩)
  let (tree, result) := (← files).createProject root force
  setFiles tree
  match result with
  | .ok project => printLines (createdLines tree project)
  | .error (.alreadyExists root) =>
    printLines [s!"! mouth project already exists at {root.path.text}", "",
      "Use mouth init --force to reinitialize"]
  | .error e => fail (plainDiagnostic e.message)

/-- The tables of a kind. -/
def tableNames (d : Descriptor) : List String := d.table :: d.changesTable?.toList

/-- Create the tables of every kind, as far as they do not exist. -/
def installStore (options : Options) : Action Unit := do
  let s ← openStore options
  s.save (← orRefuse s.store.install)
  if !options.quiet then
    printLines ((s.store.registry.descriptors.flatMap tableNames).map ("✓ " ++ ·))
    printLines ["", "✓ Store installed"]

end Phrasebook.Command
