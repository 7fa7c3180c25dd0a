import Phrasebook.Files.Tree
import Phrasebook.Identity.Kind
import Phrasebook.Json.Decode
import Phrasebook.Project.Settings

/-!
# Projects

A project is a folder with a folder of its own settings in it. A command run
anywhere below belongs to the nearest project above.

## Main definitions

* `Project`, `FileTree.project?`: the nearest project
* `FileTree.createProject`: the folders and settings of a new project
* `FileTree.recordFiles`: the record documents of a project
* `FileTree.settings`: the settings in force, layer over layer
-/
namespace Phrasebook

/-- A project by its root. -/
structure Project where
  root : Location
  deriving DecidableEq, Repr

/-- Why there is no project, or none can be created. -/
inductive ProjectError where
  | notFound (searchedFrom : Location)
  | alreadyExists (root : Location)
  | io (cause : FileError)
  deriving DecidableEq, Repr

/-- The message of a failure. -/
def ProjectError.message : ProjectError → String
  | notFound place =>
    s!"not a mouth project (searched from {debugQuote place.path.text}). " ++
      "Run 'mouth init' to create one."
  | alreadyExists root => s!"mouth project already exists at {debugQuote root.path.text}"
  | io cause => "IO error: " ++ cause.message

namespace Project

/-- The name of the folder that makes a project. -/
def folderName : String := ".mouth"

/-- The name of the folder for documents. -/
def documentFolderName : String := "templates"

/-- The folder that makes a project. -/
def folder (project : Project) : Location := project.root ++ [folderName]

/-- The file of the project's own settings. -/
def settingsFile (project : Project) : Location := project.folder ++ ["config.yaml"]

/-- The settings file of a new project, which sets nothing yet. -/
def initialSettings : String :=
  "# mouth project configuration\n" ++
  "\n" ++
  "# SQLite store, relative to the project root (default: .mouth/mouth.db)\n" ++
  "# database: .mouth/mouth.db\n" ++
  "\n" ++
  "# User that changes are attributed to (default: $USER)\n" ++
  "# actor: \"\"\n" ++
  "\n" ++
  "# Log filter, e.g. \"mouth=debug\" (overridden by MOUTH_LOG)\n" ++
  "# log: warn\n" ++
  "\n" ++
  "# Default output format (auto, yaml, json, id)\n" ++
  "# default_format: auto\n"

/-- The store of a project that sets no other. -/
def storeName : Path := ⟨".mouth/mouth.db"⟩

end Project

/-- Where the store lies: a relative path counts from the root of the project,
or from the working folder outside of one. -/
def Settings.storePath (settings : Settings) (project? : Option Project) : Path :=
  let chosen : Path := (settings.database?.map Path.mk).getD Project.storeName
  match project? with
  | some project => project.root.path.child chosen
  | none => chosen

namespace FileTree

/-- The nearest project at or above a location, given from its end. -/
def projectAbove? (tree : FileTree) : List String → Option Project
  | [] => if tree.isFolder [Project.folderName] then some ⟨[]⟩ else none
  | name :: above =>
    let here := (name :: above).reverse
    if tree.isFolder (here ++ [Project.folderName]) then some ⟨here⟩
    else projectAbove? tree above

/-- The nearest project at or above a folder. -/
def project? (tree : FileTree) (working : Location) : Option Project :=
  tree.projectAbove? working.reverse

/-- The nearest project at or above a folder, or an error naming the folder. -/
def project (tree : FileTree) (working : Location) : Except ProjectError Project :=
  match tree.project? working with
  | some project => .ok project
  | none => .error (.notFound working)

/-! ## Creating a project -/

/-- One step of creating a project; a failure keeps what the steps before it
have made. -/
abbrev CreationStep := FileTree → Except FileError FileTree

/-- Take steps until one fails. -/
def takeSteps (tree : FileTree) : List CreationStep → FileTree × Except ProjectError Unit
  | [] => (tree, .ok ())
  | step :: rest =>
    match step tree with
    | .ok tree => takeSteps tree rest
    | .error cause => (tree, .error (.io cause))

/-- Create the folders and settings of a project at a root. Unless forced, a
project that exists is left alone. -/
def createProject (tree : FileTree) (root : Location) (force : Bool) :
    FileTree × Except ProjectError Project :=
  let project : Project := ⟨root⟩
  if !force && (tree.get? project.folder).isSome then (tree, .error (.alreadyExists root))
  else
    let (tree, result) := tree.takeSteps [
      fun t => t.makeFolders [] project.folder,
      fun t => t.makeFolders [] (root ++ [Project.documentFolderName]),
      fun t => t.writeAt project.settingsFile Project.initialSettings]
    (tree, result.map fun _ => project)

/-! ## Record documents -/

/-- The record documents of a project, of one kind or of any, by their names
below the root. The project's own folder holds none. -/
def recordFiles (tree : FileTree) (project : Project) (kind? : Option RecordKind) :
    List Location :=
  (tree.filesBelow project.root).filter fun names =>
    names.head? != some Project.folderName &&
      match RecordKind.ofFilename? (names.getLastD "") with
      | some found => kind?.all (· == found)
      | none => false

/-! ## Settings -/

/-- The folder of a user's settings. -/
def userFolder? (env : Environment) : Option Path :=
  match env.get? "XDG_CONFIG_HOME" with
  | some text => if Path.isAbsolute ⟨text⟩ then some ⟨text⟩ else home?
  | none => home?
where
  home? : Option Path := (env.get? "HOME").map fun home => Path.child ⟨home⟩ ⟨".config"⟩

/-- The settings of a file; one that cannot be read or that spells none sets
nothing. -/
def settingsAt (tree : FileTree) (working : Location) (p : Path) : Settings :=
  match tree.read working p with
  | .ok content => ((Settings.read content).toOption).getD {}
  | .error _ => {}

/-- The settings in force: the user's, those of the project over them, and those
of the environment over both. -/
def settings (tree : FileTree) (working : Location) (env : Environment) : Settings :=
  let user := (userFolder? env).map fun folder =>
    tree.settingsAt working (folder.child ⟨"mouth/config.yaml"⟩)
  let project := (tree.project? working).map fun project =>
    tree.settingsAt working project.settingsFile.path
  [user.getD {}, project.getD {}, Settings.ofEnvironment env].foldl Settings.override {}

end FileTree
end Phrasebook
