import Phrasebook.Files.Path
import Phrasebook.Store.Database

/-!
# Trees of files

Folders and files below a root. A file holds a text, the tables of a store, or
bytes that are no text.

## Main definitions

* `FileTree`, `FileTree.get?`, `FileTree.put`
* `FileTree.locate`: what a path names
* `FileTree.read`, `FileTree.write`, `FileTree.makeFolders`
* `FileTree.filesBelow`: the files inside a folder
-/
namespace Phrasebook

/-- What a file holds. -/
inductive FileContent where
  | text (content : String)
  | database (content : Database)
  | binary
  deriving DecidableEq, Repr

/-- What stands at a location. -/
inductive FileEntry where
  | folder
  | file (content : FileContent)
  deriving DecidableEq, Repr

/-- Why something cannot be read or written. -/
inductive FileError where
  | notFound
  | alreadyExists
  | notAFolder
  | isAFolder
  | notText
  deriving DecidableEq, Repr

/-- The message of a failure, as the operating system words it. -/
def FileError.message : FileError → String
  | notFound => "No such file or directory (os error 2)"
  | alreadyExists => "File exists (os error 17)"
  | notAFolder => "Not a directory (os error 20)"
  | isAFolder => "Is a directory (os error 21)"
  | notText => "stream did not contain valid UTF-8"

/-- Everything below the root, each location once. -/
structure FileTree where
  entries : List (Location × FileEntry)
  deriving DecidableEq, Repr

namespace FileTree

/-- The root alone. -/
def empty : FileTree := ⟨[]⟩

/-- What stands at a location; the root is a folder. -/
def get? (tree : FileTree) (l : Location) : Option FileEntry :=
  if l.isEmpty then some .folder
  else (tree.entries.find? fun entry => entry.1 == l).map Prod.snd

/-- Put something at a location, in the place of what stood there. -/
def put (tree : FileTree) (l : Location) (entry : FileEntry) : FileTree :=
  ⟨(tree.entries.filter fun other => other.1 != l) ++ [(l, entry)]⟩

/-- Whether a folder stands at a location. -/
def isFolder (tree : FileTree) (l : Location) : Bool := tree.get? l == some .folder

/-! ## Paths -/

/-- Take one step from a folder. -/
def step (here : Location) (name : String) : Location :=
  if name == "." then here
  else if name == ".." then here.dropLast
  else here ++ [name]

/-- Take steps, each of them from an existing folder. Nothing needs to stand
where they end. -/
def follow (tree : FileTree) (here : Location) : List String → Except FileError Location
  | [] => .ok here
  | name :: rest =>
    match tree.get? here with
    | none => .error .notFound
    | some (.file _) => .error .notAFolder
    | some .folder => follow tree (step here name) rest

/-- Where a path begins. -/
def start (working : Location) (p : Path) : Location := if p.isAbsolute then [] else working

/-- The location a path names, seen from a working folder. -/
def locate (tree : FileTree) (working : Location) (p : Path) : Except FileError Location :=
  tree.follow (start working p) p.steps

/-- What a path names. -/
def entryAt? (tree : FileTree) (working : Location) (p : Path) : Option FileEntry :=
  match tree.locate working p with
  | .ok l => tree.get? l
  | .error _ => none

/-! ## Reading and writing -/

/-- The text of the file at a location. -/
def readAt (tree : FileTree) (l : Location) : Except FileError String :=
  match tree.get? l with
  | none => .error .notFound
  | some .folder => .error .isAFolder
  | some (.file (.text content)) => .ok content
  | some (.file _) => .error .notText

/-- The text of the file a path names. -/
def read (tree : FileTree) (working : Location) (p : Path) : Except FileError String := do
  tree.readAt (← tree.locate working p)

/-- Write a text to a file, creating it where it does not exist. -/
def writeAt (tree : FileTree) (l : Location) (content : String) : Except FileError FileTree :=
  match tree.get? l with
  | some .folder => .error .isAFolder
  | _ => .ok (tree.put l (.file (.text content)))

/-- Make the folders on the way through some parts, as far as they do not
exist. -/
def makeFolders (tree : FileTree) (here : Location) : List String → Except FileError FileTree
  | [] => .ok tree
  | name :: rest =>
    let next := step here name
    match tree.get? next with
    | some .folder => makeFolders tree next rest
    | some (.file _) => .error (if rest.isEmpty then .alreadyExists else .notAFolder)
    | none => makeFolders (tree.put next .folder) next rest

/-- Make the folder a path names, and those above it. -/
def makeFolder (tree : FileTree) (working : Location) (p : Path) : Except FileError FileTree :=
  tree.makeFolders (start working p) p.parts

/-- The files inside a folder by the names below it, in the order of names. -/
def filesBelow (tree : FileTree) (folder : Location) : List Location :=
  (tree.entries.filterMap fun (l, entry) =>
    match entry with
    | .file _ => Location.below? folder l
    | .folder => none).mergeSort fun a b => a.compare b != .gt

end FileTree
end Phrasebook
