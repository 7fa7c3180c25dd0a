import Phrasebook.Command.Help
import Phrasebook.Command.Run
import Phrasebook.Store.Saved
import Std.Time.DateTime

/-!
# The program

The files a command may look at are read before it runs, and what it changed is
written after it.
-/
namespace Phrasebook.Program

/-- The variables the program knows. -/
def knownVariables : List String :=
  ["HOME", "XDG_CONFIG_HOME", "USER", "USERNAME", "MOUTH_DATABASE", "MOUTH_ACTOR", "MOUTH_LOG"]

/-- The variables that are set. -/
def environment : IO Environment :=
  knownVariables.filterMapM fun name => do
    return (← IO.getEnv name).map fun value => (name, value)

/-- The time. -/
def clock : IO Instant := do
  let t ← Std.Time.Timestamp.now
  let nanos := t.toNanosecondsSinceUnixEpoch.val
  return ⟨nanos.fdiv 1000000000, (nanos.fmod 1000000000).toNat⟩

/-- A new key. -/
def freshKey : IO Uuid := do
  let bytes ← IO.getRandomBytes 16
  match Uuid.ofRandom? (bytes.toList.map UInt8.toNat) with
  | some key => return key
  | none => throw (IO.userError "no random key")

/-- What a file holds. -/
def contentOf (bytes : ByteArray) : FileContent :=
  match String.fromUTF8? bytes with
  | none => .binary
  | some content =>
    match Database.ofSaved? content with
    | some database => .database database
    | none => .text content

/-- The folders on the way to a location, from the root. -/
def ancestors (l : Location) : List Location := (List.range l.length).map fun n => l.take n

/-- Add what stands at a location, and everything inside if it is a folder and
`deep` is set. -/
partial def look (deep : Bool) (tree : FileTree) (l : Location) : IO FileTree := do
  let place := (← IO.currentDir).join l.path.text
  if !(← place.pathExists) then return tree
  else if ← place.isDir then
    let tree := tree.put l .folder
    if deep then
      (← place.readDir).foldlM (fun tree entry => look deep tree (l ++ [entry.fileName])) tree
    else return tree
  else return tree.put l (.file (contentOf (← IO.FS.readBinFile place)))

/-- Add what a path names, seen from a working folder. -/
def lookAt (working : Location) (deep : Bool) (tree : FileTree) (p : Path) : IO FileTree := do
  let l := p.steps.foldl FileTree.step (FileTree.start working p)
  let tree ← (ancestors l).foldlM (look false) tree
  look deep tree l

/-- The paths that a request names, and whether what is inside matters. -/
def pathsOf : Command.Request → List (Path × Bool)
  | .init path? _ =>
    let root := path?.getD ⟨"."⟩
    (root, false) :: Command.projectParts.map fun part => (root.child part, false)
  | .validate request => request.paths.map fun p => (p, true)
  | .template (.add file) | .template (.update _ file) => [(file, false)]
  | .variant _ (.add file _) | .variant _ (.update _ file) => [(file, false)]
  | _ => []

/-- The files a command may look at: the project or the working folder, the
settings of the user, the store, and what the line names. -/
def snapshot (env : Environment) (working : Location) (options : Command.Options)
    (request : Command.Request) : IO FileTree := do
  let above := ancestors working ++ [working]
  let tree ← above.foldlM (look false) FileTree.empty
  let tree ← above.foldlM (fun tree l => look false tree (l ++ [Project.folderName])) tree
  let tree ← match tree.project? working with
    | some project =>
      look (request matches .validate _) (← look true tree project.folder) project.root
    | none => pure tree
  let named := pathsOf request ++
    (FileTree.userFolder? env).toList.map fun folder => (folder.child ⟨"mouth/config.yaml"⟩, false)
  let tree ← named.foldlM (fun tree (p, deep) => lookAt working deep tree p) tree
  let store := options.database?.getD
    ((tree.settings working env).storePath (tree.project? working))
  if options.verbose then IO.eprintln ("store: " ++ store.text)
  lookAt working false tree store

/-- Write what has changed. -/
def writeChanges (old new : FileTree) : IO Unit := do
  let here ← IO.currentDir
  for (l, entry) in new.entries do
    if old.get? l != some entry then
      let place := here.join l.path.text
      match entry with
      | .folder => IO.FS.createDirAll place
      | .file (.text content) => IO.FS.writeFile place content
      | .file (.database database) => IO.FS.writeFile place database.saved
      | .file .binary => pure ()

/-- Run a request. -/
def run (env : Environment) (options : Command.Options) (request : Command.Request)
    (readInput : Bool) : IO UInt32 := do
  let working := Path.parts ⟨(← IO.currentDir).toString⟩
  let tree ← snapshot env working options request
  let input ← if readInput then (← IO.getStdin).readToEnd else pure ""
  let context : Command.Context := ⟨env, working, input, ← clock, ← freshKey⟩
  let (result, world) := Command.run context tree options request
  writeChanges tree world.files
  IO.print world.printed
  match result with
  | .ok _ => return 0
  | .error d =>
    d.lines.forM IO.eprintln
    return 1

end Phrasebook.Program

/-- Run the command that the words of the line spell. -/
def main (words : List String) : IO UInt32 := do
  let env ← Phrasebook.Program.environment
  match Phrasebook.Command.Request.read env words with
  | .ok (options, request) =>
    Phrasebook.Program.run env options request (words.contains "-")
  | .error e =>
    if e.exitCode == 0 then IO.println e.answer else IO.eprintln e.answer
    return e.exitCode.toUInt32
