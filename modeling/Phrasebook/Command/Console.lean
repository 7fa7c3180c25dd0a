import Phrasebook.Command.Request
import Phrasebook.Document.Record
import Phrasebook.Project.Layout
import Phrasebook.Schema.Builtin
import Phrasebook.Store.Mutation

/-!
# Running commands

A command reads and changes files, prints, and may fail with a diagnostic. What
it has printed and written before it fails stays.

## Main definitions

* `Context`, `World`, `Action`
* `openStore`, `OpenStore.save`: the store a command works on
-/
namespace Phrasebook

/-! ## Failures as diagnostics -/

/-- A refusal of the store as it is shown. -/
def StoreError.diagnostic (e : StoreError) : Diagnostic :=
  { message := e.message, code? := some e.code, help? := e.help? }

/-- A failure of the registry as it is shown. -/
def RegistryError.diagnostic (e : RegistryError) : Diagnostic :=
  { message := e.message, code? := some e.code, help? := e.help? }

/-- A failure between the forms of a record as it is shown. -/
def RecordError.diagnostic (e : RecordError) : Diagnostic :=
  { message := e.message, code? := some e.code }

/-- A refused candidate as it is shown. -/
def ValidationError.diagnostic (e : ValidationError) : Diagnostic :=
  { message := e.message, code? := some e.code }

/-- A reference that names no template as it is shown. -/
def Store.ResolveError.diagnostic : Store.ResolveError → Diagnostic
  | .store cause => cause.diagnostic
  | .notFound reference => { message := (Store.ResolveError.notFound reference).message }

namespace Command

/-! ## Actions -/

/-- What a command finds when it starts. -/
structure Context where
  environment : Environment
  /-- The working folder. -/
  working : Location
  /-- The text on standard input. -/
  input : String
  now : Instant
  /-- The key of the record the command creates, if it needs one. -/
  fresh : Uuid

/-- What a command changes. -/
structure World where
  files : FileTree
  printed : String := ""

/-- A command, or part of one. -/
abbrev Action := ReaderT Context (ExceptT Diagnostic (StateM World))

/-- Fail with a diagnostic. -/
def fail (d : Diagnostic) : Action α := throw d

/-- A result, or a failure as it is shown. -/
def orFail (show' : ε → Diagnostic) : Except ε α → Action α
  | .ok a => pure a
  | .error e => fail (show' e)

/-- Print a text. -/
def print (text : String) : Action Unit :=
  modify fun w => { w with printed := w.printed ++ text }

/-- Print a line. -/
def printLine (text : String) : Action Unit := print (text ++ "\n")

/-- Print lines. -/
def printLines (lines : List String) : Action Unit := lines.forM printLine

/-- The files as they are. -/
def files : Action FileTree := do return (← get).files

/-- Change the files. -/
def setFiles (tree : FileTree) : Action Unit := modify fun w => { w with files := tree }

/-- A message without code or help. -/
def plainDiagnostic (message : String) : Diagnostic := { message }

/-! ## Reading documents -/

/-- Content and name of a document; `-` is standard input. -/
def readDocument (file : Path) : Action (String × String) := do
  let context ← read
  if file.text == "-" then return (context.input, "<stdin>")
  else
    let content ← orFail
      (fun (e : FileError) => plainDiagnostic s!"Cannot read {file.text}: {e.message}")
      ((← files).read context.working file)
    return (content, file.fileName?.getD file.text)

/-! ## The store -/

/-- A store with the file it is kept in, unless it vanishes with the command. -/
structure OpenStore where
  store : Store
  place? : Option Location

/-- The path of the store a command works on. -/
def storePath (options : Options) : Action Path := do
  let context ← read
  let tree ← files
  match options.database? with
  | some path => return path
  | none =>
    return (tree.settings context.working context.environment).storePath
      (tree.project? context.working)

/-- Whether a path stands for a store that is kept in no file. -/
def isTemporary (path : Path) : Bool := path.text.isEmpty || path.text == ":memory:"

/-- The tables in a file, and whether the file is to be begun as a store. -/
def databaseAt (tree : FileTree) (path : Path) (l : Location) :
    Except EngineError (Database × Bool) :=
  match tree.get? l with
  | none | some (.file (.text "")) => .ok (.empty, true)
  | some (.file (.database db)) => .ok (db, false)
  | some .folder => .error (.cannotOpen path.text)
  | some (.file _) => .error .notADatabase

/-- Open the store of a path. Its folder is made and its file begun where they
do not exist; the tables are not. -/
def openStoreAt (path : Path) : Action OpenStore := do
  let context ← read
  let tree ← orFail (fun (e : FileError) => (StoreError.io e.message).diagnostic)
    ((← files).makeFolders (FileTree.start context.working path) path.parts.dropLast)
  setFiles tree
  if isTemporary path then return ⟨⟨.builtin, .empty⟩, none⟩
  else
    let engineFailure := fun (e : EngineError) => (StoreError.engine e).diagnostic
    let place ← orFail (fun _ => engineFailure (.cannotOpen path.text))
      (tree.locate context.working path)
    let (database, new) ← orFail engineFailure (databaseAt tree path place)
    if new then setFiles (tree.put place (.file (.database database)))
    return ⟨⟨.builtin, database⟩, some place⟩

/-- Open the store a command works on. -/
def openStore (options : Options) : Action OpenStore := do openStoreAt (← storePath options)

/-- Keep the changed store. -/
def OpenStore.save (s : OpenStore) (changed : Store) : Action Unit := do
  match s.place? with
  | some place => setFiles ((← files).put place (.file (.database changed.database)))
  | none => pure ()

/-- What the store answers, or its refusal as it is shown. -/
def orRefuse (e : Except StoreError α) : Action α := orFail StoreError.diagnostic e

/-- Who changes are attributed to. -/
def actor : Action String := do
  let context ← read
  return ((← files).settings context.working context.environment).actorIn context.environment

/-! ## Changing records -/

/-- Store a new record. -/
def createRecord (s : OpenStore) (r : Record) : Action Unit := do
  s.save (← orRefuse (s.store.create r (← actor) (← read).now))

/-- Store a new version of a record. -/
def updateRecord (s : OpenStore) (r : Record) : Action Unit := do
  s.save (← orRefuse (s.store.update r (← actor) (← read).now))

/-- Delete a record; the number of records deleted. -/
def deleteRecord (s : OpenStore) (kind : RecordKind) (id : RecordId) : Action Nat := do
  let (store, removed) ← orRefuse (s.store.delete kind id (← actor) (← read).now)
  s.save store
  return removed

/-- The template a reference names. -/
def templateOf (s : OpenStore) (reference : String) : Action RecordId :=
  orFail Store.ResolveError.diagnostic (s.store.resolveTemplate reference)

/-- The descriptor of a kind. -/
def descriptorOf (kind : RecordKind) : Action Descriptor :=
  orFail RegistryError.diagnostic (Registry.builtin.descriptor kind)

/-- The version of a record that a document makes of it. -/
def patchRecord (existing : Record) (content filename : String) : Action Record := do
  let patch ← orFail DocumentError.diagnostic (readPatch content)
  orFail (fun e => (DocumentError.ofValidation filename content e).diagnostic)
    (Registry.builtin.validateUpdate existing patch (← read).now)

end Command
end Phrasebook
