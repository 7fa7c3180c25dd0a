import Phrasebook.Json.Decode
import Phrasebook.Json.Read
import Phrasebook.Record

/-!
# Recorded changes

Every mutation of a kind with revisions leaves an entry: who did what, with the
whole record on create and the old and new values of the changed fields on
update. Entries are kept as JSON text and read back field by field.

## Main definitions

* `ChangeAction`, `ChangeItems`, `ChangeEntry`
* `diffFields`: old and new values of the fields in which two records differ
* `ChangeItems.text`, `ChangeItems.read`
-/
namespace Phrasebook

/-- What a change did. -/
inductive ChangeAction where
  | create | update | delete
  deriving DecidableEq, Repr

namespace ChangeAction

/-- The name of an action. -/
def name : ChangeAction → String
  | create => "create"
  | update => "update"
  | delete => "delete"

/-- All actions. -/
def all : List ChangeAction := [create, update, delete]

end ChangeAction

/-- The content of an entry. -/
structure ChangeItems where
  user : String
  action : ChangeAction
  fields : Fields
  deriving DecidableEq, Repr

/-- An entry of the history of a record. -/
structure ChangeEntry where
  id : RecordId
  created : Instant
  items : ChangeItems
  deriving DecidableEq, Repr

/-! ## Differences -/

/-- The old and the new value of a field. -/
def oldAndNew (old new : Json) : Json := .obj [("new", new), ("old", old)]

/-- The difference in one field of the new version. -/
def changedField? (old : Fields) (name : String) (value : Json) : Option (String × Json) :=
  let before := (old.get? name).getD .null
  if before.same value then none else some (name, oldAndNew before value)

/-- The difference in one field of the old version that the new one lacks. -/
def droppedField? (new : Fields) (name : String) (value : Json) : Option (String × Json) :=
  if new.has name then none else some (name, oldAndNew value .null)

/-- Old and new values of every field in which two versions differ. -/
def diffFields (old new : Record) : Fields :=
  Fields.ofList
    (new.fields.filterMap (fun (name, value) => changedField? old.fields name value) ++
      old.fields.filterMap fun (name, value) => droppedField? new.fields name value)

/-! ## Text -/

namespace ChangeItems

/-- The JSON text of an entry; no fields are left out. -/
def text (items : ChangeItems) : String :=
  (Json.obj ([("user", .str items.user), ("action", .str items.action.name)] ++
    if items.fields.isEmpty then [] else [("fields", .obj items.fields)])).compact

open Json

/-- What has been read of an entry. -/
structure Partial where
  user : Option String := none
  action : Option ChangeAction := none
  fields : Option Fields := none

/-- An error about what has been read so far. -/
def failWith (c : Cursor) (e : DecodeError) : SyntaxError := c.fail (.other e.message)

/-- The error for a value of the wrong type, read as far as its type shows. -/
def wrongType (expected : String) (c : Cursor) : SyntaxError :=
  match c.peek? with
  | some '[' => failWith c (.wrongType (.arr []) expected)
  | some '\x7b' => failWith c (.wrongType (.obj []) expected)
  | _ =>
    match readValue (c.rest.length + 2) depthLimit c with
    | .ok (value, c) => failWith c (.wrongType value expected)
    | .error e => e

/-- A string. -/
def readText : Reader String := fun c =>
  let c := c.skipBlank
  match c.peek? with
  | none => .error (c.failAhead .eofValue)
  | some '"' => readString c.next
  | some _ => .error (wrongType "a string" c)

/-- The action of a name. -/
def actionOf (name : String) (c : Cursor) : Except SyntaxError ChangeAction :=
  match ChangeAction.all.find? fun action => action.name == name with
  | some action => .ok action
  | none => .error (failWith c (.unknownVariant name (ChangeAction.all.map (·.name))))

/-- An action, by name or as an object of that one key without content. -/
def readAction : Reader ChangeAction := fun c =>
  let c := c.skipBlank
  match c.peek? with
  | none => .error (c.failAhead .eofValue)
  | some '"' => do
    let (name, c) ← readString c.next
    let action ← actionOf name c
    .ok (action, c)
  | some '\x7b' => do
    let (name, c) ← readText c.next
    let action ← actionOf name c
    let c := (← readColon c).skipBlank
    match c.peek? with
    | some 'n' => do
      let (_, c) ← readWord .null ['u', 'l', 'l'] c.next
      let c := c.skipBlank
      match c.peek? with
      | some '\x7d' => .ok (action, c.next)
      | some _ => .error (c.fail .expectedValue)
      | none => .error (c.fail .eofObject)
    | none => .error (c.failAhead .eofValue)
    | some _ => .error (wrongType "unit" c)
  | some _ => .error (c.failAhead .expectedValue)

/-- An object. -/
def readFields (depth : Nat) : Reader Fields := fun c =>
  let c := c.skipBlank
  match c.peek? with
  | none => .error (c.failAhead .eofValue)
  | some '\x7b' => do
    match ← readValue (2 * c.rest.length + 4) depth c with
    | (.obj fields, c) => .ok (fields, c)
    | (_, c) => .ok ([], c)
  | some _ => .error (wrongType "a map" c)

/-- The place after the closing brace, if it is next. -/
def closeObject (c : Cursor) : Cursor :=
  let c := c.skipBlank
  match c.peek? with
  | some '\x7d' => c.next
  | some ',' => c.next.skipBlank
  | _ => c

/-- The place after the closing bracket, if it is next. -/
def closeArray (c : Cursor) : Cursor :=
  let c := c.skipBlank
  match c.peek? with
  | some ']' => c.next
  | some ',' => c.next.skipBlank
  | _ => c

/-- An entry from its parts, with an error for the first one missing. -/
def assemble (given : Partial) (c : Cursor) : Except SyntaxError ChangeItems :=
  match given.user, given.action with
  | none, _ => .error (failWith c (.missing "user"))
  | _, none => .error (failWith c (.missing "action"))
  | some user, some action => .ok ⟨user, action, given.fields.getD []⟩

/-- A part that is given twice. -/
def twice (name : String) (c : Cursor) : SyntaxError :=
  (closeObject c).fail (.other s!"duplicate field `{name}`")

/-- Read the parts of an entry up to the closing brace. -/
def readParts : Nat → Bool → Partial → Reader ChangeItems
  | 0, _, _, c => .error (c.fail .recursionLimit)
  | fuel + 1, first, given, c => do
    match ← nextKey first c with
    | (none, c) => do
      let items ← assemble given c.next
      .ok (items, c.next)
    | (some "user", c) =>
      if given.user.isSome then .error (twice "user" c)
      else do
        let (user, c) ← readText (← readColon c)
        readParts fuel false { given with user } c
    | (some "action", c) =>
      if given.action.isSome then .error (twice "action" c)
      else do
        let (action, c) ← readAction (← readColon c)
        readParts fuel false { given with action } c
    | (some "fields", c) =>
      if given.fields.isSome then .error (twice "fields" c)
      else do
        let (fields, c) ← readFields (depthLimit - 1) (← readColon c)
        readParts fuel false { given with fields } c
    | (some _, c) => do
      let c ← readColon c
      let (_, c) ← readValue (2 * c.rest.length + 4) (depthLimit - 1) c
      readParts fuel false given c

/-- Read an entry written as a list of its parts. -/
def readList : Reader ChangeItems := fun c => do
  let short (found : Nat) (c : Cursor) : SyntaxError :=
    failWith (closeArray c) (.tooFew found "ChangeItems" 3)
  let (more, c) ← nextItem true c
  if !more then .error (short 0 c)
  else
    let (user, c) ← readText c
    let (more, c) ← nextItem false c
    if !more then .error (short 1 c)
    else
      let (action, c) ← readAction c
      let (more, c) ← nextItem false c
      let (fields, c) ← if more then readFields (depthLimit - 1) c else .ok ([], c)
      let c := c.skipBlank
      match c.peek? with
      | some ']' => .ok (⟨user, action, fields⟩, c.next)
      | some ',' =>
        let c := c.next.skipBlank
        .error (c.failAhead (if c.peek? = some ']' then .trailingComma else .trailingCharacters))
      | some _ => .error (c.failAhead .trailingCharacters)
      | none => .error (c.failAhead .eofList)

/-- The entry a text holds. -/
def read (s : String) : Except SyntaxError ChangeItems := do
  let c := (Cursor.ofString s).skipBlank
  let (items, c) ← match c.peek? with
    | none => .error (c.failAhead .eofValue)
    | some '[' => readList c.next
    | some '\x7b' => readParts (c.rest.length + 2) true {} c.next
    | some _ => .error (wrongType "struct ChangeItems" c)
  readEnd c
  .ok items

end ChangeItems
end Phrasebook
