import Phrasebook.Text.Basic

/-!
# Paths

A path is the text that names a file or a folder, as it was given; messages show
it unchanged. What it names is found by taking its steps one after another, from
the root or from the working folder.

## Main definitions

* `Path`, with its steps, its parts and its file name
* `Path.child`: the path of something below a folder
* `Location`: the place of something, from the root
-/
namespace Phrasebook

/-- A path as it was given. -/
structure Path where
  text : String
  deriving DecidableEq, Repr

namespace Path

/-- Whether a path starts at the root. -/
def isAbsolute (p : Path) : Bool := Text.startsWith p.text "/"

/-- The steps to what a path names, `.` and `..` among them. A slash at the end
is one more step, which only a folder allows. -/
def steps (p : Path) : List String :=
  ((Text.split '/' p.text).filter fun piece => !piece.isEmpty) ++
    if Text.endsWith p.text "/" then ["."] else []

/-- The steps that lead somewhere. -/
def parts (p : Path) : List String := p.steps.filter (· != ".")

/-- The last part of a path, unless it leads up. -/
def fileName? (p : Path) : Option String :=
  match p.parts.getLast? with
  | some ".." => none
  | other => other

/-- The path of something below a folder; an absolute path stays as it is. -/
def child (folder : Path) (below : Path) : Path :=
  if below.isAbsolute then below
  else if folder.text.isEmpty || Text.endsWith folder.text "/" then ⟨folder.text ++ below.text⟩
  else ⟨folder.text ++ "/" ++ below.text⟩

end Path

/-- The names on the way from the root. -/
abbrev Location := List String

namespace Location

/-- The absolute path of a location. -/
def path (l : Location) : Path := ⟨"/" ++ Text.join "/" l⟩

/-- Locations name by name. -/
def compare : Location → Location → Ordering
  | [], [] => .eq
  | [], _ :: _ => .lt
  | _ :: _, [] => .gt
  | a :: as, b :: bs => (Ord.compare a b).then (compare as bs)

/-- The names below a folder on the way to a location inside it. -/
def below? : Location → Location → Option Location
  | [], l => some l
  | _ :: _, [] => none
  | a :: as, b :: bs => if a = b then below? as bs else none

end Location
end Phrasebook
