import Phrasebook.Json.Binary64

/-!
# JSON values

Values as the records hold them. Numbers are integers of 64 bits or finite
floats, and the entries of an object are kept sorted by key with no key twice,
so that an object is determined by its key-value pairs.

## Main definitions

* `Json`: a value
* `Fields`: the entries of an object, with `get?`, `insert` and `erase`
* `Json.same`: equality of values, both float zeros counting as one number
-/
namespace Phrasebook

/-- A JSON number: an integer in the range of 64-bit signed and unsigned
numbers, or a float. -/
inductive Number where
  | int (n : Int)
  | float (x : Binary64)
  deriving DecidableEq, Repr, Inhabited

/-- A JSON value. -/
inductive Json where
  | null
  | bool (b : Bool)
  | num (n : Number)
  | str (s : String)
  | arr (items : List Json)
  | obj (entries : List (String × Json))
  deriving Inhabited, Repr

/-- Named values sorted by name, each name once. -/
abbrev Fields := List (String × Json)

namespace Fields

/-- The value of a name. -/
def get? (fields : Fields) (name : String) : Option Json :=
  (fields.find? fun entry => entry.1 == name).map Prod.snd

/-- Whether a name has a value. -/
def has (fields : Fields) (name : String) : Bool := (get? fields name).isSome

/-- Give a name a value, in place of the one it may have. -/
def insert (name : String) (value : Json) : Fields → Fields
  | [] => [(name, value)]
  | (k, v) :: rest =>
    if name < k then (name, value) :: (k, v) :: rest
    else if name = k then (name, value) :: rest
    else (k, v) :: insert name value rest

/-- Forget a name. -/
def erase (name : String) (fields : Fields) : Fields :=
  fields.filter fun entry => entry.1 != name

/-- Override `fields` with `changes`, entry by entry. -/
def override (fields changes : Fields) : Fields :=
  changes.foldl (fun acc entry => insert entry.1 entry.2 acc) fields

/-- The object with the given entries; of several entries of one name the last
counts. -/
def ofList (entries : List (String × Json)) : Fields := override [] entries

/-- The names in order. -/
def names (fields : Fields) : List String := fields.map Prod.fst

/-- The text of a name whose value is a string. -/
def getStr? (fields : Fields) (name : String) : Option String :=
  match get? fields name with
  | some (.str s) => some s
  | _ => none

end Fields

namespace Number

/-- Equality of numbers: integers and floats never equal each other. -/
def same : Number → Number → Bool
  | .int a, .int b => a == b
  | .float a, .float b => a.same b
  | _, _ => false

end Number

namespace Json

/-- The object with the given entries. -/
def object (entries : List (String × Json)) : Json := .obj (Fields.ofList entries)

/-- An integer value. -/
def int (n : Int) : Json := .num (.int n)

/-- The entries of an object. -/
def entries? : Json → Option Fields
  | .obj entries => some entries
  | _ => none

/-- The text of a string. -/
def str? : Json → Option String
  | .str s => some s
  | _ => none

/-- The truth value of a boolean. -/
def bool? : Json → Option Bool
  | .bool b => some b
  | _ => none

/-- Whether a value is `null`. -/
def isNull : Json → Bool
  | .null => true
  | _ => false

mutual

/-- Equality of values: numbers by `Number.same`, everything else by structure. -/
def same : Json → Json → Bool
  | .null, .null => true
  | .bool a, .bool b => a == b
  | .num a, .num b => a.same b
  | .str a, .str b => a == b
  | .arr a, .arr b => sameItems a b
  | .obj a, .obj b => sameEntries a b
  | _, _ => false

/-- Lists of values agree place by place. -/
def sameItems : List Json → List Json → Bool
  | [], [] => true
  | x :: xs, y :: ys => same x y && sameItems xs ys
  | _, _ => false

/-- Entries agree place by place, in name and value. -/
def sameEntries : List (String × Json) → List (String × Json) → Bool
  | [], [] => true
  | (k, x) :: xs, (l, y) :: ys => k == l && same x y && sameEntries xs ys
  | _, _ => false

end

mutual

/-- Structural identity of values. -/
def identical : Json → Json → Bool
  | .null, .null => true
  | .bool a, .bool b => a == b
  | .num a, .num b => a == b
  | .str a, .str b => a == b
  | .arr a, .arr b => identicalItems a b
  | .obj a, .obj b => identicalEntries a b
  | _, _ => false

/-- Structural identity of lists of values. -/
def identicalItems : List Json → List Json → Bool
  | [], [] => true
  | x :: xs, y :: ys => identical x y && identicalItems xs ys
  | _, _ => false

/-- Structural identity of entries. -/
def identicalEntries : List (String × Json) → List (String × Json) → Bool
  | [], [] => true
  | (k, x) :: xs, (l, y) :: ys => k == l && identical x y && identicalEntries xs ys
  | _, _ => false

end

mutual

theorem identical_iff : ∀ a b : Json, identical a b = true ↔ a = b
  | .null, b => by cases b <;> simp [identical]
  | .bool a, b => by cases b <;> simp [identical]
  | .num a, b => by cases b <;> simp [identical]
  | .str a, b => by cases b <;> simp [identical]
  | .arr a, b => by cases b <;> simp [identical, identicalItems_iff a]
  | .obj a, b => by cases b <;> simp [identical, identicalEntries_iff a]

theorem identicalItems_iff : ∀ a b : List Json, identicalItems a b = true ↔ a = b
  | [], b => by cases b <;> simp [identicalItems]
  | x :: xs, b => by
    cases b <;> simp [identicalItems, identical_iff x, identicalItems_iff xs]

theorem identicalEntries_iff :
    ∀ a b : List (String × Json), identicalEntries a b = true ↔ a = b
  | [], b => by cases b <;> simp [identicalEntries]
  | (k, x) :: xs, b => by
    cases b with
    | nil => simp [identicalEntries]
    | cons y ys =>
      obtain ⟨l, y⟩ := y
      simp [identicalEntries, identical_iff x, identicalEntries_iff xs]

end

instance : DecidableEq Json := fun a b =>
  decidable_of_iff (identical a b = true) (identical_iff a b)

end Json
end Phrasebook
