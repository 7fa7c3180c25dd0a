import Phrasebook.Json.Print

/-!
# Reading typed data from JSON values

Decoders for the parts that typed data is made of, with errors that say what
was found and what was expected. A structure is given by its fields in order; it
may be written as an object or as a list of the field values.

## Main definitions

* `DecodeError`
* `Json.asString`, `Json.asBool`, `Json.asCount`, `Json.asList`, `Json.asChoice`
* `Shape`, `Shape.entries`: the fields of a structure, each with a decoded value
-/
namespace Phrasebook

/-- Why a value is not of the expected form. -/
inductive DecodeError where
  | wrongType (found : Json) (expected : String)
  | wrongValue (found : Json) (expected : String)
  | missing (field : String)
  | unknownVariant (found : String) (allowed : List String)
  | notOneKey
  | tooFew (found : Nat) (name : String) (expected : Nat)
  | tooMany (found : Nat)
  /-- A reason given by the text a value was read from. -/
  | custom (reason : String)
  deriving DecidableEq, Repr

/-- Characters written as code points inside a debug text: controls, marks that
combine with the letter before them, and invisible characters. -/
def isHiddenChar (c : Char) : Bool :=
  let n := c.toNat
  let within (lo hi : Nat) : Bool := lo ≤ n && n ≤ hi
  n < 0x20 || within 0x7F 0x9F || n == 0xAD || within 0x300 0x36F || within 0x483 0x489 ||
    within 0x591 0x5BD || within 0x64B 0x65F || within 0x1AB0 0x1AFF || within 0x1DC0 0x1DFF ||
    n == 0xA0 || n == 0x1680 || within 0x2000 0x200F || within 0x2028 0x202F ||
    within 0x205F 0x206F || n == 0x3000 ||
    within 0x20D0 0x20F0 || within 0x302A 0x302F || within 0x3099 0x309A ||
    within 0xE000 0xF8FF || within 0xFE00 0xFE0F || within 0xFE20 0xFE2F || n == 0xFEFF ||
    within 0x1F3FB 0x1F3FF || within 0xE0000 0x10FFFF

/-- The characters a character stands for inside a debug text. -/
def debugEscape (c : Char) : List Char :=
  if c = '"' then ['\\', '"']
  else if c = '\\' then ['\\', '\\']
  else if c = '\n' then ['\\', 'n']
  else if c = '\r' then ['\\', 'r']
  else if c = '\t' then ['\\', 't']
  else if c.toNat = 0 then ['\\', '0']
  else if isHiddenChar c then
    ['\\', 'u', '\x7b'] ++ (Nat.toDigits 16 c.toNat) ++ ['\x7d']
  else [c]

/-- A text in double quotes for diagnostics. -/
def debugQuote (s : String) : String :=
  String.ofList ('"' :: (s.toList.flatMap debugEscape ++ ['"']))

/-- What a value is, for diagnostics. -/
def Json.described : Json → String
  | .null => "null"
  | .bool b => if b then "boolean `true`" else "boolean `false`"
  | .num (.int n) => s!"integer `{n}`"
  | .num (.float x) => s!"floating point `{x.text}`"
  | .str s => "string " ++ debugQuote s
  | .arr _ => "sequence"
  | .obj _ => "map"

/-- The names a variant may have. -/
def allowedText (allowed : List String) : String :=
  let quoted := allowed.map fun name => "`" ++ name ++ "`"
  match quoted with
  | [a] => "expected " ++ a
  | [a, b] => "expected " ++ a ++ " or " ++ b
  | _ => "expected one of " ++ Text.join ", " quoted

/-- The message of a decoding failure. -/
def DecodeError.message : DecodeError → String
  | .wrongType found expected => s!"invalid type: {found.described}, expected {expected}"
  | .wrongValue found expected => s!"invalid value: {found.described}, expected {expected}"
  | .missing field => s!"missing field `{field}`"
  | .unknownVariant found allowed => s!"unknown variant `{found}`, {allowedText allowed}"
  | .notOneKey => "invalid value: map, expected map with a single key"
  | .tooFew found name expected =>
    s!"invalid length {found}, expected struct {name} with {expected} elements"
  | .tooMany found => s!"invalid length {found}, expected fewer elements in array"
  | .custom reason => reason

/-- A decoder of values. -/
abbrev Decoder (α : Type) := Json → Except DecodeError α

namespace Json

/-- A string. -/
def asString : Decoder String
  | .str s => .ok s
  | other => .error (.wrongType other "a string")

/-- A truth value. -/
def asBool : Decoder Bool
  | .bool b => .ok b
  | other => .error (.wrongType other "a boolean")

/-- A natural number of 64 bits. -/
def asCount : Decoder Nat
  | .num (.int n) =>
    if n < 0 then .error (.wrongValue (.num (.int n)) "u64") else .ok n.toNat
  | other => .error (.wrongType other "u64")

/-- A list of values of one form. -/
def asList (decode : Decoder α) : Decoder (List α)
  | .arr items => items.mapM decode
  | other => .error (.wrongType other "a sequence")

/-- A value that may be `null`. -/
def asOption (decode : Decoder α) : Decoder (Option α)
  | .null => .ok none
  | other => (decode other).map some

/-- One of a few named values, given by name or as an object of that one key
without content. -/
def asChoice (choices : List (String × α)) : Decoder α := fun value =>
  let named (name : String) : Except DecodeError α :=
    match choices.find? fun choice => choice.1 == name with
    | some choice => .ok choice.2
    | none => .error (.unknownVariant name (choices.map Prod.fst))
  match value with
  | .str name => named name
  | .obj [(name, content)] => do
    let choice ← named name
    match content with
    | .null => .ok choice
    | other => .error (.wrongType other "unit")
  | .obj _ => .error .notOneKey
  | other => .error (.wrongType other "string or map")

end Json

/-- A field of a structure: its name, whether it may be left out, and a check
that its value decodes. -/
structure ShapeField where
  name : String
  optional : Bool
  check : Json → Except DecodeError Unit

/-- A structure by its fields in order. -/
structure Shape where
  name : String
  fields : List ShapeField

namespace Shape

/-- A field that must be given. -/
def required (name : String) (decode : Decoder α) : ShapeField :=
  ⟨name, false, fun value => (decode value).map fun _ => ()⟩

/-- A field that may be left out. -/
def optional (name : String) (decode : Decoder α) : ShapeField :=
  ⟨name, true, fun value => (decode value).map fun _ => ()⟩

/-- The field of a name. -/
def field? (shape : Shape) (name : String) : Option ShapeField :=
  shape.fields.find? fun field => field.name == name

/-- Check the entries of an object in their order; unknown names are passed
over. -/
def checkEntries (shape : Shape) : Fields → Except DecodeError Unit
  | [] => .ok ()
  | (name, value) :: rest => do
    if let some field := shape.field? name then field.check value
    checkEntries shape rest

/-- Name the values of a list by the fields in order, from place `at` on. -/
def nameItems (shape : Shape) (place : Nat) :
    List ShapeField → List Json → Except DecodeError Fields
  | [], _ => .ok []
  | field :: fields, value :: values => do
    field.check value
    let rest ← nameItems shape (place + 1) fields values
    .ok ((field.name, value) :: rest)
  | field :: fields, [] =>
    if field.optional then nameItems shape (place + 1) fields []
    else .error (.tooFew place shape.name shape.fields.length)

/-- The fields of a structure that are given, all of them well formed and none
missing that is required. -/
def entries (shape : Shape) : Decoder Fields
  | .obj given => do
    shape.checkEntries given
    match shape.fields.find? fun field => !field.optional && !Fields.has given field.name with
    | some field => .error (.missing field.name)
    | none => .ok given
  | .arr items => do
    let given ← shape.nameItems 0 shape.fields items
    if items.length > shape.fields.length then .error (.tooMany items.length)
    else .ok given
  | other => .error (.wrongType other ("struct " ++ shape.name))

end Shape

namespace Fields

/-- Decode a field that must be given. -/
def need (given : Fields) (name : String) (decode : Decoder α) : Except DecodeError α :=
  match given.get? name with
  | some value => decode value
  | none => .error (.missing name)

/-- Decode a field that may be left out. -/
def take (given : Fields) (name : String) (decode : Decoder α) (absent : α) :
    Except DecodeError α :=
  match given.get? name with
  | some value => decode value
  | none => .ok absent

end Fields
end Phrasebook
