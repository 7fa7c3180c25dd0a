import Phrasebook.Identity.Locale
import Phrasebook.Identity.Uuid

/-!
# Record keys

Templates and their variants are keyed by a UUID, locales by their code.

## Main definitions

* `RecordId`, with `RecordId.text` and its order
* `RecordId.parse`: the key a text spells, a locale code before a UUID
-/
namespace Phrasebook

/-- The key of a record. -/
inductive RecordId where
  | uuid (uuid : Uuid)
  | locale (code : LocaleCode)
  deriving DecidableEq, Repr

/-- A text that is no key, and why it is no UUID. -/
structure IdError where
  text : String
  cause : UuidError
  deriving DecidableEq, Repr

/-- The message of a malformed key. -/
def IdError.message (e : IdError) : String :=
  s!"invalid record id '{e.text}': expected a UUID or a locale code ({e.cause.message})"

namespace RecordId

/-- The text of a key: the hyphenated UUID or the locale code. -/
def text : RecordId → String
  | uuid u => u.text
  | locale code => code.text

/-- The key a text spells; every locale code is read as one. -/
def parse (s : String) : Except IdError RecordId :=
  match LocaleCode.ofText? s with
  | some code => .ok (.locale code)
  | none => match Uuid.parse s with
    | .ok u => .ok (.uuid u)
    | .error cause => .error ⟨s, cause⟩

/-- UUIDs before locale codes, each in their own order. -/
def compare : RecordId → RecordId → Ordering
  | uuid a, uuid b => a.compare b
  | uuid _, locale _ => .lt
  | locale _, uuid _ => .gt
  | locale a, locale b => a.compare b

/-- A short form for display: the first group of a UUID, a whole locale code. -/
def short : RecordId → String
  | uuid u => String.ofList (u.plainChars.take 8)
  | locale code => code.text

end RecordId
end Phrasebook
