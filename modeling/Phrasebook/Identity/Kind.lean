import Phrasebook.Text.Basic

/-!
# Record kinds

The four kinds of record: locales, templates, and the email and SMS variants of
a template. A kind has a full name, under which its definition is stored, and a
short name used on the command line and in file names.

## Main definitions

* `RecordKind`, `RecordKind.all`, `RecordKind.variants`
* `RecordKind.parse`: a kind by either name, in any case
* `RecordKind.ofFilename?`: the kind a file name announces
-/
namespace Phrasebook

/-- What a record is. The order of the constructors is the order of kinds. -/
inductive RecordKind where
  /-- A language and region content is written in. -/
  | locale
  /-- A template, grouping its localized variants. -/
  | template
  /-- The email variant of a template for one locale. -/
  | email
  /-- The SMS variant of a template for one locale. -/
  | sms
  deriving DecidableEq, Repr, Inhabited

/-- A text that names no kind. -/
structure KindError where
  text : String
  deriving DecidableEq, Repr

/-- The message of an unknown kind. -/
def KindError.message (e : KindError) : String :=
  s!"invalid record kind: '{e.text}' (valid: template, email, sms, locale)"

namespace RecordKind

/-- All kinds in order. -/
def all : List RecordKind := [locale, template, email, sms]

/-- The kinds that are localized variants of a template. -/
def variants : List RecordKind := [email, sms]

/-- The full name, which is also the name of the definition. -/
def name : RecordKind → String
  | locale => "locale"
  | template => "template"
  | email => "template_email"
  | sms => "template_sms"

/-- The name used on the command line and in file names. -/
def shortName : RecordKind → String
  | locale => "locale"
  | template => "template"
  | email => "email"
  | sms => "sms"

/-- Position in the order of kinds. -/
def rank : RecordKind → Nat
  | locale => 0
  | template => 1
  | email => 2
  | sms => 3

/-- The kind with the given full or short name in lower case. -/
def ofName? (s : String) : Option RecordKind :=
  all.find? fun kind => kind.name == s || kind.shortName == s

/-- A kind by full or short name, in any case. Lower-casing ASCII letters is
enough: no other character has a lower-case letter of these names. -/
def parse (s : String) : Except KindError RecordKind :=
  match ofName? (Text.asciiLower s) with
  | some kind => .ok kind
  | none => .error ⟨s⟩

/-- The file name endings of record documents. -/
def documentEndings : List String := [".yaml", ".yml", ".json"]

/-- A lower-case file name without its document ending. -/
def documentStem? (filename : List Char) : Option (List Char) :=
  documentEndings.findSome? fun ending => Text.beforeEnd? ending.toList filename

/-- The kind a file name announces by the part in front of its document ending,
as in `welcome.en-US.email.yaml`. -/
def ofFilename? (filename : String) : Option RecordKind := do
  let stem ← documentStem? (Text.asciiLower filename).toList
  let last ← (Text.splitOn '.' stem).getLast?
  ofName? (String.ofList last)

end RecordKind
end Phrasebook
