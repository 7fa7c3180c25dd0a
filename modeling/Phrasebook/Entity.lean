import Phrasebook.Json.Decode
import Phrasebook.Record

/-!
# Typed records

The four kinds of record with every field typed. A record of the right kind is
converted through its flat form; conversion fails where a field is missing or
has another type.

## Main definitions

* `Locale`, `Template`, `EmailVariant`, `SmsVariant`
* `Entity`: a typed record of any kind
* `Entity.ofRecord`: the typed form of a record of a given kind
-/
namespace Phrasebook

/-- The declared type of a template variable. -/
inductive VariableType where
  | string | integer | decimal | boolean | timestamp
  deriving DecidableEq, Repr

namespace VariableType

/-- All variable types. -/
def all : List VariableType := [string, integer, decimal, boolean, timestamp]

/-- The name of a variable type. -/
def name : VariableType → String
  | string => "string"
  | integer => "integer"
  | decimal => "decimal"
  | boolean => "boolean"
  | timestamp => "timestamp"

/-- The variable type of a name in any case. -/
def ofName? (s : String) : Option VariableType :=
  all.find? fun type => type.name == Text.asciiLower s

/-- The message for a text that names no variable type. -/
def invalidMessage (s : String) : String :=
  s!"Invalid variable type: {s}. Use string, integer, decimal, boolean, or timestamp"

/-- The variable type of a name in any case, or a message. -/
def parse (s : String) : Except String VariableType :=
  match ofName? s with
  | some type => .ok type
  | none => .error (invalidMessage s)

/-- Variable types by name. -/
def ofJson : Decoder VariableType := Json.asChoice (all.map fun type => (type.name, type))

end VariableType

/-- A language and region variants are written in. -/
structure Locale where
  code : LocaleCode
  archived : Bool
  created : Instant
  updated : Instant
  name : String
  deriving DecidableEq, Repr

/-- A template with the variables its variants may use. -/
structure Template where
  id : RecordId
  created : Instant
  updated : Instant
  name : String
  /-- The type of every variable by its name. -/
  variableTypes : List (String × VariableType)
  deriving DecidableEq, Repr

/-- The email content of a template in one locale. -/
structure EmailVariant where
  id : RecordId
  created : Instant
  updated : Instant
  template : RecordId
  locale : LocaleCode
  subject : String
  text : String
  html : String
  deriving DecidableEq, Repr

/-- The SMS content of a template in one locale. -/
structure SmsVariant where
  id : RecordId
  created : Instant
  updated : Instant
  template : RecordId
  locale : LocaleCode
  content : String
  deriving DecidableEq, Repr

/-! ## Decoding -/

/-- A key. -/
def Json.asRecordId : Decoder RecordId := fun value => do
  let s ← Json.asString value
  match RecordId.parse s with
  | .ok id => .ok id
  | .error e => .error (.custom e.message)

/-- A locale code. -/
def Json.asLocaleCode : Decoder LocaleCode := fun value => do
  let s ← Json.asString value
  match LocaleCode.parse s with
  | .ok code => .ok code
  | .error e => .error (.custom e.message)

/-- A timestamp. -/
def Json.asInstant : Decoder Instant
  | .str s =>
    match Instant.parseExtended s with
    | .ok t => .ok t
    | .error e => .error (.custom e.message)
  | other => .error (.wrongType other "an RFC 3339 formatted date and time string")

/-- Names with a value of one form each. -/
def Json.asMap (decode : Decoder α) : Decoder (List (String × α))
  | .obj entries => entries.mapM fun (name, value) => do
    let a ← decode value
    .ok (name, a)
  | other => .error (.wrongType other "a map")

/-- The fields of a locale. -/
def localeShape : Shape where
  name := "Locale"
  fields := [Shape.required "_id" Json.asLocaleCode, Shape.optional "_archived" Json.asBool,
    Shape.required "_created" Json.asInstant, Shape.required "_updated" Json.asInstant,
    Shape.required "name" Json.asString]

/-- The locale of a flat form. -/
def Locale.ofJson : Decoder Locale := fun value => do
  let given ← localeShape.entries value
  .ok {
    code := ← given.need "_id" Json.asLocaleCode
    archived := ← given.take "_archived" Json.asBool false
    created := ← given.need "_created" Json.asInstant
    updated := ← given.need "_updated" Json.asInstant
    name := ← given.need "name" Json.asString }

/-- The fields of a template. -/
def templateShape : Shape where
  name := "Template"
  fields := [Shape.required "_id" Json.asRecordId, Shape.required "_created" Json.asInstant,
    Shape.required "_updated" Json.asInstant, Shape.required "name" Json.asString,
    Shape.optional "variables" (Json.asMap VariableType.ofJson)]

/-- The template of a flat form. -/
def Template.ofJson : Decoder Template := fun value => do
  let given ← templateShape.entries value
  .ok {
    id := ← given.need "_id" Json.asRecordId
    created := ← given.need "_created" Json.asInstant
    updated := ← given.need "_updated" Json.asInstant
    name := ← given.need "name" Json.asString
    variableTypes := ← given.take "variables" (Json.asMap VariableType.ofJson) [] }

/-- The fields every variant has. -/
def variantFields : List ShapeField :=
  [Shape.required "_id" Json.asRecordId, Shape.required "_created" Json.asInstant,
    Shape.required "_updated" Json.asInstant, Shape.required "template" Json.asRecordId,
    Shape.required "locale" Json.asLocaleCode]

/-- The fields of an email variant. -/
def emailShape : Shape where
  name := "TemplateEmail"
  fields := variantFields ++ [Shape.required "subject" Json.asString,
    Shape.required "text" Json.asString, Shape.required "html" Json.asString]

/-- The email variant of a flat form. -/
def EmailVariant.ofJson : Decoder EmailVariant := fun value => do
  let given ← emailShape.entries value
  .ok {
    id := ← given.need "_id" Json.asRecordId
    created := ← given.need "_created" Json.asInstant
    updated := ← given.need "_updated" Json.asInstant
    template := ← given.need "template" Json.asRecordId
    locale := ← given.need "locale" Json.asLocaleCode
    subject := ← given.need "subject" Json.asString
    text := ← given.need "text" Json.asString
    html := ← given.need "html" Json.asString }

/-- The fields of an SMS variant. -/
def smsShape : Shape where
  name := "TemplateSms"
  fields := variantFields ++ [Shape.required "content" Json.asString]

/-- The SMS variant of a flat form. -/
def SmsVariant.ofJson : Decoder SmsVariant := fun value => do
  let given ← smsShape.entries value
  .ok {
    id := ← given.need "_id" Json.asRecordId
    created := ← given.need "_created" Json.asInstant
    updated := ← given.need "_updated" Json.asInstant
    template := ← given.need "template" Json.asRecordId
    locale := ← given.need "locale" Json.asLocaleCode
    content := ← given.need "content" Json.asString }

/-! ## Entities of any kind -/

/-- A typed record. -/
inductive Entity where
  | locale (value : Locale)
  | template (value : Template)
  | email (value : EmailVariant)
  | sms (value : SmsVariant)
  deriving DecidableEq, Repr

namespace Entity

/-- The kind of a typed record. -/
def kind : Entity → RecordKind
  | locale _ => .locale
  | template _ => .template
  | email _ => .email
  | sms _ => .sms

/-- The key of a typed record. -/
def id : Entity → RecordId
  | locale x => .locale x.code
  | template x => x.id
  | email x => x.id
  | sms x => x.id

/-- The creation time of a typed record. -/
def created : Entity → Instant
  | locale x => x.created
  | template x => x.created
  | email x => x.created
  | sms x => x.created

/-- The update time of a typed record. -/
def updated : Entity → Instant
  | locale x => x.updated
  | template x => x.updated
  | email x => x.updated
  | sms x => x.updated

/-- Template, locale and preview of a variant: the subject of an email, the
content of an SMS. -/
def variant? : Entity → Option (RecordId × LocaleCode × String)
  | email x => some (x.template, x.locale, x.subject)
  | sms x => some (x.template, x.locale, x.content)
  | _ => none

/-- The fields of a typed record as declared. -/
def entries : Entity → List (String × Json)
  | locale x => [("_id", .str x.code.text), ("_archived", .bool x.archived),
      ("_created", .str x.created.text), ("_updated", .str x.updated.text), ("name", .str x.name)]
  | template x => [("_id", .str x.id.text), ("_created", .str x.created.text),
      ("_updated", .str x.updated.text), ("name", .str x.name),
      ("variables", Json.object (x.variableTypes.map fun (name, type) => (name, .str type.name)))]
  | email x => [("_id", .str x.id.text), ("_created", .str x.created.text),
      ("_updated", .str x.updated.text), ("template", .str x.template.text),
      ("locale", .str x.locale.text), ("subject", .str x.subject), ("text", .str x.text),
      ("html", .str x.html)]
  | sms x => [("_id", .str x.id.text), ("_created", .str x.created.text),
      ("_updated", .str x.updated.text), ("template", .str x.template.text),
      ("locale", .str x.locale.text), ("content", .str x.content)]

/-- The flat form of a typed record. -/
def toFields (e : Entity) : Fields := Fields.ofList e.entries

/-- The typed record of a kind in a flat form. -/
def ofJson (kind : RecordKind) : Decoder Entity := fun value =>
  match kind with
  | .locale => (Locale.ofJson value).map .locale
  | .template => (Template.ofJson value).map .template
  | .email => (EmailVariant.ofJson value).map .email
  | .sms => (SmsVariant.ofJson value).map .sms

/-- The typed form of a record that should be of a kind. -/
def ofRecord (kind : RecordKind) (r : Record) : Except RecordError Entity := do
  r.expectKind kind
  match ofJson kind r.toJson with
  | .ok e => .ok e
  | .error cause => .error (.conversion kind cause.message)

end Entity
end Phrasebook
