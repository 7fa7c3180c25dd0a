import Phrasebook.Schema.Registry

/-!
# The shipped definitions

The descriptors of the four kinds the library ships with.

## Main definitions

* `Descriptor.locale`, `Descriptor.template`, `Descriptor.email`, `Descriptor.sms`
* `Registry.builtin`
-/
namespace Phrasebook

namespace FieldSpec

/-- The creation time. -/
def createdTime : FieldSpec where
  name := "_created"
  type := .timestamp
  label := some "Created"
  serverAssigned := true
  immutable := true
  columnOptions := some "default CURRENT_TIMESTAMP"

/-- The update time. -/
def updatedTime : FieldSpec where
  name := "_updated"
  type := .timestamp
  label := some "Updated"
  serverAssigned := true
  immutable := true
  columnOptions := some "default CURRENT_TIMESTAMP on update CURRENT_TIMESTAMP"

/-- A generated key. -/
def generatedId : FieldSpec where
  name := "_id"
  type := .uuid
  label := some "ID"
  serverAssigned := true
  immutable := true

/-- The pattern of locale codes. -/
def localePattern : String := "^[a-z]{2}-[A-Z]{2}$"

/-- The template a variant belongs to. -/
def parentTemplate : FieldSpec where
  name := "template"
  type := .uuid
  label := some "Template"
  immutable := true
  references := some .template
  onDelete := .cascade

/-- The locale a variant is written in. -/
def variantLocale : FieldSpec where
  name := "locale"
  type := .string
  label := some "Locale"
  immutable := true
  references := some .locale
  pattern := some localePattern
  columnType := some "char(5)"

/-- The code a locale is keyed by. -/
def localeId : FieldSpec where
  name := "_id"
  type := .string
  label := some "Code"
  immutable := true
  pattern := some localePattern
  columnType := some "char(5)"

/-- Whether a locale is archived. -/
def archivedFlag : FieldSpec where
  name := "_archived"
  type := .boolean
  label := some "Archived"
  optional := true
  default := some (.bool false)
  columnOptions := some "default 0"

/-- The name of a locale. -/
def localeName : FieldSpec where
  name := "name"
  type := .string
  label := some "Name"
  minLength := some 1
  maxLength := some 64

/-- The name of a template. -/
def templateName : FieldSpec where
  name := "name"
  type := .string
  label := some "Name"
  minLength := some 1
  maxLength := some 64
  pattern := some "^[A-Za-z0-9_\\-]+$"

/-- The variables of a template. -/
def templateVariables : FieldSpec where
  name := "variables"
  type := .object
  label := some "Variables"
  optional := true
  default := some (.obj [])
  values := ["string", "integer", "decimal", "boolean", "timestamp"]
  columnType := some "json"

/-- The subject of an email. -/
def emailSubject : FieldSpec where
  name := "subject"
  type := .string
  label := some "Subject"
  maxLength := some 255

/-- The plain text of an email. -/
def emailText : FieldSpec where
  name := "text"
  type := .string
  label := some "Text"
  maxLength := some 65535
  control := some "textarea"

/-- The HTML text of an email. -/
def emailHtml : FieldSpec where
  name := "html"
  type := .string
  label := some "HTML"
  maxLength := some 65535
  control := some "html"

/-- The text of an SMS. -/
def smsContent : FieldSpec where
  name := "content"
  type := .string
  label := some "Content"
  maxLength := some 65535
  control := some "textarea"

end FieldSpec

/-- Storage in a table of the usual character set. -/
def TableSpec.utf8 (table : String) (indexes : List IndexSpec) (revisions : List String) :
    TableSpec where
  table := table
  charset := "utf8mb4"
  collate := "utf8mb4_unicode_ci"
  indexes := indexes
  revisions := revisions

/-- Names are unique. -/
def IndexSpec.uniqueName : IndexSpec where
  name := "ui_name"
  fields := ["name"]
  unique := true

/-- A template has one variant a locale. -/
def IndexSpec.uniqueTemplateLocale : IndexSpec where
  name := "ui_template_locale"
  fields := ["template", "locale"]
  unique := true

namespace Descriptor

/-- Locales. -/
def locale : Descriptor where
  kind := .locale
  title := "Locale"
  description := "A language and region that template variants can be written in"
  fields := [.localeId, .archivedFlag, .createdTime, .updatedTime, .localeName]
  storage := .utf8 "mouth_locale" [.uniqueName] []

/-- Templates. -/
def template : Descriptor where
  kind := .template
  title := "Template"
  description := "A single template, grouping its localized email and SMS variants"
  fields := [.generatedId, .createdTime, .updatedTime, .templateName, .templateVariables]
  storage := .utf8 "mouth_template" [.uniqueName] ["user"]

/-- Email variants. -/
def email : Descriptor where
  kind := .email
  title := "Template Email"
  description := "A single email version of a template by locale"
  fields := [.generatedId, .createdTime, .updatedTime, .parentTemplate, .variantLocale,
    .emailSubject, .emailText, .emailHtml]
  storage := .utf8 "mouth_template_email" [.uniqueTemplateLocale] ["user"]

/-- SMS variants. -/
def sms : Descriptor where
  kind := .sms
  title := "Template SMS"
  description := "A single SMS version of a template by locale"
  fields := [.generatedId, .createdTime, .updatedTime, .parentTemplate, .variantLocale,
    .smsContent]
  storage := .utf8 "mouth_template_sms" [.uniqueTemplateLocale] ["user"]

end Descriptor

/-- The registry of the shipped definitions. -/
def Registry.builtin : Registry := ⟨[.locale, .template, .email, .sms]⟩

end Phrasebook
