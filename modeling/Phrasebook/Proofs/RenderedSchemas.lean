import Phrasebook.Proofs.Accepted
import Phrasebook.Proofs.Constraints
import Phrasebook.Proofs.LocaleCodes
import Phrasebook.Schema.Render

/-!
# Rendered schemas

What a schema document demands of a value is read off the document alone. The document that a
field is rendered as permits the values that fit the field, and those of a shipped field are the
ones that the check of the field accepts.

## Main definitions

* `Json.Permits`: a schema document permits a value
* `FieldSpec.keywords`: the keywords of the document a field is rendered as
-/
namespace Phrasebook

namespace Json

/-- The name of the type of a value. -/
def typeName : Json → String
  | .null => "null"
  | .bool _ => "boolean"
  | .num _ => "number"
  | .str _ => "string"
  | .arr _ => "array"
  | .obj _ => "object"

/-- A text has the format of a name; formats of other names demand nothing. -/
def HasFormat (name s : String) : Prop :=
  (name = "uuid" → Format.isUuid s = true) ∧ (name = "date-time" → Format.isDateTime s = true)

/-- A schema document permits a value: it meets every keyword that the schemas of fields use.
A keyword for texts or for objects demands nothing of other values. -/
inductive Permits : Json → Json → Prop
  | intro {keywords : Fields} {value : Json}
    (type : ∀ name, keywords.get? "type" = some (.str name) → value.typeName = name)
    (format : ∀ name s, keywords.get? "format" = some (.str name) → value = .str s →
      HasFormat name s)
    (minLength : ∀ limit s, keywords.get? "minLength" = some (.int limit) → value = .str s →
      limit ≤ (Text.charCount s : Int))
    (maxLength : ∀ limit s, keywords.get? "maxLength" = some (.int limit) → value = .str s →
      (Text.charCount s : Int) ≤ limit)
    (pattern : ∀ source s, keywords.get? "pattern" = some (.str source) → value = .str s →
      ∃ p, Pattern.parse? source = some p ∧ p.Finds s)
    (enum : ∀ items, keywords.get? "enum" = some (.arr items) → value ∈ items)
    (additionalProperties : ∀ schema entries,
      keywords.get? "additionalProperties" = some schema → value = .obj entries →
        ∀ entry ∈ entries, Permits schema entry.2) : Permits (.obj keywords) value

end Json

/-- The type of the values of a field, as schema documents name it. -/
def FieldType.jsonName : FieldType → String
  | .uuid | .timestamp | .string => "string"
  | .boolean => "boolean"
  | .object => "object"

theorem FieldType.typeName_eq_iff {type : FieldType} {value : Json} :
    value.typeName = type.jsonName ↔ type.admits value = true := by
  cases type <;> cases value <;> simp [Json.typeName, jsonName, admits]

/-! ## Keywords of a field -/

/-- Overriding by an optional entry. -/
theorem Fields.get?_override_entryOf {α : Type} (fields : Fields) (name other : String)
    (g : α → Json) (a : Option α) :
    (fields.override (entryOf name g a)).get? other =
      if name = other then (a.map g).or (fields.get? other) else fields.get? other := by
  cases a <;> simp [entryOf, override]

namespace FieldSpec

variable {f : FieldSpec} {value : Json} {s : String}

/-- The keywords of the document a field is rendered as. -/
def keywords (f : FieldSpec) : Fields :=
  Fields.ofList (f.typeKeywords ++
    entryOf "minLength" (fun n : Nat => Json.int n) f.minLength ++
    entryOf "maxLength" (fun n : Nat => Json.int n) f.maxLength ++
    entryOf "pattern" .str f.pattern ++
    entryOf "title" .str f.label)

theorem jsonSchema_eq (f : FieldSpec) : f.jsonSchema = .obj f.keywords := by
  cases hmin : f.minLength <;> cases hmax : f.maxLength <;>
    simp [jsonSchema, keywords, Json.object, hmin, hmax, entryOf]

/-- A keyword for lengths, patterns and labels is there if the field has one; the others follow
from the type of the field. -/
theorem get?_keywords (f : FieldSpec) (name : String) :
    f.keywords.get? name =
      if name = "title" then f.label.map .str
      else if name = "pattern" then f.pattern.map .str
      else if name = "maxLength" then f.maxLength.map fun n : Nat => Json.int n
      else if name = "minLength" then f.minLength.map fun n : Nat => Json.int n
      else (Fields.ofList f.typeKeywords).get? name := by
  have hbase : ∀ other ∈ ["title", "pattern", "maxLength", "minLength"],
      (Fields.ofList f.typeKeywords).get? other = none := by
    cases htype : f.type <;> simp [typeKeywords, htype, Fields.ofList, Fields.override]
  simp only [List.forall_mem_cons] at hbase
  have hsteps : f.keywords = ((((Fields.ofList f.typeKeywords).override
      (entryOf "minLength" (fun n : Nat => Json.int n) f.minLength)).override
      (entryOf "maxLength" (fun n : Nat => Json.int n) f.maxLength)).override
      (entryOf "pattern" .str f.pattern)).override (entryOf "title" .str f.label) := by
    simp [keywords, Fields.ofList, Fields.override, List.foldl_append]
  simp only [hsteps, Fields.get?_override_entryOf, eq_comm (b := name)]
  by_cases htitle : name = "title"
  · simp [htitle, hbase]
  by_cases hpattern : name = "pattern"
  · simp [hpattern, hbase]
  by_cases hmax : name = "maxLength"
  · simp [hmax, hbase]
  by_cases hmin : name = "minLength"
  · simp [hmin, hbase]
  · simp [htitle, hpattern, hmax, hmin]

/-- The type keyword names the type that the field admits. -/
theorem keyword_type (f : FieldSpec) : f.keywords.get? "type" = some (.str f.type.jsonName) := by
  cases htype : f.type <;>
    simp [get?_keywords, typeKeywords, htype, Fields.ofList, Fields.override, FieldType.jsonName]

theorem keyword_format (f : FieldSpec) {name : String} :
    f.keywords.get? "format" = some (.str name) ↔
      (f.type = .uuid ∧ "uuid" = name) ∨ (f.type = .timestamp ∧ "date-time" = name) := by
  cases htype : f.type <;>
    simp [get?_keywords, typeKeywords, htype, Fields.ofList, Fields.override]

theorem keyword_minLength (f : FieldSpec) {limit : Int} :
    f.keywords.get? "minLength" = some (.int limit) ↔
      ∃ n : Nat, f.minLength = some n ∧ (n : Int) = limit := by
  simp [get?_keywords, Json.int]

theorem keyword_maxLength (f : FieldSpec) {limit : Int} :
    f.keywords.get? "maxLength" = some (.int limit) ↔
      ∃ n : Nat, f.maxLength = some n ∧ (n : Int) = limit := by
  simp [get?_keywords, Json.int]

theorem keyword_pattern (f : FieldSpec) {source : String} :
    f.keywords.get? "pattern" = some (.str source) ↔ f.pattern = some source := by
  simp [get?_keywords]

theorem keyword_enum (f : FieldSpec) : f.keywords.get? "enum" = none := by
  cases htype : f.type <;>
    simp [get?_keywords, typeKeywords, htype, Fields.ofList, Fields.override]

/-- The keywords of the entries of an object field. -/
def entryKeywords (f : FieldSpec) : Fields :=
  Fields.ofList (("type", Json.str "string") ::
    if f.values.isEmpty then [] else [("enum", textList f.values)])

theorem keyword_additionalProperties (f : FieldSpec) {schema : Json} :
    f.keywords.get? "additionalProperties" = some schema ↔
      f.type = .object ∧ .obj f.entryKeywords = schema := by
  cases htype : f.type <;>
    simp [get?_keywords, typeKeywords, htype, Fields.ofList, Fields.override, Json.object,
      entryKeywords]

theorem get?_entryKeywords (f : FieldSpec) (name : String) : f.entryKeywords.get? name =
    if "enum" = name ∧ f.values ≠ [] then some (textList f.values)
    else if "type" = name then some (.str "string") else none := by
  by_cases hvalues : f.values = [] <;>
    simp [entryKeywords, hvalues, Fields.ofList, Fields.override]

/-- The schema of entries permits texts, and allowed ones where the field lists any. -/
theorem permits_entryKeywords : Json.Permits (.obj f.entryKeywords) value ↔
    ∃ s, value = .str s ∧ (f.values = [] ∨ s ∈ f.values) := by
  constructor
  · intro h
    cases h with
    | intro type _ _ _ _ enum _ =>
      have htype := type "string" (by simp [get?_entryKeywords])
      cases value with
      | str s =>
        refine ⟨s, rfl, ?_⟩
        by_cases hvalues : f.values = []
        · exact .inl hvalues
        · have hitem := enum (f.values.map .str) (by simp [get?_entryKeywords, hvalues, textList])
          exact .inr (by simpa using hitem)
      | _ => simp [Json.typeName] at htype
  · rintro ⟨s, rfl, hallowed⟩
    constructor <;> simp only [get?_entryKeywords]
    case enum =>
      intro items hitems
      by_cases hvalues : f.values = []
      · simp [hvalues] at hitems
      · have heq : f.values.map Json.str = items := by simpa [hvalues, textList] using hitems
        simpa [← heq] using hallowed.resolve_left hvalues
    all_goals simp [Json.typeName]

/-- The document that a field is rendered as permits the values that fit the field. -/
theorem permits_iff_fits : f.jsonSchema.Permits value ↔ f.Fits value := by
  rw [jsonSchema_eq]
  constructor
  · intro h
    cases h with
    | intro type format minLength maxLength pattern _ additionalProperties =>
      constructor
      case admits => exact FieldType.typeName_eq_iff.mp (type _ f.keyword_type)
      case uuid =>
        intro s hs htype
        exact (format "uuid" s (f.keyword_format.mpr (.inl ⟨htype, rfl⟩)) hs).1 rfl
      case timestamp =>
        intro s hs htype
        exact (format "date-time" s (f.keyword_format.mpr (.inr ⟨htype, rfl⟩)) hs).2 rfl
      case maxLength =>
        intro s limit hs hlimit
        exact Int.ofNat_le.mp (maxLength limit s (f.keyword_maxLength.mpr ⟨limit, hlimit, rfl⟩) hs)
      case minLength =>
        intro s limit hs hlimit
        exact Int.ofNat_le.mp (minLength limit s (f.keyword_minLength.mpr ⟨limit, hlimit, rfl⟩) hs)
      case pattern =>
        intro s source hs hsource
        exact pattern source s (f.keyword_pattern.mpr hsource) hs
      case entries =>
        intro entries hentries htype entry hentry
        exact permits_entryKeywords.mp (additionalProperties _ entries
          (f.keyword_additionalProperties.mpr ⟨htype, rfl⟩) hentries entry hentry)
  · intro h
    constructor
    case type =>
      intro name hname
      rw [f.keyword_type] at hname
      cases hname
      exact FieldType.typeName_eq_iff.mpr h.admits
    case format =>
      intro name s hname hs
      rcases f.keyword_format.mp hname with ⟨htype, rfl⟩ | ⟨htype, rfl⟩
      · exact ⟨fun _ => h.uuid s hs htype, by simp⟩
      · exact ⟨by simp, fun _ => h.timestamp s hs htype⟩
    case minLength =>
      intro limit s hlimit hs
      obtain ⟨n, hn, rfl⟩ := f.keyword_minLength.mp hlimit
      exact Int.ofNat_le.mpr (h.minLength s n hs hn)
    case maxLength =>
      intro limit s hlimit hs
      obtain ⟨n, hn, rfl⟩ := f.keyword_maxLength.mp hlimit
      exact Int.ofNat_le.mpr (h.maxLength s n hs hn)
    case pattern =>
      intro source s hsource hs
      exact h.pattern s source hs (f.keyword_pattern.mp hsource)
    case enum => simp [f.keyword_enum]
    case additionalProperties =>
      intro schema entries hschema hentries entry hentry
      obtain ⟨htype, rfl⟩ := f.keyword_additionalProperties.mp hschema
      exact permits_entryKeywords.mpr (h.entries entries hentries htype entry hentry)

/-- The document of a shipped field permits the values that the check of the field accepts. -/
theorem permits_iff_accepts {kind : RecordKind} (hf : f ∈ (Descriptor.shipped kind).fields) :
    f.jsonSchema.Permits value ↔ f.Accepts (.shipped kind) value :=
  permits_iff_fits.trans (violations_eq_nil_iff (Descriptor.field?_shipped hf)
    (plainName_shipped f hf) (patternReads_shipped f hf)).symm

end FieldSpec
end Phrasebook
