import Phrasebook.Proofs.Lines
import Phrasebook.Proofs.RenderedSchemas
import Phrasebook.Proofs.Rows
import Phrasebook.Schema.Ddl

/-!
# Room in columns of texts

A field counts characters, and so does a `varchar` column. A `text` column counts bytes, of which
a character takes up to four. All texts that a field permits fit the MySQL column that is declared
for it if the field has a limit of no more than a quarter of the bytes, and without a pattern only
then, unless the field permits no text at all.

## Main definitions

* `TextColumn`: the types of columns of texts and what they hold
* `FieldSpec.Roomy`: every text that a field permits fits its column
* `FieldSpec.Bounded`: the limit of a field suits a `text` column
-/
namespace Phrasebook

/-! ## Bytes of characters -/

namespace Text

/-- A character takes at most four bytes. -/
theorem utf8Length_le (cs : List Char) : utf8Length cs ≤ cs.length * 4 := by
  induction cs with
  | nil => simp
  | cons c cs ih =>
    have hc := c.utf8Size_le_four
    rw [utf8Length_cons, List.length_cons]
    omega

theorem charCount_replicate (n : Nat) (c : Char) :
    charCount (String.ofList (List.replicate n c)) = n := by
  simp [charCount]

theorem utf8Length_replicate (n : Nat) (c : Char) :
    utf8Length (List.replicate n c) = n * c.utf8Size := by
  induction n with
  | zero => simp
  | succ n ih =>
    rw [List.replicate_succ, utf8Length_cons, ih, Nat.succ_mul, Nat.add_comm]

end Text

/-! ## Columns of texts -/

/-- The types of columns of texts. -/
inductive TextColumn where
  | varchar (limit : Nat)
  | text
  deriving DecidableEq, Repr

namespace TextColumn

/-- The type as table definitions write it. -/
def type : TextColumn → String
  | varchar limit => s!"varchar({limit})"
  | text => "text"

/-- The bytes that a `text` column holds. -/
def textBytes : Nat := 65535

/-- What a column holds in a table of UTF-8 texts of all characters: a `varchar` so many
characters, a `text` so many bytes. -/
def Holds : TextColumn → String → Prop
  | varchar limit, s => Text.charCount s ≤ limit
  | text, s => Text.utf8Length s.toList ≤ textBytes

theorem type_eq_text {column : TextColumn} : column.type = "text" ↔ column = .text := by
  cases column with
  | varchar limit =>
    have hne : (varchar limit).type ≠ "text" := by
      intro h
      have hhead := congrArg (fun s => s.toList.head?) h
      simp only [type, String.toList_append] at hhead
      exact absurd hhead (by simp [show (toString "varchar(").toList = "varchar(".toList from rfl])
    simp [hne]
  | text => simp [type]

end TextColumn

namespace FieldSpec

/-- A text fits the column that is declared for a field. -/
def HasRoomFor (f : FieldSpec) (s : String) : Prop :=
  ∃ column : TextColumn, column.type = f.mysqlColumn ∧ column.Holds s

/-- Every text that a field permits fits its column. -/
def Roomy (f : FieldSpec) : Prop := ∀ s, f.jsonSchema.Permits (.str s) → f.HasRoomFor s

/-- The field has a limit, and so many characters never take more bytes than a `text` column
holds. -/
def Bounded (f : FieldSpec) : Prop :=
  ∃ limit, f.maxLength = some limit ∧ limit * 4 ≤ TextColumn.textBytes

/-- The limit of a field is small enough for a `varchar` column. -/
def Short (f : FieldSpec) : Prop := ∃ limit, f.maxLength = some limit ∧ limit ≤ varcharLimit

variable {f : FieldSpec} {s : String}

/-! ## The column of a field -/

theorem mysqlColumn_of_short {limit : Nat} (htype : f.type = .string)
    (hcolumn : f.columnType = none) (hlimit : f.maxLength = some limit)
    (hshort : limit ≤ varcharLimit) : f.mysqlColumn = (TextColumn.varchar limit).type := by
  simp [mysqlColumn, htype, hcolumn, hlimit, hshort, TextColumn.type]

theorem mysqlColumn_of_not_short (htype : f.type = .string) (hcolumn : f.columnType = none)
    (hlong : ¬ f.Short) : f.mysqlColumn = TextColumn.text.type := by
  cases hlimit : f.maxLength with
  | none => simp [mysqlColumn, htype, hcolumn, hlimit, TextColumn.type]
  | some limit =>
    have hgt : ¬ limit ≤ varcharLimit := fun hle => hlong ⟨limit, hlimit, hle⟩
    simp [mysqlColumn, htype, hcolumn, hlimit, hgt, TextColumn.type]

/-- A permitted text fits the column of a field with a small limit, and any other column if it
has no more bytes than the column holds. -/
theorem hasRoomFor_iff (htype : f.type = .string) (hcolumn : f.columnType = none)
    (hs : f.jsonSchema.Permits (.str s)) :
    f.HasRoomFor s ↔ f.Short ∨ Text.utf8Length s.toList ≤ TextColumn.textBytes := by
  by_cases hshort : f.Short
  · obtain ⟨limit, hlimit, hle⟩ := hshort
    have hcount := (permits_iff_fits.mp hs).maxLength s limit rfl hlimit
    have hroom : f.HasRoomFor s :=
      ⟨.varchar limit, (mysqlColumn_of_short htype hcolumn hlimit hle).symm, hcount⟩
    simp [hroom, show f.Short from ⟨limit, hlimit, hle⟩]
  · have htext := mysqlColumn_of_not_short htype hcolumn hshort
    simp only [hshort, false_or]
    constructor
    · rintro ⟨column, hcolumn, hholds⟩
      rw [htext] at hcolumn
      rw [TextColumn.type_eq_text.mp hcolumn] at hholds
      exact hholds
    · intro hbytes
      exact ⟨.text, htext.symm, hbytes⟩

/-! ## All texts of a field -/

/-- A field of texts without a pattern permits the texts within its limits. -/
theorem permits_str_iff (htype : f.type = .string) (hpattern : f.pattern = none) :
    f.jsonSchema.Permits (.str s) ↔
      (∀ limit, f.minLength = some limit → limit ≤ Text.charCount s) ∧
        ∀ limit, f.maxLength = some limit → Text.charCount s ≤ limit := by
  rw [permits_iff_fits]
  constructor
  · intro h
    exact ⟨fun limit => h.minLength s limit rfl, fun limit => h.maxLength s limit rfl⟩
  · rintro ⟨hmin, hmax⟩
    constructor
    case maxLength =>
      intro s' limit hs' hlimit
      cases hs'
      exact hmax limit hlimit
    case minLength =>
      intro s' limit hs' hlimit
      cases hs'
      exact hmin limit hlimit
    all_goals simp [htype, hpattern, FieldType.admits]

/-- A field without a suitable limit permits a text of characters of four bytes that is too large
for a `text` column, if it permits any text. -/
theorem exists_large_of_not_bounded (htype : f.type = .string) (hpattern : f.pattern = none)
    (hbounded : ¬ f.Bounded) (hs : f.jsonSchema.Permits (.str s)) :
    ∃ large, f.jsonSchema.Permits (.str large) ∧
      TextColumn.textBytes < Text.utf8Length large.toList := by
  obtain ⟨hmin, hmax⟩ := (permits_str_iff htype hpattern).mp hs
  -- As long as the field allows, or as long as it demands and more than the column holds.
  have hlength : ∃ n, TextColumn.textBytes < n * 4 ∧
      (∀ limit, f.minLength = some limit → limit ≤ n) ∧
        ∀ limit, f.maxLength = some limit → n ≤ limit := by
    cases hlimit : f.maxLength with
    | none =>
      refine ⟨Text.charCount s + TextColumn.textBytes, ?_, ?_, by simp⟩
      · simp only [TextColumn.textBytes]
        omega
      · intro limit hlimit
        have hle := hmin limit hlimit
        omega
    | some most =>
      refine ⟨most, ?_, ?_, by simp⟩
      · exact Nat.lt_of_not_le fun hle => hbounded ⟨most, hlimit, hle⟩
      · intro limit hleast
        exact Nat.le_trans (hmin limit hleast) (hmax most hlimit)
  obtain ⟨n, hbytes, hleast, hmost⟩ := hlength
  refine ⟨String.ofList (List.replicate n '😀'), ?_, ?_⟩
  · rw [permits_str_iff htype hpattern, Text.charCount_replicate]
    exact ⟨hleast, hmost⟩
  · rw [String.toList_ofList, Text.utf8Length_replicate]
    exact hbytes

/-- A limit of a quarter of the bytes leaves room for every text. -/
theorem Bounded.roomy (hbounded : f.Bounded) (htype : f.type = .string)
    (hcolumn : f.columnType = none) : f.Roomy := by
  intro s hs
  obtain ⟨limit, hlimit, hle⟩ := hbounded
  have hcount := (permits_iff_fits.mp hs).maxLength s limit rfl hlimit
  have hbytes := Text.utf8Length_le s.toList
  rw [hasRoomFor_iff htype hcolumn hs]
  right
  simp only [Text.charCount] at hcount
  omega

/-- All texts that a field permits fit the column declared for it exactly if its limit is small
enough for a `varchar` column or no text that it permits has more bytes than a `text` column
holds. A limit of no more than a quarter of these bytes is enough, and without a pattern nothing
else is, unless the field permits no text. -/
theorem roomy_iff (htype : f.type = .string) (hcolumn : f.columnType = none) :
    (f.Roomy ↔ f.Short ∨ ∀ s, f.jsonSchema.Permits (.str s) →
      Text.utf8Length s.toList ≤ TextColumn.textBytes) ∧
    (f.Bounded → f.Roomy) ∧
    (f.pattern = none → (f.Roomy ↔ f.Bounded ∨ ∀ s, ¬ f.jsonSchema.Permits (.str s))) := by
  have hroomy : f.Roomy ↔ f.Short ∨ ∀ s, f.jsonSchema.Permits (.str s) →
      Text.utf8Length s.toList ≤ TextColumn.textBytes := by
    by_cases hshort : f.Short <;> simp +contextual [Roomy, hasRoomFor_iff htype hcolumn, hshort]
  refine ⟨hroomy, fun hbounded => hbounded.roomy htype hcolumn, fun hpattern => ?_⟩
  constructor
  · intro hall
    by_contra hnot
    simp only [not_or, not_forall, not_not] at hnot
    obtain ⟨hbounded, s, hs⟩ := hnot
    obtain ⟨large, hlarge, hbytes⟩ := exists_large_of_not_bounded htype hpattern hbounded hs
    rcases hroomy.mp hall with ⟨limit, hlimit, hle⟩ | hsmall
    · refine hbounded ⟨limit, hlimit, ?_⟩
      simp only [varcharLimit] at hle
      simp only [TextColumn.textBytes]
      omega
    · exact absurd (hsmall large hlarge) (Nat.not_le.mpr hbytes)
  · rintro (hbounded | hnone)
    · exact hbounded.roomy htype hcolumn
    · intro s hs
      exact absurd hs (hnone s)

/-! ## Shipped fields -/

/-- The subject of an email always fits, the text of an SMS does not. -/
theorem roomy_emailSubject :
    (emailSubject.type = .string ∧ emailSubject.columnType = none ∧ emailSubject.Roomy) ∧
      smsContent.type = .string ∧ smsContent.columnType = none ∧ ¬ smsContent.Roomy := by
  have hsubject : emailSubject.Bounded := ⟨255, rfl, by decide⟩
  have hcontent : ¬ smsContent.Bounded := by
    rintro ⟨limit, hlimit, hle⟩
    cases hlimit
    exact absurd hle (by decide)
  have hsome : smsContent.jsonSchema.Permits (.str "Hi") :=
    (permits_str_iff rfl rfl).mpr ⟨nofun, by rintro limit ⟨⟩; decide⟩
  refine ⟨⟨rfl, rfl, (roomy_iff rfl rfl).2.1 hsubject⟩, rfl, rfl, fun hroomy => ?_⟩
  rcases ((roomy_iff rfl rfl).2.2 rfl).mp hroomy with hbounded | hnone
  · exact hcontent hbounded
  · exact hnone "Hi" hsome

/-- An accepted text of an SMS need not fit: so many characters of four bytes are one byte too
many. -/
theorem not_roomy_smsContent :
    let s := String.ofList (List.replicate 16384 '😀')
    Descriptor.sms.check = .ok () ∧ smsContent ∈ Descriptor.sms.fields ∧
      smsContent.type = .string ∧ smsContent.columnType = none ∧
      smsContent.jsonSchema.Permits (.str s) ∧ ¬ smsContent.HasRoomFor s := by
  intro s
  have hs : smsContent.jsonSchema.Permits (.str s) := by
    rw [permits_str_iff rfl rfl, Text.charCount_replicate]
    simp [smsContent]
  refine ⟨by decide +kernel, by decide, rfl, rfl, hs, ?_⟩
  rw [hasRoomFor_iff rfl rfl hs, String.toList_ofList, Text.utf8Length_replicate]
  rintro (⟨limit, hlimit, hle⟩ | hbytes)
  · cases hlimit
    exact absurd hle (by decide)
  · exact absurd hbytes (by decide)

end FieldSpec
end Phrasebook
