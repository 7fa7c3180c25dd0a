import Mathlib.Data.List.Nodup
import Phrasebook.Proofs.Fields
import Phrasebook.Proofs.Matching
import Phrasebook.Proofs.Paths

/-!
# Constraints of a field

What a field demands of its value, stated apart from how values are checked, and that
the check of a value reports each demand that is not met once.

## Main definitions

* `FieldSpec.Fits`: a value meets what a field demands
* `FieldSpec.Fails`, `FieldSpec.EntryFails`: a value or an entry fails a constraint
* `FieldSpec.Fault`: something is wrong with the value of a field
-/
namespace Phrasebook

namespace FieldSpec

/-- A value meets what a field demands. -/
structure Fits (f : FieldSpec) (value : Json) : Prop where
  /-- It has the declared type. -/
  admits : f.type.admits value = true
  uuid : ∀ s, value = .str s → f.type = .uuid → Format.isUuid s = true
  timestamp : ∀ s, value = .str s → f.type = .timestamp → Format.isDateTime s = true
  /-- Lengths count characters. -/
  maxLength : ∀ s limit, value = .str s → f.maxLength = some limit → Text.charCount s ≤ limit
  minLength : ∀ s limit, value = .str s → f.minLength = some limit → limit ≤ Text.charCount s
  pattern : ∀ s pattern, value = .str s → f.pattern = some pattern →
    ∃ p, Pattern.parse? pattern = some p ∧ p.Finds s
  /-- Entries of an object are texts, and allowed ones where the field lists any. -/
  entries : ∀ entries, value = .obj entries → f.type = .object → ∀ entry ∈ entries,
    ∃ s, entry.2 = .str s ∧ (f.values = [] ∨ s ∈ f.values)

/-- A value fails a constraint of a field. -/
inductive Fails (f : FieldSpec) (value : Json) : Constraint → Prop
  | type (h : f.type.admits value = false) : Fails f value (.wrongType f.type.name)
  | uuid {s : String} (value_eq : value = .str s) (type_eq : f.type = .uuid)
    (h : Format.isUuid s = false) : Fails f value (.wrongType f.type.name)
  | timestamp {s : String} (value_eq : value = .str s) (type_eq : f.type = .timestamp)
    (h : Format.isDateTime s = false) : Fails f value (.wrongType f.type.name)
  | tooLong {s : String} {limit : Nat} (value_eq : value = .str s)
    (limit_eq : f.maxLength = some limit) (h : limit < Text.charCount s) :
    Fails f value (.tooLong limit)
  | tooShort {s : String} {limit : Nat} (value_eq : value = .str s)
    (limit_eq : f.minLength = some limit) (h : Text.charCount s < limit) :
    Fails f value (.tooShort limit)
  | pattern {s pattern : String} {p : Pattern} (value_eq : value = .str s)
    (pattern_eq : f.pattern = some pattern) (parse_eq : Pattern.parse? pattern = some p)
    (h : ¬ p.Finds s) : Fails f value (.patternMismatch pattern)

/-- The entry of a key in the value of an object field fails a constraint. The place of an
empty key is that of the field. -/
inductive EntryFails (f : FieldSpec) (key : String) (value : Json) : Constraint → Prop
  | type (h : value.str? = none) :
    EntryFails f key value (.wrongType (if key = "" then f.type.name else "string"))
  | value (h : ¬ (f.values = [] ∨ ∃ s ∈ f.values, value = .str s)) :
    EntryFails f key value (.invalidValue f.values)

/-- Something is wrong with the value of a field, whatever other fields hold. -/
inductive Fault (f : FieldSpec) (value : Json) : Violation → Prop
  | field {c : Constraint} (h : f.Fails value c) : Fault f value ⟨f.name, c⟩
  | entry {entries : Fields} {entry : String × Json} {c : Constraint} (type_eq : f.type = .object)
    (value_eq : value = .obj entries) (mem : entry ∈ entries)
    (h : f.EntryFails entry.1 entry.2 c) : Fault f value ⟨pathText [f.name, entry.1], c⟩

/-- The pattern of a field, if it has one, is well formed. -/
def PatternReads (f : FieldSpec) : Prop :=
  ∀ pattern, f.pattern = some pattern → ∃ p, Pattern.parse? pattern = some p ∧ p.Consistent

variable {f : FieldSpec} {d : Descriptor} {value : Json} {c : Constraint} {v : Violation}

/-- Nothing is wrong with a value that fits its field. -/
theorem Fits.not_fault (hfits : f.Fits value) : ¬ f.Fault value v := by
  rintro (⟨hfails⟩ | ⟨htype, hvalue, hmem, hfails⟩)
  · cases hfails with
    | type hadmits => simp [hfits.admits] at hadmits
    | uuid hvalue htype hformat => simp [hfits.uuid _ hvalue htype] at hformat
    | timestamp hvalue htype hformat => simp [hfits.timestamp _ hvalue htype] at hformat
    | tooLong hvalue hlimit hlong =>
      exact absurd hlong (Nat.not_lt.mpr (hfits.maxLength _ _ hvalue hlimit))
    | tooShort hvalue hlimit hshort =>
      exact absurd hshort (Nat.not_lt.mpr (hfits.minLength _ _ hvalue hlimit))
    | pattern hvalue hpattern hparse hnot =>
      obtain ⟨p, hp, hfinds⟩ := hfits.pattern _ _ hvalue hpattern
      rw [hparse] at hp
      exact hnot (Option.some.inj hp ▸ hfinds)
  · obtain ⟨s, hs, hallowed⟩ := hfits.entries _ hvalue htype _ hmem
    cases hfails with
    | type hnone => simp [hs, Json.str?] at hnone
    | value hnot => exact hnot (hallowed.imp_right fun hmem => ⟨s, hmem, hs⟩)

/-- An entry that fails no check is one of the texts that are allowed. -/
theorem exists_str_of_not_entryFails {key : String}
    (h : ∀ c, ¬ f.EntryFails key value c) :
    ∃ s, value = .str s ∧ (f.values = [] ∨ s ∈ f.values) := by
  have hallowed : f.values = [] ∨ ∃ s ∈ f.values, value = .str s :=
    Classical.not_not.mp fun hnot => h _ (.value hnot)
  cases value with
  | str s => exact ⟨s, rfl, hallowed.imp_right fun ⟨t, ht, heq⟩ => Json.str.inj heq ▸ ht⟩
  | _ => exact absurd (.type rfl) (h _)

/-- A value fits a field if nothing is wrong with it. -/
theorem fits_iff (h : f.PatternReads) : f.Fits value ↔ ∀ v, ¬ f.Fault value v := by
  refine ⟨fun hfits v => hfits.not_fault, fun hnone => ?_⟩
  have hfield : ∀ c, ¬ f.Fails value c := fun c hfails => hnone _ (.field hfails)
  refine ⟨?_, fun s hvalue htype => ?_, fun s hvalue htype => ?_, fun s limit hvalue hlimit => ?_,
    fun s limit hvalue hlimit => ?_, fun s pattern hvalue hpattern => ?_,
    fun entries hvalue htype entry hmem => ?_⟩
  · exact Bool.not_eq_false _ ▸ fun hadmits => hfield _ (.type hadmits)
  · exact Bool.not_eq_false _ ▸ fun hformat => hfield _ (.uuid hvalue htype hformat)
  · exact Bool.not_eq_false _ ▸ fun hformat => hfield _ (.timestamp hvalue htype hformat)
  · exact Nat.not_lt.mp fun hlong => hfield _ (.tooLong hvalue hlimit hlong)
  · exact Nat.not_lt.mp fun hshort => hfield _ (.tooShort hvalue hlimit hshort)
  · obtain ⟨p, hparse, -⟩ := h pattern hpattern
    exact ⟨p, hparse, Classical.not_not.mp fun hnot =>
      hfield _ (.pattern hvalue hpattern hparse hnot)⟩
  · exact exists_str_of_not_entryFails fun c hfails => hnone _ (.entry htype hvalue hmem hfails)

/-! ## The check of a value -/

theorem mem_demand {holds : Bool} {other : Constraint} :
    c ∈ demand holds other ↔ holds = false ∧ c = other := by
  cases holds <;> simp [demand]

theorem nodup_demand (holds : Bool) (c : Constraint) : (demand holds c).Nodup := by
  cases holds <;> simp [demand]

/-! A text is checked against its format, its bounds and its pattern, one after another. -/

/-- The failure of a text to have its format. -/
def formatFailures (f : FieldSpec) (s : String) : List Constraint :=
  match f.type with
  | .uuid => demand (Format.isUuid s) (.wrongType f.type.name)
  | .timestamp => demand (Format.isDateTime s) (.wrongType f.type.name)
  | _ => []

/-- The failure of a text to be short enough. -/
def maxFailures (f : FieldSpec) (s : String) : List Constraint :=
  match f.maxLength with
  | some limit => demand (Text.charCount s ≤ limit) (.tooLong limit)
  | none => []

/-- The failure of a text to be long enough. -/
def minFailures (f : FieldSpec) (s : String) : List Constraint :=
  match f.minLength with
  | some limit => demand (limit ≤ Text.charCount s) (.tooShort limit)
  | none => []

/-- The failure of a text to match. -/
def patternFailures (f : FieldSpec) (s : String) : List Constraint :=
  match f.pattern with
  | some pattern =>
    match Pattern.parse? pattern with
    | some p => demand (p.search s) (.patternMismatch pattern)
    | none => []
  | none => []

theorem failures_str (f : FieldSpec) (s : String) : f.failures f.type.name (.str s) =
    f.formatFailures s ++ f.maxFailures s ++ f.minFailures s ++ f.patternFailures s ++
      demand (f.type.admits (.str s)) (.wrongType f.type.name) := by
  simp only [failures, textFailures, formatFailures]
  cases htype : f.type <;> rfl

theorem mem_formatFailures {s : String} : c ∈ f.formatFailures s ↔
    c = .wrongType f.type.name ∧ ((f.type = .uuid ∧ Format.isUuid s = false) ∨
      (f.type = .timestamp ∧ Format.isDateTime s = false)) := by
  unfold formatFailures
  cases f.type <;> simp [mem_demand, and_comm]

theorem mem_maxFailures {s : String} : c ∈ f.maxFailures s ↔
    ∃ limit, c = .tooLong limit ∧ f.maxLength = some limit ∧ limit < Text.charCount s := by
  unfold maxFailures
  cases f.maxLength <;> simp [mem_demand, and_comm]

theorem mem_minFailures {s : String} : c ∈ f.minFailures s ↔
    ∃ limit, c = .tooShort limit ∧ f.minLength = some limit ∧ Text.charCount s < limit := by
  unfold minFailures
  cases f.minLength <;> simp [mem_demand, and_comm]

theorem mem_patternFailures (h : f.PatternReads) {s : String} : c ∈ f.patternFailures s ↔
    ∃ pattern, c = .patternMismatch pattern ∧ f.pattern = some pattern ∧
      ∃ p, Pattern.parse? pattern = some p ∧ ¬ p.Finds s := by
  unfold patternFailures
  cases hf : f.pattern with
  | none => simp
  | some pattern =>
    obtain ⟨p, hparse, hconsistent⟩ := h pattern hf
    simp [hparse, mem_demand, ← Pattern.search_iff hconsistent, and_comm]

/-- The check of a value finds the constraints that it fails. -/
theorem mem_failures (h : f.PatternReads) :
    c ∈ f.failures f.type.name value ↔ f.Fails value c := by
  constructor
  · intro hc
    cases value with
    | str s =>
      simp only [failures_str, List.mem_append, mem_formatFailures, mem_maxFailures,
        mem_minFailures, mem_patternFailures h, mem_demand] at hc
      rcases hc with (((⟨rfl, ⟨htype, hs⟩ | ⟨htype, hs⟩⟩ | ⟨limit, rfl, hlimit, hs⟩) |
        ⟨limit, rfl, hlimit, hs⟩) | ⟨pattern, rfl, hpattern, p, hp, hs⟩) | ⟨hadmits, rfl⟩
      · exact .uuid rfl htype hs
      · exact .timestamp rfl htype hs
      · exact .tooLong rfl hlimit hs
      · exact .tooShort rfl hlimit hs
      · exact .pattern rfl hpattern hp hs
      · exact .type hadmits
    | _ =>
      obtain ⟨hadmits, rfl⟩ := mem_demand.mp hc
      exact .type hadmits
  · intro hfails
    cases hfails with
    | type hadmits => exact List.mem_append_right _ (mem_demand.mpr ⟨hadmits, rfl⟩)
    | @uuid s hvalue htype hs =>
      have hmem : Constraint.wrongType f.type.name ∈ f.formatFailures s :=
        mem_formatFailures.mpr ⟨rfl, .inl ⟨htype, hs⟩⟩
      simp [hvalue, failures_str, hmem]
    | @timestamp s hvalue htype hs =>
      have hmem : Constraint.wrongType f.type.name ∈ f.formatFailures s :=
        mem_formatFailures.mpr ⟨rfl, .inr ⟨htype, hs⟩⟩
      simp [hvalue, failures_str, hmem]
    | tooLong hvalue hlimit hs =>
      simp [hvalue, failures_str, mem_maxFailures, hlimit, hs]
    | tooShort hvalue hlimit hs =>
      simp [hvalue, failures_str, mem_minFailures, hlimit, hs]
    | @pattern s pattern p hvalue hpattern hp hs =>
      have hmem : Constraint.patternMismatch pattern ∈ f.patternFailures s :=
        (mem_patternFailures h).mpr ⟨pattern, rfl, hpattern, p, hp, hs⟩
      simp [hvalue, failures_str, hmem]

/-- A constraint is found at most once. -/
theorem nodup_failures (h : f.PatternReads) : (f.failures f.type.name value).Nodup := by
  cases value with
  | str s =>
    have hformat : (f.formatFailures s).Nodup := by
      unfold formatFailures
      split <;> first | exact nodup_demand .. | exact List.nodup_nil
    have hmax : (f.maxFailures s).Nodup := by
      unfold maxFailures
      split <;> first | exact nodup_demand .. | exact List.nodup_nil
    have hmin : (f.minFailures s).Nodup := by
      unfold minFailures
      split <;> first | exact nodup_demand .. | exact List.nodup_nil
    have hpattern : (f.patternFailures s).Nodup := by
      unfold patternFailures
      split
      · split <;> first | exact nodup_demand .. | exact List.nodup_nil
      · exact List.nodup_nil
    -- A text whose format is checked has the right type.
    have hadmits : f.type = .uuid ∨ f.type = .timestamp → f.type.admits (.str s) = true := by
      rintro (htype | htype) <;> rw [htype] <;> rfl
    rw [failures_str]
    simp only [List.nodup_append', hformat, hmax, hmin, hpattern, nodup_demand, List.Disjoint,
      List.mem_append, mem_formatFailures, mem_maxFailures, mem_minFailures,
      mem_patternFailures h, mem_demand]
    grind
  | _ => exact nodup_demand ..

/-! ## The check of an entry -/

theorem mem_entryFailures {expected : String} : c ∈ f.entryFailures expected value ↔
    (¬ (f.values = [] ∨ ∃ s ∈ f.values, value = .str s) ∧ c = .invalidValue f.values) ∨
      (value.str? = none ∧ c = .wrongType expected) := by
  simp only [entryFailures, List.mem_append, mem_demand, Bool.or_eq_false_iff]
  cases value <;> cases f.values <;> simp [Json.str?, and_comm]

theorem nodup_entryFailures {expected : String} : (f.entryFailures expected value).Nodup := by
  rw [entryFailures, List.nodup_append']
  refine ⟨nodup_demand .., nodup_demand .., fun c hvalue htype => ?_⟩
  obtain ⟨-, rfl⟩ := mem_demand.mp hvalue
  obtain ⟨-, heq⟩ := mem_demand.mp htype
  cases heq

/-! ## Violations -/

theorem expectedType_field (hd : d.field? f.name = some f) (hname : PlainName f.name) :
    d.expectedType (pathText [f.name]) = f.type.name := by
  have hpoint : '.' ∉ f.name.toList := fun hmem => (hname.2 _ hmem).1 rfl
  simp [Descriptor.expectedType, pathText_field hname, hpoint, hd]

theorem expectedType_entry (hd : d.field? f.name = some f) (hname : PlainName f.name)
    {key : String} : d.expectedType (pathText [f.name, key]) =
      if key = "" then f.type.name else "string" := by
  split
  · next hkey =>
    rw [pathText_entry hname, if_pos hkey, ← pathText_field hname, expectedType_field hd hname]
  · next hkey =>
    simp [Descriptor.expectedType, pathText_entry hname, hkey]

/-- The violations of an object are those of its entries, as it has the right type. -/
theorem violations_obj (htype : f.type = .object) (entries : Fields) :
    f.violations d (.obj entries) =
      entries.flatMap fun entry => f.entryViolations d entry.1 entry.2 := by
  simp [violations, htype, failures, demand, FieldType.admits]

/-- The violations of any other value are those of the value itself. -/
theorem violations_plain (hd : d.field? f.name = some f) (hname : PlainName f.name)
    (h : ∀ entries, ¬ (f.type = .object ∧ value = .obj entries)) :
    f.violations d value = (f.failures f.type.name value).map (Violation.mk f.name) := by
  unfold violations
  split
  · next entries htype => exact absurd ⟨htype, rfl⟩ (h entries)
  · rw [List.nil_append, expectedType_field hd hname, pathText_field hname]

/-- The violations of a value are what is wrong with it. -/
theorem mem_violations (hd : d.field? f.name = some f) (hname : PlainName f.name)
    (h : f.PatternReads) : v ∈ f.violations d value ↔ f.Fault value v := by
  by_cases hobject : ∃ entries, f.type = .object ∧ value = .obj entries
  · obtain ⟨entries, htype, rfl⟩ := hobject
    have hfails : ∀ c, ¬ f.Fails (.obj entries) c := by
      rintro c (hadmits | hvalue | hvalue | hvalue | hvalue | hvalue)
      · simp [htype, FieldType.admits] at hadmits
      all_goals cases hvalue
    rw [violations_obj htype, List.mem_flatMap]
    constructor
    · rintro ⟨entry, hmem, hv⟩
      obtain ⟨c, hc, rfl⟩ := List.mem_map.mp hv
      rw [expectedType_entry hd hname] at hc
      refine .entry htype rfl hmem ?_
      rcases mem_entryFailures.mp hc with ⟨hvalue, rfl⟩ | ⟨hnone, rfl⟩
      · exact .value hvalue
      · exact .type hnone
    · rintro (⟨hfield⟩ | ⟨-, hvalue, hmem, hentry⟩)
      · exact absurd hfield (hfails _)
      · cases hvalue
        refine ⟨_, hmem, List.mem_map.mpr ⟨_, ?_, rfl⟩⟩
        rw [expectedType_entry hd hname, mem_entryFailures]
        cases hentry with
        | type hnone => exact .inr ⟨hnone, rfl⟩
        | value hvalue => exact .inl ⟨hvalue, rfl⟩
  · have hplain : ∀ entries, ¬ (f.type = .object ∧ value = .obj entries) :=
      fun entries hentries => hobject ⟨entries, hentries⟩
    rw [violations_plain hd hname hplain, List.mem_map]
    constructor
    · rintro ⟨c, hc, rfl⟩
      exact .field ((mem_failures h).mp hc)
    · rintro (⟨hfield⟩ | ⟨htype, hvalue, -, -⟩)
      · exact ⟨_, (mem_failures h).mpr hfield, rfl⟩
      · exact absurd ⟨htype, hvalue⟩ (hplain _)

/-- A violation of a value is found once, as the entries of an object have different
keys. -/
theorem nodup_violations (hd : d.field? f.name = some f) (hname : PlainName f.name)
    (h : f.PatternReads) (hkeys : ∀ entries, value = .obj entries → Fields.Sorted entries) :
    (f.violations d value).Nodup := by
  have hinjective : ∀ place, Function.Injective (Violation.mk place) :=
    fun place c other heq => (Violation.mk.inj heq).2
  by_cases hobject : ∃ entries, f.type = .object ∧ value = .obj entries
  · obtain ⟨entries, htype, rfl⟩ := hobject
    rw [violations_obj htype, List.nodup_flatMap]
    refine ⟨fun entry _ => nodup_entryFailures.map (hinjective _), (hkeys entries rfl).imp ?_⟩
    intro entry other hlt v hentry hother
    obtain ⟨c, -, rfl⟩ := List.mem_map.mp hentry
    obtain ⟨c', -, heq⟩ := List.mem_map.mp hother
    exact String.ne_of_lt hlt (pathText_entry_injective hname (Violation.mk.inj heq).1.symm)
  · rw [violations_plain hd hname fun entries hentries => hobject ⟨entries, hentries⟩]
    exact (nodup_failures h).map (hinjective _)

/-- What is wrong with a value is in its field or in an entry of it. -/
theorem Fault.placeField (h : f.Fault value v) (hname : PlainName f.name) :
    placeField v.field = f.name.toList := by
  cases h with
  | field _ => exact hname.placeField
  | entry _ _ _ _ => exact placeField_entry hname

/-- A value is accepted if it fits. -/
theorem violations_eq_nil_iff (hd : d.field? f.name = some f) (hname : PlainName f.name)
    (h : f.PatternReads) : f.violations d value = [] ↔ f.Fits value := by
  rw [fits_iff h, List.eq_nil_iff_forall_not_mem]
  exact forall_congr' fun v => not_congr (mem_violations hd hname h)

end FieldSpec
end Phrasebook
