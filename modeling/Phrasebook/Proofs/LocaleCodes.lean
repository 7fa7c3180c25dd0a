import Phrasebook.Proofs.Constraints
import Phrasebook.Proofs.Keys
import Phrasebook.Proofs.Rows

/-!
# Patterns of the shipped definitions

The patterns of the shipped fields can be read, and the one of locale codes matches the
texts of locale codes and no others, so that a text accepted as a locale code is the text
of a key.

## Main definitions

* `Pattern.localeCode`, `Pattern.templateName`: what the shipped patterns are read as
-/
namespace Phrasebook

namespace Pattern

variable {Q : Stretch} {before after : Option Char} {cs : List Char} {set : CharSet} {s : String}

theorem then_assertion {a : Assertion} : Then (assertion a).Denotes Q before cs after ↔
    a.holds before (cs.head?.or after) = true ∧ Q before cs after := by
  constructor
  · rintro ⟨first, second, rfl, ⟨rfl, hholds⟩, hQ⟩
    exact ⟨hholds, hQ⟩
  · rintro ⟨hholds, hQ⟩
    exact ⟨[], cs, rfl, ⟨rfl, hholds⟩, hQ⟩

theorem repeated_chars {n : Nat} : Repeated (chars set).Denotes n before cs after ↔
    cs.length = n ∧ ∀ c ∈ cs, set.contains c = true := by
  induction n generalizing before cs with
  | zero =>
    rw [Repeated, List.length_eq_zero_iff]
    constructor
    · rintro rfl
      simp
    · exact And.left
  | succ n ih =>
    rw [Repeated]
    constructor
    · rintro ⟨first, second, rfl, ⟨c, rfl, hc⟩, hsecond⟩
      obtain ⟨hlength, hall⟩ := ih.mp hsecond
      exact ⟨by simp [hlength], List.forall_mem_cons.mpr ⟨hc, hall⟩⟩
    · rintro ⟨hlength, hall⟩
      obtain ⟨c, rest, rfl⟩ := List.exists_cons_of_length_eq_add_one hlength
      obtain ⟨hc, hrest⟩ := List.forall_mem_cons.mp hall
      exact ⟨[c], rest, rfl, ⟨c, rfl, hc⟩, ih.mpr ⟨Nat.succ.inj hlength, hrest⟩⟩

/-- Exactly so many characters of a set. -/
theorem denotes_count {n : Nat} : (times (chars set) n (some n)).Denotes before cs after ↔
    cs.length = n ∧ ∀ c ∈ cs, set.contains c = true := by
  constructor
  · rintro ⟨m, hleast, hmost, hrepeated⟩
    obtain rfl := Nat.le_antisymm (hmost n rfl) hleast
    exact repeated_chars.mp hrepeated
  · exact fun h => ⟨n, Nat.le_refl n, fun m hm => (Option.some.inj hm).le, repeated_chars.mpr h⟩

theorem contains_range {a b c : Char} :
    (CharSet.range a b).contains c = true ↔ a ≤ c ∧ c ≤ b := by
  simp [CharSet.range, CharSet.contains, Char.le_def, UInt32.le_iff_toNat_le]

/-! ## Locale codes -/

/-- Two lower-case letters, a hyphen and two upper-case letters, and nothing else. -/
def localeCode : Pattern :=
  .seq (.assertion .textStart) (.seq (.times (.chars (.range 'a' 'z')) 2 (some 2))
    (.seq (.chars (.range '-' '-')) (.seq (.times (.chars (.range 'A' 'Z')) 2 (some 2))
      (.assertion .textEnd))))

/-- Letters, digits, underscores and hyphens, and nothing else. -/
def templateName : Pattern :=
  .seq (.assertion .textStart) (.seq
    (.times (.chars [(45, 45), (48, 57), (65, 90), (95, 95), (97, 122)]) 1 none)
    (.assertion .textEnd))

theorem parse_localePattern : parse? FieldSpec.localePattern = some localeCode := by
  decide +kernel

theorem parse_templateName : parse? "^[A-Za-z0-9_\\-]+$" = some templateName := by
  decide +kernel

theorem consistent_localeCode : localeCode.Consistent := by
  simp [localeCode, Consistent]

theorem consistent_templateName : templateName.Consistent := by
  simp [templateName, Consistent]

/-- The pattern of locale codes matches their texts. -/
theorem finds_localeCode : localeCode.Finds s ↔ isLocaleText s.toList = true := by
  constructor
  · rintro ⟨skipped, rest, hs, found, left, rfl, hfound⟩
    obtain ⟨hstart, hfound⟩ := then_assertion.mp hfound
    obtain ⟨lower, _, rfl, hfirst, _, _, rfl, ⟨c, rfl, hc⟩, upper, _, rfl, hlast, rfl, hend⟩ :=
      hfound
    obtain ⟨hlowerLength, hlower⟩ := denotes_count.mp hfirst
    obtain ⟨hupperLength, hupper⟩ := denotes_count.mp hlast
    obtain ⟨a, b, rfl⟩ := List.length_eq_two.mp hlowerLength
    obtain ⟨d, e, rfl⟩ := List.length_eq_two.mp hupperLength
    obtain rfl : skipped = [] := by simpa [Assertion.holds] using hstart
    obtain rfl : left = [] := by simpa [Assertion.holds] using hend
    obtain rfl : c = '-' := by
      obtain ⟨hle, hge⟩ := contains_range.mp hc
      exact Char.le_antisymm hge hle
    simp only [List.mem_cons, List.not_mem_nil, or_false, forall_eq_or_imp, forall_eq,
      contains_range] at hlower hupper
    simp [hs, isLocaleText, hlower, hupper]
  · intro h
    unfold isLocaleText at h
    split at h
    · next a b d e hs =>
      simp only [Bool.and_eq_true, decide_eq_true_eq] at h
      obtain ⟨⟨⟨ha, hb⟩, hd⟩, he⟩ := h
      refine ⟨[], s.toList, rfl, s.toList, [], (List.append_nil _).symm, then_assertion.mpr
        ⟨rfl, [a, b], ['-', d, e], hs, denotes_count.mpr ⟨rfl, ?_⟩, ['-'], [d, e], rfl,
          ⟨'-', rfl, by decide⟩, [d, e], [], rfl, denotes_count.mpr ⟨rfl, ?_⟩, rfl, rfl⟩⟩
      · simp [contains_range, ha, hb]
      · simp [contains_range, hd, he]
    · cases h

end Pattern

namespace FieldSpec

/-- The patterns of the shipped fields can be read. -/
theorem patternReads_shipped {kind : RecordKind} :
    ∀ f ∈ (Descriptor.shipped kind).fields, f.PatternReads := by
  have hpatterns : ∀ f ∈ (Descriptor.shipped kind).fields, f.pattern = none ∨
      f.pattern = some localePattern ∨ f.pattern = some "^[A-Za-z0-9_\\-]+$" := by
    cases kind <;> decide
  intro f hf pattern hpattern
  rcases hpatterns f hf with h | h | h <;> rw [h] at hpattern <;> cases hpattern
  · exact ⟨_, Pattern.parse_localePattern, Pattern.consistent_localeCode⟩
  · exact ⟨_, Pattern.parse_templateName, Pattern.consistent_templateName⟩

/-- No shipped field has a name with characters that separate places. -/
theorem plainName_shipped {kind : RecordKind} :
    ∀ f ∈ (Descriptor.shipped kind).fields, PlainName f.name := by
  cases kind <;> decide

/-- A text that fits a field with the pattern of locale codes is a locale code. -/
theorem Fits.isLocaleText {f : FieldSpec} {s : String} (h : f.Fits (.str s))
    (hpattern : f.pattern = some localePattern) : isLocaleText s.toList = true := by
  obtain ⟨p, hp, hfinds⟩ := h.pattern s _ rfl hpattern
  rw [Pattern.parse_localePattern] at hp
  exact Pattern.finds_localeCode.mp (Option.some.inj hp ▸ hfinds)

end FieldSpec

/-- A locale code is the key of that locale. -/
theorem RecordId.parse_of_isLocaleText {s : String} (h : isLocaleText s.toList = true) :
    RecordId.parse s = .ok (.locale ⟨s, h⟩) := by
  simp [parse, LocaleCode.ofText?, h]

end Phrasebook
