import Phrasebook.Proofs.Affixes
import Phrasebook.Proofs.Keys

/-!
# The texts that spell keys

A text spells a key if it is a locale code or carries thirty-two hexadecimal digits in one of
four forms. The forms differ in length, so no text has two of them, and two texts spell the same
UUID just when they carry the same digits, upper and lower case being the same.

## Main definitions

* `LocaleCode.IsCode`: two lower-case letters, a hyphen and two upper-case letters
* `Uuid.Form`: a text carries digits in one of the four forms
* `Uuid.Carries`: a text carries the digits of a UUID
-/
namespace Phrasebook

/-! ## Locale codes -/

namespace LocaleCode

/-- Two lower-case ASCII letters, a hyphen and two upper-case ASCII letters. -/
def IsCode (s : String) : Prop :=
  ∃ a b c d : Char, s.toList = [a, b, '-', c, d] ∧ ('a' ≤ a ∧ a ≤ 'z') ∧ ('a' ≤ b ∧ b ≤ 'z') ∧
    ('A' ≤ c ∧ c ≤ 'Z') ∧ ('A' ≤ d ∧ d ≤ 'Z')

theorem isLocaleText_iff {s : String} : isLocaleText s.toList = true ↔ IsCode s := by
  constructor
  · intro h
    unfold isLocaleText at h
    split at h
    · next a b c d hs =>
      simp only [Bool.and_eq_true, decide_eq_true_eq] at h
      obtain ⟨⟨⟨ha, hb⟩, hc⟩, hd⟩ := h
      exact ⟨a, b, c, d, hs, ha, hb, hc, hd⟩
    · cases h
  · rintro ⟨a, b, c, d, hs, ha, hb, hc, hd⟩
    simp [hs, isLocaleText, ha, hb, hc, hd]

end LocaleCode

/-! ## UUIDs -/

namespace Uuid

/-- A hexadecimal digit of either case. -/
def IsHex (c : Char) : Prop :=
  ('0' ≤ c ∧ c ≤ '9') ∨ ('a' ≤ c ∧ c ≤ 'f') ∨ ('A' ≤ c ∧ c ≤ 'F')

instance (c : Char) : Decidable (IsHex c) := inferInstanceAs (Decidable (_ ∨ _))

/-- Characters in groups of 8, 4, 4, 4 and 12, with hyphens between the groups. -/
def Grouped (hex cs : List Char) : Prop :=
  ∃ a b c d e : List Char, a.length = 8 ∧ b.length = 4 ∧ c.length = 4 ∧ d.length = 4 ∧
    e.length = 12 ∧ hex = a ++ b ++ c ++ d ++ e ∧
    cs = a ++ '-' :: (b ++ '-' :: (c ++ '-' :: (d ++ '-' :: e)))

/-- A text carries characters as they are, in groups, in groups between braces, or in groups
after `urn:uuid:` in any case. -/
inductive Form (hex : List Char) : List Char → Prop
  | plain : Form hex hex
  | hyphenated {cs : List Char} (grouped : Grouped hex cs) : Form hex cs
  | braced {cs : List Char} (grouped : Grouped hex cs) : Form hex ('\x7b' :: (cs ++ ['\x7d']))
  | urn {mark cs : List Char} (mark_eq : mark.map Char.toLower = "urn:uuid:".toList)
    (grouped : Grouped hex cs) : Form hex (mark ++ cs)

/-- A text carries thirty-two hexadecimal digits in one of the four forms. -/
structure Carries (s : String) (hex : List Char) : Prop where
  form : Form hex s.toList
  length_eq : hex.length = 32
  isHex : ∀ c ∈ hex, IsHex c

variable {c : Char} {d : Fin 16} {cs hex inner rest : List Char} {u : Uuid} {s : String}

/-! ### Digits -/

theorem digit?_of_not_isHex (h : ¬ IsHex c) : digit? c = none := by
  obtain ⟨hdecimal, hlower, hupper⟩ : ¬ ('0' ≤ c ∧ c ≤ '9') ∧ ¬ ('a' ≤ c ∧ c ≤ 'f') ∧
      ¬ ('A' ≤ c ∧ c ≤ 'F') := by simpa [IsHex] using h
  simp [digit?, Text.hexValue?, hdecimal, hlower, hupper]

theorem digit?_of_isHex (h : IsHex c) :
    ∃ d : Fin 16, digit? c = some d ∧ c.toLower = Text.hexDigit d := by
  have hascii : ∀ n < 128, IsHex (Char.ofNat n) → ∃ d : Fin 16,
      digit? (Char.ofNat n) = some d ∧ (Char.ofNat n).toLower = Text.hexDigit d := by
    decide +kernel
  have hlt : c.toNat < 128 := by
    have hle : ∀ {last : Char}, c ≤ last → c.toNat ≤ last.toNat := fun h => h
    rcases h with ⟨-, h⟩ | ⟨-, h⟩ | ⟨-, h⟩ <;> exact Nat.lt_of_le_of_lt (hle h) (by decide)
  have hc := hascii c.toNat hlt
  rw [Char.ofNat_toNat] at hc
  exact hc h

/-- The digit of a character is that of its lower-case form. -/
theorem digit?_eq_some_iff : digit? c = some d ↔ IsHex c ∧ c.toLower = Text.hexDigit d := by
  by_cases hhex : IsHex c
  · obtain ⟨d', hdigit, hlower⟩ := digit?_of_isHex hhex
    have hinj : Text.hexDigit d' = Text.hexDigit d ↔ d' = d := by
      constructor
      · intro heq
        have hback := digit?_hexDigit d'
        rw [heq, digit?_hexDigit] at hback
        exact (Option.some.inj hback).symm
      · exact congrArg fun d : Fin 16 => Text.hexDigit d
    simp [hdigit, hlower, hinj, hhex]
  · simp [digit?_of_not_isHex hhex, hhex]

theorem mapM_digit?_eq_some_iff {digits : List (Fin 16)} : cs.mapM digit? = some digits ↔
    (∀ c ∈ cs, IsHex c) ∧ cs.map Char.toLower = digits.map fun d => Text.hexDigit d.val := by
  induction cs generalizing digits with
  | nil => cases digits <;> simp
  | cons c rest ih =>
    cases digits with
    | nil => simp [Option.bind_eq_some_iff]
    | cons d digits =>
      simp only [List.mapM_cons, bind, pure, Option.bind_eq_some_iff, Option.some.injEq,
        List.cons.injEq, digit?_eq_some_iff, ih, List.map_cons, List.forall_mem_cons]
      constructor
      · rintro ⟨d', ⟨hc, hlower⟩, digits', ⟨hrest, hmap⟩, rfl, rfl⟩
        exact ⟨⟨hc, hrest⟩, hlower, hmap⟩
      · rintro ⟨⟨hc, hrest⟩, hlower, hmap⟩
        exact ⟨d, ⟨hc, hlower⟩, digits, ⟨hrest, hmap⟩, rfl, rfl⟩

/-- The plain form is the digits of the UUID in any case. -/
theorem ofPlain?_eq_some_iff :
    ofPlain? cs = some u ↔ (∀ c ∈ cs, IsHex c) ∧ cs.map Char.toLower = u.plainChars := by
  have hdigits : ∀ digits, ofDigits? digits = some u ↔ digits = u.digits := by
    intro digits
    unfold ofDigits?
    split
    · next hlength => rw [Option.some.injEq, Uuid.mk.injEq]
    · next hlength =>
      have hne : digits ≠ u.digits := fun heq => hlength (heq ▸ u.length_eq)
      simp [hne]
  simp [ofPlain?, Option.bind_eq_some_iff, hdigits, mapM_digit?_eq_some_iff, plainChars]

/-! ### Forms -/

/-- Dropping the hyphens takes the groups together. -/
theorem ungroup?_eq_some_iff : ungroup? cs = some hex ↔ Grouped hex cs := by
  constructor
  · intro h
    unfold ungroup? at h
    split at h
    · next hform =>
      obtain ⟨hlength, hhyphens⟩ := hform
      have hhyphen : ∀ i ∈ [8, 13, 18, 23], cs.drop i = '-' :: cs.drop (i + 1) := by
        intro i hi
        have hget : cs[i]? = some '-' := by simpa using List.all_eq_true.mp hhyphens i hi
        obtain ⟨hlt, hchar⟩ := List.getElem?_eq_some_iff.mp hget
        rw [List.drop_eq_getElem_cons hlt, hchar]
      have hcut : ∀ n m, cs.drop n = (cs.drop n).take m ++ cs.drop (n + m) := by
        intro n m
        rw [← List.drop_drop, List.take_append_drop]
      refine ⟨cs.take 8, (cs.drop 9).take 4, (cs.drop 14).take 4, (cs.drop 19).take 4, cs.drop 24,
        by simp [hlength], by simp [hlength], by simp [hlength], by simp [hlength],
        by simp [hlength], (Option.some.inj h).symm, ?_⟩
      rw [← hhyphen 23 (by decide), ← hcut 19 4, ← hhyphen 18 (by decide), ← hcut 14 4,
        ← hhyphen 13 (by decide), ← hcut 9 4, ← hhyphen 8 (by decide), List.take_append_drop]
    · cases h
  · rintro ⟨a, b, c, d, e, ha, hb, hc, hd, he, rfl, rfl⟩
    exact ungroup?_groups ha hb hc hd he

theorem unbrace?_eq_some_iff :
    unbrace? cs = some inner ↔ cs = '\x7b' :: (inner ++ ['\x7d']) := by
  constructor
  · intro h
    unfold unbrace? at h
    split at h
    · rw [Text.beforeEnd?_eq_some_iff.mp h]
    · cases h
  · rintro rfl
    exact Text.beforeEnd?_eq_some_iff.mpr rfl

theorem afterUrn?_eq_some_iff : afterUrn? cs = some inner ↔
    ∃ mark : List Char, mark.map Char.toLower = "urn:uuid:".toList ∧ cs = mark ++ inner := by
  unfold afterUrn?
  constructor
  · intro h
    split at h
    · next hmark => exact ⟨cs.take 9, hmark, by rw [← Option.some.inj h, List.take_append_drop]⟩
    · cases h
  · rintro ⟨mark, hmark, rfl⟩
    have hlength : mark.length = 9 := by
      rw [← List.length_map Char.toLower, hmark]
      rfl
    rw [List.take_left' hlength, List.drop_left' hlength, if_pos hmark]

theorem Grouped.length (h : Grouped hex cs) : cs.length = 36 := by
  obtain ⟨a, b, c, d, e, ha, hb, hc, hd, he, -, rfl⟩ := h
  simp [ha, hb, hc, hd, he]

theorem ofHyphenated?_eq_some_iff :
    ofHyphenated? cs = some u ↔ ∃ hex, Grouped hex cs ∧ ofPlain? hex = some u := by
  simp only [ofHyphenated?, Option.bind_eq_some_iff, ungroup?_eq_some_iff]

theorem length_of_ofBraced? (h : (unbrace? cs).bind ofHyphenated? = some u) : cs.length = 38 := by
  obtain ⟨inner, hinner, hu⟩ := Option.bind_eq_some_iff.mp h
  rw [unbrace?_eq_some_iff.mp hinner]
  simp [length_of_ofHyphenated? hu]

/-- A text is read as a UUID if it carries the digits in one of the forms. -/
theorem ofText?_eq_some_iff :
    ofText? cs = some u ↔ ∃ hex, Form hex cs ∧ ofPlain? hex = some u := by
  simp only [ofText?, Option.orElse_eq_or, Option.or_eq_some_iff]
  constructor
  · rintro (hplain | ⟨-, hhyphenated | ⟨-, hbraced | ⟨-, hurn⟩⟩⟩)
    · exact ⟨cs, .plain, hplain⟩
    · obtain ⟨hex, hgrouped, hu⟩ := ofHyphenated?_eq_some_iff.mp hhyphenated
      exact ⟨hex, .hyphenated hgrouped, hu⟩
    · obtain ⟨inner, hinner, hu⟩ := Option.bind_eq_some_iff.mp hbraced
      obtain ⟨hex, hgrouped, hu⟩ := ofHyphenated?_eq_some_iff.mp hu
      exact ⟨hex, unbrace?_eq_some_iff.mp hinner ▸ .braced hgrouped, hu⟩
    · obtain ⟨inner, hinner, hu⟩ := Option.bind_eq_some_iff.mp hurn
      obtain ⟨hex, hgrouped, hu⟩ := ofHyphenated?_eq_some_iff.mp hu
      obtain ⟨mark, hmark, rfl⟩ := afterUrn?_eq_some_iff.mp hinner
      exact ⟨hex, .urn hmark hgrouped, hu⟩
  · rintro ⟨hex, hform, hu⟩
    -- Texts of another length are not read in the forms that are tried first.
    have hplain : ∀ {cs : List Char}, cs.length ≠ 32 → ofPlain? cs = none := fun hlength =>
      Option.eq_none_iff_forall_ne_some.mpr fun v hv => hlength (length_of_ofPlain? hv)
    have hhyphenated : ∀ {cs : List Char}, cs.length ≠ 36 → ofHyphenated? cs = none :=
      fun hlength =>
        Option.eq_none_iff_forall_ne_some.mpr fun v hv => hlength (length_of_ofHyphenated? hv)
    have hbraced : ∀ {cs : List Char}, cs.length ≠ 38 → (unbrace? cs).bind ofHyphenated? = none :=
      fun hlength =>
        Option.eq_none_iff_forall_ne_some.mpr fun v hv => hlength (length_of_ofBraced? hv)
    cases hform with
    | plain => exact .inl hu
    | hyphenated grouped =>
      have hlength := grouped.length
      exact .inr ⟨hplain (by omega), .inl (ofHyphenated?_eq_some_iff.mpr ⟨hex, grouped, hu⟩)⟩
    | @braced inner grouped =>
      have hlength : ('\x7b' :: (inner ++ ['\x7d'])).length = 38 := by simp [grouped.length]
      refine .inr ⟨hplain (by omega), .inr ⟨hhyphenated (by omega), .inl ?_⟩⟩
      exact Option.bind_eq_some_iff.mpr ⟨inner, unbrace?_eq_some_iff.mpr rfl,
        ofHyphenated?_eq_some_iff.mpr ⟨hex, grouped, hu⟩⟩
    | @urn mark inner mark_eq grouped =>
      have hlength : (mark ++ inner).length = 45 := by
        rw [List.length_append, ← List.length_map Char.toLower, mark_eq, grouped.length]
        rfl
      refine .inr ⟨hplain (by omega), .inr ⟨hhyphenated (by omega), .inr ⟨hbraced (by omega), ?_⟩⟩⟩
      exact Option.bind_eq_some_iff.mpr ⟨inner, afterUrn?_eq_some_iff.mpr ⟨mark, mark_eq, rfl⟩,
        ofHyphenated?_eq_some_iff.mpr ⟨hex, grouped, hu⟩⟩

/-- The forms have 32, 36, 38 and 45 characters. -/
theorem Carries.length (h : Carries s hex) : s.toList.length ∈ [32, 36, 38, 45] := by
  obtain ⟨hform, hlength, -⟩ := h
  generalize s.toList = cs at hform
  cases hform with
  | plain => simp [hlength]
  | hyphenated grouped => simp [grouped.length]
  | braced grouped => simp [grouped.length]
  | @urn mark inner mark_eq grouped =>
    have hmark : mark.length = 9 := by
      rw [← List.length_map Char.toLower, mark_eq]
      rfl
    simp [hmark, grouped.length]

theorem exists_digits (h : ∀ c ∈ cs, IsHex c) : ∃ digits : List (Fin 16),
    digits.length = cs.length ∧ cs.map Char.toLower = digits.map fun d => Text.hexDigit d.val := by
  induction cs with
  | nil => exact ⟨[], rfl, rfl⟩
  | cons c rest ih =>
    obtain ⟨hc, hrest⟩ := List.forall_mem_cons.mp h
    obtain ⟨d, -, hlower⟩ := digit?_of_isHex hc
    obtain ⟨digits, hlength, hmap⟩ := ih hrest
    exact ⟨d :: digits, by simp [hlength], by simp [hlower, hmap]⟩

/-- The digits that a text carries are those of a UUID. -/
theorem Carries.exists_uuid (h : Carries s hex) :
    ∃ u : Uuid, hex.map Char.toLower = u.plainChars := by
  obtain ⟨digits, hlength, hmap⟩ := exists_digits h.isHex
  exact ⟨⟨digits, hlength.trans h.length_eq⟩, hmap⟩

/-- A text is read as a UUID if it carries its digits in any case. -/
theorem ofText?_toList_eq_some_iff : ofText? s.toList = some u ↔
    ∃ hex, Carries s hex ∧ hex.map Char.toLower = u.plainChars := by
  rw [ofText?_eq_some_iff]
  refine exists_congr fun hex => ?_
  rw [ofPlain?_eq_some_iff]
  constructor
  · rintro ⟨hform, hhex, hmap⟩
    refine ⟨⟨hform, ?_, hhex⟩, hmap⟩
    rw [← List.length_map Char.toLower, hmap, plainChars_length]
  · rintro ⟨hcarries, hmap⟩
    exact ⟨hcarries.form, hcarries.isHex, hmap⟩

end Uuid

/-! ## Keys -/

namespace RecordId

variable {s : String} {u : Uuid} {code : LocaleCode} {hex : List Char}

theorem parse_eq_locale_iff : parse s = .ok (.locale code) ↔ code.text = s := by
  constructor
  · intro h
    unfold parse at h
    split at h
    · next code' hcode =>
      cases h
      unfold LocaleCode.ofText? at hcode
      split at hcode
      · cases hcode
        rfl
      · cases hcode
    · split at h <;> cases h
  · rintro rfl
    exact parse_text (.locale code)

/-- A text is the key of a UUID if it carries its digits in any case. -/
theorem parse_eq_uuid_iff :
    parse s = .ok (.uuid u) ↔ ∃ hex, Uuid.Carries s hex ∧ hex.map Char.toLower = u.plainChars := by
  unfold parse LocaleCode.ofText? Uuid.parse
  by_cases hlocale : isLocaleText s.toList = true
  · -- No form of a UUID is as short as a locale code.
    have hlength := LocaleCode.length_of_isLocaleText hlocale
    rw [dif_pos hlocale]
    refine ⟨nofun, fun ⟨hex, hcarries, _⟩ => ?_⟩
    have hforms := hcarries.length
    rw [hlength] at hforms
    exact absurd hforms (by decide)
  · rw [dif_neg hlocale, ← Uuid.ofText?_toList_eq_some_iff]
    cases Uuid.ofText? s.toList <;> simp

/-- A text spells a key just when it is a locale code or carries the digits of a UUID. -/
theorem exists_parse_iff :
    (∃ id, parse s = .ok id) ↔ LocaleCode.IsCode s ∨ ∃ hex, Uuid.Carries s hex := by
  constructor
  · rintro ⟨id, hid⟩
    cases id with
    | locale code =>
      rw [parse_eq_locale_iff] at hid
      exact .inl (LocaleCode.isLocaleText_iff.mp (hid ▸ code.valid))
    | uuid u =>
      obtain ⟨hex, hcarries, -⟩ := parse_eq_uuid_iff.mp hid
      exact .inr ⟨hex, hcarries⟩
  · rintro (hcode | ⟨hex, hcarries⟩)
    · exact ⟨.locale ⟨s, LocaleCode.isLocaleText_iff.mpr hcode⟩, parse_eq_locale_iff.mpr rfl⟩
    · obtain ⟨u, hu⟩ := hcarries.exists_uuid
      exact ⟨.uuid u, parse_eq_uuid_iff.mpr ⟨hex, hcarries, hu⟩⟩

/-- Two texts spell the same key just when they are the same locale code or carry the same
digits, upper and lower case being the same. -/
theorem exists_parse_both_iff {a b : String} :
    (∃ id, parse a = .ok id ∧ parse b = .ok id) ↔ LocaleCode.IsCode a ∧ a = b ∨
      ∃ hex hex', Uuid.Carries a hex ∧ Uuid.Carries b hex' ∧
        hex.map Char.toLower = hex'.map Char.toLower := by
  constructor
  · rintro ⟨id, ha, hb⟩
    cases id with
    | locale code =>
      rw [parse_eq_locale_iff] at ha hb
      subst ha
      exact .inl ⟨LocaleCode.isLocaleText_iff.mp code.valid, hb⟩
    | uuid u =>
      obtain ⟨hex, hcarries, hu⟩ := parse_eq_uuid_iff.mp ha
      obtain ⟨hex', hcarries', hu'⟩ := parse_eq_uuid_iff.mp hb
      exact .inr ⟨hex, hex', hcarries, hcarries', hu.trans hu'.symm⟩
  · rintro (⟨hcode, rfl⟩ | ⟨hex, hex', hcarries, hcarries', hsame⟩)
    · obtain ⟨id, hid⟩ := exists_parse_iff.mpr (.inl hcode)
      exact ⟨id, hid, hid⟩
    · obtain ⟨u, hu⟩ := hcarries.exists_uuid
      exact ⟨.uuid u, parse_eq_uuid_iff.mpr ⟨hex, hcarries, hu⟩,
        parse_eq_uuid_iff.mpr ⟨hex', hcarries', hsame.symm.trans hu⟩⟩

/-- The texts that spell keys are the locale codes and the texts that carry the digits of a UUID
in one of four forms; a key is spelled by its own text; and two texts spell the same key just when
they are the same locale code or carry the same digits, upper and lower case being the same. -/
theorem parse_spellings :
    (∀ s, (∃ id, parse s = .ok id) ↔ LocaleCode.IsCode s ∨ ∃ hex, Uuid.Carries s hex) ∧
    (∀ id : RecordId, parse id.text = .ok id) ∧
    ∀ a b, (∃ id, parse a = .ok id ∧ parse b = .ok id) ↔ LocaleCode.IsCode a ∧ a = b ∨
      ∃ hex hex', Uuid.Carries a hex ∧ Uuid.Carries b hex' ∧
        hex.map Char.toLower = hex'.map Char.toLower :=
  ⟨fun _ => exists_parse_iff, parse_text, fun _ _ => exists_parse_both_iff⟩

end RecordId
end Phrasebook
