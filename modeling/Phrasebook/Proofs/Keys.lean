import Mathlib.Logic.Basic
import Phrasebook.Identity.RecordId
import Phrasebook.Validation.Format

/-!
# Keys and their texts

A key is read back from its own text, so keys with the same text are the same. A
text in the hyphenated form of a UUID spells that UUID and nothing else.
-/
namespace Phrasebook

namespace Uuid

theorem plainChars_length (u : Uuid) : u.plainChars.length = 32 := by
  simp [plainChars, u.length_eq]

theorem digit?_hexDigit (d : Fin 16) : digit? (Text.hexDigit d.val) = some d := by
  revert d
  decide

theorem ofPlain?_plainChars (u : Uuid) : ofPlain? u.plainChars = some u := by
  have hdigits : ∀ ds : List (Fin 16),
      (ds.map fun d => Text.hexDigit d.val).mapM digit? = some ds := by
    intro ds
    induction ds with
    | nil => rfl
    | cons d rest ih => simp [digit?_hexDigit, ih]
  simp [ofPlain?, plainChars, hdigits, ofDigits?, u.length_eq]

/-- Five groups separated by hyphens are the hyphenated form. -/
theorem ungroup?_groups {a b c d e : List Char} (ha : a.length = 8) (hb : b.length = 4)
    (hc : c.length = 4) (hd : d.length = 4) (he : e.length = 12) :
    ungroup? (a ++ '-' :: (b ++ '-' :: (c ++ '-' :: (d ++ '-' :: e)))) =
      some (a ++ b ++ c ++ d ++ e) := by
  simp [ungroup?, List.getElem?_append, List.drop_append, ha, hb, hc, hd, he,
    List.drop_of_length_le]

theorem ungroup?_group {cs : List Char} (h : cs.length = 32) : ungroup? (group cs) = some cs := by
  have hcut : ∀ n m, (cs.drop n).take m ++ cs.drop (n + m) = cs.drop n := by
    intro n m
    rw [← List.drop_drop, List.take_append_drop]
  rw [group, ungroup?_groups (by simp [h]) (by simp [h]) (by simp [h]) (by simp [h]) (by simp [h])]
  simp only [List.append_assoc, hcut 16 4, hcut 12 4, hcut 8 4, List.take_append_drop]

theorem ofHyphenated?_text (u : Uuid) : ofHyphenated? u.text.toList = some u := by
  simp [ofHyphenated?, text, ungroup?_group u.plainChars_length, ofPlain?_plainChars]

theorem length_of_ofHyphenated? {cs : List Char} {u : Uuid} (h : ofHyphenated? cs = some u) :
    cs.length = 36 := by
  obtain ⟨plain, hplain, -⟩ := Option.bind_eq_some_iff.mp h
  rw [ungroup?] at hplain
  split at hplain
  · next hform => exact hform.1
  · cases hplain

theorem length_of_ofPlain? {cs : List Char} {u : Uuid} (h : ofPlain? cs = some u) :
    cs.length = 32 := by
  obtain ⟨digits, hdigits, hu⟩ := Option.bind_eq_some_iff.mp h
  have hlength : ∀ (cs : List Char) (ds : List (Fin 16)), cs.mapM digit? = some ds →
      cs.length = ds.length := by
    intro cs
    induction cs with
    | nil => simp
    | cons c rest ih =>
      intro ds hds
      simp only [List.mapM_cons, bind, Option.bind_eq_some_iff] at hds
      obtain ⟨d, -, tail, htail, hcons⟩ := hds
      cases hcons
      simp [ih tail htail]
  rw [ofDigits?] at hu
  split at hu
  · next h32 => rw [hlength cs digits hdigits, h32]
  · cases hu

/-- The hyphenated form is read before any other form could match. -/
theorem ofText?_of_hyphenated {cs : List Char} {u : Uuid} (h : ofHyphenated? cs = some u) :
    ofText? cs = some u := by
  have hplain : ofPlain? cs = none := by
    refine Option.eq_none_iff_forall_ne_some.mpr fun v hv => ?_
    have := length_of_ofPlain? hv
    have := length_of_ofHyphenated? h
    omega
  simp [ofText?, hplain, h]

end Uuid

namespace LocaleCode

theorem ofText?_text (code : LocaleCode) : ofText? code.text = some code := by
  simp [ofText?, code.valid]

theorem length_of_isLocaleText {cs : List Char} (h : isLocaleText cs = true) : cs.length = 5 := by
  unfold isLocaleText at h
  split at h
  · rfl
  · cases h

end LocaleCode

namespace RecordId

/-- A text in the hyphenated form of a UUID is the key of that UUID. -/
theorem parse_of_hyphenated {s : String} {u : Uuid} (h : Uuid.ofHyphenated? s.toList = some u) :
    parse s = .ok (.uuid u) := by
  have hlocale : LocaleCode.ofText? s = none := by
    rw [LocaleCode.ofText?, dif_neg]
    intro hlocale
    have := LocaleCode.length_of_isLocaleText hlocale
    have := Uuid.length_of_ofHyphenated? h
    omega
  simp [parse, hlocale, Uuid.parse, Uuid.ofText?_of_hyphenated h]

/-- A key is read back from its text. -/
@[simp] theorem parse_text (id : RecordId) : parse id.text = .ok id := by
  cases id with
  | uuid u => exact parse_of_hyphenated (Uuid.ofHyphenated?_text u)
  | locale code => simp [parse, text, LocaleCode.ofText?_text]

theorem text_injective {a b : RecordId} (h : a.text = b.text) : a = b := by
  have hparse : parse a.text = parse b.text := by rw [h]
  simpa using hparse

@[simp] theorem text_inj {a b : RecordId} : a.text = b.text ↔ a = b :=
  ⟨text_injective, fun h => h ▸ rfl⟩

theorem parse_of_isUuid {s : String} (h : Format.isUuid s = true) :
    ∃ u, parse s = .ok (.uuid u) := by
  obtain ⟨u, hu⟩ := Option.isSome_iff_exists.mp h
  exact ⟨u, parse_of_hyphenated hu⟩

end RecordId

theorem Format.isUuid_text (u : Uuid) : isUuid u.text = true := by
  simp [isUuid, Uuid.ofHyphenated?_text]

end Phrasebook
