import Mathlib.Data.List.Induction
import Mathlib.Logic.Basic
import Phrasebook.Text.Basic

/-!
# Decimal digits

A number padded to a width that holds it has exactly that many digits, and reading
them gives the number back.

## Main definitions

* `Text.digits`: the last decimal digits of a number
-/
namespace Phrasebook.Text

/-- The last `width` decimal digits of a number. -/
def digits : Nat → Nat → List Char
  | 0, _ => []
  | width + 1, n => digits width (n / 10) ++ [Nat.digitChar (n % 10)]

@[simp] theorem length_digits (width n : Nat) : (digits width n).length = width := by
  induction width generalizing n with
  | zero => rfl
  | succ width ih => simp [digits, ih]

theorem isDigit_digitChar {d : Nat} (h : d < 10) : isDigit (Nat.digitChar d) = true := by
  have hall : ∀ d < 10, isDigit (Nat.digitChar d) = true := by decide
  exact hall d h

theorem digitValue_digitChar {d : Nat} (h : d < 10) : digitValue (Nat.digitChar d) = d := by
  have hall : ∀ d < 10, digitValue (Nat.digitChar d) = d := by decide
  exact hall d h

theorem toNat_of_isDigit {c : Char} (h : isDigit c = true) : 48 ≤ c.toNat ∧ c.toNat ≤ 57 := by
  have hrange : '0' ≤ c ∧ c ≤ '9' := by simpa [isDigit] using h
  exact hrange

theorem digitValue_of_isDigit {c : Char} (h : isDigit c = true) : digitValue c = c.toNat - 48 := by
  rw [digitValue, if_pos h]
  rfl

theorem digitValue_lt {c : Char} (h : isDigit c = true) : digitValue c < 10 := by
  have hrange := toNat_of_isDigit h
  rw [digitValue_of_isDigit h]
  omega

theorem digitChar_digitValue {c : Char} (h : isDigit c = true) :
    Nat.digitChar (digitValue c) = c := by
  have hrange := toNat_of_isDigit h
  have hall : ∀ n < 10, Nat.digitChar n = Char.ofNat (n + 48) := by decide
  rw [digitValue_of_isDigit h, hall _ (by omega), Nat.sub_add_cancel hrange.1, Char.ofNat_toNat]

theorem isDigit_of_mem_digits {width n : Nat} {c : Char} (h : c ∈ digits width n) :
    isDigit c = true := by
  induction width generalizing n with
  | zero => cases h
  | succ width ih =>
    rcases List.mem_append.mp h with h | h
    · exact ih h
    · rw [List.mem_singleton.mp h]
      exact isDigit_digitChar (Nat.mod_lt n (by decide))

theorem natOfDigits_append (cs : List Char) (c : Char) :
    natOfDigits (cs ++ [c]) = natOfDigits cs * 10 + digitValue c := by
  simp [natOfDigits]

/-- Digits after others count as many places less. -/
theorem natOfDigits_append_digits (cs ds : List Char) :
    natOfDigits (cs ++ ds) = natOfDigits cs * Nat.pow 10 ds.length + natOfDigits ds := by
  induction ds using List.reverseRecOn with
  | nil => simp [natOfDigits]
  | append_singleton ds d ih =>
    have hpow : Nat.pow 10 (ds.length + 1) = Nat.pow 10 ds.length * 10 := rfl
    rw [← List.append_assoc, natOfDigits_append, ih, natOfDigits_append, List.length_append,
      List.length_singleton, hpow, ← Nat.mul_assoc]
    omega

theorem natOfDigits_lt (cs : List Char) (h : ∀ c ∈ cs, isDigit c = true) :
    natOfDigits cs < Nat.pow 10 cs.length := by
  induction cs using List.reverseRecOn with
  | nil => decide
  | append_singleton cs c ih =>
    have hc := digitValue_lt (h c (by simp))
    have hcs := ih fun d hd => h d (by simp [hd])
    rw [natOfDigits_append, List.length_append, List.length_singleton]
    show _ < Nat.pow 10 cs.length * 10
    omega

/-- The first digits of some, filled with zeros up to a width, are the digits read as decimals and
cut off after that many places. -/
theorem natOfDigits_take {ds : List Char} (hdigits : ∀ c ∈ ds, isDigit c = true) (width : Nat) :
    natOfDigits (ds.take width) * Nat.pow 10 (width - (ds.take width).length) =
      natOfDigits ds * Nat.pow 10 width / Nat.pow 10 ds.length := by
  have hpos : ∀ n, 0 < Nat.pow 10 n := fun n => Nat.pow_pos (by decide)
  rcases Nat.le_total ds.length width with hshort | hlong
  · have hpow : Nat.pow 10 width = Nat.pow 10 (width - ds.length) * Nat.pow 10 ds.length := by
      calc Nat.pow 10 width = Nat.pow 10 (width - ds.length + ds.length) := by
            rw [Nat.sub_add_cancel hshort]
        _ = Nat.pow 10 (width - ds.length) * Nat.pow 10 ds.length := Nat.pow_add 10 _ _
    rw [List.take_of_length_le hshort, hpow, ← Nat.mul_assoc, Nat.mul_div_cancel _ (hpos _)]
  · have hlength : (ds.take width).length = width := by simp [hlong]
    have hrest : natOfDigits (ds.drop width) < Nat.pow 10 (ds.drop width).length :=
      natOfDigits_lt _ fun c hc => hdigits c (List.mem_of_mem_drop hc)
    have hpow : Nat.pow 10 ds.length = Nat.pow 10 (ds.drop width).length * Nat.pow 10 width := by
      calc Nat.pow 10 ds.length = Nat.pow 10 ((ds.drop width).length + width) := by
            rw [List.length_drop, Nat.sub_add_cancel hlong]
        _ = Nat.pow 10 (ds.drop width).length * Nat.pow 10 width := Nat.pow_add 10 _ _
    have hsplit : natOfDigits ds = natOfDigits (ds.take width) *
        Nat.pow 10 (ds.drop width).length + natOfDigits (ds.drop width) := by
      rw [← natOfDigits_append_digits, List.take_append_drop]
    rw [hlength, hpow, Nat.mul_div_mul_right _ _ (hpos _), hsplit, Nat.add_comm,
      Nat.add_mul_div_right _ _ (hpos _), Nat.div_eq_of_lt hrest, Nat.zero_add, Nat.sub_self]
    exact Nat.mul_one _

/-- Digits denote the number they are taken from, up to the width. -/
theorem natOfDigits_digits {width n : Nat} (h : n < Nat.pow 10 width) :
    natOfDigits (digits width n) = n := by
  induction width generalizing n with
  | zero => simpa [digits, natOfDigits] using (Nat.lt_one_iff.mp h).symm
  | succ width ih =>
    have hlt : n / 10 < Nat.pow 10 width := by
      have hten : n < Nat.pow 10 width * 10 := h
      omega
    rw [digits, natOfDigits_append, ih hlt, digitValue_digitChar (Nat.mod_lt n (by decide))]
    omega

theorem digits_two (n : Nat) :
    digits 2 n = [Nat.digitChar (n / 10 % 10), Nat.digitChar (n % 10)] := rfl

theorem digits_four (n : Nat) : digits 4 n = digits 2 (n / 100) ++ digits 2 (n % 100) := by
  have hhundreds : n / 10 / 10 = n / 100 := by omega
  have htens : n % 100 / 10 % 10 = n / 10 % 10 := by omega
  have hones : n % 100 % 10 = n % 10 := by omega
  simp [digits, hhundreds, htens, hones]

theorem digits_zero (width : Nat) : digits width 0 = List.replicate width '0' := by
  induction width with
  | zero => rfl
  | succ width ih =>
    rw [digits, Nat.zero_div, ih, List.replicate_succ']
    rfl

/-- Padding to a width that holds a number gives its digits. -/
theorem padNat_toList (width : Nat) {n : Nat} (hpos : 0 < width) (h : n < Nat.pow 10 width) :
    (padNat width n).toList = digits width n := by
  have hpad : ∀ width n, 0 < width → n < Nat.pow 10 width →
      List.replicate (width - (Nat.toDigits 10 n).length) '0' ++ Nat.toDigits 10 n =
        digits width n := by
    intro width
    induction width with
    | zero => intro n hpos; cases hpos
    | succ width ih =>
      intro n _ hn
      rw [Nat.toDigits_eq_if (by decide)]
      split
      · next hsmall =>
        have hdiv : n / 10 = 0 := by omega
        have hmod : n % 10 = n := by omega
        rw [digits, hdiv, hmod, digits_zero]
        rfl
      · next hlarge =>
        have hwidth : 0 < width := by
          rcases Nat.eq_zero_or_pos width with rfl | hpos
          · exact absurd hn hlarge
          · exact hpos
        have hlt : n / 10 < Nat.pow 10 width := by
          have hten : n < Nat.pow 10 width * 10 := hn
          omega
        rw [digits, ← ih (n / 10) hwidth hlt, List.length_append, List.length_singleton,
          Nat.succ_sub_succ, List.append_assoc]
  simp [padNat, hpad width n hpos h]

/-- A padded number consists of digits. -/
theorem isDigit_of_mem_padNat {width n : Nat} {c : Char} (h : c ∈ (padNat width n).toList) :
    isDigit c = true := by
  simp only [padNat, String.toList_ofList, List.mem_append, List.mem_replicate] at h
  rcases h with ⟨-, rfl⟩ | h
  · rfl
  · have hrange := Nat.isDigit_of_mem_toDigits (by decide) (by decide) h
    simp only [Char.isDigit, Bool.and_eq_true, decide_eq_true_eq] at hrange
    simp only [isDigit, Bool.and_eq_true, decide_eq_true_eq]
    exact hrange

theorem padNat_ne_nil (width n : Nat) : (padNat width n).toList ≠ [] := by
  simp [padNat]

end Phrasebook.Text
