/-!
# Digits and letters

The digits and the letters of ASCII by their places.  A letter in lower case stands 32 places behind its capital, and
all other characters are their own capitals.
-/

namespace LayeredConfig.Text

variable {c : Char}

private theorem isAlpha_iff : c.isAlpha = true ↔ 65 ≤ c.toNat ∧ c.toNat ≤ 90 ∨ 97 ≤ c.toNat ∧ c.toNat ≤ 122 := by
  have hletter : c.isAlpha = (decide (65 ≤ c.val ∧ c.val ≤ 90) || (decide (97 ≤ c.val) && decide (c.val ≤ 122))) := rfl
  simp only [hletter, Bool.or_eq_true, Bool.and_eq_true, decide_eq_true_eq, UInt32.le_iff_toNat_le]
  rfl

theorem isDigit_iff : c.isDigit = true ↔ 48 ≤ c.toNat ∧ c.toNat ≤ 57 := by
  simp only [Char.isDigit, Bool.and_eq_true, decide_eq_true_eq, ge_iff_le, UInt32.le_iff_toNat_le]
  rfl

theorem not_isAlpha_of_isDigit (h : c.isDigit = true) : c.isAlpha = false := by
  rw [isDigit_iff] at h
  rw [← Bool.not_eq_true, isAlpha_iff]
  omega

theorem toNat_toUpper (h : 97 ≤ c.toNat ∧ c.toNat ≤ 122) : c.toUpper.toNat = c.toNat - 32 := by
  have hrange : 'a'.val ≤ c.val ∧ c.val ≤ 'z'.val := ⟨UInt32.le_iff_toNat_le.2 h.1, UInt32.le_iff_toNat_le.2 h.2⟩
  unfold Char.toUpper
  rw [dif_pos hrange]
  show (c.val + ('A'.val - 'a'.val)).toNat = c.val.toNat - 32
  -- The distance between the alphabets wraps around.
  have hdistance : ('A'.val - 'a'.val).toNat = 2 ^ (32 : Nat) - 32 := rfl
  rw [UInt32.toNat_add, hdistance]
  have hchar : c.val.toNat = c.toNat := rfl
  omega

theorem toUpper_of_not_lower (h : ¬ (97 ≤ c.toNat ∧ c.toNat ≤ 122)) : c.toUpper = c := by
  unfold Char.toUpper
  rw [dif_neg]
  rintro ⟨hlow, hhigh⟩
  exact h ⟨UInt32.le_iff_toNat_le.1 hlow, UInt32.le_iff_toNat_le.1 hhigh⟩

theorem toUpper_of_not_isAlpha (h : c.isAlpha = false) : c.toUpper = c := by
  apply toUpper_of_not_lower
  intro hlower
  rw [isAlpha_iff.2 (.inr hlower)] at h
  nomatch h

theorem isAlpha_toUpper (c : Char) : c.toUpper.isAlpha = c.isAlpha := by
  by_cases h : 97 ≤ c.toNat ∧ c.toNat ≤ 122
  · rw [Bool.eq_iff_iff, isAlpha_iff, isAlpha_iff, toNat_toUpper h]
    omega
  · rw [toUpper_of_not_lower h]

theorem eq_or_eq_of_toUpper (h : c.toUpper = 'T') : c = 'T' ∨ c = 't' := by
  by_cases hlower : 97 ≤ c.toNat ∧ c.toNat ≤ 122
  · refine .inr (Char.toNat_inj.1 ?_)
    have hvalue := toNat_toUpper hlower
    have hcapital : 'T'.toNat = 84 := rfl
    have hsmall : 't'.toNat = 116 := rfl
    rw [h] at hvalue
    omega
  · exact .inl ((toUpper_of_not_lower hlower).symm.trans h)

end LayeredConfig.Text
