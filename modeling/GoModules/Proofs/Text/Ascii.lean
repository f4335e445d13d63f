/-!
# Letters of ASCII

The classes of ASCII letters by their code points.
-/

namespace GoModules.Text

theorem isUpper_iff_toNat {c : Char} : c.isUpper ↔ 65 ≤ c.toNat ∧ c.toNat ≤ 90 := by
  have h : c.isUpper = decide (c.val ≥ 65 ∧ c.val ≤ 90) := rfl
  simp [h, UInt32.le_iff_toNat_le, ← Char.toNat_val]

theorem isLower_iff_toNat {c : Char} : c.isLower ↔ 97 ≤ c.toNat ∧ c.toNat ≤ 122 := by
  have h : c.isLower = (decide (c.val ≥ 97) && decide (c.val ≤ 122)) := rfl
  simp [h, UInt32.le_iff_toNat_le, ← Char.toNat_val]

theorem toNat_lt_of_isAlphanum {c : Char} (h : c.isAlphanum) : c.toNat < 0x80 := by
  have hclasses : (c.isUpper || c.isLower || c.isDigit) = true := h
  simp only [Bool.or_eq_true] at hclasses
  rcases hclasses with (hupper | hlower) | hdigit
  · have hbounds := isUpper_iff_toNat.mp hupper
    omega
  · have hbounds := isLower_iff_toNat.mp hlower
    omega
  · have hbound := (Char.isDigit_iff_toNat.mp hdigit).2
    simp only [Char.reduceToNat] at hbound
    omega

theorem isDigit_eq_false_of_isLower {c : Char} (h : c.isLower) : c.isDigit = false := by
  rw [Bool.eq_false_iff]
  intro hdigit
  have hlower := isLower_iff_toNat.mp h
  have hbounds := (Char.isDigit_iff_toNat.mp hdigit).2
  simp only [Char.reduceToNat] at hbounds
  omega

end GoModules.Text
