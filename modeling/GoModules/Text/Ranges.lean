import GoModules.Text.Basic

/-!
# Character classes by ranges

A class of characters is a list of closed ranges of code points.
-/

namespace GoModules.Text

/-- Closed ranges of code points. -/
abbrev Ranges := List (Nat × Nat)

/-- Whether one of the ranges holds the code point of `c`. -/
def Ranges.holds (ranges : Ranges) (c : Char) : Bool :=
  ranges.any fun range => range.1 ≤ c.toNat && c.toNat ≤ range.2

theorem Ranges.holds_eq_true_iff {ranges : Ranges} {c : Char} :
    ranges.holds c = true ↔
      ∃ range ∈ ranges, range.1 ≤ c.toNat ∧ c.toNat ≤ range.2 := by
  simp [Ranges.holds]

end GoModules.Text
