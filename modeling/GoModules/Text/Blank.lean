import GoModules.Text.Ranges

/-!
# Blanks

The characters with the Unicode property `White_Space`, and texts without any at their ends.
-/

namespace GoModules.Text

/-- The code points with the property `White_Space`. -/
def blanks : Ranges :=
  [(0x09, 0x0d), (0x20, 0x20), (0x85, 0x85), (0xa0, 0xa0), (0x1680, 0x1680), (0x2000, 0x200a),
   (0x2028, 0x2029), (0x202f, 0x202f), (0x205f, 0x205f), (0x3000, 0x3000)]

/-- Whether a character is white space. -/
def isBlank (c : Char) : Bool :=
  blanks.holds c

example : isBlank '\n' ∧ isBlank '\u00a0' ∧ ! isBlank '\u200b' := by decide

/-- A text without the blanks at its end. -/
def trimEnd (s : Text) : Text :=
  (s.reverse.dropWhile isBlank).reverse

/-- A text without the blanks at its ends. -/
def trim (s : Text) : Text :=
  trimEnd (s.dropWhile isBlank)

example : trim " a b\t".toList = "a b".toList := by decide

end GoModules.Text
