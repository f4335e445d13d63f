import GoModules.Text.Veiled

/-!
# Quoted forms

A text or a character as it is shown inside a message: between quotes, with the quote, the backslash
and everything that would not show written as an escape. Escapes by number are in lower-case
hexadecimal without padding.
-/

namespace GoModules.Text

/-- A character inside quotes of the given kind. -/
def shown (quote c : Char) : Text :=
  if c = '\x00' then ['\\', '0']
  else if c = '\t' then ['\\', 't']
  else if c = '\n' then ['\\', 'n']
  else if c = '\r' then ['\\', 'r']
  else if c = quote ∨ c = '\\' then ['\\', c]
  else if isVeiled c then ['\\', 'u', '\x7b'] ++ Nat.toDigits 16 c.toNat ++ ['\x7d']
  else [c]

/-- A text between double quotes. -/
def quoted (s : Text) : Text :=
  '"' :: s.flatMap (shown '"') ++ ['"']

/-- A character between single quotes. -/
def quotedChar (c : Char) : Text :=
  '\'' :: shown '\'' c ++ ['\'']

example : quoted "a\"'\t".toList = "\"a\\\"'\\t\"".toList := by decide +kernel

example : quotedChar '\'' = "'\\''".toList := by decide

end GoModules.Text
