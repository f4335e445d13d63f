/-!
# Texts

Every text of this library is the list of its characters, so that cutting, joining and comparing
texts are the operations on lists and their lemmas apply as they stand.
-/

namespace GoModules

/-- A text, character by character. -/
abbrev Text := List Char

namespace Text

/-- The length of the UTF-8 form of a text. -/
def byteLength : Text → Nat
  | [] => 0
  | c :: s => c.utf8Size + byteLength s

@[simp] theorem byteLength_nil : byteLength [] = 0 := rfl

@[simp] theorem byteLength_cons (c : Char) (s : Text) :
    byteLength (c :: s) = c.utf8Size + byteLength s := rfl

@[simp] theorem byteLength_append (s t : Text) :
    byteLength (s ++ t) = byteLength s + byteLength t := by
  induction s with
  | nil => simp
  | cons c s ih => simp [ih, Nat.add_assoc]

def decimal (n : Nat) : Text :=
  Nat.toDigits 10 n

/-- Reads a decimal number that a machine word holds and that has no superfluous leading zero. -/
def number? (s : Text) : Option Nat :=
  if s ≠ [] ∧ s.all Char.isDigit ∧ (s.head? = some '0' → s = ['0']) ∧
      Nat.ofDigitChars 10 s 0 < UInt64.size then
    some (Nat.ofDigitChars 10 s 0)
  else
    none

/-- Cuts a text at the first character of a kind; the second part starts with that character. -/
def cutAt (p : Char → Bool) (s : Text) : Text × Text :=
  (s.takeWhile (! p ·), s.dropWhile (! p ·))

@[simp] theorem cutAt_append (p : Char → Bool) (s : Text) :
    (cutAt p s).1 ++ (cutAt p s).2 = s :=
  List.takeWhile_append_dropWhile

/-- Joins texts, one line each. -/
def lines (parts : List Text) : Text :=
  ['\n'].intercalate parts

end Text

end GoModules
