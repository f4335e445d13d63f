import GoModules.Text.Basic

/-!
# Language releases and toolchains

The texts that name a release of the language, such as `1.21`, `1.22.0` or `1.23rc1`, and a
toolchain, such as `go1.22.1` or `default`.
-/

namespace GoModules.Release

/-- A number without leading zeros. -/
def isNumber (s : Text) : Bool :=
  s ≠ [] && s.all Char.isDigit && (s.head? != some '0' || s == ['0'])

/-- The end of a release: nothing, or lower-case letters followed by digits. -/
def isSuffix (s : Text) : Bool :=
  s == [] ||
    let (letters, digits) := Text.cutAt (! Char.isLower ·) s
    letters ≠ [] && digits ≠ [] && digits.all Char.isDigit

/-- What follows the second number of a release: a third one or none, and the end. -/
def isTail : Text → Bool
  | '.' :: s =>
      let (patch, suffix) := Text.cutAt (! Char.isDigit ·) s
      isNumber patch && isSuffix suffix
  | s => isSuffix s

/-- A release of the language: two or three numbers, the first one positive, and perhaps a suffix
such as `rc1`. -/
def isLanguage (s : Text) : Bool :=
  let (major, rest) := Text.cutAt (! Char.isDigit ·) s
  isNumber major && major ≠ ['0'] &&
    match rest with
    | '.' :: rest =>
        let (minor, tail) := Text.cutAt (! Char.isDigit ·) rest
        isNumber minor && isTail tail
    | _ => false

/-- A toolchain: `default`, `go1`, or anything that begins with `go1.`. -/
def isToolchain (s : Text) : Bool :=
  s == "default".toList || s == "go1".toList || "go1.".toList.isPrefixOf s

example : isLanguage "1.22.0".toList ∧ isLanguage "1.23rc1".toList := by decide

example : ! isLanguage "1.021".toList := by decide

end GoModules.Release
