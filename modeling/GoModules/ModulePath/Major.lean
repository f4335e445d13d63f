import GoModules.Text.Basic

/-!
# Major-version suffixes

From its second major version on, the path of a module ends in `/v2`, `/v3` and so on. Under
`gopkg.in/` every path ends in `.v0`, `.v1` and so on, perhaps followed by `-unstable`.
-/

namespace GoModules.ModulePath

/-- Cuts off the longest suffix of characters of a kind. -/
def cutSuffix (p : Char → Bool) (s : Text) : Text × Text :=
  ((s.reverse.dropWhile p).reverse, (s.reverse.takeWhile p).reverse)

@[simp] theorem cutSuffix_append (p : Char → Bool) (s : Text) :
    (cutSuffix p s).1 ++ (cutSuffix p s).2 = s := by
  rw [cutSuffix, ← List.reverse_append, List.takeWhile_append_dropWhile, List.reverse_reverse]

/-- The paths of this host carry their major version after a dot. -/
def dottedHost : Text :=
  "gopkg.in/".toList

/-- The mark that a path of the dotted host may have after its major version. -/
def unstableMark : Text :=
  "-unstable".toList

/-- A text without a final `-unstable`, and that mark if it was there. -/
def cutUnstable (s : Text) : Text × Text :=
  match unstableMark.isSuffixOf? s with
  | some start => (start, unstableMark)
  | none => (s, [])

/-- Splits a path whose major version stands after a dot. Versions other than `0` have no leading
zero, and the mark after `.v` counts as its first character if there is no digit. -/
def splitDotted? (path : Text) : Option (Text × Text) :=
  let (start, unstable) := cutUnstable path
  let (stem, digits) := cutSuffix Char.isDigit start
  match ".v".toList.isSuffixOf? stem with
  | none => none
  | some front =>
      let version := digits ++ unstable
      if version = [] ∨ (version.head? = some '0' ∧ version ≠ ['0']) then none
      else some (front, '.' :: 'v' :: version)

/-- Splits a module path into its front and its major-version suffix, which is empty for the first
major versions. There is no split if the path ends in a suffix that is malformed, such as `/v1`,
`/v02` or `/v2.1`. -/
def splitMajor? (path : Text) : Option (Text × Text) :=
  if dottedHost.isPrefixOf path then splitDotted? path
  else
    let (stem, number) := cutSuffix (fun c => c.isDigit || c == '.') path
    match number, "/v".toList.isSuffixOf? stem with
    | [], _ => some (path, [])
    | _, none => some (path, [])
    | number, some front =>
        if '.' ∈ number ∨ number.head? = some '0' ∨ number = ['1'] then none
        else some (front, '/' :: 'v' :: number)

example : splitMajor? "example.com/m/v2".toList =
    some ("example.com/m".toList, "/v2".toList) := by decide

example : splitMajor? "gopkg.in/yaml.v3".toList =
    some ("gopkg.in/yaml".toList, ".v3".toList) := by decide

example : splitMajor? "example.com/m/v1".toList = none := by decide

end GoModules.ModulePath
