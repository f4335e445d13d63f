import GoModules.Text.Quoted

/-!
# Faults of module paths and versions

What can be wrong with a module path, or with a version as the name of a directory.
-/

namespace GoModules

namespace ModulePath

/-- What is wrong with a path or a version. -/
inductive Fault
  | empty
  | leadingDash
  | doubleSlash
  | trailingSlash
  | emptyElement
  | onlyDots (element : Text)
  | leadingDot
  | trailingDot
  | invalidChar (c : Char)
  | reservedName (name : Text)
  | shortName
  | missingDot
  | invalidFirstChar (c : Char)
  | invalidMajor
  | escapeMark
  | nonAscii
deriving DecidableEq, Repr

def Fault.message : Fault → Text
  | .empty => "empty string".toList
  | .leadingDash => "leading dash".toList
  | .doubleSlash => "double slash".toList
  | .trailingSlash => "trailing slash".toList
  | .emptyElement => "empty path element".toList
  | .onlyDots element => "invalid path element ".toList ++ Text.quoted element
  | .leadingDot => "leading dot in path element".toList
  | .trailingDot => "trailing dot in path element".toList
  | .invalidChar c => "invalid char ".toList ++ Text.quotedChar c
  | .reservedName name =>
      Text.quoted name ++ " disallowed as path element component on Windows".toList
  | .shortName => "trailing tilde and digits in path element".toList
  | .missingDot => "missing dot in first path element".toList
  | .invalidFirstChar c =>
      "invalid char ".toList ++ Text.quotedChar c ++ " in first path element".toList
  | .invalidMajor => "invalid version".toList
  | .escapeMark => "disallowed version string".toList
  | .nonAscii => "non-ASCII character".toList

end ModulePath

open ModulePath (Fault)

/-- Why a module has no name in the cache. -/
inductive EscapeError
  | invalidPath (path : Text) (fault : Fault)
  | invalidVersion (version : Text) (fault : Fault)
deriving DecidableEq, Repr

def EscapeError.message : EscapeError → Text
  | .invalidPath path fault =>
      "malformed module path ".toList ++ Text.quoted path ++ ": ".toList ++ fault.message
  | .invalidVersion version fault =>
      "malformed module version ".toList ++ Text.quoted version ++ ": ".toList ++ fault.message

end GoModules
