import GoModules.ModulePath.Check

/-!
# Names in the module cache

The cache may lie on a file system that does not tell upper from lower case, so every upper-case
letter is written as `!` and the lower-case letter. Neither a path nor a version that passes its
check holds a `!` itself.
-/

namespace GoModules.ModulePath

/-- One character of an escaped name. -/
def escapeChar (c : Char) : Text :=
  if c.isUpper then ['!', c.toLower] else [c]

/-- Writes every upper-case letter as `!` and its lower-case form. -/
def escape (s : Text) : Text :=
  s.flatMap escapeChar

@[simp] theorem escape_nil : escape [] = [] := rfl

@[simp] theorem escape_cons (c : Char) (s : Text) :
    escape (c :: s) = escapeChar c ++ escape s := rfl

@[simp] theorem escape_append (s t : Text) : escape (s ++ t) = escape s ++ escape t :=
  List.flatMap_append

def escapePath (path : Text) : Except EscapeError Text := do
  (check path).mapError (.invalidPath path)
  return escape path

def escapeVersion (version : Text) : Except EscapeError Text := do
  (checkVersion version).mapError (.invalidVersion version)
  if version.any (0x80 ≤ ·.toNat) then
    throw (.invalidVersion version .nonAscii)
  return escape version

/-- Where a module is in the cache, followed by the part of a package path below the module, which
is empty or starts with a slash and is not escaped. -/
def cacheName (path version below : Text) : Except EscapeError Text := do
  return (← escapePath path) ++ '@' :: (← escapeVersion version) ++ below

end GoModules.ModulePath
