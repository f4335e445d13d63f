import GoModules.Config.Basic
import GoModules.Disk.Manifest
import GoModules.ModulePath.Escape

/-!
# Source directories

Where the source of a package is, as seen from a module. A path without a dot belongs to the
standard library. Any other must lie in a module that the manifest requires; the longest such module
counts. A replacement of that module leads to a directory, or to another module, which is then
looked up in the same manifest.
-/

namespace GoModules

/-- Why the source of a package is not to be had. -/
inductive ResolveError
  | notFound (path : Text)
  | manifest (error : LoadError)
  | escape (error : EscapeError)
  | replacement (path : FilePath) (error : IoError)
deriving DecidableEq, Repr

namespace ResolveError

def message : ResolveError → Text
  | .notFound path => "no required module provides package ".toList ++ path
  | .manifest error => error.message
  | .escape error => error.message
  | .replacement path error =>
      "cannot resolve replacement directory ".toList ++ path.display ++ ": ".toList ++ error.message

def cause? : ResolveError → Option Text
  | .manifest error => error.cause?
  | .replacement _ error => some error.message
  | _ => none

def isNotFound : ResolveError → Bool
  | .notFound _ => true
  | .manifest error => error.isNotFound
  | _ => false

end ResolveError

/-- The part of a package path below a module that holds the package: nothing, or a slash and the
rest. -/
def ModulePath.below? (path target : Text) : Option Text :=
  match path.isPrefixOf? target with
  | some [] => some []
  | some ('/' :: rest) => some ('/' :: rest)
  | _ => none

/-- The requirement with the longest path among those that hold a package, and what is below it. -/
def Manifest.covering? (m : Manifest) (target : Text) : Option (Requirement × Text) :=
  m.longestFirst.findSome? fun r => (ModulePath.below? r.path target).map (r, ·)

namespace Disk

/-- The directory of a package in the module cache. -/
def cached (config : Config) (path : Text) (version : Version) (below : Text) :
    Except ResolveError FilePath := do
  let name ← (ModulePath.cacheName path version.text below).mapError .escape
  return config.cacheRoot.join (.ofText name)

/-- The directory that replaces a module with the given root. -/
def replacementDirectory (d : Disk) (root : Location) (path : Text) :
    Except ResolveError FilePath := do
  let joined := root.path.join (.ofText path)
  return (← (d.locate joined).mapError (.replacement joined)).path

/-- The directory of the package `target` as seen from `start`. Replacements are followed if
`redirect?` is given, which finds the packages of a module that stands in for another. -/
def sourceWith (d : Disk) (config : Config) (start : FilePath)
    (redirect? : Option (Text → Except ResolveError FilePath)) (target : Text) :
    Except ResolveError FilePath := do
  if '.' ∉ target then
    return config.stdRoot.join (.ofText target)
  let (root, manifest) ← (d.governing start).mapError .manifest
  match manifest.covering? target with
  | none => throw (.notFound target)
  | some (required, below) =>
      match redirect?, manifest.replacement? required.path with
      | none, _ | _, none => cached config required.path required.version below
      | some redirect, some replacement =>
          match replacement.substitute with
          | .directory path => d.replacementDirectory root path
          | .module path _ => redirect (path ++ below)

/-- The directory of the package `target` as seen from `start`. If replacements are followed, then
for a single hop: what stands in for a module is not replaced again. -/
def source (d : Disk) (config : Config) (target : Text) (start : FilePath) (follow : Bool) :
    Except ResolveError FilePath :=
  let direct := d.sourceWith config start none
  if follow then d.sourceWith config start (some direct) target else direct target

end Disk

end GoModules
