import GoModules.Disk.Basic
import GoModules.Manifest.Reader

/-!
# Finding manifests

The manifest that governs a directory is the nearest one at or above it. An entry named `go.mod`
that is itself a directory is no manifest; the search goes past it.
-/

namespace GoModules

def Manifest.fileName : Name :=
  Utf8.encode "go.mod".toList

/-- Why a manifest, or what it should tell, is not to be had. -/
inductive LoadError
  | notFound (start : FilePath)
  | io (path : FilePath) (error : IoError)
  | invalid (path : FilePath) (error : Manifest.Error)
  | missingModule (path : FilePath)
  | notUtf8 (path : FilePath)
deriving DecidableEq, Repr

namespace LoadError

def message : LoadError → Text
  | .notFound start =>
      "no go.mod found in ".toList ++ start.display ++ " or any parent directory".toList
  | .io path error => "failed to access ".toList ++ path.display ++ ": ".toList ++ error.message
  | .invalid path error => "failed to parse manifest: ".toList ++ error.message path.display
  | .missingModule path => path.display ++ " has no module directive".toList
  | .notUtf8 path => "path is not valid UTF-8: ".toList ++ path.display

def cause? : LoadError → Option Text
  | .io _ error => some error.message
  | .invalid path error => some (error.message path.display)
  | _ => none

/-- Whether the error is that something does not exist. -/
def isNotFound : LoadError → Bool
  | .notFound _ => true
  | .io _ error => error == .noEntry
  | _ => false

end LoadError

namespace Location

/-- Where the manifest of a directory would be. -/
def manifestPath (l : Location) : FilePath :=
  l.path.join ⟨Manifest.fileName⟩

end Location

namespace Disk

/-- What is at the place of the manifest of a directory. -/
inductive Probe
  | manifest
  | directory
  | nothing
deriving DecidableEq, Repr

/-- Looks for the manifest of a directory. What has its name is taken for it unless that is itself a
directory. -/
def probe (d : Disk) (l : Location) : Except LoadError Probe :=
  match d.stat l.manifestPath with
  | .ok .directory => .ok .directory
  | .ok _ => .ok .manifest
  | .error .noEntry => .ok .nothing
  | .error error => .error (.io l.manifestPath error)

/-- The nearest directory with a manifest, at or above the one with the given names. -/
def nearest? (d : Disk) : (names : List Name) → Except LoadError (Option Location)
  | [] => do
      match ← d.probe .root with
      | .manifest => return some .root
      | _ => return none
  | name :: outer => do
      match ← d.probe ⟨name :: outer⟩ with
      | .manifest => return some ⟨name :: outer⟩
      | _ => nearest? d outer

/-- Where the search for a manifest begins: the directory that a path spells, or the one around it
if the path spells a file. -/
def searchStart (d : Disk) (start : FilePath) : Except LoadError Location := do
  let l ← (d.locate start).mapError (.io start)
  return if d.isFile l.path then l.parent else l

/-- The root directory of the module that governs a path. -/
def moduleRoot (d : Disk) (start : FilePath) : Except LoadError Location := do
  match ← d.nearest? (← d.searchStart start).names with
  | some l => return l
  | none => throw (.notFound start)

def findManifest (d : Disk) (start : FilePath) : Except LoadError FilePath := do
  return (← d.moduleRoot start).manifestPath

def readManifest (d : Disk) (path : FilePath) : Except LoadError Manifest := do
  (Manifest.read (← (d.read path).mapError (.io path))).mapError (.invalid path)

/-- The root directory of the module that governs a path, and its manifest. -/
def governing (d : Disk) (start : FilePath) : Except LoadError (Location × Manifest) := do
  let l ← d.moduleRoot start
  return (l, ← d.readManifest l.manifestPath)

end Disk

end GoModules
