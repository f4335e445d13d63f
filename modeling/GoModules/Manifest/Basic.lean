import GoModules.Version.Basic

/-!
# Manifests

What the file `go.mod` of a module declares.
-/

namespace GoModules

/-- The declaration of the module itself. -/
structure ModuleDecl where
  path : Text
  deprecated : Option Text := none
deriving DecidableEq, Repr

/-- A module that is needed, at the version that is needed at least. -/
structure Requirement where
  path : Text
  version : Version
  indirect : Bool := false
deriving DecidableEq, Repr

/-- A version of a module that must not be used. -/
structure Exclusion where
  path : Text
  version : Version
deriving DecidableEq, Repr

/-- What stands in for a replaced module. -/
inductive Substitute
  | directory (path : Text)
  | module (path : Text) (version : Version)
deriving DecidableEq, Repr

def Substitute.path : Substitute → Text
  | .directory path => path
  | .module path _ => path

/-- The version of a substitute, which only a module has. -/
def Substitute.version? : Substitute → Option Version
  | .directory _ => none
  | .module _ version => some version

/-- A module, or one version of it, for which something else is used. -/
structure Replacement where
  path : Text
  version : Option Version := none
  substitute : Substitute
deriving DecidableEq, Repr

/-- Versions of the module itself that should not be used, both bounds included. -/
structure Retraction where
  low : Version
  high : Version
  rationale : Text := []
deriving DecidableEq, Repr

/-- A setting of the run-time system. -/
structure Setting where
  key : Text
  value : Text
deriving DecidableEq, Repr

/-- The contents of a manifest; every list is in the order of the file. -/
structure Manifest where
  module : Option ModuleDecl := none
  go : Option Text := none
  toolchain : Option Text := none
  require : List Requirement := []
  exclude : List Exclusion := []
  replace : List Replacement := []
  retract : List Retraction := []
  godebug : List Setting := []
  tool : List Text := []
  ignore : List Text := []
deriving DecidableEq, Repr

namespace Manifest

/-- The path that a module declares for itself. -/
def modulePath? (m : Manifest) : Option Text :=
  m.module.map (·.path)

/-- The first replacement of a module path. -/
def replacement? (m : Manifest) (path : Text) : Option Replacement :=
  m.replace.find? (·.path = path)

/-- The requirements, those with the longest paths first; requirements with paths of one length stay
in order. -/
def longestFirst (m : Manifest) : List Requirement :=
  m.require.mergeSort fun a b => Text.byteLength b.path ≤ Text.byteLength a.path

end Manifest

end GoModules
