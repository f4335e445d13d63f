import GoModules.FilePath.Basic
import GoModules.Disk.Basic

/-!
# Configuration

Where the sources of packages are: those of the standard library, and those of every other module.
The two directories come from the environment or from a file.
-/

namespace GoModules

/-- The roots of package sources. -/
structure Config where
  stdRoot : FilePath
  cacheRoot : FilePath
deriving DecidableEq, Repr

/-- The variables that a configuration is made from. -/
structure Environment where
  goroot : Option Text := none
  gomodcache : Option Text := none
  gopath : Option Text := none
  home : Option Text := none
deriving DecidableEq, Repr

/-- What is wrong with the text of a configuration. -/
inductive ConfigFault
  | malformed
  | unknownKey (key : Text)
  | duplicateKey (key : Text)
  | missingKey (key : Text)
deriving DecidableEq, Repr

def ConfigFault.message : ConfigFault → Text
  | .malformed => "not a list of keys with strings".toList
  | .unknownKey key => "unknown field ".toList ++ key
  | .duplicateKey key => "duplicate key ".toList ++ key
  | .missingKey key => "missing field ".toList ++ key

/-- Why there is no configuration. -/
inductive ConfigError
  | io (path : FilePath) (error : IoError)
  | invalid (fault : ConfigFault)
  | missingVariable (name : Text)
  | noHome
deriving DecidableEq, Repr

namespace ConfigError

def message : ConfigError → Text
  | .io path error =>
      "failed to read config file ".toList ++ path.display ++ ": ".toList ++ error.message
  | .invalid fault => "failed to parse config: ".toList ++ fault.message
  | .missingVariable name => "environment variable ".toList ++ name ++ " is not set".toList
  | .noHome => "cannot determine the home directory for the default GOPATH".toList

def cause? : ConfigError → Option Text
  | .io _ error => some error.message
  | .invalid fault => some fault.message
  | _ => none

end ConfigError

namespace Environment

/-- A variable that is empty is as good as none. -/
def path? (value : Option Text) : Option FilePath :=
  (value.filter (· ≠ [])).map FilePath.ofText

/-- The first entry of a list of directories that is not empty. -/
def firstEntry? (list : Text) : Option FilePath :=
  ((list.splitOn ':').find? (· ≠ [])).map FilePath.ofText

/-- The directory under which modules are cached by default: the first one of `GOPATH`, or `go` in
the home directory. -/
def workspace? (env : Environment) : Option FilePath :=
  match env.gopath.bind firstEntry? with
  | some path => some path
  | none => (path? env.home).map (·.join (.ofText "go".toList))

end Environment

def Config.ofEnvironment (env : Environment) : Except ConfigError Config :=
  match Environment.path? env.goroot with
  | none => .error (.missingVariable "GOROOT".toList)
  | some goroot =>
      let stdRoot := goroot.join (.ofText "src".toList)
      match Environment.path? env.gomodcache with
      | some cacheRoot => .ok ⟨stdRoot, cacheRoot⟩
      | none =>
          match env.workspace? with
          | none => .error .noHome
          | some path =>
              .ok ⟨stdRoot, (path.join (.ofText "pkg".toList)).join (.ofText "mod".toList)⟩

end GoModules
