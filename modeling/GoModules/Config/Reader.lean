import GoModules.Config.Basic
import GoModules.Toml.Document

/-!
# Reading configurations

The text of a configuration is a flat TOML document with exactly two keys.
-/

namespace GoModules.Config

def stdRootKey : Text :=
  "std-root".toList

def cacheRootKey : Text :=
  "cache-root".toList

/-- The value of a key that must occur. -/
def value (members : List (Text × Text)) (key : Text) : Except ConfigFault FilePath :=
  match members.lookup key with
  | some s => .ok (.ofText s)
  | none => .error (.missingKey key)

/-- Refuses keys that are not known or occur twice. -/
def checkKeys : (keys : List Text) → Except ConfigFault Unit
  | [] => .ok ()
  | key :: rest =>
      if key ≠ stdRootKey ∧ key ≠ cacheRootKey then .error (.unknownKey key)
      else if key ∈ rest then .error (.duplicateKey key)
      else checkKeys rest

def ofText (s : Text) : Except ConfigFault Config :=
  match Toml.flat? s with
  | none => .error .malformed
  | some members => do
      checkKeys (members.map (·.1))
      return ⟨← value members stdRootKey, ← value members cacheRootKey⟩

def ofFile (d : Disk) (path : FilePath) : Except ConfigError Config := do
  (ofText (← (d.readText path).mapError (.io path))).mapError .invalid

end GoModules.Config
