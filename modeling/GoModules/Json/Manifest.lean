import GoModules.Json.Basic
import GoModules.Manifest.Basic

/-!
# Manifests as JSON

The members of every object are in the order of their names. A member that does not apply, such as
the version of a directory, is left out; a declaration that is absent is `null`.
-/

namespace GoModules

/-- An object, given its members. -/
def Json.ofMembers (members : List (String × Json)) : Json :=
  .obj (members.map fun (key, value) => (key.toList, value))

def Json.ofText? (s : Option Text) : Json :=
  s.elim .null .str

/-- A module path and perhaps a version. -/
def Json.ofModule (path : Text) (version : Option Version) : Json :=
  .ofMembers (("path", .str path) :: (version.map fun v => ("version", .str v.text)).toList)

def ModuleDecl.toJson (m : ModuleDecl) : Json :=
  .ofMembers ((m.deprecated.map fun s => ("deprecated", .str s)).toList ++ [("path", .str m.path)])

def Requirement.toJson (r : Requirement) : Json :=
  .ofMembers [("indirect", .bool r.indirect), ("path", .str r.path),
    ("version", .str r.version.text)]

def Exclusion.toJson (e : Exclusion) : Json :=
  .ofModule e.path e.version

def Replacement.toJson (r : Replacement) : Json :=
  .ofMembers [("new", .ofModule r.substitute.path r.substitute.version?),
    ("old", .ofModule r.path r.version)]

def Retraction.toJson (r : Retraction) : Json :=
  .ofMembers [("high", .str r.high.text), ("low", .str r.low.text), ("rationale", .str r.rationale)]

def Setting.toJson (s : Setting) : Json :=
  .ofMembers [("key", .str s.key), ("value", .str s.value)]

def Manifest.toJson (m : Manifest) : Json :=
  .ofMembers [
    ("exclude", .arr (m.exclude.map Exclusion.toJson)),
    ("go", .ofText? m.go),
    ("godebug", .arr (m.godebug.map Setting.toJson)),
    ("ignore", .arr (m.ignore.map .str)),
    ("module", m.module.elim .null ModuleDecl.toJson),
    ("replace", .arr (m.replace.map Replacement.toJson)),
    ("require", .arr (m.require.map Requirement.toJson)),
    ("retract", .arr (m.retract.map Retraction.toJson)),
    ("tool", .arr (m.tool.map .str)),
    ("toolchain", .ofText? m.toolchain)]

end GoModules
