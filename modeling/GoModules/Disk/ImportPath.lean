import GoModules.Disk.Manifest

/-!
# Import paths

The import path of a package is the path of the module that governs its directory, followed by the
names of the directories between the module's root and the package.
-/

namespace GoModules.Disk

/-- The import path of a package, given the root of its module and the names below it. -/
def importPathIn (d : Disk) (root : Location) (below : List Text) : Except LoadError Text := do
  match (← d.readManifest root.manifestPath).modulePath? with
  | some path => return ['/'].intercalate (path :: below)
  | none => throw (.missingModule root.manifestPath)

/-- Climbs to the nearest manifest from the directory with the given names; `below` are the names
already climbed past. -/
def importPathAbove (d : Disk) (start : FilePath) (below : List Text) :
    (names : List Name) → Except LoadError Text
  | [] => do
      match ← d.probe .root with
      | .manifest => d.importPathIn .root below
      | _ => throw (.notFound start)
  | name :: outer => do
      match ← d.probe ⟨name :: outer⟩ with
      | .manifest => d.importPathIn ⟨name :: outer⟩ below
      | _ =>
          match Utf8.decode? name with
          | some name => importPathAbove d start (name :: below) outer
          | none => throw (.notUtf8 (Location.mk (name :: outer)).path)

/-- The import path of the package in a directory, or in the one around what is no directory. The
path must lead to something, but the names are those that it spells. -/
def importPath (d : Disk) (path : FilePath) : Except LoadError Text := do
  let kind ← (d.stat path).mapError (.io path)
  let l ← (d.locate path).mapError (.io path)
  d.importPathAbove path [] (if kind = .directory then l else l.parent).names

end GoModules.Disk
