import GoModules.Disk.Manifest

/-!
# Snapshots

What was observed of a few paths at one time, as a disk on which there is nothing else. A search
for the manifest that governs a path looks only at the path and at the places of manifests from
there up to the root, so what to look at is known beforehand. What to read is known once that was
looked at; nothing else is read, as reading a pipe may take for ever.
-/

namespace GoModules

/-- What was observed of some paths. -/
structure Snapshot where
  workingDirectory : Except IoError Location
  kinds : List (FilePath × Except IoError Kind)
  contents : List (FilePath × Except IoError Bytes)

/-- A disk on which there is only what was observed. -/
def Snapshot.disk (s : Snapshot) : Disk where
  workingDirectory := s.workingDirectory
  stat p := (s.kinds.lookup p).getD (.error .noEntry)
  read p := (s.contents.lookup p).getD (.error .noEntry)

namespace Location

/-- The places of manifests in a directory, given by its names, and in those around it. -/
def manifestPathsFrom : (names : List Name) → List FilePath
  | [] => [root.manifestPath]
  | name :: outer => manifestPath ⟨name :: outer⟩ :: manifestPathsFrom outer

/-- The places of manifests at or above a location. -/
def manifestPaths (l : Location) : List FilePath :=
  manifestPathsFrom l.names

end Location

namespace Disk

/-- A search looks at nothing but the places of manifests at or above its start. -/
theorem nearest?_congr {d e : Disk} {names : List Name}
    (h : ∀ p ∈ Location.manifestPathsFrom names, d.stat p = e.stat p) :
    d.nearest? names = e.nearest? names := by
  induction names with
  | nil =>
      have hroot := h Location.root.manifestPath (by simp [Location.manifestPathsFrom])
      simp only [nearest?, probe, hroot]
  | cons name outer ih =>
      have hhere := h (Location.manifestPath ⟨name :: outer⟩) (by simp [Location.manifestPathsFrom])
      have habove := ih fun p hp => h p (by simp [Location.manifestPathsFrom, hp])
      simp only [nearest?, probe, hhere, habove]

/-- The manifests that a search comes to from what a path spells or from the directory around it. -/
def manifestPaths (d : Disk) (start : FilePath) : List FilePath :=
  match d.locate start with
  | .ok l => [l, l.parent].filterMap fun m =>
      match d.nearest? m.names with
      | .ok root? => root?.map Location.manifestPath
      | .error _ => none
  | .error _ => []

/-- The paths whose kinds a search from a path may ask for. -/
def searchPaths (d : Disk) (start : FilePath) : List FilePath :=
  match d.locate start with
  | .ok l => start :: l.path :: l.manifestPaths
  | .error _ => [start]

end Disk

end GoModules
