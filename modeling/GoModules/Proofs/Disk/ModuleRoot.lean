import GoModules.Disk.Source
import GoModules.Proofs.Disk.ImportPath

/-!
# Roots of modules

A search that begins at the root of a module ends there: the manifest is at that place, and nothing
but a directory can hold one. Where a package path is looked up counts only through the manifest
that governs the place. So any place inside a module is as good as its root.
-/

namespace GoModules

open Outcome

namespace Disk

variable {d : Disk} {start start' : FilePath} {root : Location}

theorem locate_path (d : Disk) (h : root.Ordinary) : d.locate root.path = .ok root := by
  rw [locate, if_pos (Location.isAbsolute_path root)]
  exact congrArg Except.ok (Location.location_path h)

/-- A directory with a manifest is the root of the module that governs it. -/
theorem moduleRoot_path (h : root.Ordinary) (hfile : ¬ d.isFile root.path)
    (hmanifest : d.HasManifest root) : d.moduleRoot root.path = .ok root := by
  have hstart := searchStart_of_locate (locate_path d h)
  rw [enclosing, if_neg hfile] at hstart
  exact (moduleRoot_eq_ok_iff hstart).mpr ⟨stopsAt_self hmanifest.not_skippable, hmanifest⟩

theorem spec_of_moduleRoot (hd : d.Placed) (h : d.moduleRoot start = .ok root) :
    root.Ordinary ∧ d.HasManifest root := by
  cases hlocate : d.locate start with
  | error e =>
      rw [moduleRoot, searchStart, hlocate] at h
      cases h
  | ok here =>
      obtain ⟨hstop, hmanifest⟩ := (moduleRoot_eq_ok_iff (searchStart_of_locate hlocate)).mp h
      have hhere := ordinary_enclosing (d := d) (ordinary_of_locate hd hlocate)
      exact ⟨hhere.of_suffix hstop.above, hmanifest⟩

theorem governing_congr (h : d.moduleRoot start = d.moduleRoot start') :
    d.governing start = d.governing start' := by
  rw [governing, governing, h]

/-- Both lookups, that of a package and that of what replaces its module, read the manifest that
governs the place and nothing else of it. -/
theorem source_congr (h : d.governing start = d.governing start') (config : Config) (target : Text)
    (follow : Bool) :
    d.source config target start follow = d.source config target start' follow := by
  have hwith : d.sourceWith config start = d.sourceWith config start' := by
    funext redirect? package
    rw [sourceWith, sourceWith, h]
  rw [source, source, hwith]

end Disk

namespace FileSystem

variable {fs : FileSystem} {start : FilePath} {root : Location}

theorem not_isFile_of_hasManifest (h : fs.disk.HasManifest root) :
    ¬ fs.disk.isFile root.path := by
  rw [isFile_disk_iff]
  intro hfile
  exact not_hasManifest_of_stat hfile (by decide) h

/-- From the root of a module the same manifest, the same root and the same sources are found as
from any place inside the module, and what cannot be found fails in the same way. -/
theorem source_eq_of_moduleRoot (hd : fs.disk.Placed) (h : fs.disk.moduleRoot start = .ok root) :
    fs.disk.findManifest root.path = fs.disk.findManifest start ∧
      fs.disk.moduleRoot root.path = .ok root ∧
      ∀ config target follow, fs.disk.source config target start follow =
        fs.disk.source config target root.path follow := by
  obtain ⟨hordinary, hmanifest⟩ := Disk.spec_of_moduleRoot hd h
  have hroot := Disk.moduleRoot_path hordinary (not_isFile_of_hasManifest hmanifest) hmanifest
  have hsame : fs.disk.moduleRoot start = fs.disk.moduleRoot root.path := h.trans hroot.symm
  refine ⟨?_, hroot, Disk.source_congr (Disk.governing_congr hsame)⟩
  rw [Disk.findManifest_of_moduleRoot hroot, Disk.findManifest_of_moduleRoot h]

/-- A module in which one module is replaced by a directory beside it and another one by a module,
seen from a directory inside it that has a directory with the name of a manifest. -/
def replacing : FileSystem where
  tree.entries := [
    (FilePath.location (.ofText "/w".toList), .directory),
    (FilePath.location (.ofText "/w/go.mod".toList),
      .file (Utf8.encode
        ("require x.org/a v1.0.0\n" ++ "require x.org/b v1.5.0\n" ++
          "replace x.org/a => x.org/b v1.1.0\n" ++ "replace x.org/b => ../b\n").toList)),
    (FilePath.location (.ofText "/w/s".toList), .directory),
    (FilePath.location (.ofText "/w/s/go.mod".toList), .directory),
    (FilePath.location (.ofText "/w/s/f".toList), .file [])]
  place := ⟨FilePath.location (.ofText "/w/s".toList), 0⟩

theorem source_eq_of_moduleRoot_replacing :
    replacing.disk.Placed ∧
      replacing.disk.moduleRoot (.ofText "f".toList) =
        .ok (FilePath.location (.ofText "/w".toList)) ∧
      replacing.disk.findManifest (.ofText "/w".toList) =
        replacing.disk.findManifest (.ofText "f".toList) ∧
      replacing.disk.moduleRoot (.ofText "/w".toList) =
        .ok (FilePath.location (.ofText "/w".toList)) ∧
      ∀ config target follow, replacing.disk.source config target (.ofText "f".toList) follow =
        replacing.disk.source config target (.ofText "/w".toList) follow := by
  have hd : replacing.disk.Placed := by
    rintro l ⟨⟩
    exact FilePath.ordinary_location _
  have h : replacing.disk.moduleRoot (.ofText "f".toList) =
      .ok (FilePath.location (.ofText "/w".toList)) := by
    decide +kernel
  have hpath : (FilePath.location (.ofText "/w".toList)).path = .ofText "/w".toList := by
    decide +kernel
  have hsame := source_eq_of_moduleRoot hd h
  rw [hpath] at hsame
  exact ⟨hd, h, hsame⟩

end FileSystem

end GoModules
