import GoModules.Proofs.Disk.Containment
import GoModules.Proofs.Disk.Nearest
import GoModules.Proofs.ModulePath.VersionName

/-!
# Replacements by directories, and failures

A directory that replaces a module is joined to the directory of the manifest, which is absolute, so
nothing more has to be looked up for it: the result is a clean absolute path that depends on nothing
but the manifest and the replacement. For the same reason a replacement never fails to become
absolute. A version that was read has a name, so a package that is in a required module is missed
only for the path of that module.
-/

namespace GoModules

open Outcome

namespace FilePath

variable {p q : FilePath}

/-- A path is cleaned by its root and its names alone. -/
theorem clean_congr (habsolute : p.isAbsolute = q.isAbsolute)
    (hsegments : p.segments = q.segments) : p.clean = q.clean := by
  rw [clean, clean, reduce, reduce, habsolute, hsegments]

theorem clean_join_congr (habsolute : p.isAbsolute = q.isAbsolute)
    (hsegments : p.segments = q.segments) (s : FilePath) :
    (p.join s).clean = (q.join s).clean := by
  cases hs : s.isAbsolute with
  | true => rw [join, join, if_pos hs, if_pos hs]
  | false =>
      apply clean_congr
      · rw [isAbsolute_join hs, isAbsolute_join hs, habsolute]
      · rw [segments_join hs, segments_join hs, hsegments]

end FilePath

namespace Location

theorem isAbsolute_parent_manifestPath (l : Location) : l.manifestPath.parent.isAbsolute :=
  FilePath.isAbsolute_parent (FilePath.isAbsolute_join_of_isAbsolute (isAbsolute_path l) _)

theorem segments_parent_manifestPath (l : Location) :
    l.manifestPath.parent.segments = l.path.segments := by
  have hname : (FilePath.mk Manifest.fileName).isAbsolute = false := by decide
  have hsegments : (FilePath.mk Manifest.fileName).segments = [Manifest.fileName] := by decide
  rw [FilePath.parent, manifestPath, FilePath.segments_join hname, hsegments, List.dropLast_concat]
  apply FilePath.segments_ofSegments
  exact fun n hn => FilePath.proper_of_mem_segments hn

end Location

namespace Disk

variable {d : Disk} {config : Config} {start path : FilePath} {root : Location} {m : Manifest}
  {target dir below : Text} {follow : Bool}

/-- The directory that replaces a module is the clean form of what is written, as seen from the
manifest. -/
theorem replacementDirectory_eq (d : Disk) (root : Location) (dir : Text) :
    d.replacementDirectory root dir =
      .ok (root.manifestPath.parent.join (.ofText dir)).clean := by
  have habsolute : (root.path.join (.ofText dir)).isAbsolute :=
    FilePath.isAbsolute_join_of_isAbsolute (Location.isAbsolute_path root) _
  have hclean : (root.manifestPath.parent.join (.ofText dir)).clean =
      (root.path.join (.ofText dir)).clean :=
    FilePath.clean_join_congr (Location.isAbsolute_parent_manifestPath root)
      (Location.segments_parent_manifestPath root) _
  rw [hclean, FilePath.clean_of_isAbsolute habsolute, replacementDirectory, locate,
    if_pos habsolute]
  rfl

theorem source_of_replaced_directory (config : Config) (hdot : '.' ∈ target)
    (h : d.ReplacedBy start target (.directory dir) below) :
    ∃ manifest, d.findManifest start = .ok manifest ∧ manifest.parent.isAbsolute ∧
      d.source config target start true = .ok (manifest.parent.join (.ofText dir)).clean := by
  obtain ⟨root, m, r, replacement, hgoverning, hr, htarget, hreplacement, hdirectory⟩ := h
  refine ⟨root.manifestPath, findManifest_of_moduleRoot (governing_eq_ok_iff.mp hgoverning).1,
    Location.isAbsolute_parent_manifestPath root, ?_⟩
  have hnodup := (wellFormed_of_governing hgoverning).require_nodup
  rw [source_follow_of_governing hdot hgoverning,
    Manifest.covering?_of_longestCover hnodup hr htarget]
  dsimp only
  rw [hreplacement, Option.map_some, hdirectory]
  exact replacementDirectory_eq d root dir

/-- The failures of looking a package up among the requirements. -/
theorem error_of_source_direct {e : ResolveError}
    (h : d.source config target start false = .error e) :
    (∃ package, e = .notFound package) ∨ (∃ error, e = .manifest error) ∨
      ∃ path fault, e = .escape (.invalidPath path fault) := by
  by_cases hdot : '.' ∈ target
  · cases hgoverning : d.governing start with
    | error error =>
        rw [source_of_governing_error hdot hgoverning, Except.error.injEq] at h
        exact .inr (.inl ⟨error, h.symm⟩)
    | ok found =>
        obtain ⟨root, m⟩ := found
        have hlookedUp := lookedUp_of_governing config hdot hgoverning
        rw [h] at hlookedUp
        generalize houtcome : (Except.error e : Except ResolveError FilePath) = outcome at hlookedUp
        cases hlookedUp with
        | missing hnone =>
            cases houtcome
            exact .inl ⟨target, rfl⟩
        | cached hname => cases houtcome
        | @unnamed error hname =>
            cases houtcome
            obtain ⟨r, below, hr, -, hname⟩ := hname
            have hfits := (wellFormed_of_governing hgoverning).require r hr.mem
            rw [ModulePath.cacheName_text (Version.valid_of_read? hfits.canonical.read)] at hname
            split at hname
            · cases hname
            · next hpath =>
                cases hname
                obtain ⟨fault, rfl⟩ := ModulePath.exists_fault_of_escapePath hpath
                exact .inr (.inr ⟨r.path, fault, rfl⟩)
  · rw [source_of_dotless config start false hdot] at h
    cases h

/-- The failures of finding a source. -/
theorem error_of_source {e : ResolveError} (h : d.source config target start follow = .error e) :
    (∃ package, e = .notFound package) ∨ (∃ error, e = .manifest error) ∨
      ∃ path fault, e = .escape (.invalidPath path fault) := by
  cases follow with
  | false => exact error_of_source_direct h
  | true =>
      by_cases hdot : '.' ∈ target
      · cases hgoverning : d.governing start with
        | error error =>
            rw [source_of_governing_error hdot hgoverning, Except.error.injEq] at h
            exact .inr (.inl ⟨error, h.symm⟩)
        | ok found =>
            obtain ⟨root, m⟩ := found
            rcases source_follow_cases config hdot hgoverning with hsame | hnew | hdir
            · exact error_of_source_direct (hsame ▸ h)
            · obtain ⟨new, version, below, -, hsource⟩ := hnew
              exact error_of_source_direct (hsource ▸ h)
            · obtain ⟨dir, below, hreplaced⟩ := hdir
              obtain ⟨manifest, -, -, hsource⟩ := source_of_replaced_directory config hdot hreplaced
              rw [hsource] at h
              cases h
      · rw [source_of_dotless config start true hdot] at h
        cases h

/-- A package is never missed for its version, nor because a directory that replaces its module
cannot be made absolute. Where a directory replaces the module, it is the source: an absolute clean
path, whatever of the package is below the module and wherever below the manifest the search
began. -/
theorem source_total_of_replaced_directory (d : Disk) (config : Config) (target : Text)
    (start : FilePath) (follow : Bool) :
    (∀ path error, d.source config target start follow ≠ .error (.replacement path error)) ∧
    (∀ version fault,
      d.source config target start follow ≠ .error (.escape (.invalidVersion version fault))) ∧
    (follow → '.' ∈ target → ∀ dir below, d.ReplacedBy start target (.directory dir) below →
      ∃ manifest path, d.findManifest start = .ok manifest ∧
        d.source config target start follow = .ok path ∧
        path = (manifest.parent.join (.ofText dir)).clean ∧
        path.isAbsolute ∧ Name.here ∉ path.segments ∧ Name.above ∉ path.segments ∧
        path.clean = path) := by
  refine ⟨?_, ?_, ?_⟩
  · intro path error h
    rcases error_of_source h with ⟨_, he⟩ | ⟨_, he⟩ | ⟨_, _, he⟩
    · cases he
    · cases he
    · cases he
  · intro version fault h
    rcases error_of_source h with ⟨_, he⟩ | ⟨_, he⟩ | ⟨_, _, he⟩
    · cases he
    · cases he
    · cases he
  · intro hfollow hdot dir below hreplaced
    obtain rfl : follow = true := hfollow
    obtain ⟨manifest, hmanifest, habsolute, hsource⟩ :=
      source_of_replaced_directory config hdot hreplaced
    have hjoin := FilePath.isAbsolute_join_of_isAbsolute habsolute (.ofText dir)
    have hordinary := FilePath.ordinary_of_mem_segments_clean hjoin
    exact ⟨manifest, _, hmanifest, hsource, rfl, (FilePath.isAbsolute_clean _).trans hjoin,
      fun hmem => (hordinary _ hmem).ne_here rfl, fun hmem => (hordinary _ hmem).ne_above rfl,
      FilePath.clean_clean _⟩

/-- A package of a module that is replaced by a directory beside the one of the manifest, as seen
from further below. -/
theorem source_total_of_replaced_directory_redirectingDisk :
    '.' ∈ "x.org/b/k".toList ∧
      redirectingDisk.ReplacedBy (.ofText "s/t".toList) "x.org/b/k".toList
        (.directory "../b".toList) "/k".toList ∧
      ∃ manifest path, redirectingDisk.findManifest (.ofText "s/t".toList) = .ok manifest ∧
        redirectingDisk.source twoRoots "x.org/b/k".toList (.ofText "s/t".toList) true = .ok path ∧
        path = (manifest.parent.join (.ofText "../b".toList)).clean ∧
        path.isAbsolute ∧ Name.here ∉ path.segments ∧ Name.above ∉ path.segments ∧
        path.clean = path := by
  have hdot : '.' ∈ "x.org/b/k".toList := by decide
  have hgoverning :
      redirectingDisk.governing (.ofText "s/t".toList) = .ok (.root, redirecting) := by
    decide +kernel
  have hr : redirecting.LongestCover "x.org/b/k".toList
      ⟨"x.org/b".toList, ⟨1, 5, 0, [], false⟩, false⟩ :=
    ⟨by decide +kernel, by decide +kernel, by decide +kernel⟩
  have hreplacement : redirecting.replacement? "x.org/b".toList =
      some ⟨"x.org/b".toList, none, .directory "../b".toList⟩ := by
    decide +kernel
  have hreplaced : redirectingDisk.ReplacedBy (.ofText "s/t".toList) "x.org/b/k".toList
      (.directory "../b".toList) "/k".toList :=
    ⟨.root, redirecting, _, _, hgoverning, hr, by decide, hreplacement, rfl⟩
  obtain ⟨-, -, hsource⟩ := source_total_of_replaced_directory redirectingDisk twoRoots
    "x.org/b/k".toList (.ofText "s/t".toList) true
  exact ⟨hdot, hreplaced, hsource rfl hdot _ _ hreplaced⟩

end Disk

end GoModules
