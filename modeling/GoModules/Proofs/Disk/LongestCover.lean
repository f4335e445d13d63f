import GoModules.Proofs.Manifest.WellFormed
import GoModules.Proofs.ModulePath.Cover

/-!
# Sources in the module cache

Without replacements, the source of a package is in the cached directory of one requirement, the
longest one that covers the package. No other requirement is tried, also where that one has no name
in the cache.
-/

namespace GoModules.Disk

open Manifest (LongestCover covering?_eq_none_iff covering?_spec longestCover_of_covering?)
open ModulePath (Covers below?_eq_some_iff escapePath escapeVersion)
open Outcome

variable {d : Disk} {config : Config} {start : FilePath} {root : Location} {m : Manifest}
  {target : Text}

theorem wellFormed_of_governing (h : d.governing start = .ok (root, m)) : m.WellFormed := by
  simp only [governing, readManifest, bind_eq_ok_iff, mapError_eq_ok_iff, pure_eq_ok,
    Except.ok.injEq, Prod.mk.injEq] at h
  obtain ⟨_, -, m', ⟨bytes, -, hread⟩, -, rfl⟩ := h
  obtain ⟨s, -, hrun⟩ := Manifest.exists_run_of_read hread
  exact Manifest.wellFormed_of_run hrun

theorem cached_eq (config : Config) (path : Text) (version : Version) (below : Text) :
    cached config path version below =
      match escapePath path, escapeVersion version.text with
      | .ok p, .ok v => .ok (config.cacheRoot.join (.ofText (p ++ '@' :: v ++ below)))
      | .error e, _ | .ok _, .error e => .error (.escape e) := by
  unfold cached ModulePath.cacheName
  cases escapePath path with
  | error e => rfl
  | ok p =>
      cases escapeVersion version.text with
      | error e => rfl
      | ok v => rfl

theorem source_of_governing (hdot : '.' ∈ target) (h : d.governing start = .ok (root, m)) :
    d.source config target start false =
      match m.covering? target with
      | none => .error (.notFound target)
      | some (r, below) => cached config r.path r.version below := by
  simp only [source, Bool.false_eq_true, if_false, sourceWith, hdot, not_true_eq_false, h,
    mapError_ok, ok_bind]
  rfl

/-- A package is in the cached directory of the longest requirement that covers it; it is not found
if none does. -/
theorem source_eq_of_governing (config : Config) (hdot : '.' ∈ target)
    (h : d.governing start = .ok (root, m)) :
    ((∀ r ∈ m.require, ¬ Covers r.path target) →
      d.source config target start false = .error (.notFound target)) ∧
    ((∃ r ∈ m.require, Covers r.path target) →
      ∃ r below, m.LongestCover target r ∧ target = r.path ++ below ∧
        d.source config target start false =
          match escapePath r.path, escapeVersion r.version.text with
          | .ok p, .ok v => .ok (config.cacheRoot.join (.ofText (p ++ '@' :: v ++ below)))
          | .error e, _ | .ok _, .error e => .error (.escape e)) := by
  rw [source_of_governing hdot h]
  refine ⟨?_, ?_⟩
  · intro hnone
    rw [covering?_eq_none_iff.mpr hnone]
  · rintro ⟨r', hr', hcovers⟩
    cases hcovering : m.covering? target with
    | none => exact absurd hcovers (covering?_eq_none_iff.mp hcovering r' hr')
    | some found =>
        obtain ⟨r, below⟩ := found
        have hnodup := (wellFormed_of_governing h).require_nodup
        have hbelow := (covering?_spec hcovering).2.1
        exact ⟨r, below, longestCover_of_covering? hnodup hcovering,
          (below?_eq_some_iff.mp hbelow).1, cached_eq config r.path r.version below⟩

/-- A manifest that requires nested modules and a neighbour of almost the same name. -/
def nested : Manifest where
  require := [
    ⟨"x.org/a".toList, ⟨1, 0, 0, [], false⟩, false⟩,
    ⟨"x.org/a/B".toList, ⟨1, 2, 0, [], false⟩, false⟩,
    ⟨"x.org/a/Bc".toList, ⟨1, 3, 0, [], false⟩, false⟩]

/-- A disk with that manifest at its root. -/
def nestedDisk : Disk where
  workingDirectory := .ok .root
  stat p := if p = Location.root.manifestPath then .ok .file else .error .noEntry
  read _ :=
    .ok (Utf8.encode
      ("require x.org/a v1.0.0\n" ++ "require x.org/a/B v1.2.0\n" ++
        "require x.org/a/Bc v1.3.0\n").toList)

theorem source_eq_of_governing_nestedDisk :
    '.' ∈ "x.org/a/B/c".toList ∧ nestedDisk.governing (.ofText "/".toList) = .ok (.root, nested) ∧
      ∃ r below, nested.LongestCover "x.org/a/B/c".toList r ∧
        "x.org/a/B/c".toList = r.path ++ below ∧
        nestedDisk.source ⟨.ofText "/s".toList, .ofText "/c".toList⟩ "x.org/a/B/c".toList
            (.ofText "/".toList) false =
          match escapePath r.path, escapeVersion r.version.text with
          | .ok p, .ok v => .ok (.join (.ofText "/c".toList) (.ofText (p ++ '@' :: v ++ below)))
          | .error e, _ | .ok _, .error e => .error (.escape e) := by
  have hdot : '.' ∈ "x.org/a/B/c".toList := by decide
  have hgoverning : nestedDisk.governing (.ofText "/".toList) = .ok (.root, nested) := by
    decide +kernel
  have hcovers : ∃ r ∈ nested.require, Covers r.path "x.org/a/B/c".toList := by decide +kernel
  exact ⟨hdot, hgoverning, (source_eq_of_governing _ hdot hgoverning).2 hcovers⟩

end GoModules.Disk
