import GoModules.Proofs.Disk.LongestCover

/-!
# Replacements by modules

What stands in for a module is looked up among the requirements of the same manifest, and is not
replaced again. There are three outcomes of looking a package up: no requirement covers it, it has a
name in the cache, or its module has none. A package whose path loses its only dots with the module
that is replaced is not looked up at all, but taken for one of the standard library.
-/

namespace GoModules

open ModulePath (Covers covers_iff below?_eq_some_iff cacheName)

namespace Manifest

variable {m : Manifest} {target below : Text} {r r' : Requirement}

theorem LongestCover.unique (h : m.LongestCover target r) (h' : m.LongestCover target r') :
    r = r' := by
  by_contra hne
  have hmem : r ∈ m.require.erase r' := (List.mem_erase_of_ne hne).mpr h.mem
  have hmem' : r' ∈ m.require.erase r := (List.mem_erase_of_ne (Ne.symm hne)).mpr h'.mem
  have hlt := h.longer r' hmem' h'.covers
  have hlt' := h'.longer r hmem h.covers
  omega

theorem covering?_of_longestCover (hnodup : (m.require.map (·.path)).Nodup)
    (hr : m.LongestCover target r) (htarget : target = r.path ++ below) :
    m.covering? target = some (r, below) := by
  cases hcovering : m.covering? target with
  | none => exact absurd hr.covers (covering?_eq_none_iff.mp hcovering r hr.mem)
  | some found =>
      obtain ⟨r', below'⟩ := found
      obtain rfl := hr.unique (longestCover_of_covering? hnodup hcovering)
      have htarget' := (below?_eq_some_iff.mp (covering?_spec hcovering).2.1).1
      rw [htarget, List.append_cancel_left_eq] at htarget'
      rw [htarget']

/-- The name in the cache of a package, which is in the longest module that covers it. -/
def CachedAs (m : Manifest) (package name : Text) : Prop :=
  ∃ r below, m.LongestCover package r ∧ package = r.path ++ below ∧
    cacheName r.path r.version.text below = .ok name

/-- Why a package has no name in the cache, though it is in a module that is required. -/
def Unnamed (m : Manifest) (package : Text) (e : EscapeError) : Prop :=
  ∃ r below, m.LongestCover package r ∧ package = r.path ++ below ∧
    cacheName r.path r.version.text below = .error e

/-- What comes of looking a package up among the requirements of a manifest. -/
inductive LookedUp (config : Config) (m : Manifest) (package : Text) :
    Except ResolveError FilePath → Prop
  | missing (h : ∀ r ∈ m.require, ¬ Covers r.path package) :
      LookedUp config m package (.error (.notFound package))
  | cached {name : Text} (h : m.CachedAs package name) :
      LookedUp config m package (.ok (config.cacheRoot.join (.ofText name)))
  | unnamed {e : EscapeError} (h : m.Unnamed package e) :
      LookedUp config m package (.error (.escape e))

end Manifest

namespace Disk

open Manifest (LookedUp)
open Outcome

variable {d : Disk} {config : Config} {start : FilePath} {root : Location} {m : Manifest}
  {target : Text}

theorem source_of_dotless (config : Config) (start : FilePath) (follow : Bool)
    (hdot : '.' ∉ target) :
    d.source config target start follow = .ok (config.stdRoot.join (.ofText target)) := by
  cases follow with
  | false => simp [source, sourceWith, hdot]
  | true => simp [source, sourceWith, hdot]

theorem source_of_governing_error {error : LoadError} (hdot : '.' ∈ target)
    (h : d.governing start = .error error) (follow : Bool) :
    d.source config target start follow = .error (.manifest error) := by
  cases follow with
  | false => simp [source, sourceWith, hdot, h]
  | true => simp [source, sourceWith, hdot, h]

theorem source_follow_of_governing (hdot : '.' ∈ target)
    (h : d.governing start = .ok (root, m)) :
    d.source config target start true =
      match m.covering? target with
      | none => .error (.notFound target)
      | some (r, below) =>
          match (m.replacement? r.path).map Replacement.substitute with
          | none => cached config r.path r.version below
          | some (.directory path) => d.replacementDirectory root path
          | some (.module path _) => d.source config (path ++ below) start false := by
  have hsource : d.source config target start true =
      d.sourceWith config start (some fun package => d.source config package start false)
        target := rfl
  rw [hsource, sourceWith]
  simp only [hdot, not_true_eq_false, if_false, h, mapError_ok, ok_bind]
  cases m.covering? target with
  | none => rfl
  | some found =>
      obtain ⟨r, below⟩ := found
      dsimp only
      cases m.replacement? r.path with
      | none => rfl
      | some replacement =>
          obtain ⟨path, version, substitute⟩ := replacement
          cases substitute with
          | directory path => rfl
          | module path version => rfl

theorem lookedUp_of_governing (config : Config) (hdot : '.' ∈ target)
    (h : d.governing start = .ok (root, m)) :
    LookedUp config m target (d.source config target start false) := by
  rw [source_of_governing hdot h]
  cases hcovering : m.covering? target with
  | none => exact .missing (Manifest.covering?_eq_none_iff.mp hcovering)
  | some found =>
      obtain ⟨r, below⟩ := found
      have hnodup := (wellFormed_of_governing h).require_nodup
      have hr := Manifest.longestCover_of_covering? hnodup hcovering
      have htarget := (below?_eq_some_iff.mp (Manifest.covering?_spec hcovering).2.1).1
      dsimp only
      unfold cached
      cases hname : cacheName r.path r.version.text below with
      | ok name => exact .cached ⟨r, below, hr, htarget, hname⟩
      | error e => exact .unnamed ⟨r, below, hr, htarget, hname⟩

section Replaced

variable {r : Requirement} {replacement : Replacement} {path below : Text} {version : Version}

theorem source_eq_of_replaced_module (config : Config) (hdot : '.' ∈ target)
    (h : d.governing start = .ok (root, m)) (hr : m.LongestCover target r)
    (htarget : target = r.path ++ below) (hreplacement : m.replacement? r.path = some replacement)
    (hmodule : replacement.substitute = .module path version) :
    d.source config target start true = d.source config (path ++ below) start false := by
  have hnodup := (wellFormed_of_governing h).require_nodup
  have hcovering := Manifest.covering?_of_longestCover hnodup hr htarget
  rw [source_follow_of_governing hdot h, hcovering]
  dsimp only
  rw [hreplacement, Option.map_some, hmodule]

/-- Where a module is replaced by another one, its packages are looked up with the path of that one
in front, and the root of the standard library plays no part. This takes a dot in the path that is
looked up: without one, the package is sought in the standard library whatever is required. -/
theorem source_of_replaced_module (config : Config) (hdot : '.' ∈ target)
    (h : d.governing start = .ok (root, m)) (hr : m.LongestCover target r)
    (htarget : target = r.path ++ below) (hreplacement : m.replacement? r.path = some replacement)
    (hmodule : replacement.substitute = .module path version) :
    ('.' ∈ path ++ below →
      m.LookedUp config (path ++ below) (d.source config target start true) ∧
        ∀ stdRoot, d.source { config with stdRoot } target start true =
          d.source config target start true) ∧
    ('.' ∉ path ++ below →
      d.source config target start true = .ok (config.stdRoot.join (.ofText (path ++ below)))) := by
  have hsource : ∀ config : Config,
      d.source config target start true = d.source config (path ++ below) start false :=
    fun config => source_eq_of_replaced_module config hdot h hr htarget hreplacement hmodule
  refine ⟨?_, ?_⟩
  · intro hdot'
    refine ⟨?_, ?_⟩
    · rw [hsource]
      exact lookedUp_of_governing config hdot' h
    · intro stdRoot
      rw [hsource, hsource, source_of_governing hdot' h, source_of_governing hdot' h]
      rfl
  · intro hdot'
    rw [hsource]
    exact source_of_dotless config start false hdot'

end Replaced

/-- A manifest, line by line. -/
def manifestBytes (lines : List String) : Bytes :=
  Utf8.encode (lines.flatMap (String.toList · ++ ['\n']))

/-- A disk with a manifest at its root and nothing else. -/
def rootDisk (lines : List String) : Disk where
  workingDirectory := .ok .root
  stat p := if p = Location.root.manifestPath then .ok .file else .error .noEntry
  read _ := .ok (manifestBytes lines)

/-- A manifest that replaces two modules by others, of which only one has a dot in its path. -/
def redirecting : Manifest where
  require := [
    ⟨"x.org/a".toList, ⟨1, 0, 0, [], false⟩, false⟩,
    ⟨"x.org/b".toList, ⟨1, 5, 0, [], false⟩, false⟩,
    ⟨"x.org/c".toList, ⟨1, 0, 0, [], false⟩, false⟩]
  replace := [
    ⟨"x.org/a".toList, none, .module "x.org/b".toList ⟨1, 1, 0, [], false⟩⟩,
    ⟨"x.org/b".toList, none, .directory "../b".toList⟩,
    ⟨"x.org/c".toList, none, .module "y".toList ⟨1, 0, 0, [], false⟩⟩]

/-- Two roots side by side. -/
def twoRoots : Config :=
  ⟨.ofText "/s".toList, .ofText "/c".toList⟩

def redirectingDisk : Disk :=
  rootDisk [
    "require x.org/a v1.0.0",
    "require x.org/b v1.5.0",
    "require x.org/c v1.0.0",
    "replace x.org/a => x.org/b v1.1.0",
    "replace x.org/b => ../b",
    "replace x.org/c => y v1.0.0"]

theorem governing_redirectingDisk :
    redirectingDisk.governing (.ofText "/".toList) = .ok (.root, redirecting) := by
  decide +kernel

/-- The replacement is looked up at the version that is required, and is not itself replaced. -/
theorem source_of_replaced_module_redirectingDisk :
    '.' ∈ "x.org/a/k".toList ∧
      redirectingDisk.governing (.ofText "/".toList) = .ok (.root, redirecting) ∧
      redirecting.LongestCover "x.org/a/k".toList
        ⟨"x.org/a".toList, ⟨1, 0, 0, [], false⟩, false⟩ ∧
      redirecting.replacement? "x.org/a".toList =
        some ⟨"x.org/a".toList, none, .module "x.org/b".toList ⟨1, 1, 0, [], false⟩⟩ ∧
      redirecting.LookedUp twoRoots "x.org/b/k".toList
        (redirectingDisk.source twoRoots "x.org/a/k".toList (.ofText "/".toList) true) := by
  have hdot : '.' ∈ "x.org/a/k".toList := by decide
  have hgoverning := governing_redirectingDisk
  have hr : redirecting.LongestCover "x.org/a/k".toList
      ⟨"x.org/a".toList, ⟨1, 0, 0, [], false⟩, false⟩ :=
    ⟨by decide +kernel, by decide +kernel, by decide +kernel⟩
  have htarget : "x.org/a/k".toList = "x.org/a".toList ++ "/k".toList := by decide
  have hreplacement : redirecting.replacement? "x.org/a".toList =
      some ⟨"x.org/a".toList, none, .module "x.org/b".toList ⟨1, 1, 0, [], false⟩⟩ := by
    decide +kernel
  have hlookedUp :=
    source_of_replaced_module twoRoots hdot hgoverning hr htarget hreplacement rfl
  exact ⟨hdot, hgoverning, hr, hreplacement, (hlookedUp.1 (by decide)).1⟩

/-- The replacement without a dot is not looked up: no requirement covers it, yet it is found under
the root of the standard library. -/
theorem not_lookedUp_of_dotless_replacement :
    '.' ∈ "x.org/c/k".toList ∧
      redirectingDisk.governing (.ofText "/".toList) = .ok (.root, redirecting) ∧
      redirecting.LongestCover "x.org/c/k".toList
        ⟨"x.org/c".toList, ⟨1, 0, 0, [], false⟩, false⟩ ∧
      redirecting.replacement? "x.org/c".toList =
        some ⟨"x.org/c".toList, none, .module "y".toList ⟨1, 0, 0, [], false⟩⟩ ∧
      redirectingDisk.source twoRoots "x.org/c/k".toList (.ofText "/".toList) true =
        .ok (.ofText "/s/y/k".toList) ∧
      ¬ redirecting.LookedUp twoRoots "y/k".toList
        (redirectingDisk.source twoRoots "x.org/c/k".toList (.ofText "/".toList) true) := by
  have hdot : '.' ∈ "x.org/c/k".toList := by decide
  have hgoverning := governing_redirectingDisk
  have hr : redirecting.LongestCover "x.org/c/k".toList
      ⟨"x.org/c".toList, ⟨1, 0, 0, [], false⟩, false⟩ :=
    ⟨by decide +kernel, by decide +kernel, by decide +kernel⟩
  have htarget : "x.org/c/k".toList = "x.org/c".toList ++ "/k".toList := by decide
  have hreplacement : redirecting.replacement? "x.org/c".toList =
      some ⟨"x.org/c".toList, none, .module "y".toList ⟨1, 0, 0, [], false⟩⟩ := by
    decide +kernel
  have hsource : redirectingDisk.source twoRoots "x.org/c/k".toList (.ofText "/".toList) true =
      .ok (.ofText "/s/y/k".toList) := by
    rw [source_eq_of_replaced_module twoRoots hdot hgoverning hr htarget hreplacement rfl,
      source_of_dotless twoRoots _ _ (by decide)]
    decide
  refine ⟨hdot, hgoverning, hr, hreplacement, hsource, ?_⟩
  rw [hsource]
  intro hlookedUp
  have huncovered : ∀ r ∈ redirecting.require, ¬ Covers r.path "y/k".toList := by decide +kernel
  generalize houtcome : (Except.ok (FilePath.ofText "/s/y/k".toList) :
    Except ResolveError FilePath) = outcome at hlookedUp
  cases hlookedUp with
  | missing h => cases houtcome
  | cached h =>
      obtain ⟨r, below, hr, -, -⟩ := h
      exact huncovered r hr.mem hr.covers
  | unnamed h => cases houtcome

end Disk

end GoModules
