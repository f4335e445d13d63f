import GoModules.Proofs.Disk.Redirect
import GoModules.Proofs.FilePath.Within
import GoModules.Proofs.ModulePath.CacheName

/-!
# Sources below their roots

A package of the standard library is below the root of the library, and a package that is looked up
among the requirements is below the root of the cache. What is below a module is put behind its name
in the cache as it is written, so enough names of the directory above lead out of the cache again;
nothing else does.
-/

namespace GoModules

open Outcome

namespace FilePath

variable {target : Text}

theorem eq_of_join_eq {p q q' : FilePath} (hq : q.isAbsolute = false)
    (hq' : q'.isAbsolute = false) (h : p.join q = p.join q') : q = q' := by
  obtain ⟨bytes⟩ := q
  obtain ⟨bytes'⟩ := q'
  simp only [join, hq, hq', Bool.false_eq_true, if_false] at h
  split at h
  · simpa using h
  · simpa using h

theorem above_notMem_segments_ofText (h : '.' ∉ target) :
    Name.above ∉ (ofText target).segments := by
  intro hmem
  have hpart := (List.mem_filter.mp hmem).1
  have hdot : (0x2e : UInt8) ∈ Name.above := List.mem_cons_self
  have hbyte := (Text.mem_and_ne_of_mem_splitOn hpart hdot).1
  exact h (Utf8.mem_of_mem_encode (by decide) hbyte)

end FilePath

namespace Disk

variable {d : Disk} {config : Config} {start path : FilePath} {root : Location} {m : Manifest}
  {target package : Text} {follow : Bool}

/-- What replaces the longest module that covers a package, and the path of the package below that
module. -/
def ReplacedBy (d : Disk) (start : FilePath) (target : Text) (s : Substitute) (below : Text) :
    Prop :=
  ∃ root m r replacement, d.governing start = .ok (root, m) ∧ m.LongestCover target r ∧
    target = r.path ++ below ∧ m.replacement? r.path = some replacement ∧
    replacement.substitute = s

theorem eq_substitute_of_replacedBy {r : Requirement} {replacement : Replacement} {s : Substitute}
    {below : Text} (h : d.governing start = .ok (root, m)) (hr : m.LongestCover target r)
    (hreplacement : m.replacement? r.path = some replacement)
    (hreplaced : d.ReplacedBy start target s below) : s = replacement.substitute := by
  obtain ⟨root', m', r', replacement', h', hr', -, hreplacement', rfl⟩ := hreplaced
  rw [h, Except.ok.injEq, Prod.mk.injEq] at h'
  obtain ⟨rfl, rfl⟩ := h'
  obtain rfl := hr.unique hr'
  rw [hreplacement, Option.some.injEq] at hreplacement'
  rw [hreplacement']

theorem exists_governing_of_source (hdot : '.' ∈ target)
    (h : d.source config target start follow = .ok path) :
    ∃ root m, d.governing start = .ok (root, m) := by
  cases hgoverning : d.governing start with
  | ok found =>
      obtain ⟨root, m⟩ := found
      exact ⟨root, m, rfl⟩
  | error e => cases follow <;> simp [source, sourceWith, hdot, hgoverning] at h

/-- A package with a dot in its path is found by looking it up itself, or by looking up what
replaces it, which need not have a dot, or else in the directory that replaces it. -/
theorem source_follow_cases (config : Config) (hdot : '.' ∈ target)
    (h : d.governing start = .ok (root, m)) :
    d.source config target start true = d.source config target start false ∨
      (∃ new version below, d.ReplacedBy start target (.module new version) below ∧
        d.source config target start true = d.source config (new ++ below) start false) ∨
      ∃ dir below, d.ReplacedBy start target (.directory dir) below := by
  rw [source_follow_of_governing hdot h, source_of_governing hdot h]
  cases hcovering : m.covering? target with
  | none => exact .inl rfl
  | some found =>
      obtain ⟨r, below⟩ := found
      have hnodup := (wellFormed_of_governing h).require_nodup
      have hr := Manifest.longestCover_of_covering? hnodup hcovering
      have htarget :=
        (ModulePath.below?_eq_some_iff.mp (Manifest.covering?_spec hcovering).2.1).1
      dsimp only
      cases hreplacement : m.replacement? r.path with
      | none => exact .inl rfl
      | some replacement =>
          have hreplaced : d.ReplacedBy start target replacement.substitute below :=
            ⟨root, m, r, replacement, h, hr, htarget, hreplacement, rfl⟩
          rw [Option.map_some]
          cases hsubstitute : replacement.substitute with
          | directory dir =>
              rw [hsubstitute] at hreplaced
              exact .inr (.inr ⟨dir, below, hreplaced⟩)
          | module new version =>
              rw [hsubstitute] at hreplaced
              exact .inr (.inl ⟨new, version, below, hreplaced, rfl⟩)

theorem cachedAs_of_source (hdot : '.' ∈ package) (h : d.governing start = .ok (root, m))
    (hsource : d.source config package start false = .ok path) :
    ∃ name, m.CachedAs package name ∧ path = config.cacheRoot.join (.ofText name) := by
  have hlookedUp := lookedUp_of_governing config hdot h
  rw [hsource] at hlookedUp
  generalize houtcome : (Except.ok path : Except ResolveError FilePath) = outcome at hlookedUp
  cases hlookedUp with
  | missing h => cases houtcome
  | @cached name h =>
      cases houtcome
      exact ⟨name, h, rfl⟩
  | unnamed h => cases houtcome

theorem within_of_cachedAs (hcache : config.cacheRoot.isAbsolute) {name : Text}
    (h : m.CachedAs package name) (hclimbs : ¬ (FilePath.ofText name).Climbs) :
    (config.cacheRoot.join (.ofText name)).Within config.cacheRoot := by
  obtain ⟨r, below, -, -, hname⟩ := h
  exact FilePath.within_join hcache (ModulePath.isAbsolute_of_cacheName hname) hclimbs

/-- A path without a dot is below the root of the standard library, unless it is absolute, whatever
replaces its module. A path with a dot that is looked up under a path with a dot, and not in a
directory that replaces its module, has a name in the cache, and is below the root of the cache
unless that name climbs. -/
theorem within_of_source (hstd : config.stdRoot.isAbsolute) (hcache : config.cacheRoot.isAbsolute)
    (h : d.source config target start follow = .ok path) :
    ('.' ∉ target → target.head? ≠ some '/' → path.Within config.stdRoot) ∧
    ('.' ∈ target →
      (follow → ∀ dir below, ¬ d.ReplacedBy start target (.directory dir) below) →
      (follow → ∀ new version below, d.ReplacedBy start target (.module new version) below →
        '.' ∈ new ++ below) →
      ∃ root m package name, d.governing start = .ok (root, m) ∧
        (package = target ∨ follow ∧ ∃ new version below,
          d.ReplacedBy start target (.module new version) below ∧ package = new ++ below) ∧
        m.CachedAs package name ∧ path = config.cacheRoot.join (.ofText name) ∧
        (¬ (FilePath.ofText name).Climbs → path.Within config.cacheRoot)) := by
  refine ⟨?_, ?_⟩
  · intro hdot hslash
    rw [source_of_dotless config start follow hdot, Except.ok.injEq] at h
    have hrelative := FilePath.isAbsolute_ofText hslash
    have hclimbs := FilePath.not_climbs_of_notMem hrelative
      (FilePath.above_notMem_segments_ofText hdot)
    rw [← h]
    exact FilePath.within_join hstd hrelative hclimbs
  · intro hdot hdirectory hmodule
    obtain ⟨root, m, hgoverning⟩ := exists_governing_of_source hdot h
    have hpackage : ∃ package, '.' ∈ package ∧
        (package = target ∨ follow ∧ ∃ new version below,
          d.ReplacedBy start target (.module new version) below ∧ package = new ++ below) ∧
        d.source config package start false = .ok path := by
      cases follow with
      | false => exact ⟨target, hdot, .inl rfl, h⟩
      | true =>
          rcases source_follow_cases config hdot hgoverning with hsame | hnew | hdir
          · exact ⟨target, hdot, .inl rfl, hsame ▸ h⟩
          · obtain ⟨new, version, below, hreplaced, hsource⟩ := hnew
            exact ⟨new ++ below, hmodule rfl new version below hreplaced,
              .inr ⟨rfl, new, version, below, hreplaced, rfl⟩, hsource ▸ h⟩
          · obtain ⟨dir, below, hreplaced⟩ := hdir
            exact absurd hreplaced (hdirectory rfl dir below)
    obtain ⟨package, hdot', hpackage, hsource⟩ := hpackage
    obtain ⟨name, hname, rfl⟩ := cachedAs_of_source hdot' hgoverning hsource
    exact ⟨root, m, package, name, hgoverning, hpackage, hname, rfl,
      within_of_cachedAs hcache hname⟩

/-- A package of a module that another one replaces, with a name that goes up and down again. -/
theorem within_of_source_redirectingDisk :
    redirectingDisk.source twoRoots "x.org/a/k/../b".toList (.ofText "/".toList) true =
        .ok (.ofText "/c/x.org/b@v1.5.0/k/../b".toList) ∧
      (∀ dir below, ¬ redirectingDisk.ReplacedBy (.ofText "/".toList) "x.org/a/k/../b".toList
        (.directory dir) below) ∧
      (FilePath.ofText "/c/x.org/b@v1.5.0/k/../b".toList).Within twoRoots.cacheRoot := by
  have hcovera : redirecting.LongestCover "x.org/a/k/../b".toList
      ⟨"x.org/a".toList, ⟨1, 0, 0, [], false⟩, false⟩ :=
    ⟨by decide +kernel, by decide +kernel, by decide +kernel⟩
  have hcoverb : redirecting.LongestCover "x.org/b/k/../b".toList
      ⟨"x.org/b".toList, ⟨1, 5, 0, [], false⟩, false⟩ :=
    ⟨by decide +kernel, by decide +kernel, by decide +kernel⟩
  have hfoundb : redirecting.covering? "x.org/b/k/../b".toList =
      some (⟨"x.org/b".toList, ⟨1, 5, 0, [], false⟩, false⟩, "/k/../b".toList) :=
    Manifest.covering?_of_longestCover (by decide +kernel) hcoverb (by decide)
  have hreplacement : redirecting.replacement? "x.org/a".toList =
      some ⟨"x.org/a".toList, none, .module "x.org/b".toList ⟨1, 1, 0, [], false⟩⟩ := by
    decide +kernel
  have hsource : redirectingDisk.source twoRoots "x.org/a/k/../b".toList (.ofText "/".toList) true =
      .ok (.ofText "/c/x.org/b@v1.5.0/k/../b".toList) := by
    rw [source_eq_of_replaced_module twoRoots (by decide) governing_redirectingDisk hcovera
        (by decide : "x.org/a/k/../b".toList = "x.org/a".toList ++ "/k/../b".toList) hreplacement
        rfl, source_of_governing (by decide) governing_redirectingDisk]
    have hpackage : "x.org/b".toList ++ "/k/../b".toList = "x.org/b/k/../b".toList := by decide
    rw [hpackage, hfoundb]
    decide +kernel
  have hdirectory : ∀ dir below, ¬ redirectingDisk.ReplacedBy (.ofText "/".toList)
      "x.org/a/k/../b".toList (.directory dir) below := by
    intro dir below hreplaced
    have hs := eq_substitute_of_replacedBy governing_redirectingDisk hcovera hreplacement hreplaced
    cases hs
  have hmodule : ∀ new version below, redirectingDisk.ReplacedBy (.ofText "/".toList)
      "x.org/a/k/../b".toList (.module new version) below → '.' ∈ new ++ below := by
    intro new version below hreplaced
    have hs := eq_substitute_of_replacedBy governing_redirectingDisk hcovera hreplacement hreplaced
    cases hs
    exact List.mem_append_left _ (by decide)
  refine ⟨hsource, hdirectory, ?_⟩
  obtain ⟨root, m, package, name, -, -, ⟨r, below, -, -, hname⟩, hpath, hwithin⟩ :=
    (within_of_source (by decide) (by decide) hsource).2 (by decide) (fun _ => hdirectory)
      fun _ => hmodule
  apply hwithin
  have hjoin : twoRoots.cacheRoot.join (.ofText "x.org/b@v1.5.0/k/../b".toList) =
      .ofText "/c/x.org/b@v1.5.0/k/../b".toList := by decide
  have hsame := FilePath.eq_of_join_eq (ModulePath.isAbsolute_of_cacheName hname) (by decide)
    (hpath.symm.trans hjoin.symm)
  rw [hsame]
  decide +kernel

theorem not_within_of_source :
    twoRoots.stdRoot.isAbsolute ∧ twoRoots.cacheRoot.isAbsolute ∧
      (redirectingDisk.source twoRoots "x.org/a/../../../etc".toList (.ofText "/".toList) false =
          .ok (.ofText "/c/x.org/a@v1.0.0/../../../etc".toList) ∧
        ¬ (FilePath.ofText "/c/x.org/a@v1.0.0/../../../etc".toList).Within twoRoots.cacheRoot) ∧
      (redirectingDisk.source twoRoots "/etc".toList (.ofText "/".toList) false =
          .ok (.ofText "/etc".toList) ∧
        ¬ (FilePath.ofText "/etc".toList).Within twoRoots.stdRoot) ∧
      redirectingDisk.source twoRoots "x.org/c/k".toList (.ofText "/".toList) true =
          .ok (.ofText "/s/y/k".toList) ∧
        (∀ dir below, ¬ redirectingDisk.ReplacedBy (.ofText "/".toList) "x.org/c/k".toList
          (.directory dir) below) ∧
        ¬ (FilePath.ofText "/s/y/k".toList).Within twoRoots.cacheRoot := by
  have hcovera : redirecting.LongestCover "x.org/a/../../../etc".toList
      ⟨"x.org/a".toList, ⟨1, 0, 0, [], false⟩, false⟩ :=
    ⟨by decide +kernel, by decide +kernel, by decide +kernel⟩
  have hfounda : redirecting.covering? "x.org/a/../../../etc".toList =
      some (⟨"x.org/a".toList, ⟨1, 0, 0, [], false⟩, false⟩, "/../../../etc".toList) :=
    Manifest.covering?_of_longestCover (by decide +kernel) hcovera (by decide)
  have hcoverc : redirecting.LongestCover "x.org/c/k".toList
      ⟨"x.org/c".toList, ⟨1, 0, 0, [], false⟩, false⟩ :=
    ⟨by decide +kernel, by decide +kernel, by decide +kernel⟩
  have hreplacement : redirecting.replacement? "x.org/c".toList =
      some ⟨"x.org/c".toList, none, .module "y".toList ⟨1, 0, 0, [], false⟩⟩ := by
    decide +kernel
  refine ⟨by decide, by decide, ⟨?_, by decide +kernel⟩, ⟨?_, by decide +kernel⟩, ?_, ?_,
    by decide +kernel⟩
  · rw [source_of_governing (by decide) governing_redirectingDisk, hfounda]
    decide +kernel
  · rw [source_of_dotless twoRoots _ _ (by decide)]
    decide
  · rw [source_eq_of_replaced_module twoRoots (by decide) governing_redirectingDisk hcoverc
      (by decide : "x.org/c/k".toList = "x.org/c".toList ++ "/k".toList) hreplacement rfl,
      source_of_dotless twoRoots _ _ (by decide)]
    decide
  · intro dir below hreplaced
    have hs := eq_substitute_of_replacedBy governing_redirectingDisk hcoverc hreplacement hreplaced
    cases hs

end Disk

end GoModules
