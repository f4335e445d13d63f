import GoModules.Disk.Snapshot
import GoModules.Proofs.Disk.Redirect

/-!
# What of a manifest matters for sources

Two disks whose manifests require the same versions of the same modules find the same sources, if
the one module that covers a package is replaced alike: nothing else in a manifest plays a part, nor
does any order in it.
-/

namespace GoModules

open ModulePath (Covers below?_eq_some_iff)
open Outcome

/-- A module at the version that is required. -/
def Requirement.versioned (r : Requirement) : Text × Version :=
  (r.path, r.version)

namespace Manifest

variable {m n : Manifest} {target below : Text} {r : Requirement}

/-- The same versions of the same modules are required, in whatever order. -/
def SameRequirements (m n : Manifest) : Prop :=
  ∀ required, required ∈ m.require.map Requirement.versioned ↔
    required ∈ n.require.map Requirement.versioned

/-- What replaces a module has the same path in both manifests, or nothing replaces it in either. -/
def SameReplacement (m n : Manifest) (path : Text) : Prop :=
  (m.replacement? path).map (·.substitute.path) = (n.replacement? path).map (·.substitute.path)

theorem SameRequirements.refl (m : Manifest) : m.SameRequirements m :=
  fun _ => Iff.rfl

theorem SameRequirements.symm (h : m.SameRequirements n) : n.SameRequirements m :=
  fun required => (h required).symm

theorem SameRequirements.exists_mem (h : m.SameRequirements n) (hr : r ∈ m.require) :
    ∃ r' ∈ n.require, r'.path = r.path ∧ r'.version = r.version := by
  have hmem := (h r.versioned).mp (List.mem_map_of_mem hr)
  obtain ⟨r', hr', heq⟩ := List.mem_map.mp hmem
  rw [Requirement.versioned, Requirement.versioned, Prod.mk.injEq] at heq
  exact ⟨r', hr', heq⟩

theorem SameRequirements.covering?_eq_none (h : m.SameRequirements n)
    (hnone : m.covering? target = none) : n.covering? target = none := by
  rw [covering?_eq_none_iff] at hnone ⊢
  intro r hr hcovers
  obtain ⟨r', hr', hpath, -⟩ := h.symm.exists_mem hr
  rw [← hpath] at hcovers
  exact hnone r' hr' hcovers

/-- The longest requirement that covers a package is found at the same path and version, since the
lengths of the paths that cover one package tell them apart. -/
theorem SameRequirements.covering?_eq_some (h : m.SameRequirements n)
    (hnodup : (n.require.map (·.path)).Nodup) (hsome : m.covering? target = some (r, below)) :
    ∃ r', n.covering? target = some (r', below) ∧
      r'.path = r.path ∧ r'.version = r.version := by
  obtain ⟨hmem, hbelow, hlongest⟩ := covering?_spec hsome
  have hcovers : Covers r.path target := ModulePath.covers_iff.mpr ⟨below, hbelow⟩
  cases hcovering : n.covering? target with
  | none =>
      have hnone := covering?_eq_none_iff.mp (h.symm.covering?_eq_none hcovering)
      exact absurd hcovers (hnone r hmem)
  | some found =>
      obtain ⟨r', below'⟩ := found
      obtain ⟨hmem', hbelow', hlongest'⟩ := covering?_spec hcovering
      have hcovers' : Covers r'.path target := ModulePath.covers_iff.mpr ⟨below', hbelow'⟩
      obtain ⟨a, ha, hapath, haversion⟩ := h.exists_mem hmem
      obtain ⟨b, hb, hbpath, -⟩ := h.symm.exists_mem hmem'
      have hlength : Text.byteLength r'.path = Text.byteLength r.path := by
        apply Nat.le_antisymm
        · rw [← hbpath]
          exact hlongest b hb (hbpath.symm ▸ hcovers')
        · rw [← hapath]
          exact hlongest' a ha (hapath.symm ▸ hcovers)
      have hpath : r'.path = r.path := hcovers'.eq_of_byteLength hcovers hlength
      obtain rfl : r' = a := List.inj_on_of_nodup_map hnodup hmem' ha (hpath.trans hapath.symm)
      have htarget := (below?_eq_some_iff.mp hbelow).1
      rw [(below?_eq_some_iff.mp hbelow').1, hpath, List.append_cancel_left_eq] at htarget
      rw [htarget]
      exact ⟨r', rfl, hpath, haversion⟩

theorem replacement?_spec {path : Text} {replacement : Replacement} (hm : m.WellFormed)
    (h : m.replacement? path = some replacement) : replacement.WellFormed :=
  hm.replace replacement (List.mem_of_find?_eq_some h)

/-- A path tells directories from modules, so only the version of a module may differ. -/
theorem SameReplacement.cases {path : Text} (h : m.SameReplacement n path) (hm : m.WellFormed)
    (hn : n.WellFormed) :
    (m.replacement? path).map Replacement.substitute =
        (n.replacement? path).map Replacement.substitute ∨
      ∃ new version version',
        (m.replacement? path).map Replacement.substitute = some (.module new version) ∧
        (n.replacement? path).map Replacement.substitute = some (.module new version') := by
  unfold SameReplacement at h
  cases hreplacement : m.replacement? path with
  | none =>
      rw [hreplacement, Option.map_none, eq_comm, Option.map_eq_none_iff] at h
      rw [h]
      exact .inl rfl
  | some replacement =>
      rw [hreplacement, Option.map_some, eq_comm, Option.map_eq_some_iff] at h
      obtain ⟨replacement', hreplacement', hpath⟩ := h
      have hdirectory := (replacement?_spec hm hreplacement).directory
      have hdirectory' := (replacement?_spec hn hreplacement').directory
      rw [hpath, ← hdirectory] at hdirectory'
      rw [hreplacement', Option.map_some, Option.map_some]
      cases hs : replacement.substitute with
      | directory new =>
          cases hs' : replacement'.substitute with
          | directory new' =>
              rw [hs, hs'] at hpath
              left
              exact congrArg some (congrArg Substitute.directory hpath.symm)
          | module new' version' =>
              rw [hs, hs'] at hdirectory'
              simp [Substitute.version?] at hdirectory'
      | module new version =>
          cases hs' : replacement'.substitute with
          | directory new' =>
              rw [hs, hs'] at hdirectory'
              simp [Substitute.version?] at hdirectory'
          | module new' version' =>
              rw [hs, hs'] at hpath
              obtain rfl : new' = new := hpath
              exact .inr ⟨new', version, version', rfl, rfl⟩

end Manifest

namespace Disk

variable {d e : Disk} {config : Config} {start : FilePath} {root : Location} {m n : Manifest}
  {target : Text} {x y : Bytes}

/-- Two disks on which the same is at the same places, except that files which hold `x` on the one
may hold `y` on the other. -/
structure SameBesides (x y : Bytes) (d e : Disk) : Prop where
  workingDirectory : d.workingDirectory = e.workingDirectory
  stat : d.stat = e.stat
  read : ∀ path, d.read path = e.read path ∨ d.read path = .ok x ∧ e.read path = .ok y

theorem locate_congr (h : d.workingDirectory = e.workingDirectory) (path : FilePath) :
    d.locate path = e.locate path := by
  rw [locate, locate, h]

theorem SameBesides.moduleRoot_eq (h : SameBesides x y d e) (start : FilePath) :
    d.moduleRoot start = e.moduleRoot start := by
  have hnearest : d.nearest? = e.nearest? := by
    funext names
    exact nearest?_congr fun path _ => congrFun h.stat path
  have hfile : d.isFile = e.isFile := by
    funext path
    rw [isFile, isFile, h.stat]
  rw [moduleRoot, moduleRoot, searchStart, searchStart, hnearest, hfile,
    locate_congr h.workingDirectory]

/-- The governing manifests are one and the same, or the two that are exchanged. -/
theorem SameBesides.governing_cases (h : SameBesides x y d e) (hx : Manifest.read x = .ok m)
    (hy : Manifest.read y = .ok n) (start : FilePath) :
    d.governing start = e.governing start ∨
      ∃ root, d.governing start = .ok (root, m) ∧ e.governing start = .ok (root, n) := by
  unfold governing
  rw [h.moduleRoot_eq]
  cases hroot : e.moduleRoot start with
  | error error => exact .inl rfl
  | ok root =>
      simp only [ok_bind, readManifest]
      rcases h.read root.manifestPath with hread | ⟨hdx, hey⟩
      · rw [hread]
        exact .inl rfl
      · rw [hdx, hey]
        simp only [mapError_ok, ok_bind, hx, hy]
        exact .inr ⟨root, rfl, rfl⟩

theorem replacementDirectory_congr (h : d.workingDirectory = e.workingDirectory) (root : Location)
    (path : Text) : d.replacementDirectory root path = e.replacementDirectory root path := by
  rw [replacementDirectory, replacementDirectory, locate_congr h]

section Same

variable (hd : d.governing start = .ok (root, m)) (he : e.governing start = .ok (root, n))
  (hsame : m.SameRequirements n)

include hd he hsame

theorem source_direct_eq_of_sameRequirements (config : Config) (target : Text) :
    d.source config target start false = e.source config target start false := by
  by_cases hdot : '.' ∈ target
  · rw [source_of_governing hdot hd, source_of_governing hdot he]
    cases hcovering : m.covering? target with
    | none => rw [hsame.covering?_eq_none hcovering]
    | some found =>
        obtain ⟨r, below⟩ := found
        have hnodup := (wellFormed_of_governing he).require_nodup
        obtain ⟨r', hcovering', hpath, hversion⟩ := hsame.covering?_eq_some hnodup hcovering
        rw [hcovering']
        dsimp only
        rw [hpath, hversion]
  · rw [source_of_dotless config start false hdot, source_of_dotless config start false hdot]

theorem source_follow_eq_of_sameRequirements (config : Config)
    (hdirectory : d.workingDirectory = e.workingDirectory)
    (hreplace : ∀ r, m.LongestCover target r → m.SameReplacement n r.path) :
    d.source config target start true = e.source config target start true := by
  by_cases hdot : '.' ∈ target
  · rw [source_follow_of_governing hdot hd, source_follow_of_governing hdot he]
    cases hcovering : m.covering? target with
    | none => rw [hsame.covering?_eq_none hcovering]
    | some found =>
        obtain ⟨r, below⟩ := found
        have hwellFormed := wellFormed_of_governing hd
        have hwellFormed' := wellFormed_of_governing he
        obtain ⟨r', hcovering', hpath, hversion⟩ :=
          hsame.covering?_eq_some hwellFormed'.require_nodup hcovering
        have hr := Manifest.longestCover_of_covering? hwellFormed.require_nodup hcovering
        have hreplaced := hreplace r hr
        rw [hcovering']
        dsimp only
        rw [hpath, hversion]
        rcases hreplaced.cases hwellFormed hwellFormed' with halike | hmodules
        · rw [halike]
          cases (n.replacement? r.path).map Replacement.substitute with
          | none => rfl
          | some substitute =>
              cases substitute with
              | directory path => exact replacementDirectory_congr hdirectory root path
              | module path version =>
                  exact source_direct_eq_of_sameRequirements hd he hsame config (path ++ below)
        · obtain ⟨new, version, version', hm, hn⟩ := hmodules
          rw [hm, hn]
          exact source_direct_eq_of_sameRequirements hd he hsame config (new ++ below)
  · rw [source_of_dotless config start true hdot, source_of_dotless config start true hdot]

end Same

/-- The requirements of a manifest, as a set, and the replacement of the one module that covers a
package are all that matters for where the package is found. -/
theorem source_eq_of_sameRequirements (h : SameBesides x y d e) (hx : Manifest.read x = .ok m)
    (hy : Manifest.read y = .ok n) (hsame : m.SameRequirements n)
    (hreplace : ∀ r, m.LongestCover target r → m.SameReplacement n r.path) (config : Config)
    (start : FilePath) (follow : Bool) :
    d.source config target start follow = e.source config target start follow := by
  have halike : ∀ {root : Location} {m n : Manifest}, d.governing start = .ok (root, m) →
      e.governing start = .ok (root, n) → m.SameRequirements n →
      (∀ r, m.LongestCover target r → m.SameReplacement n r.path) →
      d.source config target start follow = e.source config target start follow := by
    intro root m n hd he hsame hreplace
    cases follow with
    | false => exact source_direct_eq_of_sameRequirements hd he hsame config target
    | true =>
        exact source_follow_eq_of_sameRequirements hd he hsame config h.workingDirectory hreplace
  rcases h.governing_cases hx hy start with hgoverning | ⟨root, hd, he⟩
  · cases he : e.governing start with
    | ok found =>
        obtain ⟨root, m⟩ := found
        exact halike (hgoverning.trans he) he (.refl m) fun _ _ => rfl
    | error error =>
        by_cases hdot : '.' ∈ target
        · rw [source_of_governing_error hdot (hgoverning.trans he),
            source_of_governing_error hdot he]
        · rw [source_of_dotless config start follow hdot,
            source_of_dotless config start follow hdot]
  · exact halike hd he hsame hreplace

/-- A manifest that requires two modules and replaces one of them by the other. -/
def plain : Manifest where
  require := [
    ⟨"x.org/a".toList, ⟨1, 0, 0, [], false⟩, false⟩,
    ⟨"x.org/b".toList, ⟨1, 5, 0, [], false⟩, false⟩]
  replace := [⟨"x.org/a".toList, none, .module "x.org/b".toList ⟨1, 1, 0, [], false⟩⟩]

/-- The same in another order, with other versions beside the replacement and more around it. -/
def rearranged : Manifest where
  module := some ⟨"x.org/m".toList, none⟩
  require := [
    ⟨"x.org/b".toList, ⟨1, 5, 0, [], false⟩, true⟩,
    ⟨"x.org/a".toList, ⟨1, 0, 0, [], false⟩, false⟩]
  replace := [
    ⟨"x.org/b".toList, none, .directory "../b".toList⟩,
    ⟨"x.org/a".toList, some ⟨1, 0, 0, [], false⟩,
      .module "x.org/b".toList ⟨1, 9, 0, [], false⟩⟩]

def plainLines : List String := [
  "require x.org/a v1.0.0",
  "require x.org/b v1.5.0",
  "replace x.org/a => x.org/b v1.1.0"]

def rearrangedLines : List String := [
  "module x.org/m",
  "require x.org/b v1.5.0 // indirect",
  "require x.org/a v1.0.0",
  "replace x.org/b => ../b",
  "replace x.org/a v1.0.0 => x.org/b v1.9.0"]

theorem source_eq_of_sameRequirements_rearranged :
    Manifest.read (manifestBytes plainLines) = .ok plain ∧
      Manifest.read (manifestBytes rearrangedLines) = .ok rearranged ∧
      ∀ follow,
        (rootDisk plainLines).source twoRoots "x.org/a/k".toList (.ofText "/".toList) follow =
          (rootDisk rearrangedLines).source twoRoots "x.org/a/k".toList (.ofText "/".toList)
            follow := by
  have hplain : Manifest.read (manifestBytes plainLines) = .ok plain := by decide +kernel
  have hrearranged : Manifest.read (manifestBytes rearrangedLines) = .ok rearranged := by
    decide +kernel
  have hdisks : SameBesides (manifestBytes plainLines) (manifestBytes rearrangedLines)
      (rootDisk plainLines) (rootDisk rearrangedLines) :=
    ⟨rfl, rfl, fun _ => .inr ⟨rfl, rfl⟩⟩
  have hsame : plain.SameRequirements rearranged := by
    intro required
    simp [plain, rearranged, Requirement.versioned, or_comm]
  have hreplace : ∀ r, plain.LongestCover "x.org/a/k".toList r →
      plain.SameReplacement rearranged r.path := by
    intro r hr
    have hpath : ∀ r ∈ plain.require, Covers r.path "x.org/a/k".toList →
        r.path = "x.org/a".toList := by
      decide +kernel
    rw [hpath r hr.mem hr.covers]
    unfold Manifest.SameReplacement
    decide +kernel
  exact ⟨hplain, hrearranged, source_eq_of_sameRequirements hdisks hplain hrearranged hsame
    hreplace twoRoots (.ofText "/".toList)⟩

end Disk

end GoModules
