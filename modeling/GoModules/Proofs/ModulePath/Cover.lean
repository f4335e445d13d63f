import GoModules.Disk.Source
import GoModules.Proofs.Text.Cut
import Mathlib.Data.List.Nodup

/-!
# Requirements that cover a package

A module covers a package if the elements of its path are the first elements of the path of the
package. What is below the module is then the rest of the path, and two modules that cover one
package differ in the lengths of their paths.
-/

namespace GoModules

open Text (byteLength)

namespace ModulePath

/-- The elements of the path of a module come first among those of the path of a package. -/
def Covers (path target : Text) : Prop :=
  elements path <+: elements target

instance (path target : Text) : Decidable (Covers path target) :=
  inferInstanceAs (Decidable (elements path <+: elements target))

variable {path other target below : Text}

theorem below?_eq_some_iff :
    below? path target = some below ↔ target = path ++ below ∧ ∀ c ∈ below.head?, c = '/' := by
  unfold below?
  constructor
  · intro h
    split at h
    · next hrest =>
        cases h
        exact ⟨(List.isPrefixOf?_eq_some_iff_append_eq.mp hrest).symm, by simp⟩
    · next rest hrest =>
        cases h
        exact ⟨(List.isPrefixOf?_eq_some_iff_append_eq.mp hrest).symm, by simp⟩
    · cases h
  · rintro ⟨htarget, hhead⟩
    rw [List.isPrefixOf?_eq_some_iff_append_eq.mpr htarget.symm]
    cases below with
    | nil => rfl
    | cons c below =>
        obtain rfl : c = '/' := hhead c rfl
        rfl

theorem covers_iff : Covers path target ↔ ∃ below, below? path target = some below := by
  simp only [below?_eq_some_iff]
  exact Text.splitOn_prefix_splitOn_iff

theorem not_covers_iff : ¬ Covers path target ↔ below? path target = none := by
  rw [covers_iff, not_exists, Option.eq_none_iff_forall_ne_some]

theorem Covers.isPrefix (h : Covers path target) : path <+: target := by
  obtain ⟨below, hbelow⟩ := covers_iff.mp h
  exact ⟨below, (below?_eq_some_iff.mp hbelow).1.symm⟩

theorem eq_of_isPrefix_of_byteLength (h : path <+: other)
    (hlength : byteLength path = byteLength other) : path = other := by
  obtain ⟨rest, rfl⟩ := h
  cases rest with
  | nil => rw [List.append_nil]
  | cons c rest =>
      have hc := c.utf8Size_pos
      simp only [Text.byteLength_append, Text.byteLength_cons] at hlength
      omega

/-- Both paths are beginnings of one text, so their lengths tell them apart. -/
theorem Covers.eq_of_byteLength (hpath : Covers path target) (hother : Covers other target)
    (hlength : byteLength path = byteLength other) : path = other := by
  rcases List.prefix_or_prefix_of_prefix hpath.isPrefix hother.isPrefix with h | h
  · exact eq_of_isPrefix_of_byteLength h hlength
  · exact (eq_of_isPrefix_of_byteLength h hlength.symm).symm

end ModulePath

namespace Manifest

open ModulePath (Covers below? covers_iff not_covers_iff)

/-- The requirement that covers a package and has a longer path than any other that does. -/
structure LongestCover (m : Manifest) (target : Text) (r : Requirement) : Prop where
  mem : r ∈ m.require
  covers : Covers r.path target
  longer : ∀ other ∈ m.require.erase r, Covers other.path target →
    byteLength other.path < byteLength r.path

variable {m : Manifest} {target below : Text} {r : Requirement}

theorem pairwise_longestFirst (m : Manifest) :
    m.longestFirst.Pairwise fun a b => byteLength b.path ≤ byteLength a.path := by
  have hsorted : m.longestFirst.Pairwise
      fun a b => decide (byteLength b.path ≤ byteLength a.path) = true := by
    apply List.pairwise_mergeSort
    · simp only [decide_eq_true_eq]
      omega
    · simp only [Bool.or_eq_true, decide_eq_true_eq]
      omega
  simpa only [decide_eq_true_eq] using hsorted

theorem covering?_eq_none_iff :
    m.covering? target = none ↔ ∀ r ∈ m.require, ¬ Covers r.path target := by
  rw [covering?, List.findSome?_eq_none_iff]
  simp only [longestFirst, List.mem_mergeSort, Option.map_eq_none_iff, not_covers_iff]

/-- The first requirement that covers a package is as long as any, since the longest come first. -/
theorem covering?_spec (h : m.covering? target = some (r, below)) :
    r ∈ m.require ∧ below? r.path target = some below ∧
      ∀ other ∈ m.require, Covers other.path target →
        byteLength other.path ≤ byteLength r.path := by
  obtain ⟨front, a, back, hsplit, ha, hfront⟩ := List.findSome?_eq_some_iff.mp h
  obtain ⟨rest, hrest, heq⟩ := Option.map_eq_some_iff.mp ha
  cases heq
  have hmem : ∀ other, other ∈ m.require ↔ other ∈ front ++ r :: back := by
    intro other
    rw [← hsplit]
    exact List.mem_mergeSort.symm
  refine ⟨(hmem r).mpr (by simp), hrest, ?_⟩
  intro other hother hcovers
  obtain ⟨rest, hrest⟩ := covers_iff.mp hcovers
  have hsorted := m.pairwise_longestFirst
  rw [hsplit, List.pairwise_append, List.pairwise_cons] at hsorted
  rcases List.mem_append.mp ((hmem other).mp hother) with hin | hin
  · have := hfront other hin
    simp [hrest] at this
  · rcases List.mem_cons.mp hin with rfl | hin
    · exact Nat.le_refl _
    · exact hsorted.2.1.1 other hin

/-- With distinct paths, the requirement that is found is the only one of its length. -/
theorem longestCover_of_covering? (hnodup : (m.require.map (·.path)).Nodup)
    (h : m.covering? target = some (r, below)) : m.LongestCover target r := by
  obtain ⟨hmem, hbelow, hlongest⟩ := covering?_spec h
  have hcovers : Covers r.path target := covers_iff.mpr ⟨below, hbelow⟩
  refine ⟨hmem, hcovers, ?_⟩
  intro other hother hother_covers
  obtain ⟨hne, hother⟩ := (List.Nodup.of_map _ hnodup).mem_erase_iff.mp hother
  refine Nat.lt_of_le_of_ne (hlongest other hother hother_covers) ?_
  intro hlength
  exact hne (List.inj_on_of_nodup_map hnodup hother hmem
    (hother_covers.eq_of_byteLength hcovers hlength))

end Manifest

end GoModules
