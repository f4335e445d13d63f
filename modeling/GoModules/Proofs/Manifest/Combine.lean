import GoModules.Manifest.Basic
import Mathlib.Data.List.Basic
import Mathlib.Tactic.Tauto

/-!
# Combining manifests

Two manifests are compatible if they do not both hold what a manifest holds at most once. What they
hold together is put together field by field; the empty manifest is neutral, and compatibility with
a combination is compatibility with its parts.
-/

namespace GoModules.Manifest

/-- The manifest that holds what two manifests hold, the first one's parts in front. -/
def combine (a b : Manifest) : Manifest where
  module := a.module.or b.module
  go := a.go.or b.go
  toolchain := a.toolchain.or b.toolchain
  require := a.require ++ b.require
  exclude := a.exclude ++ b.exclude
  replace := a.replace ++ b.replace
  retract := a.retract ++ b.retract
  godebug := a.godebug ++ b.godebug
  tool := a.tool ++ b.tool
  ignore := a.ignore ++ b.ignore

/-- Two manifests that no declaration made at most once is in conflict between. -/
structure Compatible (a b : Manifest) : Prop where
  module : ¬ (a.module.isSome ∧ b.module.isSome)
  go : ¬ (a.go.isSome ∧ b.go.isSome)
  toolchain : ¬ (a.toolchain.isSome ∧ b.toolchain.isSome)
  require : ∀ r ∈ a.require, ∀ s ∈ b.require, r.path ≠ s.path

@[simp] theorem empty_combine (a : Manifest) : combine {} a = a := by
  simp [combine]

@[simp] theorem combine_empty (a : Manifest) : a.combine {} = a := by
  simp [combine]

theorem combine_assoc (a b c : Manifest) : (a.combine b).combine c = a.combine (b.combine c) := by
  simp [combine, Option.or_assoc]

theorem compatible_empty (a : Manifest) : a.Compatible {} :=
  ⟨by simp, by simp, by simp, by simp⟩

theorem compatible_iff {a b : Manifest} :
    a.Compatible b ↔
      (a.module.isSome → ¬ b.module.isSome) ∧ (a.go.isSome → ¬ b.go.isSome) ∧
        (a.toolchain.isSome → ¬ b.toolchain.isSome) ∧
          ∀ r ∈ a.require, ∀ s ∈ b.require, r.path ≠ s.path := by
  constructor
  · rintro ⟨hmodule, hgo, htoolchain, hrequire⟩
    exact ⟨not_and.mp hmodule, not_and.mp hgo, not_and.mp htoolchain, hrequire⟩
  · rintro ⟨hmodule, hgo, htoolchain, hrequire⟩
    exact ⟨not_and.mpr hmodule, not_and.mpr hgo, not_and.mpr htoolchain, hrequire⟩

theorem combine_compatible_iff {a b c : Manifest} :
    (a.combine b).Compatible c ↔ a.Compatible c ∧ b.Compatible c := by
  simp only [compatible_iff, combine, Option.isSome_or, Bool.or_eq_true, List.mem_append, or_imp,
    forall_and]
  tauto

theorem compatible_combine_iff {a b c : Manifest} :
    a.Compatible (b.combine c) ↔ a.Compatible b ∧ a.Compatible c := by
  simp only [compatible_iff, combine, Option.isSome_or, Bool.or_eq_true, List.mem_append, or_imp,
    forall_and, not_or]
  tauto

/-- What several manifests hold together. -/
def combineAll (parts : List Manifest) : Manifest :=
  parts.foldr combine {}

theorem combineAll_append (front back : List Manifest) :
    combineAll (front ++ back) = (combineAll front).combine (combineAll back) := by
  induction front with
  | nil => exact (empty_combine _).symm
  | cons part front ih =>
      rw [List.cons_append, combineAll, List.foldr_cons, ← combineAll, ih, ← combine_assoc]
      rfl

theorem combineAll_flatMap {α : Type} (as : List α) (f : α → List Manifest) :
    combineAll (as.flatMap f) = combineAll (as.map fun a => combineAll (f a)) := by
  induction as with
  | nil => rfl
  | cons a as ih =>
      rw [List.flatMap_cons, combineAll_append, ih]
      rfl

/-- Where one more entry is put in front, the list of all of them is put together from the back. -/
theorem combineAll_map {α : Type} {f : α → Manifest} {g : List α → Manifest} (hnil : g [] = {})
    (hcons : ∀ a as, (f a).combine (g as) = g (a :: as)) (as : List α) :
    combineAll (as.map f) = g as := by
  induction as with
  | nil => exact hnil.symm
  | cons a as ih =>
      rw [List.map_cons, combineAll, List.foldr_cons, ← combineAll, ih]
      exact hcons a as

end GoModules.Manifest
