import GoModules.Manifest.Directive
import GoModules.Proofs.ModulePath.MajorSuffix
import GoModules.Proofs.Version.Canonical
import Mathlib.Data.List.Basic

/-!
# Versions that agree with a path

The major-version suffix of a module path restricts the versions of the module. Agreement is stated
on the suffix as a text and on the version; the check that directives make is equivalent to it for
every suffix that a path can have.
-/

namespace GoModules

open ModulePath (cutUnstable unstableMark splitMajor? splitDotted?)
open Text (decimal)

/-- The versions that a major-version suffix admits. A version made up for a commit of the first
major version counts as one of the zeroth. -/
inductive Version.Agrees (v : Version) : (suffix : Text) → Prop
  | unmarked (h : v.major ≤ 1 ∨ v.incompatible) : v.Agrees []
  | slash : v.Agrees ("/v".toList ++ decimal v.major)
  | dotted {mark : Text} (hmark : mark = [] ∨ mark = unstableMark) :
      v.Agrees (".v".toList ++ decimal v.major ++ mark)
  | pseudo {mark : Text} (hmark : mark = [] ∨ mark = unstableMark)
      (h : "v0.0.0-".toList <+: v.text) : v.Agrees (".v1".toList ++ mark)

namespace ModulePath

/-- What is compared with a version is the suffix without a final mark of unstable paths, which only
a dotted suffix can have. -/
theorem exists_mark_compared (suffix : Text) :
    ∃ mark : Text, (mark = [] ∨ mark = unstableMark) ∧ (".v".toList <+: suffix ∨ mark = []) ∧
      suffix =
        (if ".v".toList.isPrefixOf suffix then (cutUnstable suffix).1 else suffix) ++ mark := by
  split
  · next hprefix =>
      obtain ⟨happend, hmark⟩ := cutUnstable_spec suffix
      exact ⟨_, hmark, .inl (List.isPrefixOf_iff_prefix.mp hprefix), happend.symm⟩
  · exact ⟨[], .inl rfl, .inr rfl, (List.append_nil suffix).symm⟩

end ModulePath

namespace Version

theorem prefix_text_of_isZeroPseudo {v : Version} (h : v.isZeroPseudo) :
    "v0.0.0-".toList <+: v.text := by
  obtain ⟨major, minor, patch, pre, incompatible⟩ := v
  simp only [isZeroPseudo, Bool.and_eq_true, beq_iff_eq, bne_iff_ne] at h
  obtain ⟨⟨⟨rfl, rfl⟩, rfl⟩, hpre⟩ := h
  refine ⟨pre ++ if incompatible then '+' :: incompatibleMark else [], ?_⟩
  simp [text, hpre, decimal, Nat.toDigits_zero]

theorem isZeroPseudo_of_prefix_text {v : Version} (h : "v0.0.0-".toList <+: v.text) :
    v.isZeroPseudo := by
  obtain ⟨rest, hrest⟩ := h
  have hnumbers : ∀ c ∈ "0.0.0".toList, (c == '-' || c == '+') = false := by
    simp
  have hcut : Text.cutAt (fun c => c == '-' || c == '+') ("0.0.0".toList ++ '-' :: rest) =
      ("0.0.0".toList, '-' :: rest) :=
    Text.cutAt_append_of_head? hnumbers (by simp)
  have htext : v.core ++ v.tail = "0.0.0".toList ++ '-' :: rest := by
    rw [text_eq] at hrest
    exact (List.cons.inj hrest).2.symm
  rw [← htext, cutAt_core_append_tail, Prod.mk.injEq] at hcut
  obtain ⟨hcore, htail⟩ := hcut
  have hzeros : [decimal v.major, decimal v.minor, decimal v.patch] = [['0'], ['0'], ['0']] := by
    rw [← splitOn_core, hcore]
    decide
  have hzero : ∀ n, decimal n = ['0'] → n = 0 := by
    intro n hn
    apply Text.eq_zero_of_head?_decimal
    rw [hn]
    rfl
  simp only [List.cons.injEq, and_true] at hzeros
  obtain ⟨hmajor, hminor, hpatch⟩ := hzeros
  have hpre : v.pre ≠ [] := by
    intro hnil
    rw [tail, if_pos hnil, build] at htail
    split at htail
    · cases htail
    · cases htail
  simp [isZeroPseudo, hzero _ hmajor, hzero _ hminor, hzero _ hpatch, hpre]

/-- A version that passes the check agrees with the suffix. The mark of unstable paths is cut off
for the check only, so it is put back behind what was compared. -/
theorem agrees_of_checkMajor {v : Version} {path front suffix : Text}
    (hsplit : splitMajor? path = some (front, suffix)) (h : v.checkMajor suffix = .ok ()) :
    v.Agrees suffix := by
  obtain ⟨mark, hmark, hdot, hsuffix⟩ := ModulePath.exists_mark_compared suffix
  unfold checkMajor at h
  generalize (if ".v".toList.isPrefixOf suffix then (cutUnstable suffix).1 else suffix) = compared
    at h hsuffix
  subst hsuffix
  dsimp only at h
  split at h
  · next hpseudo =>
      rw [hpseudo.2]
      exact .pseudo hmark (prefix_text_of_isZeroPseudo hpseudo.1)
  · split at h
    · next hnil =>
        subst hnil
        have hnone : mark = [] := by
          rcases hdot with hdot | hnone
          · rcases hmark with rfl | rfl
            · rfl
            · exact absurd hdot (by decide)
          · exact hnone
        subst hnone
        split at h
        · next hmajor => exact .unmarked hmajor
        · cases h
    · split at h
      · next hnil htail =>
          obtain ⟨c, rest, rfl⟩ := List.exists_cons_of_ne_nil hnil
          obtain rfl : rest = 'v' :: decimal v.major := htail
          rcases (ModulePath.append_of_splitMajor? hsplit).2 with
            hempty | ⟨_, hslash⟩ | ⟨_, hdotted⟩
          · cases hempty
          · obtain rfl : '/' = c := (List.cons.inj hslash).1
            rcases hdot with ⟨_, hdot⟩ | rfl
            · exact absurd (List.cons.inj hdot).1 (by decide)
            · rw [List.append_nil]
              exact .slash
          · obtain rfl : '.' = c := (List.cons.inj hdotted).1
            exact .dotted hmark
      · cases h

theorem checkMajor_dotted {v : Version} {stem mark : Text} (hstem : ".v".toList <+: stem)
    (hlast : stem.getLast? ≠ some 'e') (hmark : mark = [] ∨ mark = unstableMark)
    (h : v.isZeroPseudo ∧ stem = ".v1".toList ∨ stem.tail = 'v' :: decimal v.major) :
    v.checkMajor (stem ++ mark) = .ok () := by
  have hprefix : ".v".toList.isPrefixOf (stem ++ mark) :=
    List.isPrefixOf_iff_prefix.mpr (hstem.trans (List.prefix_append stem mark))
  have hne : stem ≠ [] := by
    rintro rfl
    cases List.prefix_nil.mp hstem
  unfold checkMajor
  rw [if_pos hprefix, ModulePath.cutUnstable_append hlast hmark]
  dsimp only
  rcases h with hpseudo | htail
  · rw [if_pos hpseudo]
  · rw [if_neg hne, if_pos htail, ite_self]

/-- The check lets every version pass that agrees with the suffix. -/
theorem checkMajor_of_agrees {v : Version} {suffix : Text} (h : v.Agrees suffix) :
    v.checkMajor suffix = .ok () := by
  cases h with
  | unmarked h => simp [checkMajor, h]
  | slash => simp [checkMajor]
  | dotted hmark =>
      refine checkMajor_dotted (List.prefix_append _ _) ?_ hmark (.inr rfl)
      rw [List.getLast?_append_of_ne_nil _ (Text.decimal_ne_nil v.major)]
      intro hlast
      exact absurd (Text.isDigit_of_mem_decimal (List.mem_of_getLast? hlast)) (by decide)
  | pseudo hmark h =>
      exact checkMajor_dotted (by decide) (by decide) hmark
        (.inl ⟨isZeroPseudo_of_prefix_text h, rfl⟩)

end Version

end GoModules
