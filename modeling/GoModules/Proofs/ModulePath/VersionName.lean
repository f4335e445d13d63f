import GoModules.Proofs.ModulePath.Accepted
import GoModules.Proofs.Text.Ascii
import GoModules.Proofs.Version.Canonical

/-!
# Versions as names of directories

The written form of a version passes every check on the name of a directory: its characters are
letters, digits, hyphens, dots and plus signs, it does not end in a dot, and no reserved name starts
with a `v`. So a module at a version that was read fails to have a name in the cache only for its
path.
-/

namespace GoModules.ModulePath

open Outcome

theorem toNat_lt_of_isIdentifierChar {c : Char} (hc : Version.isIdentifierChar c) :
    c.toNat < 0x80 := by
  rw [Version.isIdentifierChar, Bool.or_eq_true, beq_iff_eq] at hc
  rcases hc with halphanum | rfl
  · exact Text.toNat_lt_of_isAlphanum halphanum
  · decide

theorem isFileChar_of_isIdentifierChar {c : Char} (hc : Version.isIdentifierChar c) :
    isFileChar c := by
  rw [isFileChar, if_pos (toNat_lt_of_isIdentifierChar hc)]
  rw [Version.isIdentifierChar, Bool.or_eq_true, beq_iff_eq] at hc
  rcases hc with halphanum | rfl
  · rw [halphanum, Bool.true_or]
  · decide

section Written

variable {v : Version} (hv : v.Valid)

include hv

/-- The characters of written versions are allowed in file names and need no mark. -/
theorem spec_of_mem_text {c : Char} (hc : c ∈ v.text) :
    isFileChar c ∧ c ≠ '!' ∧ c.toNat < 0x80 := by
  rcases Version.isIdentifierChar_or_mark_of_mem_text hv hc with hident | rfl | rfl
  · refine ⟨isFileChar_of_isIdentifierChar hident, ?_, toNat_lt_of_isIdentifierChar hident⟩
    rintro rfl
    exact absurd hident (by decide)
  · decide
  · decide

omit hv in
theorem isReserved_stem_text (v : Version) : isReserved (stem v.text) = false := by
  have hhead : ∀ name ∈ reservedNames, name.head? ≠ some 'V' := by decide
  have hstem : stem v.text = 'v' :: (v.text.tail).takeWhile (· != '.') := by
    rw [Version.text_eq, stem]
    rfl
  rw [isReserved, hstem, ← Bool.not_eq_true, List.contains_iff_mem, List.map_cons]
  intro hmem
  exact hhead _ hmem rfl

theorem plainName_text : PlainName isFileChar v.text where
  ne_nil := by
    rw [Version.text_eq]
    exact List.cons_ne_nil 'v' _
  getLast?_ne_dot := Version.getLast?_text_ne_dot hv
  allowed := fun _ hc => (spec_of_mem_text hv hc).1
  not_reserved := isReserved_stem_text v

theorem escapeVersion_text : escapeVersion v.text = .ok (escape v.text) := by
  have hmark : '!' ∉ v.text := fun hmem => (spec_of_mem_text hv hmem).2.1 rfl
  exact escapeVersion_eq_ok_iff.mpr
    ⟨plainName_text hv, hmark, fun _ hc => (spec_of_mem_text hv hc).2.2, rfl⟩

/-- A module at a version that can be written has a name unless its path has none. -/
theorem cacheName_text (path below : Text) :
    cacheName path v.text below =
      match escapePath path with
      | .ok name => .ok (name ++ '@' :: escape v.text ++ below)
      | .error e => .error e := by
  rw [cacheName, escapeVersion_text hv]
  cases escapePath path with
  | ok name => rfl
  | error e => rfl

end Written

theorem exists_fault_of_escapePath {path : Text} {e : EscapeError}
    (h : escapePath path = .error e) : ∃ fault, e = .invalidPath path fault := by
  rw [escapePath] at h
  cases hcheck : check path with
  | ok _ =>
      rw [hcheck] at h
      cases h
  | error fault =>
      rw [hcheck] at h
      cases h
      exact ⟨fault, rfl⟩

end GoModules.ModulePath
