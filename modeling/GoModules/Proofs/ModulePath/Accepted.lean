import GoModules.ModulePath.Escape
import GoModules.Proofs.Outcome

/-!
# Accepted paths and versions

What the checks of module paths and versions accept, in terms of their elements and characters. The
elements of paths and the names of files have the same in common, only with other characters.
-/

namespace GoModules.ModulePath

open Outcome

/-- What is common to the elements of accepted paths and to accepted names of files. -/
structure PlainName (allowed : Char → Bool) (name : Text) : Prop where
  ne_nil : name ≠ []
  getLast?_ne_dot : name.getLast? ≠ some '.'
  allowed : ∀ c ∈ name, allowed c
  not_reserved : isReserved (stem name) = false

variable {allowed : Char → Bool} {name element path version : Text}

theorem checkSome_eq_ok_iff : checkSome name = .ok () ↔ name ≠ [] ∧ ¬ name.all (· == '.') := by
  unfold checkSome
  simp only [throw_eq_error, error_bind, ite_error_eq_ok_iff, pure_eq_ok, and_true]

theorem checkName_eq_ok_iff :
    checkName allowed name = .ok () ↔ name.getLast? ≠ some '.' ∧ (∀ c ∈ name, allowed c) ∧
      isReserved (stem name) = false := by
  have hfind : name.find? (! allowed ·) = none ↔ ∀ c ∈ name, allowed c := by
    simp [List.find?_eq_none]
  unfold checkName
  simp only [throw_eq_error, error_bind, ite_error_eq_ok_iff]
  cases hfound : name.find? (! allowed ·) with
  | none => simp [← hfind, hfound]
  | some c => simp [← hfind, hfound]

/-- A plain name does not consist of dots, since it would end in one. -/
theorem plainName_iff :
    PlainName allowed name ↔ checkSome name = .ok () ∧ checkName allowed name = .ok () := by
  rw [checkSome_eq_ok_iff, checkName_eq_ok_iff]
  constructor
  · rintro ⟨hnil, hdot, hallowed, hreserved⟩
    refine ⟨⟨hnil, fun hdots => hdot ?_⟩, hdot, hallowed, hreserved⟩
    rw [List.getLast?_eq_some_getLast hnil]
    have hlast := List.all_eq_true.mp hdots _ (List.getLast_mem hnil)
    rw [beq_iff_eq.mp hlast]
  · rintro ⟨⟨hnil, -⟩, hdot, hallowed, hreserved⟩
    exact ⟨hnil, hdot, hallowed, hreserved⟩

theorem checkElement_eq_ok_iff :
    checkElement element = .ok () ↔
      PlainName isPathChar element ∧ element.head? ≠ some '.' ∧ ¬ isShortName (stem element) := by
  unfold checkElement
  simp only [throw_eq_error, error_bind, ite_error_eq_ok_iff, bind_unit_eq_ok_iff, pure_eq_ok,
    plainName_iff, and_true]
  tauto

theorem checkFileName_eq_ok_iff : checkFileName name = .ok () ↔ PlainName isFileChar name := by
  rw [checkFileName, bind_unit_eq_ok_iff, plainName_iff]

theorem check_eq_ok_iff :
    check path = .ok () ↔ path ≠ [] ∧ path.head? ≠ some '-' ∧ ¬ hasDoubleSlash path ∧
      path.getLast? ≠ some '/' ∧ (∀ element ∈ elements path, checkElement element = .ok ()) ∧
      checkHost ((elements path).headD []) = .ok () ∧ (splitMajor? path).isSome := by
  unfold check
  simp only [throw_eq_error, error_bind, ite_error_eq_ok_iff, bind_unit_eq_ok_iff, pure_eq_ok,
    forM_eq_ok_iff, and_true, Option.isNone_iff_eq_none, Option.isSome_iff_ne_none, ne_eq]

theorem plainName_of_mem_elements (h : check path = .ok ()) (helement : element ∈ elements path) :
    PlainName isPathChar element := by
  obtain ⟨-, -, -, -, helements, -⟩ := check_eq_ok_iff.mp h
  exact (checkElement_eq_ok_iff.mp (helements element helement)).1

theorem isSome_splitMajor?_of_check (h : check path = .ok ()) : (splitMajor? path).isSome := by
  obtain ⟨-, -, -, -, -, -, hsplit⟩ := check_eq_ok_iff.mp h
  exact hsplit

theorem checkVersion_eq_ok_iff :
    checkVersion version = .ok () ↔ PlainName isFileChar version ∧ '!' ∉ version := by
  unfold checkVersion
  simp only [throw_eq_error, ite_error_eq_ok_iff, bind_unit_eq_ok_iff, pure_eq_ok,
    checkFileName_eq_ok_iff, and_true]

theorem escapeVersion_eq_ok_iff :
    escapeVersion version = .ok name ↔ PlainName isFileChar version ∧ '!' ∉ version ∧
      (∀ c ∈ version, c.toNat < 0x80) ∧ name = escape version := by
  have hascii : ¬ (version.any (0x80 ≤ ·.toNat) = true) ↔ ∀ c ∈ version, c.toNat < 0x80 := by
    simp
  rw [@eq_comm _ name]
  unfold escapeVersion
  simp only [throw_eq_error, error_bind, ite_error_eq_ok_iff, bind_unit_eq_ok_iff, pure_eq_ok,
    mapError_eq_ok_iff, checkVersion_eq_ok_iff, Except.ok.injEq, hascii, and_assoc]

end GoModules.ModulePath
