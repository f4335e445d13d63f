import GoModules.Manifest.Directive
import GoModules.Proofs.Offset.Major
import GoModules.Proofs.Version.Canonical

/-!
# Versions by offsets

A version is split at the offset of its first hyphen or plus sign. Where it is checked against the
suffix of a path, it is read once more from its canonical form, and the separator at the start of
the suffix is cut off, which is one byte long.
-/

namespace GoModules.Offset

open Manifest (VersionFault)
open Text (byteLength)

/-- Splits a text at the first character of a kind. -/
def cutAt? (p : Char → Bool) (s : Text) : Option (Text × Text) :=
  splitAt? ((find? (fun s => s.head?.any p) s).getD (byteLength s)) s

def readVersion? : Text → Option (Option Version)
  | 'v' :: s => do
      let (core, tail) ← cutAt? (fun c => c == '-' || c == '+') s
      return match core.splitOn '.', tail with
        | [a], [] => do
            return { major := ← Text.number? a }
        | [a, b], [] => do
            return { major := ← Text.number? a, minor := ← Text.number? b }
        | [a, b, c], tail => do
            let (pre, incompatible) ← Version.readTail? tail
            return ⟨← Text.number? a, ← Text.number? b, ← Text.number? c, pre, incompatible⟩
        | _, _ => none
  | _ => some none

/-- Checks that a version agrees with the suffix of a path. -/
def checkMajor? (v : Version) (suffix : Text) : Checked VersionFault Unit := do
  let suffix := if ".v".toList.isPrefixOf suffix then (ModulePath.cutUnstable suffix).1 else suffix
  if v.isZeroPseudo ∧ suffix = ".v1".toList then return ()
  else
    let v' ← readVersion? v.text
    let major := (v'.map Version.major).getD 0
    if suffix = [] then
      if major ≤ 1 ∨ v'.any Version.incompatible then return ()
      else throw (.notFirstMajors major)
    else
      let expected ← from? 1 suffix
      if expected = 'v' :: Text.decimal major then return ()
      else throw (.otherMajor expected major)

variable {p : Char → Bool} {v : Version} {path front suffix : Text}

theorem cutAt?_eq (p : Char → Bool) (s : Text) : cutAt? p s = some (Text.cutAt p s) := by
  induction s with
  | nil => rfl
  | cons c s ih =>
      rw [cutAt?, find?, Text.cutAt]
      by_cases hc : p c
      · simp [hc, splitAt?]
      · have hlonger := splitAt?_cons ih c
        have hoffset : ((find? (fun s => s.head?.any p) s).map (· + c.utf8Size)).getD
            (byteLength (c :: s)) =
              (find? (fun s => s.head?.any p) s).getD (byteLength s) + c.utf8Size := by
          rw [Text.byteLength_cons, Nat.add_comm c.utf8Size]
          exact Option.getD_map _ _ _
        rw [List.head?_cons, Option.any_some, if_neg hc, hoffset, hlonger,
          List.takeWhile_cons_of_pos (by simpa using hc),
          List.dropWhile_cons_of_pos (by simpa using hc)]

theorem readVersion?_eq (s : Text) : readVersion? s = some (Version.read? s) := by
  by_cases hs : ∃ rest, s = 'v' :: rest
  · obtain ⟨rest, rfl⟩ := hs
    rw [readVersion?, cutAt?_eq]
    rfl
  · rw [not_exists] at hs
    have hread : Version.read? s = none := by
      rw [Version.read?]
      exact hs
    rw [hread, readVersion?]
    exact hs

/-- What is left of a suffix that is checked begins with a separator, unless nothing is left. -/
theorem head?_of_splitMajor? (h : ModulePath.splitMajor? path = some (front, suffix))
    {part : Text} (hpart : part <+: suffix) : ∀ c ∈ part.head?, c = '/' ∨ c = '.' := by
  intro c hc
  obtain ⟨rest, rfl⟩ := List.head?_eq_some_iff.mp hc
  rcases (ModulePath.append_of_splitMajor? h).2 with rfl | ⟨version, rfl⟩ | ⟨version, rfl⟩
  · exact absurd (List.prefix_nil.mp hpart) (List.cons_ne_nil c rest)
  · exact .inl (List.cons_prefix_cons.mp hpart).1
  · exact .inr (List.cons_prefix_cons.mp hpart).1

/-- A separator is one byte long. -/
theorem from?_one (hsuffix : ∀ c ∈ suffix.head?, c = '/' ∨ c = '.') (hne : suffix ≠ []) :
    from? 1 suffix = some suffix.tail := by
  obtain ⟨c, rest, rfl⟩ := List.exists_cons_of_ne_nil hne
  rcases hsuffix c rfl with rfl | rfl
  · exact from?_append ['/'] rest
  · exact from?_append ['.'] rest

theorem checkMajor?_eq (hv : v.Valid) (h : ModulePath.splitMajor? path = some (front, suffix)) :
    checkMajor? v suffix = inBounds (v.checkMajor suffix) := by
  rw [checkMajor?, Version.checkMajor]
  have hpart : (if ".v".toList.isPrefixOf suffix then (ModulePath.cutUnstable suffix).1
      else suffix) <+: suffix := by
    split
    · exact ⟨_, (ModulePath.cutUnstable_spec suffix).1⟩
    · exact List.prefix_rfl
  have hhead := head?_of_splitMajor? h hpart
  generalize (if ".v".toList.isPrefixOf suffix then (ModulePath.cutUnstable suffix).1
    else suffix) = part at hhead ⊢
  rw [readVersion?_eq, Version.read?_text hv]
  dsimp only
  by_cases hpseudo : v.isZeroPseudo ∧ part = ".v1".toList
  · rw [if_pos hpseudo, if_pos hpseudo]
    rfl
  · rw [if_neg hpseudo, if_neg hpseudo, lift_some_bind]
    dsimp only [Option.map_some, Option.getD_some, Option.any_some]
    by_cases hnil : part = []
    · rw [if_pos hnil, if_pos hnil, pure_eq_inBounds, throw_eq_inBounds, ite_inBounds]
    · rw [if_neg hnil, if_neg hnil, from?_one hhead hnil, lift_some_bind,
        pure_eq_inBounds, throw_eq_inBounds, ite_inBounds]

end GoModules.Offset
