import GoModules.Manifest.Comment
import GoModules.Proofs.Text.Trim

/-!
# What comments say

Blanks at the end of a comment are not part of what it says. A comment says what is written behind
its slashes and one space, whatever that is, if it has no blanks at its ends: the space also parts
the slashes of the comment from those that are said.
-/

namespace GoModules.Comment

theorem dropSlashes_concat {c : Char} (hc : c ≠ '/') (s : Text) :
    dropSlashes (s ++ [c]) = dropSlashes s ++ [c] := by
  induction s using dropSlashes.induct with
  | case1 s ih => exact ih
  | case2 s hne =>
      rw [dropSlashes, dropSlashes]
      · exact hne
      · intro rest hrest
        rcases s with _ | ⟨d, _ | ⟨e, s⟩⟩
        · cases hrest
        · rw [List.cons_append, List.nil_append, List.cons.injEq, List.cons.injEq] at hrest
          exact hc hrest.2.1
        · rw [List.cons_append, List.cons_append, List.cons.injEq, List.cons.injEq] at hrest
          exact hne s (by rw [hrest.1, hrest.2.1])

theorem body_trimEnd (s : Text) : body (Text.trimEnd s) = body s := by
  induction s using List.reverseRecOn with
  | nil => rfl
  | append_singleton s c ih =>
      rw [Text.trimEnd_concat]
      split
      · next hc =>
          have hslash : c ≠ '/' := by
            rintro rfl
            cases hc
          rw [ih, body, body, dropSlashes_concat hslash, Text.trim_concat hc]
      · rfl

theorem dropSlashes_suffix (s : Text) : dropSlashes s <:+ s := by
  induction s using dropSlashes.induct with
  | case1 s ih => exact ih.trans ⟨['/', '/'], rfl⟩
  | case2 s hne =>
      have hself : dropSlashes s = s := by
        rw [dropSlashes]
        exact hne
      exact ⟨[], hself⟩

theorem mem_of_mem_body {c : Char} {s : Text} (hc : c ∈ body s) : c ∈ s :=
  (dropSlashes_suffix s).subset (Text.mem_of_mem_trim hc)

section Reworded

variable {f : Text → Text} (hf : ∀ comment, body (f comment) = body comment)
include hf

/-- Of a comment, only its body counts. -/
theorem isIndirect_reworded (comment : Text) : isIndirect (f comment) = isIndirect comment := by
  rw [isIndirect, isIndirect, hf]

theorem continueDeprecation_reworded (message : Option Text) (comments : List Text) :
    continueDeprecation message (comments.map f) = continueDeprecation message comments := by
  induction comments generalizing message with
  | nil => rfl
  | cons comment comments ih =>
      simp only [List.map_cons, continueDeprecation, hf, ih]

theorem deprecation_reworded (comments : List Text) :
    deprecation (comments.map f) = deprecation comments :=
  continueDeprecation_reworded hf none comments

theorem rationale_reworded (comments : List Text) :
    rationale (comments.map f) = rationale comments := by
  rw [rationale, rationale, List.map_map]
  exact congrArg Text.lines (List.map_congr_left fun comment _ => hf comment)

end Reworded

/-- The comment that says a text. -/
def written (s : Text) : Text :=
  "// ".toList ++ s

variable {s : Text}

theorem body_written (s : Text) : body (written s) = Text.trim s :=
  Text.trim_cons_space s

theorem isIndirect_written : isIndirect (written "indirect".toList) := by
  decide

/-- What a comment says that gives a message of deprecation. -/
def deprecating (message : Text) : Text :=
  "Deprecated: ".toList ++ message

/-- A message is read up to its end, also where it is empty and the space in front of it is at the
end of the comment. -/
theorem deprecation_written (hs : Text.trim s = s) :
    deprecation [written (deprecating s)] = some s := by
  have hbody : ∃ rest, body (written (deprecating s)) = "Deprecated:".toList ++ rest ∧
      Text.trim rest = s := by
    rw [body_written]
    by_cases hnil : s = []
    · subst hnil
      exact ⟨[], by decide, rfl⟩
    · have hhead : ∀ c ∈ "Deprecated: ".toList.head?, Text.isBlank c = false := by
        rintro c ⟨⟩
        decide
      refine ⟨' ' :: s, ?_, by rw [Text.trim_cons_space, hs]⟩
      exact Text.trim_append_of_trim_eq_self hhead (by decide) hs hnil
  obtain ⟨rest, hbody, hrest⟩ := hbody
  have hprefix : "Deprecated:".toList.isPrefixOf? (body (written (deprecating s))) = some rest :=
    List.isPrefixOf?_eq_some_iff_append_eq.mpr hbody.symm
  simp only [deprecation, continueDeprecation, hprefix, hrest]

theorem rationale_written {lines : List Text} (h : ∀ s ∈ lines, Text.trim s = s) :
    rationale (lines.map written) = Text.lines lines := by
  have hbodies : (lines.map written).map body = lines := by
    calc
      (lines.map written).map body = lines.map Text.trim := by
        rw [List.map_map]
        exact List.map_congr_left fun s _ => body_written s
      _ = lines.map id := List.map_congr_left h
      _ = lines := List.map_id lines
  rw [rationale, hbodies]

end GoModules.Comment
