import GoModules.Text.Basic
import Mathlib.Data.List.Basic

/-!
# The first lines of a text

The first lines of a text are the whole text, or what stands up to a newline, that newline included.
-/

namespace GoModules.Text

/-- The first `n` lines of a text, with the newlines at their ends. -/
def takeLines : Nat → Text → Text
  | 0, _ => []
  | _ + 1, [] => []
  | n + 1, c :: s => c :: takeLines (if c = '\n' then n else n + 1) s

@[simp] theorem takeLines_zero (s : Text) : takeLines 0 s = [] := by
  rw [takeLines]

theorem takeLines_newline (n : Nat) (s : Text) :
    takeLines (n + 1) ('\n' :: s) = '\n' :: takeLines n s := by
  rw [takeLines, if_pos rfl]

theorem takeLines_cons {c : Char} (hc : c ≠ '\n') (n : Nat) (s : Text) :
    takeLines (n + 1) (c :: s) = c :: takeLines (n + 1) s := by
  rw [takeLines, if_neg hc]

theorem takeLines_cases (n : Nat) (s : Text) :
    s.count '\n' ≤ n ∧ takeLines (n + 1) s = s ∨
      ∃ a b, s = a ++ '\n' :: b ∧ a.count '\n' = n ∧ takeLines (n + 1) s = a ++ ['\n'] := by
  induction s generalizing n with
  | nil => exact .inl ⟨Nat.zero_le n, rfl⟩
  | cons c s ih =>
      by_cases hc : c = '\n'
      · subst hc
        rw [takeLines_newline, List.count_cons_self]
        cases n with
        | zero => exact .inr ⟨[], s, rfl, rfl, by rw [takeLines_zero, List.nil_append]⟩
        | succ n =>
            rcases ih n with ⟨hcount, htake⟩ | ⟨a, b, rfl, hcount, htake⟩
            · exact .inl ⟨Nat.succ_le_succ hcount, by rw [htake]⟩
            · refine .inr ⟨'\n' :: a, b, rfl, ?_, by rw [htake, List.cons_append]⟩
              rw [List.count_cons_self, hcount]
      · rw [takeLines_cons hc, List.count_cons_of_ne hc]
        rcases ih n with ⟨hcount, htake⟩ | ⟨a, b, rfl, hcount, htake⟩
        · exact .inl ⟨hcount, by rw [htake]⟩
        · refine .inr ⟨c :: a, b, rfl, ?_, by rw [htake, List.cons_append]⟩
          rw [List.count_cons_of_ne hc, hcount]

end GoModules.Text
