import GoModules.Text.Blank
import Mathlib.Data.List.DropRight
import Mathlib.Data.List.TakeWhile

/-!
# Trimmed texts

Trimming leaves a text as it is if neither end is white space, so of texts put together only the
outer ends count.
-/

namespace GoModules.Text

variable {s t : Text}

/-- A text is trimmed if neither its first nor its last character is white space. -/
theorem trim_eq_self_iff :
    trim s = s ↔ (∀ c ∈ s.head?, isBlank c = false) ∧ ∀ c ∈ s.getLast?, isBlank c = false := by
  have hstart : s.dropWhile isBlank = s ↔ ∀ c ∈ s.head?, isBlank c = false := by
    cases s with
    | nil => simp
    | cons c s => simp [List.dropWhile_eq_self_iff]
  have hend : trimEnd s = s ↔ ∀ c ∈ s.getLast?, isBlank c = false := by
    have hrdrop : trimEnd s = s.rdropWhile isBlank := rfl
    rw [hrdrop, List.rdropWhile_eq_self_iff]
    constructor
    · intro h c hc
      obtain ⟨hne, rfl⟩ := List.mem_getLast?_eq_getLast hc
      simpa using h hne
    · intro h hne
      rw [h _ (List.getLast?_eq_some_getLast hne)]
      simp
  rw [← hstart, ← hend]
  constructor
  · intro h
    have hprefix : trim s <+: s.dropWhile isBlank := List.rdropWhile_prefix isBlank _
    have hsuffix : s.dropWhile isBlank <:+ s := List.dropWhile_suffix isBlank
    have hle := hprefix.length_le
    rw [h] at hle
    have hdrop := hsuffix.eq_of_length_le hle
    rw [trim, hdrop] at h
    exact ⟨hdrop, h⟩
  · rintro ⟨hdrop, htrim⟩
    rw [trim, hdrop, htrim]

theorem trim_cons_space (s : Text) : trim (' ' :: s) = trim s := by
  have hblank : isBlank ' ' := by decide
  rw [trim, List.dropWhile_cons_of_pos hblank, trim]

theorem trimEnd_concat (s : Text) (c : Char) :
    trimEnd (s ++ [c]) = if isBlank c then trimEnd s else s ++ [c] :=
  List.rdropWhile_concat isBlank s c

theorem trim_concat {c : Char} (hc : isBlank c) (s : Text) : trim (s ++ [c]) = trim s := by
  rw [trim, trim, List.dropWhile_append]
  split
  · next hempty =>
      rw [List.isEmpty_iff.mp hempty, List.dropWhile_cons_of_pos hc]
      rfl
  · rw [trimEnd_concat, if_pos hc]

/-- Where a trimmed text stands at the end, only the first character counts. -/
theorem trim_append_of_trim_eq_self (hs : ∀ c ∈ s.head?, isBlank c = false) (hs' : s ≠ [])
    (ht : trim t = t) (ht' : t ≠ []) : trim (s ++ t) = s ++ t := by
  rw [trim_eq_self_iff] at ht ⊢
  rw [List.head?_append_of_ne_nil s hs', List.getLast?_append_of_ne_nil s ht']
  exact ⟨hs, ht.2⟩

theorem trim_trim (s : Text) : trim (trim s) = trim s := by
  have hstart : ∀ c ∈ (s.dropWhile isBlank).head?, isBlank c = false := by
    intro c hc
    have hhead := List.head?_dropWhile_not isBlank s
    rw [Option.mem_def.mp hc] at hhead
    exact hhead
  have hprefix : trim s <+: s.dropWhile isBlank := List.rdropWhile_prefix isBlank _
  rw [trim_eq_self_iff]
  constructor
  · intro c hc
    obtain ⟨rest, hrest⟩ := hprefix
    apply hstart
    rw [← hrest, List.head?_append_of_ne_nil _ (List.ne_nil_of_mem (List.mem_of_mem_head? hc))]
    exact hc
  · intro c hc
    obtain ⟨hne, rfl⟩ := List.mem_getLast?_eq_getLast hc
    have hlast := List.rdropWhile_last_not isBlank (s.dropWhile isBlank) hne
    exact Bool.eq_false_iff.mpr hlast

theorem mem_of_mem_trim {c : Char} (hc : c ∈ trim s) : c ∈ s :=
  (List.dropWhile_suffix isBlank).subset ((List.rdropWhile_prefix isBlank _).subset hc)

end GoModules.Text
