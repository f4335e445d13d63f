import GoModules.Text.Basic
import Mathlib.Data.List.Induction

/-!
# Cutting and splitting

Where a text is cut at a class of characters, the front holds none of them and the rest starts with
one. Splitting a text at a separator turns the order of prefixes on texts, with the separator as
boundary, into the order of prefixes on lists of parts.
-/

namespace GoModules.Text

variable {p : Char → Bool} {s t : Text}

theorem takeWhile_append_of_head? (hs : ∀ c ∈ s, p c) (ht : ∀ c ∈ t.head?, p c = false) :
    (s ++ t).takeWhile p = s := by
  rw [List.takeWhile_append_of_pos hs]
  cases t with
  | nil => simp
  | cons c t => simp [ht c rfl]

theorem dropWhile_append_of_head? (hs : ∀ c ∈ s, p c) (ht : ∀ c ∈ t.head?, p c = false) :
    (s ++ t).dropWhile p = t := by
  rw [List.dropWhile_append_of_pos hs]
  cases t with
  | nil => simp
  | cons c t => simp [ht c rfl]

/-- A text is cut between a front without characters of the kind and a rest that starts with one. -/
theorem cutAt_append_of_head? (hs : ∀ c ∈ s, p c = false) (ht : ∀ c ∈ t.head?, p c) :
    cutAt p (s ++ t) = (s, t) := by
  have hs' : ∀ c ∈ s, (! p c) := by simpa using hs
  have ht' : ∀ c ∈ t.head?, (! p c) = false := by simpa using ht
  rw [cutAt, takeWhile_append_of_head? hs' ht', dropWhile_append_of_head? hs' ht']

theorem eq_false_of_mem_cutAt {c : Char} (hc : c ∈ (cutAt p s).1) : p c = false := by
  have h := List.all_eq_true.mp (List.all_takeWhile (p := fun c => ! p c) (l := s)) c hc
  simpa using h

/-- Every character of a text is a separator or stands in one of the parts between separators. -/
theorem mem_splitOn_or_eq_of_mem (sep : Char) {c : Char} (hc : c ∈ s) :
    (∃ part ∈ s.splitOn sep, c ∈ part) ∨ c = sep := by
  have hjoin : [sep].intercalate (s.splitOn sep) = s := List.intercalate_splitOn sep
  rw [← hjoin] at hc
  generalize s.splitOn sep = parts at hc ⊢
  induction parts with
  | nil => simp at hc
  | cons part parts ih =>
      by_cases hnil : parts = []
      · subst hnil
        exact .inl ⟨part, by simp, by simpa using hc⟩
      · rw [List.intercalate_cons_of_ne_nil hnil] at hc
        simp only [List.mem_append, List.mem_singleton] at hc
        rcases hc with (hc | hc) | hc
        · exact .inl ⟨part, by simp, hc⟩
        · exact .inr hc
        · rcases ih hc with ⟨other, hother, hmem⟩ | heq
          · exact .inl ⟨other, by simp [hother], hmem⟩
          · exact .inr heq

/-- The parts between separators hold what the whole holds, but no separator. -/
theorem mem_of_mem_splitOnP {α : Type} {sep : α → Bool} {a : α} {s part : List α}
    (hpart : part ∈ s.splitOnP sep) (ha : a ∈ part) : a ∈ s ∧ sep a = false := by
  induction s generalizing part with
  | nil =>
      rw [List.splitOnP_nil, List.mem_singleton] at hpart
      rw [hpart] at ha
      cases ha
  | cons b s ih =>
      rw [List.splitOnP_cons_eq_if_modifyHead] at hpart
      split at hpart
      · rcases List.mem_cons.mp hpart with rfl | hpart
        · cases ha
        · exact ⟨List.mem_cons_of_mem b (ih hpart ha).1, (ih hpart ha).2⟩
      · next hb =>
          obtain ⟨first, rest, hsplit⟩ := List.exists_cons_of_ne_nil (List.splitOnP_ne_nil sep s)
          rw [hsplit] at hpart ih
          rcases List.mem_cons.mp hpart with rfl | hpart
          · rcases List.mem_cons.mp ha with rfl | ha
            · exact ⟨List.mem_cons_self, Bool.eq_false_iff.mpr hb⟩
            · have h := ih List.mem_cons_self ha
              exact ⟨List.mem_cons_of_mem b h.1, h.2⟩
          · have h := ih (List.mem_cons_of_mem first hpart) ha
            exact ⟨List.mem_cons_of_mem b h.1, h.2⟩

/-- Put together again, the parts between separators are the list without its separators. -/
theorem flatten_splitOnP {α : Type} (sep : α → Bool) (s : List α) :
    (s.splitOnP sep).flatten = s.filter (! sep ·) := by
  induction s with
  | nil => rw [List.splitOnP_nil, List.flatten_singleton, List.filter_nil]
  | cons a s ih =>
      rw [List.splitOnP_cons_eq_if_modifyHead]
      by_cases ha : sep a
      · rw [if_pos ha, List.flatten_cons, ih, List.nil_append, List.filter_cons_of_neg (by simpa)]
      · obtain ⟨first, rest, hsplit⟩ := List.exists_cons_of_ne_nil (List.splitOnP_ne_nil sep s)
        rw [hsplit, List.flatten_cons] at ih
        rw [if_neg ha, hsplit, List.modifyHead_cons, List.flatten_cons, List.cons_append, ih,
          List.filter_cons_of_pos (by simpa using ha)]

/-- The last part of one list and the first part of another one below it make up one part. -/
theorem exists_splitOnP_append {α : Type} (sep : α → Bool) (front : List α) :
    ∃ above before, front.splitOnP sep = above ++ [before] ∧
      (∀ a ∈ front.getLast?, sep a = false → a ∈ before) ∧
      ∀ {back behind below}, back.splitOnP sep = behind :: below →
        (front ++ back).splitOnP sep = above ++ (before ++ behind) :: below := by
  induction front using List.reverseRecOn with
  | nil => exact ⟨[], [], List.splitOnP_nil, by simp, fun hback => hback⟩
  | append_singleton front a ih =>
      obtain ⟨above, before, hfront, -, hsplit⟩ := ih
      by_cases ha : sep a
      · refine ⟨front.splitOnP sep, [], ?_, ?_, fun hback => ?_⟩
        · rw [List.splitOnP_append_cons front [] ha, List.splitOnP_nil]
        · simp [ha]
        · rw [List.append_assoc, List.singleton_append, List.splitOnP_append_cons front _ ha, hback,
            List.nil_append]
      · have hcons : ∀ {back behind below}, back.splitOnP sep = behind :: below →
            (front ++ a :: back).splitOnP sep = above ++ (before ++ a :: behind) :: below := by
          intro back behind below hback
          apply hsplit
          rw [List.splitOnP_cons_eq_if_modifyHead, if_neg ha, hback, List.modifyHead_cons]
        refine ⟨above, before ++ [a], hcons List.splitOnP_nil, by simp, fun hback => ?_⟩
        rw [List.append_assoc, List.singleton_append, hcons hback, List.append_assoc,
          List.singleton_append]

theorem mem_and_ne_of_mem_splitOn {α : Type} [BEq α] [LawfulBEq α] {sep a : α} {s part : List α}
    (hpart : part ∈ s.splitOn sep) (ha : a ∈ part) : a ∈ s ∧ a ≠ sep := by
  obtain ⟨hmem, hsep⟩ := mem_of_mem_splitOnP hpart ha
  exact ⟨hmem, by simpa using hsep⟩

theorem intercalate_append {parts rest : List Text} {sep : Char} (hparts : parts ≠ [])
    (hrest : rest ≠ []) :
    [sep].intercalate (parts ++ rest) =
      [sep].intercalate parts ++ sep :: [sep].intercalate rest := by
  induction parts with
  | nil => exact absurd rfl hparts
  | cons part parts ih =>
      by_cases hnil : parts = []
      · subst hnil
        simp [List.intercalate_cons_of_ne_nil hrest]
      · rw [List.cons_append, List.intercalate_cons_of_ne_nil (by simp [hnil]), ih hnil,
          List.intercalate_cons_of_ne_nil hnil]
        simp

/-- The parts of a text begin the parts of another one just when the text itself begins it and ends
there before a separator or at the end. -/
theorem splitOn_prefix_splitOn_iff {sep : Char} :
    s.splitOn sep <+: t.splitOn sep ↔ ∃ u, t = s ++ u ∧ ∀ c ∈ u.head?, c = sep := by
  constructor
  · rintro ⟨rest, hrest⟩
    have ht : t = [sep].intercalate (s.splitOn sep ++ rest) := by
      rw [hrest, List.intercalate_splitOn]
    cases rest with
    | nil =>
        refine ⟨[], ?_, by simp⟩
        rw [ht, List.append_nil, List.intercalate_splitOn, List.append_nil]
    | cons part rest =>
        refine ⟨sep :: [sep].intercalate (part :: rest), ?_, by simp⟩
        rw [ht, intercalate_append (List.splitOn_ne_nil _ _) (List.cons_ne_nil _ _),
          List.intercalate_splitOn]
  · rintro ⟨u, rfl, hu⟩
    cases u with
    | nil => simp
    | cons c u =>
        obtain rfl : c = sep := hu c rfl
        rw [List.splitOn_append_cons_self]
        exact List.prefix_append _ _

end GoModules.Text
