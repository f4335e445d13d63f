import GoModules.Manifest.Item
import GoModules.Proofs.Text.Cut
import Mathlib.Data.List.Basic

/-!
# Lines and items in parts

All that goes over from physical lines to those below are the comments that stand alone at their
end, and a blank line ends these too. Items are made line by line, where all that is carried on is
the block that is open, so items part wherever none is open.
-/

namespace GoModules

/-- The kinds of tokens tell where lines end. -/
theorem Token.splitOnP_map {f : Token → Token} (hf : ∀ t, (f t).kind = t.kind)
    (tokens : List Token) :
    (tokens.map f).splitOnP (·.kind = .newline) =
      (tokens.splitOnP (·.kind = .newline)).map (List.map f) := by
  induction tokens with
  | nil => rfl
  | cons token tokens ih =>
      rw [List.map_cons, List.splitOnP_cons_eq_if_modifyHead,
        List.splitOnP_cons_eq_if_modifyHead, ih, hf]
      split
      · rfl
      · cases tokens.splitOnP (·.kind = .newline) with
        | nil => rfl
        | cons part parts => rfl

namespace Line

/-- The comments that stand directly above what follows physical lines. -/
def pendingAfter (pending : List Text) : List (List Token) → List Text
  | [] => pending
  | tokens :: rest =>
      match tokens.filter (·.kind ≠ .comment), comment? tokens with
      | [], some comment => pendingAfter (pending ++ [comment]) rest
      | _, _ => pendingAfter [] rest

theorem collect_append (pending : List Text) (front back : List (List Token)) :
    collect pending (front ++ back) =
      collect pending front ++ collect (pendingAfter pending front) back := by
  induction front generalizing pending with
  | nil => rfl
  | cons tokens front ih =>
      rw [List.cons_append, collect, collect, pendingAfter]
      cases tokens.filter (·.kind ≠ .comment) with
      | nil =>
          cases comment? tokens with
          | none => exact ih []
          | some comment => exact ih _
      | cons first others =>
          dsimp only
          rw [ih, List.cons_append]

theorem pendingAfter_append (pending : List Text) (front back : List (List Token)) :
    pendingAfter pending (front ++ back) = pendingAfter (pendingAfter pending front) back := by
  induction front generalizing pending with
  | nil => rfl
  | cons tokens front ih =>
      rw [List.cons_append, pendingAfter, pendingAfter]
      split
      · exact ih _
      · exact ih []

theorem collect_singleton (pending : List Text) (tokens : List Token) :
    collect pending [tokens] =
      match tokens.filter (·.kind ≠ .comment) with
      | [] => []
      | first :: others => [⟨first, others, comment? tokens, pending⟩] := by
  rw [collect]
  cases tokens.filter (·.kind ≠ .comment) with
  | nil =>
      cases comment? tokens with
      | none => rfl
      | some comment => rfl
  | cons first others => rfl

theorem pendingAfter_singleton (pending : List Text) (tokens : List Token) :
    pendingAfter pending [tokens] =
      match tokens.filter (·.kind ≠ .comment), comment? tokens with
      | [], some comment => pending ++ [comment]
      | _, _ => [] := by
  rw [pendingAfter]
  rfl

/-- What is done to lines one by one is known from what it does to each physical line alone. -/
theorem collect_map {f : List Token → List Token} {g : Line → Line}
    (hcollect : ∀ pending tokens, collect pending [f tokens] = (collect pending [tokens]).map g)
    (hpending : ∀ pending tokens, pendingAfter pending [f tokens] = pendingAfter pending [tokens])
    (pending : List Text) (physical : List (List Token)) :
    collect pending (physical.map f) = (collect pending physical).map g ∧
      pendingAfter pending (physical.map f) = pendingAfter pending physical := by
  induction physical generalizing pending with
  | nil => exact ⟨rfl, rfl⟩
  | cons tokens physical ih =>
      obtain ⟨hlines, hafter⟩ := ih (pendingAfter pending [tokens])
      have hcons : tokens :: physical = [tokens] ++ physical := rfl
      rw [hcons, List.map_append, List.map_singleton, collect_append, collect_append,
        pendingAfter_append, pendingAfter_append, hcollect, hpending, hlines, hafter,
        List.map_append]
      exact ⟨rfl, rfl⟩

/-- A line has the tokens of one physical line that are no comments. -/
theorem exists_of_mem_collect {pending : List Text} {physical : List (List Token)} {l : Line}
    (h : l ∈ collect pending physical) :
    ∃ tokens ∈ physical, l.tokens = tokens.filter (·.kind ≠ .comment) := by
  induction physical generalizing pending with
  | nil => cases h
  | cons tokens physical ih =>
      rw [collect] at h
      split at h
      · obtain ⟨found, hmem, heq⟩ := ih h
        exact ⟨found, List.mem_cons_of_mem tokens hmem, heq⟩
      · obtain ⟨found, hmem, heq⟩ := ih h
        exact ⟨found, List.mem_cons_of_mem tokens hmem, heq⟩
      · next hfilter =>
          rcases List.mem_cons.mp h with rfl | h
          · exact ⟨tokens, List.mem_cons_self, hfilter.symm⟩
          · obtain ⟨found, hmem, heq⟩ := ih h
            exact ⟨found, List.mem_cons_of_mem tokens hmem, heq⟩

theorem mem_of_mem_collect {pending : List Text} {tokens : List Token} {l : Line}
    (h : l ∈ collect pending (tokens.splitOnP (·.kind = .newline))) {t : Token}
    (ht : t ∈ l.tokens) : t ∈ tokens := by
  obtain ⟨physical, hmem, heq⟩ := exists_of_mem_collect h
  rw [heq] at ht
  exact (Text.mem_of_mem_splitOnP hmem (List.mem_of_mem_filter ht)).1

theorem ofTokens_append_newline {newline : Token} (hnewline : newline.kind = .newline)
    (front back : List Token) :
    ofTokens (front ++ newline :: back) =
      ofTokens front ++ collect (pendingAfter [] (front.splitOnP (·.kind = .newline)))
        (back.splitOnP (·.kind = .newline)) := by
  rw [ofTokens, List.splitOnP_append_cons front back (by simpa using hnewline), collect_append,
    ofTokens]

theorem ofTokens_append_blank {newline newline' : Token} (hnewline : newline.kind = .newline)
    (hnewline' : newline'.kind = .newline) (front back : List Token) :
    ofTokens (front ++ newline :: newline' :: back) = ofTokens front ++ ofTokens back := by
  have hblank : (newline' :: back).splitOnP (·.kind = .newline) =
      [] :: back.splitOnP (·.kind = .newline) := by
    rw [List.splitOnP_cons_eq_if_modifyHead, if_pos (by simpa using hnewline')]
  rw [ofTokens_append_newline hnewline, hblank]
  rfl

end Line

namespace Item

/-- What a line stands for, given the block that is open before it: a directive or none, and the
block that is open after it. -/
def step (block : Option OpenBlock) (l : Line) :
    Except Manifest.Error (Option Directive × Option OpenBlock) :=
  match block with
  | some block =>
      if l.isClosing then .ok (none, none)
      else .ok (some ⟨block.verb, l.tokens, l⟩, some block)
  | none =>
      match l.verb with
      | .error fault => .error ⟨l.number, fault⟩
      | .ok verb =>
          match l.shape with
          | .plain => .ok (some ⟨verb, l.others, l⟩, none)
          | shape =>
              if ! verb.isBlock then .error ⟨l.number, .notABlock verb⟩
              else .ok (none, if shape = .opening then some ⟨verb, l.number⟩ else none)

/-- Whatever is made of a line, that line is what it is reported on. -/
theorem line_of_step_error {block : Option OpenBlock} {l : Line} {e : Manifest.Error}
    (h : step block l = .error e) : e.line = l.number := by
  unfold step at h
  split at h
  · split at h
    · cases h
    · cases h
  · split at h
    · cases h
      rfl
    · split at h
      · cases h
      · split at h
        · cases h
          rfl
        · cases h

/-- A directive belongs to its line, and its arguments are tokens of that line. -/
theorem spec_of_step {block next : Option OpenBlock} {l : Line} {d : Directive}
    (h : step block l = .ok (some d, next)) : d.line = l ∧ d.args ⊆ l.tokens := by
  unfold step at h
  split at h
  · split at h
    · cases h
    · cases h
      exact ⟨rfl, List.Subset.refl _⟩
  · split at h
    · cases h
    · split at h
      · cases h
        exact ⟨rfl, List.subset_cons_self _ _⟩
      · split at h
        · cases h
        · cases h

theorem ofLines_cons (block : Option OpenBlock) (l : Line) (lines : List Line) :
    ofLines block (l :: lines) =
      match step block l with
      | .error e => [.broken e]
      | .ok (d, next) => d.toList.map .directive ++ ofLines next lines := by
  cases block with
  | some block =>
      rw [ofLines, step]
      by_cases hclosing : l.isClosing
      · rw [if_pos hclosing, if_pos hclosing]
        rfl
      · rw [if_neg hclosing, if_neg hclosing]
        rfl
  | none =>
      rw [ofLines, step]
      cases l.verb with
      | error fault => rfl
      | ok verb =>
          cases l.shape with
          | plain => rfl
          | _ =>
              dsimp only
              by_cases hblock : (! verb.isBlock) = true
              · rw [if_pos hblock, if_pos hblock]
              · rw [if_neg hblock, if_neg hblock]
                rfl

theorem exists_step_of_mem_ofLines {block : Option OpenBlock} {lines : List Line} {d : Directive}
    (h : .directive d ∈ ofLines block lines) :
    ∃ block' next, ∃ l ∈ lines, step block' l = .ok (some d, next) := by
  induction lines generalizing block with
  | nil =>
      cases block with
      | none => cases h
      | some block => simp [ofLines] at h
  | cons l lines ih =>
      rw [ofLines_cons] at h
      cases hstep : step block l with
      | error e =>
          rw [hstep] at h
          simp at h
      | ok found =>
          obtain ⟨d', next⟩ := found
          rw [hstep] at h
          dsimp only at h
          rcases List.mem_append.mp h with h | h
          · obtain ⟨d', hd', heq⟩ := List.mem_map.mp h
            cases heq
            rw [Option.mem_toList.mp hd'] at hstep
            exact ⟨block, next, l, List.mem_cons_self, hstep⟩
          · obtain ⟨block', next', l', hl', hstep'⟩ := ih h
            exact ⟨block', next', l', List.mem_cons_of_mem l hl', hstep'⟩

/-- Where the structure of the first lines does not break, no block is open at their end. -/
theorem ofLines_append {block : Option OpenBlock} {front : List Line} (back : List Line)
    (h : ∀ item ∈ ofLines block front, ∃ d, item = .directive d) :
    ofLines block (front ++ back) = ofLines block front ++ ofLines none back := by
  induction front generalizing block with
  | nil =>
      cases block with
      | none => rfl
      | some block =>
          obtain ⟨d, hd⟩ := h _ List.mem_cons_self
          cases hd
  | cons l front ih =>
      rw [ofLines_cons] at h
      rw [List.cons_append, ofLines_cons, ofLines_cons]
      cases hstep : step block l with
      | error e =>
          rw [hstep] at h
          obtain ⟨d, hd⟩ := h _ List.mem_cons_self
          cases hd
      | ok found =>
          rw [hstep] at h
          dsimp only at h ⊢
          rw [ih (List.forall_mem_append.mp h).2, List.append_assoc]

end Item

end GoModules
