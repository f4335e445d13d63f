import GoModules.Proofs.Manifest.Segmentation
import GoModules.Proofs.Manifest.Structure

/-!
# Physical lines

On a physical line stand the tokens of a statement, if there are any, and behind them a comment, if
there is one: nothing but the newline can follow a comment. All of them have the number of the
physical line.
-/

namespace GoModules

/-- Whether a token belongs to a statement: it is neither a newline nor a comment. -/
def Token.IsContent (t : Token) : Prop :=
  t.kind ≠ .newline ∧ t.kind ≠ .comment

instance (t : Token) : Decidable t.IsContent :=
  inferInstanceAs (Decidable (_ ∧ _))

/-- The tokens of a physical line. -/
structure Row where
  content : List Token := []
  comment : Option Token := none

namespace Row

def tokens (r : Row) : List Token :=
  r.content ++ r.comment.toList

/-- What stands on the physical line with a given number. -/
structure Valid (n : Nat) (r : Row) : Prop where
  line : ∀ t ∈ r.tokens, t.line = n
  content : ∀ t ∈ r.content, t.IsContent
  comment : ∀ t ∈ r.comment, t.kind = .comment

/-- Physical lines with the numbers from `n` on. -/
inductive Numbered : Nat → List Row → Prop
  | nil {n : Nat} : Numbered n []
  | cons {n : Nat} {r : Row} {rows : List Row} (h : r.Valid n) (hrest : Numbered (n + 1) rows) :
      Numbered n (r :: rows)

/-- The tokens of physical lines with the numbers from `n` on, and the newlines between them. -/
def joined (n : Nat) (r : Row) : List Row → List Token
  | [] => r.tokens
  | r' :: rows => r.tokens ++ ⟨.newline, ['\n'], n⟩ :: joined (n + 1) r' rows

variable {n : Nat} {r : Row} {rows : List Row} {t : Token}

theorem valid_empty (n : Nat) : Valid n {} := by
  constructor <;> simp [tokens]

theorem Valid.kind_ne_newline (h : r.Valid n) : ∀ t ∈ r.tokens, t.kind ≠ .newline := by
  intro t ht
  rcases List.mem_append.mp ht with ht | ht
  · exact (h.content t ht).1
  · rw [h.comment t (Option.mem_toList.mp ht)]
    decide

/-- A token is put in front of a physical line, a comment only if nothing stands there. -/
theorem Valid.exists_cons (h : r.Valid n) (hline : t.line = n) (hkind : t.kind ≠ .newline)
    (hcomment : t.kind = .comment → r.tokens = []) :
    ∃ r' : Row, r'.Valid n ∧ r'.tokens = t :: r.tokens := by
  by_cases ht : t.kind = .comment
  · refine ⟨{ comment := some t }, ⟨?_, by simp, ?_⟩, ?_⟩
    · simpa [tokens] using hline
    · simpa using ht
    · rw [hcomment ht]
      rfl
  · refine ⟨{ r with content := t :: r.content }, ⟨?_, ?_, h.comment⟩, rfl⟩
    · exact List.forall_mem_cons.mpr ⟨hline, h.line⟩
    · exact List.forall_mem_cons.mpr ⟨⟨hkind, ht⟩, h.content⟩

/-- What holds of the tokens of statements and not of comments finds the statement of a line. -/
theorem Valid.filter_eq_content (h : r.Valid n) {p : Token → Prop} [DecidablePred p]
    (hcontent : ∀ t, t.IsContent → p t) (hcomment : ∀ t, t.kind = .comment → ¬ p t) :
    r.tokens.filter p = r.content := by
  have hkept : r.content.filter p = r.content := by
    rw [List.filter_eq_self]
    intro t ht
    exact decide_eq_true (hcontent t (h.content t ht))
  have hleft : r.comment.toList.filter p = [] := by
    rw [List.filter_eq_nil_iff]
    intro t ht
    simpa using hcomment t (h.comment t (Option.mem_toList.mp ht))
  rw [tokens, List.filter_append, hkept, hleft, List.append_nil]

theorem Valid.filter_tokens (h : r.Valid n) : r.tokens.filter (·.kind ≠ .comment) = r.content :=
  h.filter_eq_content (fun _ ht => ht.2) fun _ ht => not_not.mpr ht

theorem Valid.comment?_tokens (h : r.Valid n) :
    Line.comment? r.tokens = r.comment.map Token.text := by
  have hcontent : r.content.find? (·.kind = .comment) = none := by
    rw [List.find?_eq_none]
    intro t ht
    simpa using (h.content t ht).2
  rw [Line.comment?, tokens, List.find?_append, hcontent, Option.none_or]
  cases hr : r.comment with
  | none => rfl
  | some c =>
      have hc : c.kind = .comment := h.comment c hr
      simp [hc]

/-- What a physical line with no statement, and one with a statement, is collected to. -/
theorem Valid.collect_cons (h : r.Valid n) (pending : List Text) (physical : List (List Token)) :
    Line.collect pending (r.tokens :: physical) =
      match r.content, r.comment with
      | [], none => Line.collect [] physical
      | [], some c => Line.collect (pending ++ [c.text]) physical
      | first :: others, comment =>
          ⟨first, others, comment.map Token.text, pending⟩ :: Line.collect [] physical := by
  rw [Line.collect, h.filter_tokens, h.comment?_tokens]
  cases r.content with
  | nil =>
      cases r.comment with
      | none => rfl
      | some c => rfl
  | cons first others => rfl

theorem joined_of_tokens_eq {r' : Row} (h : r'.tokens = t :: r.tokens) (n : Nat) (rows : List Row) :
    joined n r' rows = t :: joined n r rows := by
  cases rows with
  | nil => exact h
  | cons r'' rows => rw [joined, h, joined, List.cons_append]

/-- A physical line that has tokens stands at the front of those from it on. -/
theorem tokens_prefix_joined (n : Nat) (r : Row) (rows : List Row) :
    r.tokens <+: joined n r rows := by
  cases rows with
  | nil => exact List.prefix_rfl
  | cons r' rows => exact List.prefix_append _ _

theorem Numbered.splitOnP_joined (h : Numbered n (r :: rows)) :
    (joined n r rows).splitOnP (·.kind = .newline) = (r :: rows).map tokens := by
  induction rows generalizing n r with
  | nil =>
      cases h with
      | cons hr hrest =>
          exact List.splitOnP_eq_singleton fun t ht => decide_eq_false (hr.kind_ne_newline t ht)
  | cons r' rows ih =>
      cases h with
      | cons hr hrest =>
          rw [joined, List.splitOnP_append_cons_of_forall_mem
            (fun t ht => decide_eq_false (hr.kind_ne_newline t ht)) _ (by simp), ih hrest]
          rfl

end Row

/-- A text that has tokens is made up of physical lines. -/
theorem Token.Scans.exists_rows {line : Nat} {s : Text} {tokens : List Token}
    (h : Scans line s tokens) :
    ∃ r rows, Row.Numbered line (r :: rows) ∧ tokens = Row.joined line r rows := by
  induction h with
  | @nil line => exact ⟨{}, [], .cons (Row.valid_empty line) .nil, rfl⟩
  | gap hgap h ih => exact ih
  | @newline line s tokens h ih =>
      obtain ⟨r, rows, hrows, rfl⟩ := ih
      exact ⟨{}, r :: rows, .cons (Row.valid_empty line) hrows, rfl⟩
  | @token line n c s kind tokens hgap hc hfirst h ih =>
      obtain ⟨r, rows, hrows, rfl⟩ := ih
      have hkind := (first_spec hc hfirst).1
      cases hrows with
      | cons hr hrest =>
          -- Nothing is left of the line behind a comment.
          have hcomment : kind = .comment → r.tokens = [] := by
            intro hcomment
            have hbehind := ((cut_of_first hc hfirst line).comment hcomment).2
            cases htokens : r.tokens with
            | nil => rfl
            | cons u others =>
                obtain ⟨rest, hjoined⟩ := Row.tokens_prefix_joined line r rows
                rw [← hjoined, htokens] at h
                have hu : u ∈ r.tokens := by
                  rw [htokens]
                  exact List.mem_cons_self
                exact absurd (h.kind_of_head? hbehind) (hr.kind_ne_newline u hu)
          obtain ⟨r', hr', htokens⟩ :=
            hr.exists_cons (t := ⟨kind, c :: s.take n, line⟩) rfl hkind hcomment
          exact ⟨r', rows, .cons hr' hrest, (Row.joined_of_tokens_eq htokens line rows).symm⟩

end GoModules
