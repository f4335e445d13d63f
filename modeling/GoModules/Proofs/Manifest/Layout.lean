import GoModules.Proofs.Manifest.Rows
import Mathlib.Data.List.Nodup

/-!
# How lines are laid out

The lines of a text share out its tokens. Every token of a statement is in one line, in the order of
the text, and every comment belongs to one line at most: to the one that it stands beside, or, if it
stands alone, to the next one, unless a blank line is between them.
-/

namespace GoModules

namespace Line

/-- Nothing stands on the line with the number `n` but the newline at its end. -/
def IsBlank (tokens : List Token) (n : Nat) : Prop :=
  ∀ t ∈ tokens, t.line = n → t.kind = .newline

/-- A comment on a line that has other tokens. -/
def Beside (l : Line) (c : Token) : Prop :=
  c.kind = .comment ∧ c.line = l.number

/-- A comment that stands alone, on a line above `l`, which is the next one with a statement, and no
blank line between them. -/
def Above (tokens : List Token) (lines : List Line) (l : Line) (c : Token) : Prop :=
  c.kind = .comment ∧ (∀ t ∈ tokens, t.line = c.line → ¬ t.IsContent) ∧
    (c.line < l.number ∧ ∀ l' ∈ lines, c.line < l'.number → l.number ≤ l'.number) ∧
    ∀ n < l.number, c.line < n → ¬ IsBlank tokens n

instance (tokens : List Token) (n : Nat) : Decidable (IsBlank tokens n) :=
  inferInstanceAs (Decidable (∀ t ∈ tokens, t.line = n → t.kind = .newline))

instance (l : Line) (c : Token) : Decidable (l.Beside c) :=
  inferInstanceAs (Decidable (_ ∧ _))

instance (tokens : List Token) (lines : List Line) (l : Line) (c : Token) :
    Decidable (l.Above tokens lines c) :=
  inferInstanceAs (Decidable (_ ∧ (∀ t ∈ tokens, t.line = c.line → ¬ t.IsContent) ∧
    (_ ∧ ∀ l' ∈ lines, c.line < l'.number → l.number ≤ l'.number) ∧
    ∀ n < l.number, c.line < n → ¬ IsBlank tokens n))

/-- How lines share out the tokens of a text. No line of the text has two comments, so a comment is
known by its line. -/
structure Layout (tokens : List Token) (lines : List Line) : Prop where
  content : lines.flatMap Line.tokens = tokens.filter Token.IsContent
  number : ∀ l ∈ lines, l.tokens ≠ [] ∧ ∀ t ∈ l.tokens, t.line = l.number
  ascending : lines.Pairwise (·.number < ·.number)
  suffix : ∀ l ∈ lines, l.suffix.toList = (tokens.filter l.Beside).map Token.text
  before : ∀ l ∈ lines, l.before = (tokens.filter (l.Above tokens lines)).map Token.text
  comments : (tokens.filter (·.kind = .comment)).Pairwise (·.line < ·.line)
  once : ∀ c ∈ tokens, ∀ l ∈ lines, ∀ l' ∈ lines, l.Beside c ∨ l.Above tokens lines c →
    l'.Beside c ∨ l'.Above tokens lines c → l = l'

/-- A comment and nothing else stands on the line with the number `n`. -/
def IsComment (tokens : List Token) (n : Nat) : Prop :=
  (∃ t ∈ tokens, t.line = n ∧ t.kind = .comment) ∧ ∀ t ∈ tokens, t.line = n → ¬ t.IsContent

/-- On all lines from the number `a` on, and above the one with the number `b`, a comment stands
alone. -/
def Unbroken (tokens : List Token) (a b : Nat) : Prop :=
  ∀ n < b, a ≤ n → IsComment tokens n

/-- A comment from which on comments stand alone down to the line with the number `b`. -/
def Reaches (tokens : List Token) (b : Nat) (c : Token) : Prop :=
  c.kind = .comment ∧ c.line < b ∧ Unbroken tokens c.line b

instance (tokens : List Token) (n : Nat) : Decidable (IsComment tokens n) :=
  inferInstanceAs (Decidable (_ ∧ ∀ t ∈ tokens, t.line = n → ¬ t.IsContent))

instance (tokens : List Token) (a b : Nat) : Decidable (Unbroken tokens a b) :=
  inferInstanceAs (Decidable (∀ n < b, a ≤ n → IsComment tokens n))

instance (tokens : List Token) (b : Nat) (c : Token) : Decidable (Reaches tokens b c) :=
  inferInstanceAs (Decidable (_ ∧ _ ∧ _))

end Line

open Line

namespace Row

variable {n a b : Nat} {r : Row} {rows : List Row} {tokens : List Token} {pending : List Text}
  {l : Line} {c : Token}

theorem Numbered.le_line (h : Numbered n rows) : ∀ t ∈ rows.flatMap Row.tokens, n ≤ t.line := by
  induction h with
  | nil => simp
  | cons hr hrest ih =>
      intro t ht
      rcases List.mem_append.mp ht with ht | ht
      · exact Nat.le_of_eq (hr.line t ht).symm
      · exact Nat.le_of_succ_le (ih t ht)

theorem Valid.filter_isContent (h : r.Valid n) : r.tokens.filter Token.IsContent = r.content :=
  h.filter_eq_content (fun _ ht => ht) fun _ ht hcontent => hcontent.2 ht

theorem Valid.filter_kind (h : r.Valid n) :
    r.tokens.filter (·.kind = .comment) = r.comment.toList := by
  have hcontent : r.content.filter (·.kind = .comment) = [] := by
    rw [List.filter_eq_nil_iff]
    intro t ht
    simpa using (h.content t ht).2
  have hcomment : r.comment.toList.filter (·.kind = .comment) = r.comment.toList := by
    rw [List.filter_eq_self]
    intro t ht
    simpa using h.comment t (Option.mem_toList.mp ht)
  rw [tokens, List.filter_append, hcontent, hcomment, List.nil_append]

theorem Numbered.flatMap_tokens (h : Numbered n rows) (pending : List Text) :
    (collect pending (rows.map Row.tokens)).flatMap Line.tokens =
      (rows.flatMap Row.tokens).filter Token.IsContent := by
  induction h generalizing pending with
  | nil => rfl
  | cons hr hrest ih =>
      rw [List.map_cons, hr.collect_cons, List.flatMap_cons, List.filter_append,
        hr.filter_isContent]
      split
      · next hcontent _ => rw [hcontent, ih, List.nil_append]
      · next hcontent _ => rw [hcontent, ih, List.nil_append]
      · next hcontent => rw [hcontent, List.flatMap_cons, ih, Line.tokens]

theorem Numbered.number (h : Numbered n rows) (hl : l ∈ collect pending (rows.map Row.tokens)) :
    n ≤ l.number ∧ ∀ t ∈ l.tokens, t.line = l.number := by
  induction h generalizing pending with
  | nil => cases hl
  | cons hr hrest ih =>
      rw [List.map_cons, hr.collect_cons] at hl
      split at hl
      · exact (ih hl).imp_left Nat.le_of_succ_le
      · exact (ih hl).imp_left Nat.le_of_succ_le
      · next first others hcontent =>
          rcases List.mem_cons.mp hl with rfl | hl
          · have hline : ∀ t ∈ first :: others, t.line = _ := fun t ht =>
              hr.line t (List.mem_append_left _ (hcontent ▸ ht))
            have hfirst := hline first List.mem_cons_self
            refine ⟨Nat.le_of_eq hfirst.symm, fun t ht => (hline t ht).trans hfirst.symm⟩
          · exact (ih hl).imp_left Nat.le_of_succ_le

theorem Numbered.ascending (h : Numbered n rows) (pending : List Text) :
    (collect pending (rows.map Row.tokens)).Pairwise (·.number < ·.number) := by
  induction h generalizing pending with
  | nil => exact .nil
  | cons hr hrest ih =>
      rw [List.map_cons, hr.collect_cons]
      split
      · exact ih []
      · exact ih _
      · next first others hcontent =>
          have hfirst : first.line = _ := hr.line first (by simp [tokens, hcontent])
          refine List.pairwise_cons.mpr ⟨fun l hl => ?_, ih []⟩
          exact lt_of_eq_of_lt hfirst (hrest.number hl).1

theorem Numbered.comments (h : Numbered n rows) :
    ((rows.flatMap Row.tokens).filter (·.kind = .comment)).Pairwise (·.line < ·.line) := by
  induction h with
  | nil => exact .nil
  | @cons n r rows hr hrest ih =>
      rw [List.flatMap_cons, List.filter_append, hr.filter_kind, List.pairwise_append]
      refine ⟨?_, ih, fun c hc t ht => ?_⟩
      · cases r.comment with
        | none => exact .nil
        | some c => exact List.pairwise_singleton _ c
      · have hline : c.line = n := hr.line c (List.mem_append_right _ hc)
        exact lt_of_eq_of_lt hline (hrest.le_line t (List.mem_of_mem_filter ht))

/-- What stands on a physical line is not on those below it. -/
theorem Valid.filter_beside_of_lt (h : r.Valid n) (hl : n < l.number) :
    r.tokens.filter l.Beside = [] := by
  rw [List.filter_eq_nil_iff]
  intro t ht
  rw [decide_eq_true_eq]
  rintro ⟨-, hline⟩
  exact absurd ((h.line t ht).symm.trans hline) (Nat.ne_of_lt hl)

theorem Numbered.filter_beside_of_lt (h : Numbered n rows) (hl : l.number < n) :
    (rows.flatMap Row.tokens).filter l.Beside = [] := by
  rw [List.filter_eq_nil_iff]
  intro t ht
  rw [decide_eq_true_eq]
  rintro ⟨-, hline⟩
  exact absurd (h.le_line t ht) (Nat.not_le.mpr (lt_of_eq_of_lt hline hl))

theorem Valid.filter_beside (h : r.Valid l.number) :
    r.tokens.filter l.Beside = r.comment.toList := by
  rw [← h.filter_kind]
  refine List.filter_congr fun t ht => ?_
  simp [Beside, h.line t ht]

theorem Numbered.suffix (h : Numbered n rows)
    (hl : l ∈ collect pending (rows.map Row.tokens)) :
    l.suffix.toList = ((rows.flatMap Row.tokens).filter l.Beside).map Token.text := by
  induction h generalizing pending with
  | nil => cases hl
  | @cons n r rows hr hrest ih =>
      have hbelow : ∀ {pending}, l ∈ collect pending (rows.map Row.tokens) →
          l.suffix.toList =
            (((r :: rows).flatMap Row.tokens).filter l.Beside).map Token.text := by
        intro pending hl
        rw [List.flatMap_cons, List.filter_append, hr.filter_beside_of_lt (hrest.number hl).1,
          List.nil_append, ih hl]
      rw [List.map_cons, hr.collect_cons] at hl
      split at hl
      · exact hbelow hl
      · exact hbelow hl
      · next first others hcontent =>
          rcases List.mem_cons.mp hl with rfl | hl
          · have hfirst : first.line = n := hr.line first (by simp [tokens, hcontent])
            subst hfirst
            rw [List.flatMap_cons, List.filter_append,
              Valid.filter_beside (l := ⟨first, _, _, _⟩) hr,
              hrest.filter_beside_of_lt (Nat.lt_succ_self _), List.append_nil]
            cases r.comment with
            | none => rfl
            | some c => rfl
          · exact hbelow hl

/-- A physical line decides about its own number, those below it about theirs. -/
theorem Valid.isComment_append_iff_of_lt (h : r.Valid n) {m : Nat} (hm : n < m) :
    IsComment (r.tokens ++ tokens) m ↔ IsComment tokens m := by
  have hr : ∀ t ∈ r.tokens, t.line ≠ m := by
    intro t ht
    rw [h.line t ht]
    exact Nat.ne_of_lt hm
  constructor
  · rintro ⟨⟨t, ht, hline, hkind⟩, hcontent⟩
    refine ⟨⟨t, ?_, hline, hkind⟩, fun u hu => hcontent u (List.mem_append_right _ hu)⟩
    exact (List.mem_append.mp ht).resolve_left fun ht => hr t ht hline
  · rintro ⟨⟨t, ht, hline, hkind⟩, hcontent⟩
    refine ⟨⟨t, List.mem_append_right _ ht, hline, hkind⟩, fun u hu huline => ?_⟩
    exact hcontent u ((List.mem_append.mp hu).resolve_left fun hu => hr u hu huline) huline

theorem Valid.isComment_append_iff (h : r.Valid n) (htokens : ∀ t ∈ tokens, n < t.line) :
    IsComment (r.tokens ++ tokens) n ↔ r.content = [] ∧ r.comment.isSome := by
  have hmem : ∀ {t}, t ∈ r.tokens ++ tokens → t.line = n → t ∈ r.tokens := fun ht hline =>
    (List.mem_append.mp ht).resolve_right fun ht => Nat.ne_of_gt (htokens _ ht) hline
  constructor
  · rintro ⟨⟨t, ht, hline, hkind⟩, hcontent⟩
    have hnil : r.content = [] := by
      rw [List.eq_nil_iff_forall_not_mem]
      intro u hu
      have hu' := List.mem_append_left r.comment.toList hu
      exact hcontent u (List.mem_append_left tokens hu') (h.line u hu') (h.content u hu)
    have ht := hmem ht hline
    rw [Row.tokens, hnil, List.nil_append, Option.mem_toList] at ht
    exact ⟨hnil, Option.isSome_of_mem ht⟩
  · rintro ⟨hnil, hcomment⟩
    obtain ⟨c, hc⟩ := Option.isSome_iff_exists.mp hcomment
    have hr : r.tokens = [c] := by
      rw [Row.tokens, hnil, hc]
      rfl
    have hkind : c.kind = .comment := h.comment c hc
    refine ⟨⟨c, by simp [hr], h.line c (by simp [hr]), hkind⟩, fun t ht hline hcontent => ?_⟩
    have ht := hmem ht hline
    rw [hr, List.mem_singleton] at ht
    subst ht
    exact hcontent.2 hkind

theorem Valid.unbroken_append_iff_of_lt (h : r.Valid n) (ha : n < a) :
    Unbroken (r.tokens ++ tokens) a b ↔ Unbroken tokens a b := by
  refine forall_congr' fun m => imp_congr_right fun _ => imp_congr_right fun hm => ?_
  exact h.isComment_append_iff_of_lt (lt_of_lt_of_le ha hm)

theorem Valid.unbroken_append_iff (h : r.Valid n) (htokens : ∀ t ∈ tokens, n < t.line)
    (hb : n < b) :
    Unbroken (r.tokens ++ tokens) n b ↔
      (r.content = [] ∧ r.comment.isSome) ∧ Unbroken tokens (n + 1) b := by
  rw [← h.isComment_append_iff htokens, ← h.unbroken_append_iff_of_lt (Nat.lt_succ_self n)]
  constructor
  · intro hunbroken
    exact ⟨hunbroken n hb (Nat.le_refl n), fun m hm hn => hunbroken m hm (Nat.le_of_succ_le hn)⟩
  · rintro ⟨hn, hunbroken⟩ m hm hle
    rcases Nat.eq_or_lt_of_le hle with rfl | hlt
    · exact hn
    · exact hunbroken m hm hlt

/-- A comment that stands alone reaches down just as far as the lines below it let it. -/
theorem Valid.filter_reaches (h : r.Valid n) (htokens : ∀ t ∈ tokens, n < t.line) (hb : n < b) :
    (r.tokens ++ tokens).filter (Reaches (r.tokens ++ tokens) b) =
      (if r.content = [] ∧ Unbroken tokens (n + 1) b then r.comment.toList else []) ++
        tokens.filter (Reaches tokens b) := by
  have hbelow : tokens.filter (Reaches (r.tokens ++ tokens) b) =
      tokens.filter (Reaches tokens b) := by
    refine List.filter_congr fun t ht => decide_eq_decide.mpr ?_
    rw [Reaches, h.unbroken_append_iff_of_lt (htokens t ht), Reaches]
  have hat : ∀ t ∈ r.tokens, Reaches (r.tokens ++ tokens) b t ↔
      t.kind = .comment ∧ (r.content = [] ∧ r.comment.isSome) ∧ Unbroken tokens (n + 1) b := by
    intro t ht
    rw [Reaches, h.line t ht, h.unbroken_append_iff htokens hb, and_iff_right hb]
  rw [List.filter_append, hbelow]
  refine congrArg (· ++ _) ?_
  split
  · next hfree =>
      rw [← h.filter_kind]
      refine List.filter_congr fun t ht => decide_eq_decide.mpr ?_
      rw [hat t ht, and_iff_left_iff_imp]
      intro hkind
      rcases List.mem_append.mp ht with ht | ht
      · exact absurd hkind (h.content t ht).2
      · exact ⟨⟨hfree.1, Option.isSome_of_mem (Option.mem_toList.mp ht)⟩, hfree.2⟩
  · next hfree =>
      rw [List.filter_eq_nil_iff]
      intro t ht hreaches
      obtain ⟨-, ⟨hnil, -⟩, hunbroken⟩ := (hat t ht).mp (of_decide_eq_true hreaches)
      exact hfree ⟨hnil, hunbroken⟩

/-- A line with a statement and a blank line part what is above them from what is below. -/
theorem Valid.parted (h : r.Valid n) (htokens : ∀ t ∈ tokens, n < t.line) (hb : n < b)
    (hparts : r.content ≠ [] ∨ r.comment = none) :
    ¬ Unbroken (r.tokens ++ tokens) n b ∧
      (r.tokens ++ tokens).filter (Reaches (r.tokens ++ tokens) b) =
        tokens.filter (Reaches tokens b) := by
  rw [h.unbroken_append_iff htokens hb, h.filter_reaches htokens hb]
  rcases hparts with hne | hnone
  · refine ⟨fun hunbroken => hne hunbroken.1.1, ?_⟩
    rw [if_neg fun hfree => hne hfree.1, List.nil_append]
  · rw [hnone, Option.toList_none, ite_self, List.nil_append]
    refine ⟨fun hunbroken => ?_, rfl⟩
    cases hunbroken.1.2

/-- Nothing stands above the first physical line. -/
theorem Numbered.filter_reaches (h : Numbered n rows) :
    (rows.flatMap Row.tokens).filter (Reaches (rows.flatMap Row.tokens) n) = [] := by
  rw [List.filter_eq_nil_iff]
  intro t ht hreaches
  exact Nat.not_lt.mpr (h.le_line t ht) (of_decide_eq_true hreaches).2.1

/-- The comments in front of a line are those that reach down to it. Those that were pending stand
above all the rest, so nothing but comments may come in between. -/
theorem Numbered.before (h : Numbered n rows) (hl : l ∈ collect pending (rows.map Row.tokens)) :
    l.before = (if Unbroken (rows.flatMap Row.tokens) n l.number then pending else []) ++
      ((rows.flatMap Row.tokens).filter
        (Reaches (rows.flatMap Row.tokens) l.number)).map Token.text := by
  induction h generalizing pending with
  | nil => cases hl
  | @cons n r rows hr hrest ih =>
      have htokens : ∀ t ∈ rows.flatMap Row.tokens, n < t.line := hrest.le_line
      rw [List.map_cons, hr.collect_cons] at hl
      split at hl
      · next hnone =>
          have hnumber : n < l.number := (hrest.number hl).1
          obtain ⟨hbroken, hreaches⟩ := hr.parted htokens hnumber (.inr hnone)
          rw [List.flatMap_cons, if_neg hbroken, hreaches, ih hl, ite_self]
      · next c hnil hcomment =>
          have hnumber : n < l.number := (hrest.number hl).1
          have hunbroken := hr.unbroken_append_iff htokens hnumber
          rw [List.flatMap_cons, hr.filter_reaches htokens hnumber, ih hl]
          by_cases hreaches : Unbroken (rows.flatMap Row.tokens) (n + 1) l.number
          · simp [hunbroken, hreaches, hnil, hcomment]
          · simp [hunbroken, hreaches]
      · next first others hcontent =>
          rcases List.mem_cons.mp hl with heq | hl
          · have hnumber : l.number = n := by
              rw [heq]
              exact hr.line first (by simp [tokens, hcontent])
            have hunbroken : Unbroken ((r :: rows).flatMap Row.tokens) n n :=
              fun m hm hle => absurd hm (Nat.not_lt.mpr hle)
            rw [hnumber, if_pos hunbroken, (Numbered.cons hr hrest).filter_reaches, List.map_nil,
              List.append_nil, heq]
          · have hnumber : n < l.number := (hrest.number hl).1
            have hne : r.content ≠ [] := by
              rw [hcontent]
              exact List.cons_ne_nil _ _
            obtain ⟨hbroken, hreaches⟩ := hr.parted htokens hnumber (.inl hne)
            rw [List.flatMap_cons, if_neg hbroken, hreaches, ih hl, ite_self]

end Row

namespace Line

variable {tokens : List Token} {lines : List Line} {l : Line} {c : Token}

theorem isComment_filter_iff {n : Nat} :
    IsComment (tokens.filter (·.kind ≠ .newline)) n ↔ IsComment tokens n := by
  simp only [IsComment, List.mem_filter, decide_eq_true_eq]
  constructor
  · rintro ⟨⟨t, ⟨ht, -⟩, hline, hkind⟩, hcontent⟩
    exact ⟨⟨t, ht, hline, hkind⟩, fun u hu huline hu' => hcontent u ⟨hu, hu'.1⟩ huline hu'⟩
  · rintro ⟨⟨t, ht, hline, hkind⟩, hcontent⟩
    refine ⟨⟨t, ⟨ht, ?_⟩, hline, hkind⟩, fun u hu => hcontent u hu.1⟩
    rw [hkind]
    decide

theorem reaches_filter_iff {b : Nat} :
    Reaches (tokens.filter (·.kind ≠ .newline)) b c ↔ Reaches tokens b c := by
  simp only [Reaches, Unbroken, isComment_filter_iff]

/-- Where every token of a statement is in a line, and every line has one, comments reach down to a
line if it is the next one and no blank line parts them. -/
theorem above_iff_reaches (hcontent : ∀ t ∈ tokens, t.IsContent → ∃ l ∈ lines, l.number = t.line)
    (hfirst : ∀ l ∈ lines, l.first ∈ tokens ∧ l.first.IsContent) (hc : c ∈ tokens) :
    l.Above tokens lines c ↔ Reaches tokens l.number c := by
  constructor
  · rintro ⟨hkind, halone, ⟨hlt, hnext⟩, hblank⟩
    refine ⟨hkind, hlt, fun n hn hle => ?_⟩
    rcases Nat.eq_or_lt_of_le hle with rfl | hgt
    · exact ⟨⟨c, hc, rfl, hkind⟩, halone⟩
    · have hnone : ∀ t ∈ tokens, t.line = n → ¬ t.IsContent := by
        rintro t ht rfl hcontent'
        obtain ⟨l', hl', hnumber⟩ := hcontent t ht hcontent'
        have hle := hnext l' hl' (lt_of_lt_of_eq hgt hnumber.symm)
        exact Nat.not_le.mpr hn (le_of_le_of_eq hle hnumber)
      have hsome : ∃ t ∈ tokens, t.line = n ∧ t.kind ≠ .newline := by
        simpa [IsBlank] using hblank n hn hgt
      obtain ⟨t, ht, hline, hne⟩ := hsome
      refine ⟨⟨t, ht, hline, ?_⟩, hnone⟩
      by_contra hkind'
      exact hnone t ht hline ⟨hne, hkind'⟩
  · rintro ⟨hkind, hlt, hunbroken⟩
    refine ⟨hkind, (hunbroken c.line hlt (Nat.le_refl _)).2, ⟨hlt, fun l' hl' hgt => ?_⟩,
      fun n hn hgt hblank => ?_⟩
    · by_contra hless
      obtain ⟨hmem, hcontent'⟩ := hfirst l' hl'
      exact (hunbroken l'.number (Nat.not_le.mp hless) (Nat.le_of_lt hgt)).2 _ hmem rfl hcontent'
    · obtain ⟨t, ht, hline, hkind'⟩ := (hunbroken n hn (Nat.le_of_lt hgt)).1
      rw [hblank t ht hline] at hkind'
      cases hkind'

theorem filter_filter_newline {p : Token → Prop} [DecidablePred p]
    (hp : ∀ t, p t → t.kind ≠ .newline) :
    (tokens.filter (·.kind ≠ .newline)).filter p = tokens.filter p := by
  rw [List.filter_filter]
  refine List.filter_congr fun t _ => ?_
  by_cases ht : p t
  · simp [ht, hp t ht]
  · simp [ht]

theorem eq_of_number_eq (hascending : lines.Pairwise (·.number < ·.number)) {l' : Line}
    (hl : l ∈ lines) (hl' : l' ∈ lines) (hnumber : l.number = l'.number) : l = l' := by
  have hnodup : (lines.map number).Nodup := List.pairwise_map.mpr (hascending.imp Nat.ne_of_lt)
  exact List.inj_on_of_nodup_map hnodup hl hl' hnumber

/-- No comment stands beside one line and above another one, nor above two lines. -/
theorem number_eq_of_held (hfirst : ∀ l ∈ lines, l.first ∈ tokens ∧ l.first.IsContent) {l' : Line}
    (hl : l ∈ lines) (hl' : l' ∈ lines) (hheld : l.Beside c ∨ l.Above tokens lines c)
    (hheld' : l'.Beside c ∨ l'.Above tokens lines c) : l.number = l'.number := by
  have hparted : ∀ {l l' : Line}, l ∈ lines → l.Beside c → ¬ l'.Above tokens lines c := by
    rintro l l' hl ⟨-, hline⟩ ⟨-, halone, -⟩
    exact halone l.first (hfirst l hl).1 hline.symm (hfirst l hl).2
  rcases hheld with hbeside | habove
  · rcases hheld' with hbeside' | habove'
    · exact hbeside.2.symm.trans hbeside'.2
    · exact absurd habove' (hparted hl hbeside)
  · rcases hheld' with hbeside' | habove'
    · exact absurd habove (hparted hl' hbeside')
    · obtain ⟨-, -, ⟨hlt, hnext⟩, -⟩ := habove
      obtain ⟨-, -, ⟨hlt', hnext'⟩, -⟩ := habove'
      exact Nat.le_antisymm (hnext l' hl' hlt') (hnext' l hl hlt)

theorem exists_rows {number : Nat} {s : Text} (h : Token.scan number s = .ok tokens) :
    ∃ rows, Row.Numbered number rows ∧ ofTokens tokens = collect [] (rows.map Row.tokens) ∧
      rows.flatMap Row.tokens = tokens.filter (·.kind ≠ .newline) := by
  obtain ⟨r, rows, hrows, rfl⟩ := (Token.scans_of_scan h).exists_rows
  have hsplit := hrows.splitOnP_joined
  refine ⟨r :: rows, hrows, congrArg (collect []) hsplit, ?_⟩
  rw [List.flatMap_def, ← hsplit, Text.flatten_splitOnP]
  exact List.filter_congr fun t _ => decide_not.symm

/-- The comments of a line are comments of the text. -/
theorem exists_of_mem_comments {number : Nat} {s : Text} (h : Token.scan number s = .ok tokens)
    (hl : l ∈ ofTokens tokens) {x : Text} (hx : x ∈ l.comments) :
    ∃ c ∈ tokens, c.kind = .comment ∧ c.text = x := by
  obtain ⟨rows, hrows, hlines, htokens⟩ := exists_rows h
  rw [hlines] at hl
  rcases List.mem_append.mp hx with hx | hx
  · rw [hrows.before hl, ite_self, List.nil_append] at hx
    obtain ⟨c, hc, rfl⟩ := List.mem_map.mp hx
    obtain ⟨hmem, hreaches⟩ := List.mem_filter.mp hc
    rw [htokens] at hmem
    exact ⟨c, List.mem_of_mem_filter hmem, (of_decide_eq_true hreaches).1, rfl⟩
  · rw [hrows.suffix hl] at hx
    obtain ⟨c, hc, rfl⟩ := List.mem_map.mp hx
    obtain ⟨hmem, hbeside⟩ := List.mem_filter.mp hc
    rw [htokens] at hmem
    exact ⟨c, List.mem_of_mem_filter hmem, (of_decide_eq_true hbeside).1, rfl⟩

/-- The lines of a text share out its tokens: all tokens of statements in order, each line with the
number that its tokens have; and the comments, each to the line that it stands beside or, if it
stands alone and no blank line follows first, to the next line below it. -/
theorem ofTokens_layout {number : Nat} {s : Text} (h : Token.scan number s = .ok tokens) :
    Layout tokens (ofTokens tokens) := by
  obtain ⟨rows, hrows, hlines, htokens⟩ := exists_rows h
  rw [hlines]
  have hcontent : (collect [] (rows.map Row.tokens)).flatMap Line.tokens =
      tokens.filter Token.IsContent := by
    rw [hrows.flatMap_tokens, htokens, filter_filter_newline fun t ht => ht.1]
  have hnumber : ∀ l ∈ collect [] (rows.map Row.tokens), ∀ t ∈ l.tokens, t.line = l.number :=
    fun l hl => (hrows.number hl).2
  have hascending := hrows.ascending []
  have hfirst : ∀ l ∈ collect [] (rows.map Row.tokens),
      l.first ∈ tokens ∧ l.first.IsContent := by
    intro l hl
    have hmem : l.first ∈ tokens.filter Token.IsContent := by
      rw [← hcontent]
      exact List.mem_flatMap.mpr ⟨l, hl, List.mem_cons_self⟩
    exact (List.mem_filter.mp hmem).imp_right of_decide_eq_true
  have habove : ∀ (l : Line), ∀ c ∈ tokens, l.Above tokens (collect [] (rows.map Row.tokens)) c ↔
      Reaches tokens l.number c := by
    intro l c hc
    refine above_iff_reaches (fun t ht hcontent' => ?_) hfirst hc
    have hmem : t ∈ tokens.filter Token.IsContent :=
      List.mem_filter.mpr ⟨ht, decide_eq_true hcontent'⟩
    rw [← hcontent] at hmem
    obtain ⟨l, hl, ht⟩ := List.mem_flatMap.mp hmem
    exact ⟨l, hl, (hnumber l hl t ht).symm⟩
  refine ⟨hcontent, fun l hl => ⟨List.cons_ne_nil _ _, hnumber l hl⟩, hascending, ?_, ?_, ?_, ?_⟩
  · intro l hl
    rw [hrows.suffix hl, htokens, filter_filter_newline]
    intro t ht
    rw [ht.1]
    decide
  · intro l hl
    rw [hrows.before hl, ite_self, List.nil_append, htokens, List.filter_filter]
    refine congrArg _ (List.filter_congr fun t ht => ?_)
    rw [Bool.eq_iff_iff, Bool.and_eq_true, decide_eq_true_iff, decide_eq_true_iff,
      decide_eq_true_iff, habove l t ht, reaches_filter_iff, and_iff_left_iff_imp]
    rintro ⟨hkind, -⟩
    simp [hkind]
  · have hcomments := hrows.comments
    rwa [htokens, filter_filter_newline] at hcomments
    intro t ht
    rw [ht]
    decide
  · intro c _ l hl l' hl' hheld hheld'
    exact eq_of_number_eq hascending hl hl' (number_eq_of_held hfirst hl hl' hheld hheld')

theorem ofTokens_layout_parted :
    ∃ tokens, Token.scan 1 "// a\n\n// b\n// c\ngo 1.21 // d\n// e\n\n".toList = .ok tokens ∧
      Layout tokens (ofTokens tokens) ∧
      (ofTokens tokens).map (fun l => (l.number, l.comments)) =
        [(5, ["// b".toList, "// c".toList, "// d".toList])] := by
  have hscan : Token.scan 1 "// a\n\n// b\n// c\ngo 1.21 // d\n// e\n\n".toList = .ok
      [⟨.comment, "// a".toList, 1⟩, ⟨.newline, ['\n'], 1⟩, ⟨.newline, ['\n'], 2⟩,
       ⟨.comment, "// b".toList, 3⟩, ⟨.newline, ['\n'], 3⟩, ⟨.comment, "// c".toList, 4⟩,
       ⟨.newline, ['\n'], 4⟩, ⟨.bare, "go".toList, 5⟩, ⟨.bare, "1.21".toList, 5⟩,
       ⟨.comment, "// d".toList, 5⟩, ⟨.newline, ['\n'], 5⟩, ⟨.comment, "// e".toList, 6⟩,
       ⟨.newline, ['\n'], 6⟩, ⟨.newline, ['\n'], 7⟩] := by
    decide +kernel
  exact ⟨_, hscan, ofTokens_layout hscan, by decide +kernel⟩

end Line

end GoModules
