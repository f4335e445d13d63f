import GoModules.Proofs.Manifest.Behind
import GoModules.Manifest.Reader

/-!
# Comments right behind a token

A comment may follow a token at once. It ends the token where that ended before, also a bare word,
which goes on into the comment as far as its characters are concerned and is cut back. Only an arrow
is told from a bare word before the cut, so an arrow with a comment right behind it is read as a
bare word.
-/

namespace GoModules.Token

variable {line n : Nat} {c : Char} {s text : Text} {kind : Kind} {tokens : List Token}

/-- A word without a comment in it is what is in front of a comment that follows it. -/
theorem beforeComment_append_comment (hs : beforeComment s = s) (hslash : s.getLast? ≠ some '/')
    (t : Text) : beforeComment (s ++ '/' :: '/' :: t) = s := by
  induction s with
  | nil => rfl
  | cons c s ih =>
      rw [beforeComment_cons_eq_iff] at hs
      rw [List.cons_append, beforeComment_cons_eq_iff]
      by_cases hnil : s = []
      · subst hnil
        exact ⟨fun hstart => hslash (by rw [hstart.1]; rfl), rfl⟩
      · rw [← List.singleton_append, List.getLast?_append_of_ne_nil [c] hnil] at hslash
        rw [List.head?_append_of_ne_nil s hnil]
        exact ⟨hs.1, ih hs.2 hslash⟩

/-- Characters of bare words that reach the end of a text and hold no comment are one word if a
comment follows, also those of an arrow. -/
theorem bare_append_comment (hrun : s.takeWhile isBareChar = s)
    (hword : beforeComment (c :: s) = c :: s) (hblock : opensBlock (c :: s) = false)
    (hslash : (c :: s).getLast? ≠ some '/') (t : Text) :
    bare c (s ++ '/' :: '/' :: t) = .ok (.bare, s.length) := by
  have hrest : (s ++ '/' :: '/' :: t).takeWhile isBareChar =
      s ++ '/' :: '/' :: t.takeWhile isBareChar := by
    rw [List.takeWhile_append, if_pos (congrArg List.length hrun),
      List.takeWhile_cons_of_pos (by decide), List.takeWhile_cons_of_pos (by decide)]
  refine bare_of_word hrest ?_ (beforeComment_append_comment hword hslash _) hblock
  intro harrow
  have hlength := congrArg List.length harrow
  rw [List.length_cons, List.length_append, List.length_cons, List.length_cons,
    List.length_cons, List.length_singleton] at hlength
  omega

theorem bare_append_comment_of_eq (h : bare c s = .ok (kind, s.length)) (hkind : kind ≠ .comment)
    (hslash : (c :: s).getLast? ≠ some '/') (t : Text) :
    (kind = .arrow ∨ kind = .bare) ∧
      bare c (s ++ '/' :: '/' :: t) = .ok (.bare, s.length) := by
  have hprefix : s.takeWhile isBareChar <+: s := List.takeWhile_prefix isBareChar
  rcases bare_cases h with ⟨rfl, harrow, hlength⟩ | ⟨hcomment, -⟩ |
    ⟨rfl, -, inside, hword, hblock, hlength⟩
  · rw [List.cons.injEq] at harrow
    have hrun : s.takeWhile isBareChar = s := hprefix.eq_of_length (by rw [harrow.2, hlength]; rfl)
    obtain rfl : s = ['>'] := by rw [← hrun, harrow.2]
    rw [harrow.1] at hslash ⊢
    exact ⟨.inl rfl, bare_append_comment hrun rfl rfl hslash t⟩
  · exact absurd hcomment hkind
  · have hle := length_beforeComment_le (c :: s.takeWhile isBareChar)
    rw [hword, List.length_cons, List.length_cons, ← hlength] at hle
    have hrun : s.takeWhile isBareChar = s :=
      hprefix.eq_of_length (Nat.le_antisymm hprefix.length_le (by omega))
    rw [hrun] at hword
    obtain ⟨rest, hsplit, -⟩ := exists_beforeComment_append (c :: s)
    rw [hword, List.cons_append, List.cons.injEq] at hsplit
    obtain rfl : inside = s :=
      List.IsPrefix.eq_of_length ⟨rest, hsplit.2.symm⟩ hlength.symm
    exact ⟨.inr rfl, bare_append_comment hrun hword hblock hslash t⟩

/-- A token that ends before the end of a text ends there whatever follows the text. -/
theorem first_append_of_lt (h : first c s = .ok (kind, n)) (hn : n < s.length) (t : Text) :
    first c (s ++ t) = .ok (kind, n) := by
  have hdrop : s.drop n ≠ [] := List.drop_eq_nil_iff.not.mpr (Nat.not_le.mpr hn)
  have halike : Alike (s.drop n) (s.drop n ++ t) :=
    ⟨List.head?_append_of_ne_nil _ hdrop, fun hslashes => hslashes.trans (List.prefix_append _ _)⟩
  have hcut := first_take_append h fun _ => halike
  rwa [← List.append_assoc, List.take_append_drop] at hcut

/-- A token at the end of a text ends there if a comment follows. -/
theorem first_append_comment (h : first c s = .ok (kind, s.length)) (hkind : kind ≠ .comment)
    (hslash : (c :: s).getLast? ≠ some '/') (t : Text) :
    first c (s ++ '/' :: '/' :: t) = .ok (if kind = .arrow then .bare else kind, s.length) := by
  rcases first_cases h with ⟨hmark, hn⟩ | ⟨rfl, rfl, hlength⟩ | ⟨rfl, rfl, hlength⟩ | ⟨hc, hbare⟩
  · rw [first, hmark, if_neg (kind_ne_of_punctuation? hmark).2.2, hn]
  · have hclosed := quotedLength?_take_append hlength ('/' :: '/' :: t)
    rw [List.take_length] at hclosed
    rw [first, hclosed]
    rfl
  · have hclosed := rawLength?_take_append hlength ('/' :: '/' :: t)
    rw [List.take_length] at hclosed
    rw [first, hclosed]
    rfl
  · rw [first_eq_bare hc]
    obtain ⟨hkinds, hbare⟩ := bare_append_comment_of_eq hbare hkind hslash t
    rw [hbare]
    rcases hkinds with rfl | rfl
    · rfl
    · rfl

/-- The tokens of a text with a comment right behind it, without the comment. -/
def glue (s : Text) : List Token → List Token
  | [] => []
  | [t] => [if t.kind = .arrow ∧ s.getLast? = some '>' then { t with kind := .bare } else t]
  | t :: tokens => t :: glue s tokens

theorem glue_cons (s : Text) (t : Token) {tokens : List Token} (h : tokens ≠ []) :
    glue s (t :: tokens) = t :: glue s tokens := by
  obtain ⟨t', tokens, rfl⟩ := List.exists_cons_of_ne_nil h
  rw [glue]
  simp

theorem glue_concat (s : Text) (front : List Token) (t : Token) :
    glue s (front ++ [t]) = front ++
      [if t.kind = .arrow ∧ s.getLast? = some '>' then { t with kind := .bare } else t] := by
  induction front with
  | nil => rfl
  | cons t' front ih =>
      rw [List.cons_append, glue_cons s t' (List.concat_ne_nil t front), ih, List.cons_append]

theorem glue_append (front : Text) (hs : s ≠ []) : glue (front ++ s) = glue s := by
  funext tokens
  induction tokens with
  | nil => rfl
  | cons t tokens ih =>
      by_cases hnil : tokens = []
      · subst hnil
        rw [glue, glue, List.getLast?_append_of_ne_nil front hs]
      · rw [glue_cons _ t hnil, glue_cons _ t hnil, ih]

theorem text_of_first_arrow (h : first c s = .ok (.arrow, n)) : c :: s.take n = ['=', '>'] := by
  obtain ⟨hrun, rfl⟩ := arrow_of_first h
  rw [List.cons.injEq] at hrun
  obtain ⟨rest, hrest⟩ := List.takeWhile_prefix (l := s) isBareChar
  rw [← hrest, hrun.1, hrun.2]
  rfl

theorem getLast?_ne_of_append (front : Text) (h : (front ++ s).getLast? ≠ some c) :
    s.getLast? ≠ some c := by
  intro hlast
  have hnil : s ≠ [] := by
    rintro rfl
    cases hlast
  rw [List.getLast?_append_of_ne_nil front hnil] at h
  exact h hlast

/-- What a text ends with that has no tokens. -/
theorem Scans.getLast?_ne (h : Scans line s []) : s.getLast? ≠ some '>' := by
  intro hlast
  have hfiller : Filler s := by
    cases h.segments with
    | nil hgap => exact hgap
  rcases hfiller '>' (List.mem_of_getLast? hlast) with hc | hc | hc
  · cases hc
  · cases hc
  · cases hc

/-- What is in front of the last tokens of a text does not matter to them. -/
theorem glue_cons_of_scans (front : Text) (t : Token) (h : Scans line s tokens) (hs : s ≠ []) :
    glue (front ++ s) (t :: tokens) = t :: glue s tokens := by
  by_cases hnil : tokens = []
  · subst hnil
    rw [glue, glue, List.getLast?_append_of_ne_nil front hs,
      if_neg fun hlast => h.getLast?_ne hlast.2]
  · rw [glue_cons _ t hnil, glue_append front hs]

/-- A text of one token, and a comment right behind it. -/
theorem scans_glue_singleton (hgap : ¬ isGap c) (hc : c ≠ '\n')
    (hfirst : first c s = .ok (kind, s.length)) (hkind : kind ≠ .comment)
    (hslash : (c :: s).getLast? ≠ some '/') (htext : '\n' ∉ text) (line : Nat) :
    Scans line (c :: (s ++ ("//".toList ++ text)))
      (glue (c :: s) [⟨kind, c :: s, line⟩] ++ [⟨.comment, "//".toList ++ text, line⟩]) := by
  have hglued := Scans.prepend hgap hc (first_append_comment hfirst hkind hslash text)
    (scans_comment htext line)
  rw [glue]
  by_cases harrow : kind = .arrow
  · subst harrow
    have htext := text_of_first_arrow hfirst
    rw [List.take_length] at htext
    rw [if_pos ⟨rfl, by rw [htext]; rfl⟩]
    exact hglued
  · rw [if_neg harrow] at hglued
    rw [if_neg fun ht => harrow ht.1]
    exact hglued

theorem Scans.append_comment (h : Scans line s tokens) (hs : '\n' ∉ s)
    (hslash : s.getLast? ≠ some '/') (hcomment : ∀ t ∈ tokens, t.kind ≠ .comment)
    (htext : '\n' ∉ text) :
    Scans line (s ++ ("//".toList ++ text))
      (glue s tokens ++ [⟨.comment, "//".toList ++ text, line⟩]) := by
  induction h with
  | nil => exact scans_comment htext _
  | @gap line c s tokens hgap h ih =>
      have hrest := ih (fun hmem => hs (List.mem_cons_of_mem c hmem))
        (getLast?_ne_of_append [c] hslash) hcomment
      by_cases hnil : s = []
      · subst hnil
        cases h
        exact .gap hgap hrest
      · rw [← List.singleton_append, glue_append [c] hnil]
        exact .gap hgap hrest
  | newline h ih => exact absurd List.mem_cons_self hs
  | @token line n c s kind tokens hgap hc hfirst h ih =>
      rw [List.forall_mem_cons] at hcomment
      have hle := le_length_of_le_restOfLine (first_spec hc hfirst).2
      by_cases hend : s.drop n = []
      · rw [hend] at h
        cases h
        obtain rfl : n = s.length := Nat.le_antisymm hle (List.drop_eq_nil_iff.mp hend)
        rw [List.take_length]
        exact scans_glue_singleton hgap hc hfirst hcomment.1 hslash htext line
      · have hsplit : c :: s = (c :: s.take n) ++ s.drop n := by
          rw [List.cons_append, List.take_append_drop]
        have hlt : n < s.length := Nat.not_le.mp (List.drop_eq_nil_iff.not.mp hend)
        have hrest := ih (fun hmem => hs (List.mem_cons_of_mem c (List.mem_of_mem_drop hmem)))
          (getLast?_ne_of_append _ (hsplit ▸ hslash)) hcomment.2
        rw [← List.drop_append_of_le_length hle] at hrest
        have hglued := Scans.token hgap hc (first_append_of_lt hfirst hlt _) hrest
        rw [List.take_append_of_le_length hle] at hglued
        rw [hsplit, glue_cons_of_scans _ _ h hend, ← hsplit]
        exact hglued

/-- A comment may stand right behind any token of a line but an arrow, and an arrow is taken for a
bare word then. -/
theorem scan_append_comment (h : scan line s = .ok tokens) (hs : '\n' ∉ s)
    (hslash : s.getLast? ≠ some '/') (hcomment : ∀ t ∈ tokens, t.kind ≠ .comment)
    (htext : '\n' ∉ text) :
    ((∀ t ∈ tokens.getLast?, t.kind = .arrow → s.getLast? ≠ some '>') →
      scan line (s ++ ("//".toList ++ text)) =
        .ok (tokens ++ [⟨.comment, "//".toList ++ text, line⟩])) ∧
    ∀ front t, tokens = front ++ [t] → t.kind = .arrow → s.getLast? = some '>' →
      scan line (s ++ ("//".toList ++ text)) =
        .ok (front ++ [{ t with kind := .bare }, ⟨.comment, "//".toList ++ text, line⟩]) := by
  have hscan := ((scans_of_scan h).append_comment hs hslash hcomment htext).scan_eq
  constructor
  · intro harrow
    rw [hscan]
    rcases List.eq_nil_or_concat tokens with rfl | ⟨front, t, rfl⟩
    · rfl
    · rw [List.concat_eq_append, List.getLast?_concat] at harrow
      rw [List.concat_eq_append, glue_concat, if_neg fun ht => harrow t rfl ht.1 ht.2]
  · rintro front t rfl harrow hlast
    rw [hscan, glue_concat, if_pos ⟨harrow, hlast⟩, List.append_assoc]
    rfl

theorem scan_append_comment_quoted :
    ∃ tokens, scan 1 "tool \x60x\x60 \"y\"".toList = .ok tokens ∧ tokens.length = 3 ∧
      scan 1 ("tool \x60x\x60 \"y\"".toList ++ ("//".toList ++ " a // \"b".toList)) =
        .ok (tokens ++ [⟨.comment, "//".toList ++ " a // \"b".toList, 1⟩]) := by
  have hscan : scan 1 "tool \x60x\x60 \"y\"".toList = .ok [⟨.bare, "tool".toList, 1⟩,
      ⟨.raw, "\x60x\x60".toList, 1⟩, ⟨.quoted, "\"y\"".toList, 1⟩] := by
    decide +kernel
  exact ⟨_, hscan, rfl, (scan_append_comment hscan (by decide) (by decide) (by decide)
    (by decide)).1 (by decide)⟩

/-- An arrow with a comment right behind it is no arrow, so it can be an argument. -/
theorem scan_append_comment_arrow_ne :
    ∃ tokens, scan 1 "tool =>".toList = .ok tokens ∧ (∀ t ∈ tokens, t.kind ≠ .comment) ∧
      scan 1 ("tool =>".toList ++ ("//".toList ++ " x".toList)) ≠
        .ok (tokens ++ [⟨.comment, "//".toList ++ " x".toList, 1⟩]) ∧
      Manifest.read (Utf8.encode "tool => // x\n".toList) =
        .error ⟨1, .unexpectedToken .arrow⟩ ∧
      Manifest.read (Utf8.encode "tool =>// x\n".toList) = .ok { tool := ["=>".toList] } := by
  refine ⟨[⟨.bare, "tool".toList, 1⟩, ⟨.arrow, "=>".toList, 1⟩], ?_⟩
  decide +kernel

end GoModules.Token
