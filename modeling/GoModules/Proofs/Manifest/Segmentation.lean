import GoModules.Proofs.Manifest.Scan

/-!
# How tokens make up a text

Put together again with the gaps between them, the tokens of a text are the text: every character
is in exactly one token or in a gap, and a gap holds spaces, tabs and carriage returns only. Bare
words and comments reach as far as they can. A text without tokens holds what its fault is about.
-/

namespace GoModules.Token

open Outcome

/-- The characters that no bare word has. -/
def delimiters : List Char :=
  [' ', '\t', '\r', '\n', '(', ')', '[', ']', '\x7b', '\x7d', ',', '"', '\x60']

/-- A text that may stand between two tokens. -/
def Filler (s : Text) : Prop :=
  ∀ c ∈ s, c = ' ' ∨ c = '\t' ∨ c = '\r'

/-- How a token is cut out in front of the text that follows it. -/
structure Cut (t : Token) (rest : Text) : Prop where
  ne_nil : t.text ≠ []
  newline : t.kind = .newline → t.text = ['\n']
  newline_notMem : t.kind ≠ .newline → '\n' ∉ t.text
  bare : t.kind = .bare → (∀ c ∈ t.text, c ∉ delimiters) ∧
    ¬ ['/', '/'] <:+: t.text ∧ ¬ ['/', '*'] <:+: t.text ∧
    ((∀ c ∈ rest.head?, c ∈ delimiters) ∨ ['/', '/'] <+: rest)
  comment : t.kind = .comment → ['/', '/'] <+: t.text ∧ ∀ c ∈ rest.head?, c = '\n'

/-- A text is made up of tokens and gaps, if its first line has the given number. -/
inductive Segments : Nat → Text → List Token → Prop
  | nil {line : Nat} {gap : Text} (hgap : Filler gap) : Segments line gap []
  | cons {line : Nat} {gap rest : Text} {t : Token} {tokens : List Token} (hgap : Filler gap)
      (hline : t.line = line) (hcut : t.Cut rest)
      (h : Segments (line + t.text.count '\n') rest tokens) :
      Segments line (gap ++ (t.text ++ rest)) (t :: tokens)

/-- What a text holds that has no tokens. -/
def Fault.FoundIn (s : Text) : Fault → Prop
  | .unexpectedChar c => (c = '\x7b' ∨ c = '\x7d') ∧ c ∈ s
  | .unterminatedString => '"' ∈ s ∨ '\x60' ∈ s
  | .blockComment => ['/', '*'] <:+: s

theorem isBareChar_iff {c : Char} : isBareChar c = true ↔ c ∉ delimiters := by
  rw [isBareChar, Bool.not_eq_true', ← Bool.not_eq_true, List.contains_iff_mem, delimiters]

theorem isGap_iff {c : Char} : isGap c = true ↔ c = ' ' ∨ c = '\t' ∨ c = '\r' := by
  simp [isGap, or_assoc]

/-- A word that is cut at a comment leaves the comment behind, and loses nothing else. -/
theorem exists_beforeComment_append (s : Text) :
    ∃ rest, s = beforeComment s ++ rest ∧ (rest = [] ∨ ['/', '/'] <+: rest) := by
  induction s using beforeComment.induct with
  | case1 => exact ⟨[], rfl, .inl rfl⟩
  | case2 s => exact ⟨'/' :: '/' :: s, rfl, .inr ⟨s, rfl⟩⟩
  | case3 c s hne ih =>
      obtain ⟨rest, hs, hrest⟩ := ih
      refine ⟨rest, ?_, hrest⟩
      rw [beforeComment]
      · exact congrArg (c :: ·) hs
      · exact hne

theorem not_infix_beforeComment (s : Text) : ¬ ['/', '/'] <:+: beforeComment s := by
  induction s using beforeComment.induct with
  | case1 => simp [beforeComment]
  | case2 s => simp [beforeComment]
  | case3 c s hne ih =>
      rw [beforeComment]
      · intro h
        rcases List.infix_cons_iff.mp h with ⟨rest, hrest⟩ | h
        · obtain ⟨tail, hs, -⟩ := exists_beforeComment_append s
          rw [List.cons_append, List.cons.injEq] at hrest
          obtain ⟨rfl, hword⟩ := hrest
          rw [← hword] at hs
          exact hne _ rfl hs
        · exact ih h
      · exact hne

theorem opensBlock_iff {s : Text} : opensBlock s = true ↔ ['/', '*'] <:+: s := by
  induction s using opensBlock.induct with
  | case1 => simp [opensBlock]
  | case2 s =>
      rw [opensBlock]
      exact ⟨fun _ => ⟨[], s, rfl⟩, fun _ => rfl⟩
  | case3 c s hne ih =>
      rw [opensBlock]
      · rw [ih, List.infix_cons_iff]
        constructor
        · exact .inr
        · rintro (⟨rest, hrest⟩ | h)
          · rw [List.cons_append, List.cons.injEq] at hrest
            exact absurd hrest.2.symm (hne _ hrest.1.symm)
          · exact h
      · exact hne

theorem bare_eq_error {c : Char} {s : Text} {fault : Fault} (h : bare c s = .error fault) :
    fault = .blockComment ∧ ['/', '*'] <:+: c :: s := by
  unfold bare at h
  split at h
  · cases h
  · cases h
  · dsimp only at h
    split at h
    · next hblock =>
        cases h
        obtain ⟨rest, hrun, -⟩ := exists_beforeComment_append (c :: s.takeWhile isBareChar)
        have hword : beforeComment (c :: s.takeWhile isBareChar) <+: c :: s := by
          refine List.IsPrefix.trans ⟨rest, hrun.symm⟩ ?_
          exact List.cons_prefix_cons.mpr ⟨rfl, List.takeWhile_prefix isBareChar⟩
        exact ⟨rfl, (opensBlock_iff.mp hblock).trans hword.isInfix⟩
    · cases h

/-- A bare word is as long as can be. -/
theorem cut_bare {c : Char} {s inside : Text} (hc : isBareChar c)
    (hword : beforeComment (c :: s.takeWhile isBareChar) = c :: inside)
    (hblock : opensBlock (c :: inside) = false) :
    s.take inside.length = inside ∧ (∀ d ∈ c :: inside, d ∉ delimiters) ∧
      ¬ ['/', '/'] <:+: c :: inside ∧ ¬ ['/', '*'] <:+: c :: inside ∧
      ((∀ d ∈ (s.drop inside.length).head?, d ∈ delimiters) ∨
        ['/', '/'] <+: s.drop inside.length) := by
  obtain ⟨rest, hrun, hrest⟩ := exists_beforeComment_append (c :: s.takeWhile isBareChar)
  have hslash := not_infix_beforeComment (c :: s.takeWhile isBareChar)
  rw [hword] at hrun hslash
  rw [List.cons_append, List.cons.injEq] at hrun
  have hs : s = inside ++ (rest ++ s.dropWhile isBareChar) := by
    rw [← List.append_assoc, ← hrun.2, List.takeWhile_append_dropWhile]
  have htake : s.take inside.length = inside := by
    conv => lhs; rw [hs, List.take_left]
  have hdrop : s.drop inside.length = rest ++ s.dropWhile isBareChar := by
    conv => lhs; rw [hs, List.drop_left]
  rw [hdrop]
  refine ⟨htake, ?_, hslash, ?_, ?_⟩
  · refine List.forall_mem_cons.mpr ⟨isBareChar_iff.mp hc, fun d hd => ?_⟩
    have hmem : d ∈ s.takeWhile isBareChar := by
      rw [hrun.2]
      exact List.mem_append_left rest hd
    exact isBareChar_iff.mp (List.all_eq_true.mp List.all_takeWhile d hmem)
  · rw [← opensBlock_iff, hblock]
    exact Bool.false_ne_true
  · rcases hrest with rfl | ⟨tail, rfl⟩
    · refine .inl fun d hd => ?_
      have hhead := List.head?_dropWhile_not isBareChar s
      rw [List.nil_append] at hd
      rw [Option.mem_def.mp hd] at hhead
      by_contra hdelimiter
      exact Bool.false_ne_true (hhead.symm.trans (isBareChar_iff.mpr hdelimiter))
    · exact .inr ⟨_, rfl⟩

/-- A comment is all that is left of its line. -/
theorem cut_comment {s : Text} (hs : s.head? = some '/') :
    ['/', '/'] <+: '/' :: s.take (s.takeWhile (· != '\n')).length ∧
      ∀ d ∈ (s.drop (s.takeWhile (· != '\n')).length).head?, d = '\n' := by
  have hsplit : s.takeWhile (· != '\n') ++ s.dropWhile (· != '\n') = s :=
    List.takeWhile_append_dropWhile
  have htake : s.take (s.takeWhile (· != '\n')).length = s.takeWhile (· != '\n') := by
    conv => lhs; arg 2; rw [← hsplit]
    rw [List.take_left]
  have hdrop : s.drop (s.takeWhile (· != '\n')).length = s.dropWhile (· != '\n') := by
    conv => lhs; arg 2; rw [← hsplit]
    rw [List.drop_left]
  rw [htake, hdrop]
  constructor
  · obtain ⟨rest, rfl⟩ := List.head?_eq_some_iff.mp hs
    rw [List.takeWhile_cons_of_pos (by decide)]
    exact ⟨_, rfl⟩
  · intro d hd
    have hhead := List.head?_dropWhile_not (· != '\n') s
    rw [Option.mem_def.mp hd] at hhead
    exact bne_eq_false_iff_eq.mp hhead

/-- What a character begins that is no newline, and how far it reaches. -/
theorem cut_of_first {c : Char} {s : Text} {kind : Kind} {n : Nat} (hc : c ≠ '\n')
    (h : first c s = .ok (kind, n)) (line : Nat) : Cut ⟨kind, c :: s.take n, line⟩ (s.drop n) := by
  obtain ⟨hkind, hle⟩ := first_spec hc h
  refine ⟨List.cons_ne_nil _ _, fun hnewline => absurd hnewline hkind, fun _ hmem => ?_, ?_, ?_⟩
  · rcases List.mem_cons.mp hmem with rfl | hmem
    · exact hc rfl
    · exact newline_notMem_take hle hmem
  · rintro rfl
    obtain ⟨hbare, h⟩ := bare_of_first h (.inr (.inr rfl))
    rcases bare_cases h with ⟨harrow, -⟩ | ⟨hcomment, -⟩ | ⟨-, -, inside, hword, hblock, rfl⟩
    · cases harrow
    · cases hcomment
    · obtain ⟨htake, hcut⟩ := cut_bare hbare hword hblock
      dsimp only
      rw [htake]
      exact hcut
  · rintro rfl
    obtain ⟨rfl, hs, rfl⟩ := comment_of_first h
    exact cut_comment hs

theorem Scans.newline_notMem {line : Nat} {s : Text} {tokens : List Token}
    (h : Scans line s tokens) : ∀ t ∈ tokens, t.kind ≠ .newline → '\n' ∉ t.text := by
  induction h with
  | nil => simp
  | gap hgap h ih => exact ih
  | newline h ih => exact List.forall_mem_cons.mpr ⟨fun hkind => absurd rfl hkind, ih⟩
  | token hgap hc hfirst h ih =>
      exact List.forall_mem_cons.mpr ⟨(cut_of_first hc hfirst _).newline_notMem, ih⟩

theorem foundIn_of_first {c : Char} {s : Text} {fault : Fault} (hgap : ¬ isGap c)
    (h : first c s = .error fault) : fault.FoundIn (c :: s) := by
  unfold first at h
  split at h
  · cases h
  next hmark =>
  split at h
  · next hc =>
      split at h
      · cases h
      · cases h
        exact .inl (by rw [hc]; exact List.mem_cons_self)
  next hquote =>
  split at h
  · next hc =>
      split at h
      · cases h
      · cases h
        exact .inr (by rw [hc]; exact List.mem_cons_self)
  next hraw =>
  split at h
  · obtain ⟨rfl, hblock⟩ := bare_eq_error h
    exact hblock
  · next hbare =>
      cases h
      have hdelimiters : delimiters.all fun d => isGap d || (punctuation? d).isSome ||
          d == '"' || d == '\x60' || d == '\x7b' || d == '\x7d' := by
        decide
      rw [isBareChar_iff, not_not] at hbare
      have hc := List.all_eq_true.mp hdelimiters c hbare
      simp only [Bool.or_eq_true, beq_iff_eq] at hc
      rcases hc with ((((hc | hc) | hc) | hc) | hbrace) | hbrace
      · exact absurd hc hgap
      · rw [hmark] at hc
        cases hc
      · exact absurd hc hquote
      · exact absurd hc hraw
      · exact ⟨.inl hbrace, List.mem_cons_self⟩
      · exact ⟨.inr hbrace, List.mem_cons_self⟩

theorem Fault.FoundIn.of_suffix {fault : Fault} {s t : Text} (hfault : fault.FoundIn s)
    (hs : s <:+ t) : fault.FoundIn t := by
  cases fault with
  | unexpectedChar c => exact ⟨hfault.1, hs.subset hfault.2⟩
  | unterminatedString => exact hfault.imp (hs.subset ·) (hs.subset ·)
  | blockComment => exact hfault.trans hs.isInfix

theorem Segments.gap {line : Nat} {c : Char} {s : Text} {tokens : List Token} (hgap : isGap c)
    (h : Segments line s tokens) : Segments line (c :: s) tokens := by
  have hcons : ∀ {gap : Text}, Filler gap → Filler (c :: gap) := fun hs =>
    List.forall_mem_cons.mpr ⟨isGap_iff.mp hgap, hs⟩
  cases h with
  | nil hs => exact .nil (hcons hs)
  | cons hs hline hcut h => exact .cons (hcons hs) hline hcut h

theorem Scans.segments {line : Nat} {s : Text} {tokens : List Token} (h : Scans line s tokens) :
    Segments line s tokens := by
  have hnil : Filler [] := fun c hc => absurd hc List.not_mem_nil
  induction h with
  | nil => exact .nil hnil
  | gap hgap h ih => exact ih.gap hgap
  | @newline line s tokens h ih =>
      have hcut : Cut ⟨.newline, ['\n'], line⟩ s :=
        ⟨by simp, fun _ => rfl, by simp, by simp, by simp⟩
      exact .cons hnil rfl hcut ih
  | @token line n c s kind tokens hgap hc hfirst h ih =>
      have hcut := cut_of_first hc hfirst line
      have hcount : (c :: s.take n).count '\n' = 0 :=
        List.count_eq_zero_of_not_mem (hcut.newline_notMem (first_spec hc hfirst).1)
      have hsegments : Segments line ([] ++ (c :: s.take n ++ s.drop n))
          (⟨kind, c :: s.take n, line⟩ :: tokens) := by
        refine .cons hnil rfl hcut ?_
        rwa [hcount, Nat.add_zero]
      rwa [List.nil_append, List.cons_append, List.take_append_drop] at hsegments

theorem foundIn_of_scan {line : Nat} {s : Text} {e : Error} (h : scan line s = .error e) :
    e.fault.FoundIn s := by
  induction line, s using scan_induction with
  | nil line =>
      rw [scan] at h
      cases h
  | gap line c s hgap ih =>
      rw [scan_gap hgap] at h
      exact (ih h).of_suffix (List.suffix_cons c s)
  | newline line s ih =>
      rw [scan_newline, map_eq_error_iff] at h
      exact (ih h).of_suffix (List.suffix_cons _ s)
  | fault line c s f hgap hfirst =>
      rw [scan_fault hgap hfirst] at h
      cases h
      exact foundIn_of_first hgap hfirst
  | token line c s kind n hgap hc hfirst ih =>
      rw [scan_cons hgap hc hfirst, map_eq_error_iff] at h
      exact (ih h).of_suffix ((List.drop_suffix n s).trans (List.suffix_cons c s))

/-- Every text is made up of its tokens and of gaps, or has none because it holds the beginning of a
block comment, a quote or a brace. -/
theorem scan_segments (line : Nat) (s : Text) :
    (∃ tokens, scan line s = .ok tokens ∧ Segments line s tokens) ∨
      ∃ e, scan line s = .error e ∧ e.fault.FoundIn s := by
  cases h : scan line s with
  | ok tokens => exact .inl ⟨tokens, rfl, (scans_of_scan h).segments⟩
  | error e => exact .inr ⟨e, rfl, foundIn_of_scan h⟩

end GoModules.Token
