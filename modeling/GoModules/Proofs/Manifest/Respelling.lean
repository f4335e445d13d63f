import GoModules.Proofs.Manifest.Behind
import GoModules.Proofs.Manifest.Reading

/-!
# Other spellings

A bare word may as well be written in back quotes or in double quotes: what is in front of it and
what is behind it is scanned as before, the lines have the same comments and stand for the same, and
a directive reads the same word. Only where a statement begins is a bare word asked for.
-/

namespace GoModules

open Outcome

namespace Token

variable {line n : Nat} {c : Char} {s a b y : Text} {kind : Kind} {t u : Token}
  {tokens front back : List Token}

/-- How a bare word stands in a text: `a` has the tokens in front of it, `b` those behind it, and
the tokens of `a` stay as they are in front of whatever no bare word runs on into. -/
structure Stands (line : Nat) (s : Text) (front : List Token) (t : Token) (back : List Token)
    (a b : Text) : Prop where
  text : s = a ++ (t.text ++ b)
  cut : t.Cut b
  comment : ['/', '/'] <+: s → ['/', '/'] <+: a
  last : ∀ u ∈ front.getLast?, u.kind ≠ .comment
  behind : Scans t.line b back
  around : ∀ {y tokens}, (∀ d ∈ y.head?, isBareChar d = false) → Scans t.line y tokens →
    Scans line (a ++ y) (front ++ tokens)

theorem kind_of_slashes (h : first c s = .ok (kind, n)) (hslashes : ['/', '/'] <+: c :: s) :
    kind = .comment := by
  obtain ⟨rfl, hs⟩ := List.cons_prefix_cons.mp hslashes
  rw [List.singleton_prefix_iff_head?_eq_some] at hs
  rw [first_eq_bare (by decide), bare_of_comment hs] at h
  cases h
  rfl

theorem Cut.exists_head? (h : t.Cut b) (ht : t.kind = .bare) :
    ∃ d ∈ (t.text ++ b).head?, isBareChar d := by
  obtain ⟨d, text, htext⟩ := List.exists_cons_of_ne_nil h.ne_nil
  refine ⟨d, by rw [htext]; rfl, isBareChar_iff.mpr ((h.bare ht).1 d ?_)⟩
  rw [htext]
  exact List.mem_cons_self

theorem getLast?_cons_ne_comment (hu : front = [] → u.kind ≠ .comment)
    (h : ∀ v ∈ front.getLast?, v.kind ≠ .comment) :
    ∀ v ∈ (u :: front).getLast?, v.kind ≠ .comment := by
  cases front with
  | nil =>
      rintro v ⟨⟩
      exact hu rfl
  | cons w front => rwa [List.getLast?_cons_cons]

theorem Stands.gap (hgap : isGap c) (h : Stands line s front t back a b) :
    Stands line (c :: s) front t back (c :: a) b where
  text := by rw [h.text, List.cons_append]
  cut := h.cut
  comment := by
    intro hslashes
    obtain rfl := (List.cons_prefix_cons.mp hslashes).1
    cases hgap
  last := h.last
  behind := h.behind
  around := fun hy hscan => .gap hgap (h.around hy hscan)

theorem Stands.newline (h : Stands (line + 1) s front t back a b) :
    Stands line ('\n' :: s) (⟨.newline, ['\n'], line⟩ :: front) t back ('\n' :: a) b where
  text := by rw [h.text, List.cons_append]
  cut := h.cut
  comment := by
    intro hslashes
    cases (List.cons_prefix_cons.mp hslashes).1
  last := getLast?_cons_ne_comment (by simp) h.last
  behind := h.behind
  around := fun hy hscan => .newline (h.around hy hscan)

theorem stands_token (hc : c ≠ '\n') (hfirst : first c s = .ok (.bare, n))
    (h : Scans line (s.drop n) back) :
    Stands line (c :: s) [] ⟨.bare, c :: s.take n, line⟩ back [] (s.drop n) where
  text := by rw [List.nil_append, List.cons_append, List.take_append_drop]
  cut := cut_of_first hc hfirst line
  comment := by
    intro hslashes
    cases kind_of_slashes hfirst hslashes
  last := by simp
  behind := h
  around := fun _ hscan => hscan

theorem Stands.token (hgap : ¬ isGap c) (hc : c ≠ '\n') (hfirst : first c s = .ok (kind, n))
    (ht : t.kind = .bare) (hscan : Scans line (s.drop n) (front ++ t :: back))
    (h : Stands line (s.drop n) front t back a b) :
    Stands line (c :: s) (⟨kind, c :: s.take n, line⟩ :: front) t back (c :: (s.take n ++ a))
      b where
  text := by rw [List.cons_append, List.append_assoc, ← h.text, List.take_append_drop]
  cut := h.cut
  comment := by
    intro hslashes
    obtain rfl := kind_of_slashes hfirst hslashes
    have hcomment := ((cut_of_first hc hfirst line).comment rfl).1
    rw [← List.cons_append]
    exact hcomment.trans (List.prefix_append _ a)
  last := by
    refine getLast?_cons_ne_comment ?_ h.last
    rintro rfl rfl
    have hnewline := hscan.kind_of_head? ((cut_of_first hc hfirst line).comment rfl).2
    rw [ht] at hnewline
    cases hnewline
  behind := h.behind
  around := by
    intro y tokens hy hscan
    have hlength : (s.take n).length = n := List.length_take_of_le (le_length_of_first hfirst)
    rw [List.cons_append, List.append_assoc]
    refine .prepend hgap hc ?_ (h.around hy hscan)
    rw [first_take_append hfirst, hlength]
    intro hbare
    have hend := end_of_first hbare hfirst
    have hcomment := h.comment
    rw [h.text] at hend hcomment ⊢
    exact alike_of_end (h.cut.exists_head? ht) hend hcomment y

/-- A bare word among the tokens of a text stands between two texts that are scanned each by itself,
and in front of it other tokens may stand behind the first. -/
theorem Scans.exists_stands (h : Scans line s (front ++ t :: back)) (ht : t.kind = .bare) :
    ∃ a b, Stands line s front t back a b := by
  generalize hall : front ++ t :: back = all at h
  induction h generalizing front with
  | nil => simp at hall
  | @gap line c s tokens hgap h ih =>
      obtain ⟨a, b, hstands⟩ := ih hall
      exact ⟨c :: a, b, hstands.gap hgap⟩
  | @newline line s tokens h ih =>
      cases front with
      | nil =>
          cases hall
          cases ht
      | cons u front =>
          rw [List.cons_append, List.cons.injEq] at hall
          obtain ⟨rfl, hall⟩ := hall
          obtain ⟨a, b, hstands⟩ := ih hall
          exact ⟨'\n' :: a, b, hstands.newline⟩
  | @token line n c s kind tokens hgap hc hfirst h ih =>
      cases front with
      | nil =>
          cases hall
          obtain rfl : kind = .bare := ht
          exact ⟨[], s.drop n, stands_token hc hfirst h⟩
      | cons u front =>
          rw [List.cons_append, List.cons.injEq] at hall
          obtain ⟨rfl, rfl⟩ := hall
          obtain ⟨a, b, hstands⟩ := ih rfl
          exact ⟨_, b, hstands.token hgap hc hfirst ht h⟩

end Token

namespace Line

variable {t t' : Token} {p q : List Token} {pending : List Text}

/-- The line of a physical line of `p`, a token that is no comment, and `q`. -/
def around (p q : List Token) (pending : List Text) (t : Token) : Line :=
  match p.filter (·.kind ≠ .comment) with
  | [] => ⟨t, q.filter (·.kind ≠ .comment), comment? (p ++ q), pending⟩
  | first :: others =>
      ⟨first, others ++ t :: q.filter (·.kind ≠ .comment), comment? (p ++ q), pending⟩

theorem collect_around (ht : t.kind ≠ .comment) (p q : List Token) (pending : List Text)
    (below : List (List Token)) :
    collect pending ((p ++ t :: q) :: below) = around p q pending t :: collect [] below := by
  have hfilter : (p ++ t :: q).filter (·.kind ≠ .comment) =
      p.filter (·.kind ≠ .comment) ++ t :: q.filter (·.kind ≠ .comment) := by
    rw [List.filter_append, List.filter_cons_of_pos (by simpa using ht)]
  have hcomment : comment? (p ++ t :: q) = comment? (p ++ q) := by
    rw [comment?, comment?, List.find?_append, List.find?_append,
      List.find?_cons_of_neg (by simpa using ht)]
  rw [collect, hfilter, hcomment, around]
  cases p.filter (·.kind ≠ .comment) with
  | nil => rfl
  | cons first others => rfl

/-- The lines of tokens with one among them that is neither a newline nor a comment. -/
theorem exists_ofTokens_around (front back : List Token) :
    ∃ above p q pending below,
      (∀ u ∈ front.getLast?, u.kind ≠ .newline → u ∈ p) ∧
      (p.filter (·.kind ≠ .comment) = [] → ofTokens front = above) ∧
      ∀ t : Token, t.kind ≠ .newline → t.kind ≠ .comment →
        ofTokens (front ++ t :: back) = above ++ around p q pending t :: below := by
  obtain ⟨above, p, hfront, hlast, hsplit⟩ :=
    Text.exists_splitOnP_append (fun t : Token => t.kind = .newline) front
  obtain ⟨q, below, hback⟩ := List.exists_cons_of_ne_nil
    (List.splitOnP_ne_nil (fun t : Token => t.kind = .newline) back)
  refine ⟨collect [] above, p, q, pendingAfter [] above, collect [] below, ?_, ?_, ?_⟩
  · intro u hu hnewline
    exact hlast u hu (by simpa using hnewline)
  · intro hnil
    rw [ofTokens, hfront, collect_append, collect_singleton, hnil]
    exact List.append_nil _
  · intro t hnewline hcomment
    have hcons : (t :: back).splitOnP (·.kind = .newline) = (t :: q) :: below := by
      rw [List.splitOnP_cons_eq_if_modifyHead, if_neg (by simpa using hnewline), hback,
        List.modifyHead_cons]
    rw [ofTokens, hsplit hcons, collect_append, collect_around hcomment]

theorem around_tokens (p q : List Token) (pending : List Text) (t : Token) :
    (around p q pending t).tokens =
      p.filter (·.kind ≠ .comment) ++ t :: q.filter (·.kind ≠ .comment) := by
  rw [around]
  cases p.filter (·.kind ≠ .comment) with
  | nil => rfl
  | cons first others => rfl

theorem around_comments (p q : List Token) (pending : List Text) (t : Token) :
    (around p q pending t).before = pending ∧
      (around p q pending t).suffix = comment? (p ++ q) := by
  rw [around]
  cases p.filter (·.kind ≠ .comment) with
  | nil => exact ⟨rfl, rfl⟩
  | cons first others => exact ⟨rfl, rfl⟩

theorem around_first (h : p.filter (·.kind ≠ .comment) ≠ []) (q : List Token)
    (pending : List Text) (t t' : Token) :
    (around p q pending t').first = (around p q pending t).first := by
  obtain ⟨first, others, hcons⟩ := List.exists_cons_of_ne_nil h
  rw [around, around, hcons]

theorem around_number (h : t'.line = t.line) (p q : List Token) (pending : List Text) :
    (around p q pending t').number = (around p q pending t).number := by
  rw [around, around]
  cases p.filter (·.kind ≠ .comment) with
  | nil => exact h
  | cons first others => rfl

end Line

/-- The block that is open behind lines, unless their structure breaks. -/
def Item.blockAfter (block : Option OpenBlock) (lines : List Line) :
    Except Manifest.Error (Option OpenBlock) :=
  lines.foldlM (fun block l => Prod.snd <$> step block l) block

/-- Whether what follows tokens is the first token of a statement: no token stands in front of it on
its line, and no block is open. -/
def Token.BeforeStatement (front : List Token) : Prop :=
  (∀ t ∈ front.getLast?, t.kind = .newline) ∧
    Item.blockAfter none (Line.ofTokens front) = .ok none

instance (front : List Token) : Decidable (Token.BeforeStatement front) :=
  inferInstanceAs (Decidable (_ ∧ _))

namespace Manifest

namespace Reading

variable {r r' : Reading} {l l' : Line}

theorem step_of_next (h : r.next l = .ok r') : Prod.snd <$> Item.step r.block l = .ok r'.block := by
  rw [next] at h
  cases hstep : Item.step r.block l with
  | error e =>
      rw [hstep] at h
      cases h
  | ok found =>
      obtain ⟨d, block⟩ := found
      rw [hstep] at h
      cases d with
      | none =>
          cases h
          rfl
      | some d =>
          obtain ⟨m, -, heq⟩ := bind_eq_ok_iff.mp h
          cases heq
          rfl

theorem blockAfter_of_run {lines : List Line} (h : r.run lines = .ok r') :
    Item.blockAfter r.block lines = .ok r'.block := by
  induction lines generalizing r with
  | nil =>
      cases h
      rfl
  | cons l lines ih =>
      rw [run_cons, bind_eq_ok_iff] at h
      obtain ⟨r₁, hnext, hrun⟩ := h
      rw [Item.blockAfter, List.foldlM_cons, step_of_next (mapError_eq_ok_iff.mp hnext)]
      exact ih hrun

/-- Tokens that say the same are read the same, but a statement begins with a bare word. -/
theorem next_congr (htokens : l'.tokens.map Word.ofToken = l.tokens.map Word.ofToken)
    (hbefore : l'.before = l.before) (hsuffix : l'.suffix = l.suffix)
    (hfirst : r.block = none → l'.first = l.first) : r.next l' = r.next l := by
  have hcomments : l'.comments = l.comments := by
    rw [Line.comments, Line.comments, hbefore, hsuffix]
  obtain ⟨m, block⟩ := r
  have hadd : ∀ verb {args args' : List Token}, args'.map Word.ofToken = args.map Word.ofToken →
      (⟨verb, args', l'⟩ : Directive).addTo m = (⟨verb, args, l⟩ : Directive).addTo m :=
    fun _ _ _ hargs => Directive.addTo_congr (by rfl) hargs hcomments hsuffix m
  rw [next, next]
  cases block with
  | some block =>
      rw [Item.step, Item.step, Line.isClosing_congr htokens]
      by_cases hclosing : l.isClosing
      · rw [if_pos hclosing, if_pos hclosing]
      · rw [if_neg hclosing, if_neg hclosing]
        exact congrArg (· >>= _) (hadd block.verb htokens)
  | none =>
      have hothers : l'.others.map Word.ofToken = l.others.map Word.ofToken :=
        (List.cons.inj htokens).2
      have hverb : l'.verb = l.verb := by rw [Line.verb, Line.verb, hfirst rfl]
      have hnumber : l'.number = l.number := by rw [Line.number, Line.number, hfirst rfl]
      rw [Item.step, Item.step, hverb, Line.shape_congr hothers, hnumber]
      cases l.verb with
      | error fault => rfl
      | ok verb =>
          cases l.shape with
          | plain => exact congrArg (· >>= _) (hadd verb hothers)
          | _ => rfl

theorem next_around {t t' : Token} {p : List Token} (hword : Word.ofToken t' = Word.ofToken t)
    (hfirst : r.block = none → p.filter (·.kind ≠ .comment) ≠ []) (q : List Token)
    (pending : List Text) :
    r.next (Line.around p q pending t') = r.next (Line.around p q pending t) := by
  obtain ⟨hbefore, hsuffix⟩ := Line.around_comments p q pending t
  obtain ⟨hbefore', hsuffix'⟩ := Line.around_comments p q pending t'
  refine next_congr ?_ (hbefore'.trans hbefore.symm) (hsuffix'.trans hsuffix.symm)
    fun hblock => Line.around_first (hfirst hblock) q pending t t'
  rw [Line.around_tokens, Line.around_tokens, List.map_append, List.map_append, List.map_cons,
    List.map_cons, hword]

end Reading

variable {s s' : Text} {t t' : Token} {front back : List Token}

/-- A token may be replaced by one that says the same, unless a statement begins with it. -/
theorem read_of_scan_of_ofToken_eq (hs : Token.scan 1 s = .ok (front ++ t :: back))
    (hs' : Token.scan 1 s' = .ok (front ++ t' :: back)) (hword : t.kind.isWord)
    (hsaid : Word.ofToken t' = Word.ofToken t) (hline : t'.line = t.line)
    (hlast : ∀ u ∈ front.getLast?, u.kind ≠ .comment) (hfront : ¬ Token.BeforeStatement front) :
    read (Utf8.encode s') = read (Utf8.encode s) := by
  have hword' : t'.kind.isWord := by rw [Word.isWord_eq_of_ofToken_eq hsaid, hword]
  obtain ⟨above, p, q, pending, below, hp, hnil, haround⟩ := Line.exists_ofTokens_around front back
  have hmark : ∀ {kind : Token.Kind}, kind.isWord → kind ≠ .newline ∧ kind ≠ .comment :=
    fun h => ⟨Token.Kind.ne_of_isWord h rfl, Token.Kind.ne_of_isWord h rfl⟩
  have hlines := haround t (hmark hword).1 (hmark hword).2
  have hlines' := haround t' (hmark hword').1 (hmark hword').2
  rw [read_encode_of_scan hs, read_encode_of_scan hs', hlines, hlines', Reading.run_append,
    Reading.run_append]
  cases hrun : Reading.run {} above with
  | error e => rfl
  | ok r =>
      have hfirst : r.block = none → p.filter (·.kind ≠ .comment) ≠ [] := by
        intro hblock hempty
        refine hfront ⟨fun u hu => ?_, ?_⟩
        · by_contra hnewline
          have hmem : u ∈ p.filter (·.kind ≠ .comment) :=
            List.mem_filter.mpr ⟨hp u hu hnewline, by simpa using hlast u hu⟩
          rw [hempty] at hmem
          cases hmem
        · have hafter := Reading.blockAfter_of_run hrun
          rwa [hblock, ← hnil hempty] at hafter
      rw [ok_bind, ok_bind, Reading.run_cons, Reading.run_cons,
        Reading.next_around hsaid hfirst q pending, Line.around_number hline]

/-- Bare, raw and quoted spellings of a word are interchangeable but for the first word of a
statement: the manifest that is read is the same, or the fault and its line. -/
theorem read_respelled (hscan : Token.scan 1 s = .ok (front ++ t :: back)) (hkind : t.kind = .bare)
    (hfront : ¬ Token.BeforeStatement front) :
    ∃ a b, s = a ++ (t.text ++ b) ∧ Token.scan 1 a = .ok front ∧ Token.scan t.line b = .ok back ∧
      read (Utf8.encode (a ++ (Word.backQuoted t.text ++ b))) = read (Utf8.encode s) ∧
      read (Utf8.encode (a ++ (Word.doubleQuoted t.text ++ b))) = read (Utf8.encode s) := by
  obtain ⟨a, b, hstands⟩ := (Token.scans_of_scan hscan).exists_stands hkind
  have hchars := (hstands.cut.bare hkind).1
  have hbackQuote : '\x60' ∉ t.text := fun hmem => hchars _ hmem (by decide)
  have hquote : '"' ∉ t.text := fun hmem => hchars _ hmem (by decide)
  have hnewline : '\n' ∉ t.text := fun hmem => hchars _ hmem (by decide)
  have hsaid : Word.ofToken t = .ok t.text := by rw [Word.ofToken, hkind]
  have hread : ∀ {kind : Token.Kind} {text : Text}, Word.ofToken ⟨kind, text, t.line⟩ = .ok t.text →
      (∀ d ∈ (text ++ b).head?, Token.isBareChar d = false) →
      Token.Scans t.line (text ++ b) (⟨kind, text, t.line⟩ :: back) →
      read (Utf8.encode (a ++ (text ++ b))) = read (Utf8.encode s) := by
    intro kind text hword hhead hrest
    refine read_of_scan_of_ofToken_eq hscan (hstands.around hhead hrest).scan_eq ?_
      (hword.trans hsaid.symm) rfl hstands.last hfront
    rw [hkind]
    rfl
  have hempty : Token.scan 1 (a ++ []) = .ok (front ++ []) :=
    (hstands.around (by simp) .nil).scan_eq
  rw [List.append_nil, List.append_nil] at hempty
  refine ⟨a, b, hstands.text, hempty, hstands.behind.scan_eq, ?_, ?_⟩
  · refine hread (Word.ofToken_backQuoted t.text t.line) ?_
      (.backQuoted ⟨hbackQuote, hnewline⟩ hstands.behind)
    rintro d ⟨⟩
    decide
  · rw [Word.doubleQuoted_eq_quote ⟨hquote, hnewline⟩]
    refine hread (Word.ofToken_quote t.text t.line) ?_ (.quote t.text hstands.behind)
    rintro d ⟨⟩
    decide

/-- The first word of a line in a block, which ends where a comment begins. -/
theorem read_respelled_setting :
    ∃ s front t back, s = "godebug (\n\tk=a\\b// c\n)".toList ∧
      Token.scan 1 s = .ok (front ++ t :: back) ∧ t = ⟨.bare, "k=a\\b".toList, 2⟩ ∧
      ¬ Token.BeforeStatement front ∧
      read (Utf8.encode s) = .ok { godebug := [⟨['k'], ['a', '\\', 'b']⟩] } ∧
      ∃ a b, s = a ++ (t.text ++ b) ∧ Token.scan 1 a = .ok front ∧
        Token.scan t.line b = .ok back ∧
        read (Utf8.encode (a ++ (Word.backQuoted t.text ++ b))) = read (Utf8.encode s) ∧
        read (Utf8.encode (a ++ (Word.doubleQuoted t.text ++ b))) = read (Utf8.encode s) := by
  have hscan : Token.scan 1 "godebug (\n\tk=a\\b// c\n)".toList =
      .ok ([⟨.bare, "godebug".toList, 1⟩, ⟨.openParen, ['('], 1⟩, ⟨.newline, ['\n'], 1⟩] ++
        ⟨.bare, "k=a\\b".toList, 2⟩ ::
          [⟨.comment, "// c".toList, 2⟩, ⟨.newline, ['\n'], 2⟩, ⟨.closeParen, [')'], 3⟩]) := by
    decide +kernel
  have hblock : ¬ Token.BeforeStatement
      [⟨.bare, "godebug".toList, 1⟩, ⟨.openParen, ['('], 1⟩, ⟨.newline, ['\n'], 1⟩] := by
    decide +kernel
  exact ⟨_, _, _, _, rfl, hscan, rfl, hblock, by decide +kernel, read_respelled hscan rfl hblock⟩

/-- The first word of a statement has to be bare. -/
example : read (Utf8.encode "\x60tool\x60 x".toList) = .error ⟨1, .unexpectedToken .raw⟩ := by
  decide +kernel

end Manifest

end GoModules
