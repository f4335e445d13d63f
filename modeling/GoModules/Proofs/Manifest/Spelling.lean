import GoModules.Manifest.Word
import GoModules.Proofs.Manifest.Scan
import GoModules.Proofs.Text.Cut

/-!
# Spelling words

A word of any characters is written in double quotes, where a backslash, a quote and a newline are
escaped. A word without back quotes and newlines may stand in back quotes, where nothing is escaped.
A bare word is written as it is and ends where a character follows that no bare word has.
Words, brackets, commas and arrows are scanned as they were put together as long as no two that
are written in characters of bare words touch.
-/

namespace GoModules

open Token (Scans isBareChar isGap quotedLength? rawLength?)

namespace Word

/-- A character as it is written inside double quotes. -/
def quoteChar : Char → Text
  | '\\' => ['\\', '\\']
  | '"' => ['\\', '"']
  | '\n' => ['\\', 'n']
  | c => [c]

/-- A word in double quotes. -/
def quote (word : Text) : Text :=
  '"' :: (word.flatMap quoteChar ++ ['"'])

theorem quotedLength?_quoteChar (c : Char) (s : Text) :
    quotedLength? (quoteChar c ++ s) = (quotedLength? s).map (· + (quoteChar c).length) := by
  unfold quoteChar
  split
  · rfl
  · rfl
  · rfl
  · next hescape hquote hnewline =>
      have hc : ¬ (c = '\n' ∨ c = '\\') := by
        rintro (rfl | rfl)
        · exact hnewline rfl
        · exact hescape rfl
      rw [List.singleton_append, quotedLength?, if_neg hc]
      · rfl
      · exact hquote
      · rintro d rest rfl
        exact absurd rfl hescape

theorem unquote?_quoteChar (c : Char) (s : Text) :
    unquote? (quoteChar c ++ s) = (unquote? s).map (c :: ·) := by
  unfold quoteChar
  split
  · rw [Option.map_eq_bind]
    rfl
  · rw [Option.map_eq_bind]
    rfl
  · rw [Option.map_eq_bind]
    rfl
  · next hescape hquote hnewline =>
      rw [List.singleton_append, unquote?]
      · rintro rfl
        exact absurd rfl hescape
      · rintro d rest rfl
        exact absurd rfl hescape

theorem quotedLength?_flatMap_quoteChar (word rest : Text) :
    quotedLength? (word.flatMap quoteChar ++ '"' :: rest) =
      some ((word.flatMap quoteChar).length + 1) := by
  induction word with
  | nil => rfl
  | cons c word ih =>
      rw [List.flatMap_cons, List.append_assoc, quotedLength?_quoteChar, ih, Option.map_some,
        List.length_append]
      congr 1
      omega

theorem unquote?_flatMap_quoteChar (word : Text) :
    unquote? (word.flatMap quoteChar) = some word := by
  induction word with
  | nil => rfl
  | cons c word ih => rw [List.flatMap_cons, unquote?_quoteChar, ih, Option.map_some]

theorem ofToken_quote (word : Text) (line : Nat) :
    ofToken ⟨.quoted, quote word, line⟩ = .ok word := by
  have hinside : inside (quote word) = word.flatMap quoteChar := by
    rw [inside, quote, List.tail_cons, List.dropLast_concat]
  rw [ofToken, hinside, unquote?_flatMap_quoteChar]

/-- A word in double quotes, where nothing but backslashes is escaped. -/
def doubleQuoted (word : Text) : Text :=
  '"' :: (word.flatMap (fun c => if c = '\\' then ['\\', '\\'] else [c]) ++ ['"'])

theorem doubleQuoted_eq_quote {word : Text} (hword : '"' ∉ word ∧ '\n' ∉ word) :
    doubleQuoted word = quote word := by
  have hchar : ∀ c ∈ word, (if c = '\\' then ['\\', '\\'] else [c]) = quoteChar c := by
    intro c hc
    by_cases hescape : c = '\\'
    · rw [hescape]
      rfl
    · rw [if_neg hescape]
      unfold quoteChar
      split
      · exact absurd rfl hescape
      · exact absurd hc hword.1
      · exact absurd hc hword.2
      · rfl
  rw [doubleQuoted, quote, List.flatMap_congr hchar]

/-- A word in back quotes. -/
def backQuoted (word : Text) : Text :=
  '\x60' :: (word ++ ['\x60'])

theorem rawLength?_append_backQuote {word : Text} (hword : '\x60' ∉ word ∧ '\n' ∉ word)
    (rest : Text) : rawLength? (word ++ '\x60' :: rest) = some (word.length + 1) := by
  induction word with
  | nil => rfl
  | cons c word ih =>
      simp only [List.mem_cons, not_or] at hword
      rw [List.cons_append, rawLength?, if_neg (Ne.symm hword.1.1), if_neg (Ne.symm hword.2.1),
        ih ⟨hword.1.2, hword.2.2⟩, Option.map_some, List.length_cons]

theorem ofToken_backQuoted (word : Text) (line : Nat) :
    ofToken ⟨.raw, backQuoted word, line⟩ = .ok word := by
  rw [ofToken, inside, backQuoted, List.tail_cons, List.dropLast_concat]

/-- The characters of words that are written bare here. Slashes and equals signs are left out: they
may begin a comment or be part of an arrow. -/
def IsPlain (c : Char) : Prop :=
  isBareChar c ∧ c ≠ '/' ∧ c ≠ '='

instance (c : Char) : Decidable (IsPlain c) :=
  inferInstanceAs (Decidable (_ ∧ _))

theorem isPlain_of_isAlphanum {c : Char} (hc : c.isAlphanum) : IsPlain c := by
  have hother : ∀ d, d.isAlphanum = false → c ≠ d := by
    rintro d hd rfl
    exact Bool.false_ne_true (hd.symm.trans hc)
  refine ⟨?_, hother '/' (by decide), hother '=' (by decide)⟩
  rw [isBareChar, Bool.not_eq_true', ← Bool.not_eq_true, List.contains_iff_mem]
  intro hmem
  have hspecial : [' ', '\t', '\r', '\n', '(', ')', '[', ']', '\x7b', '\x7d', ',', '"', '\x60'].all
      (! Char.isAlphanum ·) := by
    decide
  simpa [hc] using List.all_eq_true.mp hspecial c hmem

/-- A word that needs no quotes. -/
structure Bare (word : Text) : Prop where
  ne_nil : word ≠ []
  plain : ∀ c ∈ word, IsPlain c

theorem bare_verb (verb : Verb) : Bare verb.text := by
  have hletters : verb.text.all Char.isAlphanum := by
    cases verb <;> decide
  refine ⟨by cases verb <;> decide, ?_⟩
  intro c hc
  exact isPlain_of_isAlphanum (List.all_eq_true.mp hletters c hc)

end Word

namespace Token

variable {line : Nat} {s word : Text} {tokens : List Token}

theorem Scans.space (h : Scans line s tokens) : Scans line (' ' :: s) tokens :=
  .gap (by decide) h

/-- A token that ends where the text behind it begins. -/
theorem Scans.prepend {c : Char} {inside : Text} {kind : Kind} (hgap : ¬ isGap c) (hc : c ≠ '\n')
    (hfirst : first c (inside ++ s) = .ok (kind, inside.length)) (h : Scans line s tokens) :
    Scans line (c :: (inside ++ s)) (⟨kind, c :: inside, line⟩ :: tokens) := by
  have hrest : Scans line ((inside ++ s).drop inside.length) tokens := by
    rwa [List.drop_left]
  have hscan := Scans.token hgap hc hfirst hrest
  rwa [List.take_left] at hscan

theorem Scans.quote (word : Text) (h : Scans line s tokens) :
    Scans line (Word.quote word ++ s) (⟨.quoted, Word.quote word, line⟩ :: tokens) := by
  have hlength : quotedLength? ((word.flatMap Word.quoteChar ++ ['"']) ++ s) =
      some (word.flatMap Word.quoteChar ++ ['"']).length := by
    rw [List.append_assoc, List.length_append]
    exact Word.quotedLength?_flatMap_quoteChar word s
  refine Scans.prepend (by decide) (by decide) ?_ h
  have hpunctuation : punctuation? '"' = none := rfl
  rw [first, hpunctuation]
  dsimp only
  rw [if_pos rfl, hlength]

theorem Scans.backQuoted (hword : '\x60' ∉ word ∧ '\n' ∉ word) (h : Scans line s tokens) :
    Scans line (Word.backQuoted word ++ s) (⟨.raw, Word.backQuoted word, line⟩ :: tokens) := by
  have hlength : rawLength? ((word ++ ['\x60']) ++ s) = some (word ++ ['\x60']).length := by
    rw [List.append_assoc, List.length_append]
    exact Word.rawLength?_append_backQuote hword s
  refine Scans.prepend (by decide) (by decide) ?_ h
  have hpunctuation : punctuation? '\x60' = none := rfl
  rw [first, hpunctuation]
  dsimp only
  rw [if_neg (by decide), if_pos rfl, hlength]

theorem not_mark_of_isBareChar {c : Char} (hc : isBareChar c) :
    punctuation? c = none ∧ c ≠ '"' ∧ c ≠ '\x60' := by
  have hother : ∀ d, isBareChar d = false → c ≠ d := by
    rintro d hd rfl
    exact Bool.false_ne_true (hd.symm.trans hc)
  refine ⟨?_, hother '"' (by decide), hother '\x60' (by decide)⟩
  unfold punctuation?
  split
  · exact absurd rfl (hother '(' (by decide))
  · exact absurd rfl (hother ')' (by decide))
  · exact absurd rfl (hother '[' (by decide))
  · exact absurd rfl (hother ']' (by decide))
  · exact absurd rfl (hother ',' (by decide))
  · exact absurd rfl (hother '\n' (by decide))
  · rfl

theorem first_eq_bare {c : Char} (hc : isBareChar c) (s : Text) : first c s = bare c s := by
  obtain ⟨hpunctuation, hquote, hraw⟩ := not_mark_of_isBareChar hc
  rw [first, hpunctuation]
  dsimp only
  rw [if_neg hquote, if_neg hraw, if_pos hc]

theorem not_isGap_of_isBareChar {c : Char} (hc : isBareChar c) : ¬ isGap c ∧ c ≠ '\n' := by
  refine ⟨?_, ?_⟩
  · intro hgap
    simp only [isGap, Bool.or_eq_true, beq_iff_eq] at hgap
    rcases hgap with (rfl | rfl) | rfl
    · exact absurd hc (by decide)
    · exact absurd hc (by decide)
    · exact absurd hc (by decide)
  · rintro rfl
    exact absurd hc (by decide)

theorem beforeComment_eq_self (hs : '/' ∉ s) : beforeComment s = s ∧ opensBlock s = false := by
  induction s with
  | nil => exact ⟨rfl, rfl⟩
  | cons c s ih =>
      rw [List.mem_cons, not_or] at hs
      obtain ⟨hbefore, hblock⟩ := ih hs.2
      constructor
      · rw [beforeComment, hbefore]
        rintro rest rfl
        exact absurd rfl hs.1
      · rw [opensBlock, hblock]
        rintro rest rfl
        exact absurd rfl hs.1

/-- A bare word is the first token of a text in which no character of bare words follows it. -/
theorem exists_first_bare (hword : Word.Bare word) (hs : ∀ c ∈ s.head?, isBareChar c = false) :
    ∃ c rest, word = c :: rest ∧ isBareChar c ∧
      first c (rest ++ s) = .ok (.bare, rest.length) := by
  obtain ⟨c, rest, rfl⟩ := List.exists_cons_of_ne_nil hword.ne_nil
  have hc := (hword.plain c List.mem_cons_self).1
  have hrest : ∀ d ∈ rest, isBareChar d := fun d hd =>
    (hword.plain d (List.mem_cons_of_mem c hd)).1
  have hslash : '/' ∉ c :: rest := fun hmem => (hword.plain '/' hmem).2.1 rfl
  have hequals : '=' ∉ c :: rest := fun hmem => (hword.plain '=' hmem).2.2 rfl
  obtain ⟨hbefore, hblock⟩ := beforeComment_eq_self hslash
  have hrun : (rest ++ s).takeWhile isBareChar = rest := Text.takeWhile_append_of_head? hrest hs
  have harrow : c :: rest ≠ ['=', '>'] := by
    intro harrow
    rw [harrow] at hequals
    exact hequals List.mem_cons_self
  refine ⟨c, rest, rfl, hc, ?_⟩
  rw [first_eq_bare hc, bare_of_word hrun harrow hbefore hblock]

theorem Scans.bare (hword : Word.Bare word) (hs : ∀ c ∈ s.head?, isBareChar c = false)
    (h : Scans line s tokens) : Scans line (word ++ s) (⟨.bare, word, line⟩ :: tokens) := by
  obtain ⟨c, rest, rfl, hc, hfirst⟩ := exists_first_bare hword hs
  obtain ⟨hgap, hnewline⟩ := not_isGap_of_isBareChar hc
  exact Scans.prepend hgap hnewline hfirst h

/-- What stands behind a bare word and a space is scanned as a text of its own. -/
theorem scan_bare_append_space (hword : Word.Bare word) (line : Nat) (s : Text) :
    scan line (word ++ ' ' :: s) = (⟨.bare, word, line⟩ :: ·) <$> scan line s := by
  have hspace : ∀ c ∈ (' ' :: s).head?, isBareChar c = false := by
    rintro c ⟨⟩
    decide
  obtain ⟨c, rest, rfl, hc, hfirst⟩ := exists_first_bare hword hspace
  obtain ⟨hgap, hnewline⟩ := not_isGap_of_isBareChar hc
  rw [List.cons_append, scan_cons hgap hnewline hfirst, List.take_left, List.drop_left,
    scan_gap (by decide)]

theorem Scans.arrow (hs : ∀ c ∈ s.head?, isBareChar c = false) (h : Scans line s tokens) :
    Scans line (['=', '>'] ++ s) (⟨.arrow, ['=', '>'], line⟩ :: tokens) := by
  have hrun : (['>'] ++ s).takeWhile isBareChar = ['>'] :=
    Text.takeWhile_append_of_head? (List.forall_mem_singleton.mpr (by decide)) hs
  have hfirst : first '=' (['>'] ++ s) = .ok (.arrow, ['>'].length) := by
    rw [first_eq_bare (by decide), Token.bare, hrun]
    rfl
  exact Scans.prepend (by decide) (by decide) hfirst h

theorem Scans.punctuation {c : Char} {kind : Kind} (hgap : ¬ isGap c) (hc : c ≠ '\n')
    (hkind : punctuation? c = some kind) (h : Scans line s tokens) :
    Scans line ([c] ++ s) (⟨kind, [c], line⟩ :: tokens) := by
  have hfirst : first c ([] ++ s) = .ok (kind, ([] : Text).length) := by
    rw [first, hkind]
    rfl
  exact Scans.prepend hgap hc hfirst h

theorem bare_of_comment (hs : s.head? = some '/') :
    bare '/' s = .ok (.comment, (restOfLine s).length) := by
  obtain ⟨rest, rfl⟩ := List.head?_eq_some_iff.mp hs
  rw [bare, List.takeWhile_cons_of_pos (by decide)]
  rfl

/-- A comment takes all that is left of its line. -/
theorem first_comment {text : Text} (htext : '\n' ∉ text) (hs : ∀ c ∈ s.head?, c = '\n') :
    first '/' (('/' :: text) ++ s) = .ok (.comment, ('/' :: text).length) := by
  have hline : ∀ c ∈ '/' :: text, (c != '\n') = true := by
    intro c hc
    rw [bne_iff_ne]
    rintro rfl
    rcases List.mem_cons.mp hc with hslash | hmem
    · cases hslash
    · exact htext hmem
  have hend : ∀ c ∈ s.head?, (c != '\n') = false := fun c hc => by rw [hs c hc]; rfl
  rw [first_eq_bare (by decide), bare_of_comment rfl, restOfLine,
    Text.takeWhile_append_of_head? hline hend]

theorem scans_comment (hs : '\n' ∉ s) (line : Nat) :
    Scans line ("//".toList ++ s) [⟨.comment, "//".toList ++ s, line⟩] := by
  have hend : ∀ c ∈ ([] : Text).head?, c = '\n' := by simp
  have hscan := Scans.prepend (by decide) (by decide) (first_comment hs hend)
    (.nil : Scans line [] [])
  rwa [List.append_nil] at hscan

end Token

/-- What a line is written with: words and marks, and the spaces between them. -/
inductive Piece
  | space
  | openBracket
  | comma
  | closeBracket
  | arrow
  | bare (word : Text)
  | quoted (word : Text)
deriving DecidableEq, Repr

namespace Piece

def kind? : Piece → Option Token.Kind
  | .space => none
  | .openBracket => some .openBracket
  | .comma => some .comma
  | .closeBracket => some .closeBracket
  | .arrow => some .arrow
  | .bare _ => some .bare
  | .quoted _ => some .quoted

def text : Piece → Text
  | .space => [' ']
  | .openBracket => ['[']
  | .comma => [',']
  | .closeBracket => [']']
  | .arrow => ['=', '>']
  | .bare word => word
  | .quoted word => Word.quote word

def token? (line : Nat) (p : Piece) : Option Token :=
  p.kind?.map (⟨·, p.text, line⟩)

/-- Whether a piece is written in characters of bare words. -/
def isBare : Piece → Bool
  | .arrow | .bare _ => true
  | _ => false

/-- Pieces that are told apart when they are read. -/
structure Apart (pieces : List Piece) : Prop where
  bare : ∀ word, .bare word ∈ pieces → Word.Bare word
  apart : pieces.IsChain fun p q => ¬ (p.isBare ∧ q.isBare)

variable {pieces : List Piece} {p : Piece} {line : Nat} {s : Text} {tokens : List Token}

theorem Apart.tail (h : Apart (p :: pieces)) : Apart pieces where
  bare := fun word hword => h.bare word (List.mem_cons_of_mem p hword)
  apart := List.isChain_of_isChain_cons h.apart

theorem isBareChar_head?_eq_false (hp : ¬ p.isBare) :
    ∀ c ∈ (p.text ++ s).head?, isBareChar c = false := by
  cases p with
  | arrow => exact absurd rfl hp
  | bare word => exact absurd rfl hp
  | _ =>
      intro c hc
      cases hc
      decide

theorem Apart.scans (h : Apart pieces) (hs : ∀ c ∈ s.head?, isBareChar c = false)
    (hscan : Scans line s tokens) :
    Scans line (pieces.flatMap text ++ s) (pieces.filterMap (token? line) ++ tokens) := by
  induction pieces with
  | nil => exact hscan
  | cons p pieces ih =>
      have hrest : p.isBare → ∀ c ∈ (pieces.flatMap text ++ s).head?, isBareChar c = false := by
        intro hp
        cases pieces with
        | nil => exact hs
        | cons q pieces =>
            have hq : ¬ q.isBare := fun hq => (List.isChain_cons_cons.mp h.apart).1 ⟨hp, hq⟩
            rw [List.flatMap_cons, List.append_assoc]
            exact isBareChar_head?_eq_false hq
      have hscan := ih h.tail
      rw [List.flatMap_cons, List.append_assoc]
      cases p with
      | space => exact .space hscan
      | openBracket => exact .punctuation (by decide) (by decide) rfl hscan
      | comma => exact .punctuation (by decide) (by decide) rfl hscan
      | closeBracket => exact .punctuation (by decide) (by decide) rfl hscan
      | arrow => exact .arrow (hrest rfl) hscan
      | bare word => exact .bare (h.bare word List.mem_cons_self) (hrest rfl) hscan
      | quoted word => exact .quote word hscan

end Piece

end GoModules
