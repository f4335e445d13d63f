import GoModules.Proofs.Manifest.PhysicalLines
import GoModules.Proofs.Manifest.Spelling

/-!
# Blocks

A block is read as its entries would be, each on a line of its own behind the verb of the block. The
comments between the entries belong to the same entries in both forms, as long as none stands right
above one of the two lines that only the block has.
-/

namespace GoModules

open Outcome

namespace Token

/-- A verb in front of an entry. -/
def head (verb : Verb) : Token :=
  ⟨.bare, verb.text, 0⟩

@[simp] theorem head_kind (verb : Verb) : (head verb).kind = .bare := rfl

/-- The tokens of a physical line, those of an entry behind a verb. -/
def headTokens (verb : Verb) (tokens : List Token) : List Token :=
  if tokens.filter (·.kind ≠ .comment) = [] then tokens else head verb :: tokens

theorem lex_verb_append_space (verb : Verb) (s : Text) :
    lex (verb.text ++ ' ' :: s) = (head verb :: ·) <$> lex s := by
  rw [lex, scan_bare_append_space (Word.bare_verb verb), lex]
  cases scan 0 s with
  | error e => rfl
  | ok tokens => rfl

end Token

namespace Line

/-- A line behind a verb. -/
def headed (verb : Verb) (l : Line) : Line :=
  { l with first := Token.head verb, others := l.tokens }

theorem filter_head_cons (verb : Verb) (tokens : List Token) :
    (Token.head verb :: tokens).filter (·.kind ≠ .comment) =
      Token.head verb :: tokens.filter (·.kind ≠ .comment) :=
  List.filter_cons_of_pos (by simp)

theorem comment?_head_cons (verb : Verb) (tokens : List Token) :
    comment? (Token.head verb :: tokens) = comment? tokens := by
  rw [comment?, List.find?_cons_of_neg (by simp), comment?]

theorem collect_map_headTokens (verb : Verb) (pending : List Text) (physical : List (List Token)) :
    collect pending (physical.map (Token.headTokens verb)) =
        (collect pending physical).map (headed verb) ∧
      pendingAfter pending (physical.map (Token.headTokens verb)) =
        pendingAfter pending physical := by
  apply collect_map
  · intro pending tokens
    rw [collect_singleton, collect_singleton, Token.headTokens]
    cases hfilter : tokens.filter (·.kind ≠ .comment) with
    | nil =>
        rw [if_pos rfl, hfilter]
        rfl
    | cons first others =>
        rw [if_neg (List.cons_ne_nil first others), filter_head_cons, comment?_head_cons, hfilter]
        rfl
  · intro pending tokens
    rw [pendingAfter_singleton, pendingAfter_singleton, Token.headTokens]
    cases hfilter : tokens.filter (·.kind ≠ .comment) with
    | nil => rw [if_pos rfl, hfilter]
    | cons first others => rw [if_neg (List.cons_ne_nil first others), filter_head_cons]

/-- The kinds of tokens that open or close a block, or are an empty block behind a verb. -/
def parens : List (List Token.Kind) :=
  [[.openParen], [.closeParen], [.openParen, .closeParen]]

@[simp] theorem headed_others (verb : Verb) (l : Line) : (l.headed verb).others = l.tokens := rfl

theorem headed_verb (verb : Verb) (l : Line) : (l.headed verb).verb = .ok verb := by
  have hkind : (l.headed verb).first.kind = .bare := rfl
  have htext : (l.headed verb).first.text = verb.text := rfl
  rw [Line.verb, hkind, htext, Verb.ofText?_text]
  rfl

theorem headed_shape {l : Line} (verb : Verb) (h : l.tokens.map Token.kind ∉ parens) :
    (l.headed verb).shape = .plain := by
  unfold shape
  rw [headed_others]
  split
  · next hkinds =>
      rw [hkinds] at h
      exact absurd (by decide) h
  · next hkinds =>
      rw [hkinds] at h
      exact absurd (by decide) h
  · rfl

theorem not_isClosing {l : Line} (h : l.tokens.map Token.kind ∉ parens) : ¬ l.isClosing := by
  rw [isClosing, beq_iff_eq]
  intro hkinds
  rw [hkinds] at h
  exact h (by decide)

end Line

namespace Manifest

open Token (lex head headTokens)

namespace Reading

variable {verb : Verb} {l : Line} {lines : List Line}

theorem next_inBlock (block : OpenBlock) (h : l.tokens.map Token.kind ∉ Line.parens)
    (m : Manifest) :
    next ⟨m, some block⟩ l =
      (⟨·, some block⟩) <$> (⟨block.verb, l.tokens, l⟩ : Directive).addTo m := by
  rw [next, Item.step, if_neg (Line.not_isClosing h)]
  dsimp only
  cases Directive.addTo m ⟨block.verb, l.tokens, l⟩ with
  | error fault => rfl
  | ok m' => rfl

theorem next_headed (verb : Verb) (h : l.tokens.map Token.kind ∉ Line.parens) (m : Manifest) :
    next ⟨m, none⟩ (l.headed verb) =
      (⟨·, none⟩) <$> (⟨verb, l.tokens, l⟩ : Directive).addTo m := by
  have hadd : (⟨verb, l.tokens, l.headed verb⟩ : Directive).addTo m =
      (⟨verb, l.tokens, l⟩ : Directive).addTo m :=
    Directive.addTo_congr rfl rfl rfl rfl m
  rw [next, Item.step, Line.headed_verb]
  dsimp only
  rw [Line.headed_shape verb h]
  dsimp only
  rw [Line.headed_others, hadd]
  cases Directive.addTo m ⟨verb, l.tokens, l⟩ with
  | error fault => rfl
  | ok m' => rfl

/-- The lines of a block, and the same lines each behind the verb. -/
theorem foldlM_next_headed (verb : Verb) (line : Nat)
    (h : ∀ l ∈ lines, l.tokens.map Token.kind ∉ Line.parens) (m : Manifest) :
    lines.foldlM next ⟨m, some ⟨verb, line⟩⟩ =
      (fun r => ⟨r.manifest, some ⟨verb, line⟩⟩) <$>
        (lines.map (Line.headed verb)).foldlM next ⟨m, none⟩ ∧
    ∀ r, (lines.map (Line.headed verb)).foldlM next ⟨m, none⟩ = .ok r → r.block = none := by
  have hblock : (lines.map id).foldlM next ⟨m, some ⟨verb, line⟩⟩ = _ :=
    foldlM_map_eq (fun l hl => next_inBlock ⟨verb, line⟩ (h l hl)) m
  have halone : (lines.map (Line.headed verb)).foldlM next ⟨m, none⟩ = _ :=
    foldlM_map_eq (fun l hl => next_headed verb (h l hl)) m
  rw [List.map_id] at hblock
  rw [hblock, halone]
  cases lines.foldlM (fun m l => Directive.addTo m ⟨verb, l.tokens, l⟩) m with
  | error fault =>
      refine ⟨rfl, fun r hr => ?_⟩
      cases hr
  | ok m' =>
      refine ⟨rfl, fun r hr => ?_⟩
      cases hr
      rfl

end Reading

/-- The line that opens a block. -/
def opening (verb : Verb) : List Token :=
  [head verb, ⟨.openParen, ['('], 0⟩]

/-- The line that closes a block. -/
def closing : List Token :=
  [⟨.closeParen, [')'], 0⟩]

variable {verb : Verb} {physical : List (List Token)}

theorem collect_opening (verb : Verb) (physical : List (List Token)) :
    Line.collect [] (opening verb :: physical) =
      ⟨head verb, [⟨.openParen, ['('], 0⟩], none, []⟩ :: Line.collect [] physical :=
  rfl

theorem collect_closing (physical : List (List Token)) :
    Line.collect [] (closing :: physical) =
      ⟨⟨.closeParen, [')'], 0⟩, [], none, []⟩ :: Line.collect [] physical :=
  rfl

theorem next_opening (hverb : verb.isBlock) (m : Manifest) :
    Reading.next ⟨m, none⟩ ⟨head verb, [⟨.openParen, ['('], 0⟩], none, []⟩ =
      .ok ⟨m, some ⟨verb, 0⟩⟩ := by
  cases verb with
  | module => cases hverb
  | go => cases hverb
  | toolchain => cases hverb
  | _ => rfl

/-- A block among physical lines is read as its lines behind the verb are. -/
theorem ofPhysical_block {before body after : List (List Token)} (hverb : verb.isBlock)
    (hbefore : Line.pendingAfter [] before = []) (hbody : Line.pendingAfter [] body = [])
    (hopen : ∀ opened, ofPhysical before ≠ .error (.unterminatedBlock opened))
    (hparens : ∀ tokens ∈ body,
      (tokens.filter (·.kind ≠ .comment)).map Token.kind ∉ Line.parens) :
    ofPhysical (before ++ (opening verb :: (body ++ [closing]) ++ after)) =
      ofPhysical (before ++ (body.map (headTokens verb) ++ after)) := by
  have hlines : ∀ l ∈ Line.collect [] body, l.tokens.map Token.kind ∉ Line.parens := by
    intro l hl
    obtain ⟨tokens, hmem, htokens⟩ := Line.exists_of_mem_collect hl
    rw [htokens]
    exact hparens tokens hmem
  rw [ofPhysical] at hopen
  rw [List.cons_append, List.append_assoc, List.singleton_append, ofPhysical, ofPhysical,
    Line.collect_append, Line.collect_append, hbefore, collect_opening, Line.collect_append, hbody,
    collect_closing, Line.collect_append, (Line.collect_map_headTokens verb [] body).1,
    (Line.collect_map_headTokens verb [] body).2, hbody, List.foldlM_append, List.foldlM_append]
  cases hrun : (Line.collect [] before).foldlM Reading.next {} with
  | error fault => rfl
  | ok r =>
      obtain ⟨m, block⟩ := r
      rw [hrun] at hopen
      cases block with
      | some block => exact absurd rfl (hopen block.verb)
      | none =>
          obtain ⟨hsame, hnone⟩ := Reading.foldlM_next_headed verb 0 hlines m
          rw [ok_bind, ok_bind, List.foldlM_cons, next_opening hverb, ok_bind, List.foldlM_append,
            List.foldlM_append, hsame]
          cases halone : ((Line.collect [] body).map (Line.headed verb)).foldlM Reading.next
              ⟨m, none⟩ with
          | error fault => rfl
          | ok r =>
              obtain ⟨m', block⟩ := r
              obtain rfl : block = none := hnone _ halone
              -- The closing line takes the reading back to where no block is open.
              rfl

/-- Whether a line holds more than a comment. A line that cannot be cut into tokens does. -/
def isEntry (t : Text) : Bool :=
  match lex t with
  | .ok tokens => tokens.filter (·.kind ≠ .comment) ≠ []
  | .error _ => true

/-- Whether a line holds a comment and nothing else. -/
def isComment (t : Text) : Bool :=
  match lex t with
  | .ok tokens => tokens ≠ [] ∧ tokens.filter (·.kind ≠ .comment) = []
  | .error _ => false

/-- Whether a line holds nothing but parentheses that open or close a block. -/
def isParens (t : Text) : Bool :=
  match lex t with
  | .ok tokens => (tokens.filter (·.kind ≠ .comment)).map Token.kind ∈ Line.parens
  | .error _ => false

/-- A line of a block as it stands outside of the block: an entry behind the verb. -/
def headed (verb : Verb) (t : Text) : Text :=
  if isEntry t then verb.text ++ ' ' :: t else t

/-- The lines of a block. -/
def blockForm (verb : Verb) (body : List Text) : List Text :=
  (verb.text ++ " (".toList) :: (body ++ [")".toList])

/-- The lines of a block without the block. -/
def lineForm (verb : Verb) (body : List Text) : List Text :=
  body.map (headed verb)

theorem newline_notMem_verb (verb : Verb) : '\n' ∉ verb.text := by
  cases verb <;> decide

theorem newline_notMem_blockForm (verb : Verb) {body : List Text} (h : ∀ t ∈ body, '\n' ∉ t) :
    ∀ t ∈ blockForm verb body, '\n' ∉ t := by
  rw [blockForm, List.forall_mem_cons, List.forall_mem_append, List.forall_mem_singleton]
  refine ⟨?_, h, by decide⟩
  rw [List.mem_append, not_or]
  exact ⟨newline_notMem_verb verb, by decide⟩

theorem newline_notMem_lineForm (verb : Verb) {body : List Text} (h : ∀ t ∈ body, '\n' ∉ t) :
    ∀ t ∈ lineForm verb body, '\n' ∉ t := by
  intro t ht
  obtain ⟨t, hmem, rfl⟩ := List.mem_map.mp ht
  rw [headed]
  split
  · rw [List.mem_append, List.mem_cons, not_or, not_or]
    exact ⟨newline_notMem_verb verb, by decide, h t hmem⟩
  · exact h t hmem

theorem lex_opening (verb : Verb) : lex (verb.text ++ " (".toList) = .ok (opening verb) := by
  have hparen : lex ['('] = .ok [⟨.openParen, ['('], 0⟩] :=
    Token.lex_of_scans (.punctuation (by decide) (by decide) rfl .nil)
  change lex (verb.text ++ ' ' :: ['(']) = _
  rw [Token.lex_verb_append_space, hparen]
  rfl

theorem lex_closing : lex ")".toList = .ok closing := by
  change lex [')'] = _
  exact Token.lex_of_scans (.punctuation (by decide) (by decide) rfl .nil)

theorem lex_headed (verb : Verb) (t : Text) : lex (headed verb t) = headTokens verb <$> lex t := by
  rw [headed, isEntry]
  cases h : lex t with
  | error fault =>
      rw [if_pos rfl, Token.lex_verb_append_space, h]
      rfl
  | ok tokens =>
      dsimp only
      by_cases hfilter : tokens.filter (·.kind ≠ .comment) = []
      · rw [if_neg (by simpa using hfilter), h]
        exact congrArg Except.ok (if_pos hfilter).symm
      · rw [if_pos (decide_eq_true hfilter), Token.lex_verb_append_space, h]
        exact congrArg Except.ok (if_neg hfilter).symm

theorem mapM_lineForm (verb : Verb) (body : List Text) :
    (lineForm verb body).mapM lex = List.map (headTokens verb) <$> body.mapM lex := by
  induction body with
  | nil => rfl
  | cons t body ih =>
      rw [lineForm, List.map_cons, List.mapM_cons, ← lineForm, ih, lex_headed, List.mapM_cons]
      cases lex t with
      | error fault => rfl
      | ok tokens =>
          cases body.mapM lex with
          | error fault => rfl
          | ok physical => rfl

theorem pendingAfter_of_not_isComment {t : Text} {tokens : List Token} (h : lex t = .ok tokens)
    (hcomment : ¬ isComment t) (pending : List Text) :
    Line.pendingAfter pending [tokens] = [] := by
  rw [Line.pendingAfter_singleton]
  split
  · next comment hfilter hfound =>
      have hnil : tokens = [] := by
        rw [isComment, h, decide_eq_true_eq, not_and] at hcomment
        by_contra hne
        exact hcomment hne hfilter
      rw [hnil] at hfound
      cases hfound
  · rfl

/-- Where the last line is no comment line, no comment stands directly above what follows. -/
theorem pendingAfter_of_mapM {ts : List Text} (h : ts.mapM lex = .ok physical)
    (hlast : ∀ t ∈ ts.getLast?, ¬ isComment t) : Line.pendingAfter [] physical = [] := by
  rcases List.eq_nil_or_concat ts with rfl | ⟨front, t, rfl⟩
  · cases h
    rfl
  · rw [List.concat_eq_append, List.mapM_append, List.mapM_cons, List.mapM_nil] at h
    simp only [bind_eq_ok_iff, pure_eq_ok, Except.ok.injEq] at h
    obtain ⟨first, -, _, ⟨tokens, htokens, _, rfl, rfl⟩, rfl⟩ := h
    rw [Line.pendingAfter_append]
    exact pendingAfter_of_not_isComment htokens (hlast t (by simp)) _

theorem mapM_blockForm (verb : Verb) (body : List Text) :
    (blockForm verb body).mapM lex =
      (fun physical => opening verb :: (physical ++ [closing])) <$> body.mapM lex := by
  rw [blockForm, List.mapM_cons, lex_opening, ok_bind, List.mapM_append, List.mapM_cons,
    List.mapM_nil, lex_closing]
  cases body.mapM lex with
  | error fault => rfl
  | ok physical => rfl

theorem not_mem_parens_of_mapM {body : List Text} (h : body.mapM lex = .ok physical)
    (hparens : ∀ t ∈ body, ¬ isParens t) :
    ∀ tokens ∈ physical, (tokens.filter (·.kind ≠ .comment)).map Token.kind ∉ Line.parens := by
  intro tokens htokens
  obtain ⟨t, ht, hlex⟩ := exists_of_mem_of_mapM h tokens htokens
  have hkinds := hparens t ht
  rw [isParens, hlex, decide_eq_true_eq] at hkinds
  exact hkinds

/-- A block and its entries one by one, each behind the verb of the block, are read as the same, or
refused for the same fault. The lines above must not leave a block open, since blocks do not nest,
and no comment may stand right above one of the two lines that only the block has. -/
theorem outcome_blockForm {verb : Verb} {before body after : List Text} (hverb : verb.isBlock)
    (hlines : ∀ t ∈ before ++ (body ++ after), '\n' ∉ t) (hparens : ∀ t ∈ body, ¬ isParens t)
    (hbefore : ∀ t ∈ before.getLast?, ¬ isComment t)
    (hbody : ∀ t ∈ body.getLast?, ¬ isComment t)
    (hopen : ∀ opened, outcome (Text.lines before) ≠ .error (.unterminatedBlock opened)) :
    outcome (Text.lines (before ++ (blockForm verb body ++ after))) =
      outcome (Text.lines (before ++ (lineForm verb body ++ after))) := by
  rw [List.forall_mem_append, List.forall_mem_append] at hlines
  obtain ⟨hfront, hinside, hback⟩ := hlines
  have hblock : ∀ t ∈ before ++ (blockForm verb body ++ after), '\n' ∉ t :=
    List.forall_mem_append.mpr
      ⟨hfront, List.forall_mem_append.mpr ⟨newline_notMem_blockForm verb hinside, hback⟩⟩
  have halone : ∀ t ∈ before ++ (lineForm verb body ++ after), '\n' ∉ t :=
    List.forall_mem_append.mpr
      ⟨hfront, List.forall_mem_append.mpr ⟨newline_notMem_lineForm verb hinside, hback⟩⟩
  rw [outcome_lines hfront] at hopen
  rw [outcome_lines hblock, outcome_lines halone, List.mapM_append, List.mapM_append,
    List.mapM_append, List.mapM_append, mapM_blockForm, mapM_lineForm]
  -- A line that cannot be cut into tokens is the first such line in both forms.
  cases hfrontLex : before.mapM lex with
  | error fault => rfl
  | ok front =>
      cases hinsideLex : body.mapM lex with
      | error fault => rfl
      | ok inside =>
          cases after.mapM lex with
          | error fault => rfl
          | ok back =>
              rw [hfrontLex] at hopen
              exact ofPhysical_block hverb (pendingAfter_of_mapM hfrontLex hbefore)
                (pendingAfter_of_mapM hinsideLex hbody) hopen
                (not_mem_parens_of_mapM hinsideLex hparens)

theorem outcome_blockForm_retract :
    outcome (Text.lines (["module x.org/m".toList] ++
        (blockForm .retract ["// wrong".toList, "v1.0.0".toList, [], "v1.1.0".toList] ++ [[]]))) =
      outcome (Text.lines (["module x.org/m".toList] ++
        (lineForm .retract ["// wrong".toList, "v1.0.0".toList, [], "v1.1.0".toList] ++ [[]]))) ∧
    lineForm .retract ["// wrong".toList, "v1.0.0".toList, [], "v1.1.0".toList] =
      ["// wrong".toList, "retract v1.0.0".toList, [], "retract v1.1.0".toList] := by
  have hread : outcome (Text.lines ["module x.org/m".toList]) =
      .ok { module := some ⟨"x.org/m".toList, none⟩ } := by
    decide +kernel
  refine ⟨outcome_blockForm rfl (by decide) (by decide +kernel) (by decide +kernel)
    (by decide +kernel) ?_, by decide +kernel⟩
  intro opened
  rw [hread]
  simp

/-- Inside of a block that is open already, what would open a block is an entry, and a wrong one.
An entry of one parenthesis and a comment opens a block when it stands behind the verb. -/
theorem outcome_blockForm_ne :
    (isEntry "v1.0.0".toList ∧ ¬ isParens "v1.0.0".toList ∧ ¬ isComment "require (".toList ∧
      ¬ isComment "v1.0.0".toList ∧
      outcome (Text.lines (["require (".toList] ++
        (blockForm .tool ["v1.0.0".toList] ++ [")".toList]))) =
          .error (.unexpectedToken .openParen) ∧
      outcome (Text.lines (["require (".toList] ++
        (lineForm .tool ["v1.0.0".toList] ++ [")".toList]))) =
          .ok { require := [⟨"tool".toList, ⟨1, 0, 0, [], false⟩, false⟩] }) ∧
    (isEntry "( // x".toList ∧ ¬ isComment "( // x".toList ∧
      outcome (Text.lines (blockForm .tool ["( // x".toList])) =
        .error (.unexpectedToken .openParen) ∧
      outcome (Text.lines (lineForm .tool ["( // x".toList])) =
        .error (.unterminatedBlock .tool)) := by
  decide +kernel

end Manifest

end GoModules
