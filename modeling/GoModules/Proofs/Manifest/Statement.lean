import GoModules.Proofs.Manifest.Comment
import GoModules.Proofs.Manifest.Run
import GoModules.Proofs.Manifest.Spelling

/-!
# Writing statements

A statement stands on a line of its own, under the comments that belong to it. Read back, it is a
directive with the same verb, arguments and comments, wherever in a text it stands and whatever
statements follow it.
-/

namespace GoModules

open Token (Scans isBareChar)

/-- A statement to be written: what the comments directly above it say, its verb, what is written
behind the verb, and what the comment at the end of its line says. -/
structure Statement where
  above : List Text := []
  verb : Verb
  args : List Piece
  behind : Option Text := none
deriving DecidableEq, Repr

namespace Statement

def commentLine (s : Text) : Text :=
  Comment.written s ++ ['\n']

def words (st : Statement) : Text :=
  (Piece.bare st.verb.text :: st.args).flatMap Piece.text

def suffix : Option Text → Text
  | none => []
  | some s => ' ' :: Comment.written s

def text (st : Statement) : Text :=
  st.above.flatMap commentLine ++ (st.words ++ suffix st.behind ++ ['\n'])

/-- The line that a statement is read as. -/
def line (st : Statement) (pending : List Text) (number : Nat) : Line where
  first := ⟨.bare, st.verb.text, number⟩
  others := st.args.filterMap (Piece.token? number)
  suffix := st.behind.map Comment.written
  before := pending

/-- The directive that a statement is read as. -/
def directive (st : Statement) (number : Nat) : Directive where
  verb := st.verb
  args := st.args.filterMap (Piece.token? number)
  line := st.line (st.above.map Comment.written) number

/-- A statement whose pieces are told apart, with comments that end with their lines. -/
structure Plain (st : Statement) : Prop where
  above : ∀ s ∈ st.above, '\n' ∉ s
  behind : ∀ s ∈ st.behind, '\n' ∉ s
  apart : Piece.Apart (.bare st.verb.text :: st.args)

end Statement

namespace Line

/-- What the lines of a text satisfy, whatever the number of its first line, if comments are
pending above it. -/
def Collected (s : Text) (pending : List Text) (P : List Line → Prop) : Prop :=
  ∀ number, ∃ tokens, Scans number s tokens ∧
    P (collect pending (tokens.splitOnP (·.kind = .newline)))

variable {s rest : Text} {pending : List Text} {P : List Line → Prop}

theorem collected_nil (h : P []) : Collected [] pending P := by
  intro number
  refine ⟨[], .nil, ?_⟩
  rw [List.splitOnP_nil]
  exact h

theorem Collected.imp {Q : List Line → Prop} (h : Collected s pending P)
    (hPQ : ∀ lines, P lines → Q lines) : Collected s pending Q := by
  intro number
  obtain ⟨tokens, hscan, hP⟩ := h number
  exact ⟨tokens, hscan, hPQ _ hP⟩

/-- One physical line further: what it does to the lines that are collected is all that counts. -/
theorem Collected.cons {tokens : Nat → List Token} {pending' : List Text} {Q : List Line → Prop}
    (hscan : ∀ number, Scans number s (tokens number))
    (hkind : ∀ number, ∀ token ∈ tokens number, token.kind ≠ .newline)
    (hcollect : ∀ number physical,
      Q (collect pending' physical) → P (collect pending (tokens number :: physical)))
    (hrest : Collected rest pending' Q) : Collected (s ++ '\n' :: rest) pending P := by
  intro number
  obtain ⟨back, hback, hQ⟩ := hrest (number + s.count '\n' + 1)
  refine ⟨_, (hscan number).append_newline hback, ?_⟩
  have hfront : (tokens number).splitOnP (·.kind = .newline) = [tokens number] := by
    apply List.splitOnP_eq_singleton
    simpa using hkind number
  rw [List.splitOnP_append_cons _ _ (by simp), hfront]
  exact hcollect number _ hQ

end Line

namespace Statement

open Line (Collected)

variable {st : Statement} {s rest : Text} {pending : List Text} {P : List Line → Prop}

theorem collected_comment (hs : '\n' ∉ s)
    (h : Collected rest (pending ++ [Comment.written s]) P) :
    Collected (commentLine s ++ rest) pending P := by
  have hscan : ∀ number, Scans number (Comment.written s) [⟨.comment, Comment.written s, number⟩] :=
    fun number => Token.scans_comment (s := ' ' :: s) (by simpa using hs) number
  rw [commentLine, List.append_assoc]
  refine Collected.cons hscan ?_ ?_ h
  · simp
  · intro number physical hP
    exact hP

theorem collected_comments {above : List Text} (habove : ∀ s ∈ above, '\n' ∉ s)
    (h : Collected rest (pending ++ above.map Comment.written) P) :
    Collected (above.flatMap commentLine ++ rest) pending P := by
  induction above generalizing pending with
  | nil => simpa using h
  | cons s above ih =>
      rw [List.flatMap_cons, List.append_assoc]
      apply collected_comment (habove s List.mem_cons_self)
      apply ih fun t ht => habove t (List.mem_cons_of_mem s ht)
      simpa using h

theorem scans_suffix {behind : Option Text} (hbehind : ∀ s ∈ behind, '\n' ∉ s) (number : Nat) :
    Scans number (suffix behind)
      (behind.map (⟨.comment, Comment.written ·, number⟩)).toList := by
  cases behind with
  | none => exact .nil
  | some s => exact .space (Token.scans_comment (s := ' ' :: s) (by simpa using hbehind) number)

theorem kind_spec {pieces : List Piece} {number : Nat} :
    ∀ token ∈ pieces.filterMap (Piece.token? number),
      token.kind ≠ .newline ∧ token.kind ≠ .comment ∧ token.kind ≠ .openParen := by
  intro token htoken
  obtain ⟨p, -, hp⟩ := List.mem_filterMap.mp htoken
  obtain ⟨kind, hkind, rfl⟩ := Option.map_eq_some_iff.mp hp
  dsimp only
  cases p with
  | space => cases hkind
  | _ =>
      cases hkind
      decide

/-- The tokens of the line of a statement. -/
def tokens (st : Statement) (number : Nat) : List Token :=
  (Piece.bare st.verb.text :: st.args).filterMap (Piece.token? number) ++
    (st.behind.map (⟨.comment, Comment.written ·, number⟩)).toList

theorem filter_tokens (st : Statement) (number : Nat) :
    (st.tokens number).filter (·.kind ≠ .comment) =
      ⟨.bare, st.verb.text, number⟩ :: st.args.filterMap (Piece.token? number) := by
  have hwords : ∀ token ∈ (Piece.bare st.verb.text :: st.args).filterMap (Piece.token? number),
      decide (token.kind ≠ .comment) := by
    intro token htoken
    exact decide_eq_true (kind_spec token htoken).2.1
  rw [tokens, List.filter_append, List.filter_eq_self.mpr hwords]
  cases st.behind with
  | none => exact List.append_nil _
  | some s => exact List.append_nil _

theorem comment?_tokens (st : Statement) (number : Nat) :
    Line.comment? (st.tokens number) = st.behind.map Comment.written := by
  have hwords : ((Piece.bare st.verb.text :: st.args).filterMap (Piece.token? number)).find?
      (·.kind = .comment) = none := by
    rw [List.find?_eq_none]
    intro token htoken
    simpa using (kind_spec token htoken).2.1
  rw [Line.comment?, tokens, List.find?_append, hwords]
  cases st.behind with
  | none => rfl
  | some s => rfl

theorem collected_line (hst : st.Plain)
    (h : Collected rest [] fun lines => ∀ number, P (st.line pending number :: lines)) :
    Collected (st.words ++ suffix st.behind ++ '\n' :: rest) pending P := by
  have hhead : ∀ c ∈ (suffix st.behind).head?, isBareChar c = false := by
    cases st.behind with
    | none => simp [suffix]
    | some s =>
        intro c hc
        obtain rfl : ' ' = c := by simpa [suffix] using hc
        decide
  have hscan : ∀ number, Scans number (st.words ++ suffix st.behind) (st.tokens number) :=
    fun number => hst.apart.scans hhead (scans_suffix hst.behind number)
  refine Collected.cons hscan ?_ ?_ h
  · intro number token htoken
    rcases List.mem_append.mp htoken with hword | hcomment
    · exact (kind_spec token hword).1
    · obtain ⟨s, -, rfl⟩ := Option.map_eq_some_iff.mp (Option.mem_toList.mp hcomment)
      simp
  · intro number physical hP
    rw [Line.collect, filter_tokens, comment?_tokens]
    exact hP number

theorem collected_statement (hst : st.Plain)
    (h : Collected rest [] fun lines => ∀ number, P ((st.directive number).line :: lines)) :
    Collected (st.text ++ rest) [] P := by
  rw [text, List.append_assoc, List.append_assoc]
  apply collected_comments hst.above
  exact collected_line hst h

theorem verb_line (st : Statement) (pending : List Text) (number : Nat) :
    (st.line pending number).verb = .ok st.verb := by
  simp [Line.verb, line, Verb.ofText?_text]

/-- No statement opens a block. -/
theorem shape_line (st : Statement) (pending : List Text) (number : Nat) :
    (st.line pending number).shape = .plain := by
  have hopen : Token.Kind.openParen ∉ (st.line pending number).others.map Token.kind := by
    intro hmem
    obtain ⟨token, htoken, hkind⟩ := List.mem_map.mp hmem
    exact (kind_spec token htoken).2.2 hkind
  unfold Line.shape
  split
  · next hkinds =>
      rw [hkinds] at hopen
      exact absurd List.mem_cons_self hopen
  · next hkinds =>
      rw [hkinds] at hopen
      exact absurd List.mem_cons_self hopen
  · rfl

theorem ofLines_directive (st : Statement) (number : Nat) (lines : List Line) :
    Item.ofLines none ((st.directive number).line :: lines) =
      .directive (st.directive number) :: Item.ofLines none lines := by
  rw [Item.ofLines, directive, verb_line]
  dsimp only
  rw [shape_line]
  rfl

/-- What statements are read as: directives in the same order, each on some line. -/
def ReadAs (statements : List Statement) (ds : List Directive) : Prop :=
  List.Forall₂ (fun st d => ∃ number, d = st.directive number) statements ds

theorem collected_texts {statements : List Statement} (h : ∀ st ∈ statements, st.Plain) :
    Collected (statements.flatMap text) [] fun lines =>
      ∃ ds, Item.ofLines none lines = ds.map .directive ∧ ReadAs statements ds := by
  -- What the lines behind a statement are read as is known first; the statement is put in front.
  induction statements with
  | nil => exact Line.collected_nil ⟨[], rfl, .nil⟩
  | cons st statements ih =>
      have hrest := ih fun st' hst' => h st' (List.mem_cons_of_mem st hst')
      apply collected_statement (h st List.mem_cons_self)
      refine hrest.imp ?_
      rintro lines ⟨ds, hitems, hread⟩ number
      refine ⟨st.directive number :: ds, ?_, .cons ⟨number, rfl⟩ hread⟩
      rw [ofLines_directive, hitems, List.map_cons]

theorem items_texts {statements : List Statement} (h : ∀ st ∈ statements, st.Plain) :
    ∃ ds, Manifest.items (statements.flatMap text) = ds.map .directive ∧
      ReadAs statements ds := by
  obtain ⟨tokens, hscan, ds, hitems, hread⟩ := collected_texts h 1
  refine ⟨ds, ?_, hread⟩
  rw [Manifest.items, hscan.scan_eq]
  exact hitems

end Statement

end GoModules
