import GoModules.Proofs.Manifest.Comment
import GoModules.Proofs.Manifest.Reading

/-!
# Other comments

Comments are carried along with the lines they belong to. With other texts in their place the other
tokens make up the same lines, and each line stands for the same directive or breaks the structure
the same way. A manifest is read the same from comments that say the same.
-/

namespace GoModules

/-- A token, with another text if it is a comment. -/
def Token.recomment (f : Text → Text) (t : Token) : Token :=
  if t.kind = .comment then { t with text := f t.text } else t

def Line.recomment (f : Text → Text) (l : Line) : Line :=
  { l with suffix := l.suffix.map f, before := l.before.map f }

def Directive.recomment (f : Text → Text) (d : Directive) : Directive :=
  { d with line := d.line.recomment f }

variable (f : Text → Text)

namespace Token

variable {t : Token}

theorem recomment_of_comment (ht : t.kind = .comment) :
    t.recomment f = { t with text := f t.text } :=
  if_pos ht

theorem recomment_of_ne (ht : t.kind ≠ .comment) : t.recomment f = t :=
  if_neg ht

@[simp] theorem recomment_kind (t : Token) : (t.recomment f).kind = t.kind := by
  unfold recomment
  split
  · rfl
  · rfl

theorem recomment_recomment (f g : Text → Text) (t : Token) :
    (t.recomment f).recomment g = t.recomment (g ∘ f) := by
  by_cases ht : t.kind = .comment
  · rw [recomment_of_comment f ht, recomment_of_comment (g ∘ f) ht]
    exact recomment_of_comment g ht
  · rw [recomment_of_ne f ht, recomment_of_ne (g ∘ f) ht, recomment_of_ne g ht]

theorem map_recomment_cons (t : Token) (x : Except Error (List Token)) :
    List.map (recomment f) <$> ((t :: ·) <$> x) =
      (t.recomment f :: ·) <$> (List.map (recomment f) <$> x) := by
  cases x with
  | error e => rfl
  | ok tokens => rfl

end Token

namespace Line

theorem comment?_map_recomment (tokens : List Token) :
    comment? (tokens.map (Token.recomment f)) = (comment? tokens).map f := by
  have hkind : (fun t : Token => decide (t.kind = .comment)) ∘ Token.recomment f =
      fun t => decide (t.kind = .comment) := by
    funext t
    rw [Function.comp_apply, Token.recomment_kind]
  rw [comment?, comment?, List.find?_map, hkind, Option.map_map, Option.map_map]
  cases hfind : tokens.find? fun t => t.kind = .comment with
  | none => rfl
  | some t =>
      have ht : t.kind = .comment := by simpa using List.find?_some hfind
      rw [Option.map_some, Option.map_some, Function.comp_apply, Token.recomment_of_comment f ht]
      rfl

theorem filter_map_recomment (tokens : List Token) :
    (tokens.map (Token.recomment f)).filter (·.kind ≠ .comment) =
      tokens.filter (·.kind ≠ .comment) := by
  induction tokens with
  | nil => rfl
  | cons t tokens ih =>
      rw [List.map_cons, List.filter_cons, List.filter_cons, ih, Token.recomment_kind]
      split
      · next ht => rw [Token.recomment_of_ne f (by simpa using ht)]
      · rfl

theorem collect_map_recomment (pending : List Text) (physical : List (List Token)) :
    collect (pending.map f) (physical.map (List.map (Token.recomment f))) =
      (collect pending physical).map (recomment f) := by
  induction physical generalizing pending with
  | nil => rfl
  | cons tokens physical ih =>
      rw [List.map_cons, collect, collect, filter_map_recomment, comment?_map_recomment]
      cases tokens.filter (·.kind ≠ .comment) with
      | nil =>
          cases comment? tokens with
          | none => exact ih []
          | some comment =>
              have hpending := ih (pending ++ [comment])
              rw [List.map_append] at hpending
              exact hpending
      | cons first others => exact congrArg _ (ih [])

theorem ofTokens_map_recomment (tokens : List Token) :
    ofTokens (tokens.map (Token.recomment f)) = (ofTokens tokens).map (recomment f) := by
  rw [ofTokens, Token.splitOnP_map (Token.recomment_kind f), ofTokens]
  exact collect_map_recomment f [] _

@[simp] theorem recomment_verb (l : Line) : (l.recomment f).verb = l.verb := rfl

@[simp] theorem recomment_shape (l : Line) : (l.recomment f).shape = l.shape := rfl

@[simp] theorem recomment_isClosing (l : Line) : (l.recomment f).isClosing = l.isClosing := rfl

@[simp] theorem recomment_comments (l : Line) :
    (l.recomment f).comments = l.comments.map f := by
  rw [comments, comments, List.map_append, recomment, Option.toList_map]

end Line

theorem Item.step_recomment (block : Option OpenBlock) (l : Line) :
    step block (l.recomment f) =
      match step block l with
      | .error e => .error e
      | .ok (d, next) => .ok (d.map (Directive.recomment f), next) := by
  have hid : Option.map (OpenBlock.renumber id) = id := Option.map_id
  have hstep := step_map id (g := Directive.recomment f) (l.recomment_verb f)
    (l.recomment_shape f) (l.recomment_isClosing f) rfl (fun _ => rfl) (fun _ => rfl) block
  rw [hid] at hstep
  exact hstep

section Reworded

variable {f} (hf : ∀ comment, Comment.body (f comment) = Comment.body comment)
include hf

theorem Directive.addTo_recomment (d : Directive) (m : Manifest) :
    (d.recomment f).addTo m = d.addTo m := by
  have hdeprecation : Comment.deprecation (d.recomment f).line.comments =
      Comment.deprecation d.line.comments := by
    rw [recomment, Line.recomment_comments, Comment.deprecation_reworded hf]
  have hrationale : Comment.rationale (d.recomment f).line.comments =
      Comment.rationale d.line.comments := by
    rw [recomment, Line.recomment_comments, Comment.rationale_reworded hf]
  have hindirect : (d.recomment f).line.suffix.any Comment.isIndirect =
      d.line.suffix.any Comment.isIndirect := by
    rw [recomment, Line.recomment, Option.any_map]
    exact congrArg (d.line.suffix.any ·) (funext (Comment.isIndirect_reworded hf))
  unfold addTo
  rw [hdeprecation, hrationale, hindirect]
  rfl

namespace Manifest

theorem Reading.next_recomment (r : Reading) (l : Line) : r.next (l.recomment f) = r.next l := by
  rw [next, next, Item.step_recomment]
  cases Item.step r.block l with
  | error e => rfl
  | ok found =>
      obtain ⟨d, block⟩ := found
      cases d with
      | none => rfl
      | some d => exact congrArg (· >>= _) (Directive.addTo_recomment hf d r.manifest)

theorem Reading.run_map_recomment (r : Reading) (lines : List Line) :
    r.run (lines.map (Line.recomment f)) = r.run lines := by
  rw [run, List.foldlM_map, run]
  simp only [next_recomment hf]
  rfl

/-- Comments that say the same may stand in place of those of a manifest. -/
theorem ofTokens_map_recomment (tokens : List Token) :
    ofTokens (tokens.map (Token.recomment f)) = ofTokens tokens := by
  have hrun : ∀ lines, ofItems (Item.ofLines none lines) = Reading.run {} lines >>= Reading.close :=
    Reading.run_ofLines {}
  rw [ofTokens, ofTokens, Line.ofTokens_map_recomment, hrun, hrun, Reading.run_map_recomment hf]

end Manifest

end Reworded

end GoModules
