import GoModules.Proofs.Manifest.Arguments
import GoModules.Proofs.Manifest.Scan
import GoModules.Proofs.Manifest.Structure

/-!
# Other line numbers

Line numbers are carried along and nothing depends on them. Under other numbers the tokens make up
the same lines, each line stands for the same directive or breaks the structure the same way, and a
directive adds the same to a manifest.
-/

namespace GoModules

/-- A token on another line. -/
def Token.renumber (f : Nat → Nat) (t : Token) : Token :=
  { t with line := f t.line }

def Line.renumber (f : Nat → Nat) (l : Line) : Line :=
  { l with first := l.first.renumber f, others := l.others.map (Token.renumber f) }

def OpenBlock.renumber (f : Nat → Nat) (block : OpenBlock) : OpenBlock :=
  { block with line := f block.line }

def Directive.renumber (f : Nat → Nat) (d : Directive) : Directive :=
  { d with args := d.args.map (Token.renumber f), line := d.line.renumber f }

def Manifest.Error.renumber (f : Nat → Nat) (e : Manifest.Error) : Manifest.Error :=
  { e with line := f e.line }

variable (f : Nat → Nat)

@[simp] theorem Token.renumber_kind (t : Token) : (t.renumber f).kind = t.kind := rfl

theorem Word.map_ofToken_renumber (args : List Token) :
    (args.map (Token.renumber f)).map ofToken = args.map ofToken := by
  rw [List.map_map]
  rfl

@[simp] theorem Line.renumber_tokens (l : Line) :
    (l.renumber f).tokens = l.tokens.map (Token.renumber f) := rfl

@[simp] theorem Line.renumber_verb (l : Line) : (l.renumber f).verb = l.verb := rfl

@[simp] theorem Line.renumber_shape (l : Line) : (l.renumber f).shape = l.shape :=
  Line.shape_congr (Word.map_ofToken_renumber f l.others)

@[simp] theorem Line.renumber_isClosing (l : Line) :
    (l.renumber f).isClosing = l.isClosing :=
  Line.isClosing_congr (Word.map_ofToken_renumber f l.tokens)

@[simp] theorem Directive.renumber_verb (d : Directive) : (d.renumber f).verb = d.verb := rfl

namespace Line

theorem comment?_map_renumber (tokens : List Token) :
    comment? (tokens.map (Token.renumber f)) = comment? tokens := by
  simp only [comment?, List.find?_map, Option.map_map]
  rfl

theorem filter_map_renumber (tokens : List Token) :
    (tokens.map (Token.renumber f)).filter (·.kind ≠ .comment) =
      (tokens.filter (·.kind ≠ .comment)).map (Token.renumber f) :=
  List.filter_map

theorem collect_map_renumber (pending : List Text) (physical : List (List Token)) :
    collect pending (physical.map (List.map (Token.renumber f))) =
      (collect pending physical).map (renumber f) := by
  refine (collect_map ?_ ?_ pending physical).1
  · intro pending tokens
    rw [collect_singleton, collect_singleton, filter_map_renumber, comment?_map_renumber]
    cases tokens.filter (·.kind ≠ .comment) with
    | nil => rfl
    | cons first others => rfl
  · intro pending tokens
    rw [pendingAfter_singleton, pendingAfter_singleton, filter_map_renumber,
      comment?_map_renumber]
    cases tokens.filter (·.kind ≠ .comment) with
    | nil => rfl
    | cons first others => rfl

theorem ofTokens_map_renumber (tokens : List Token) :
    ofTokens (tokens.map (Token.renumber f)) = (ofTokens tokens).map (renumber f) := by
  rw [ofTokens, Token.splitOnP_map (Token.renumber_kind f), collect_map_renumber, ofTokens]

end Line

/-- Lines that look the same stand for the same, each for directives of its own. -/
theorem Item.step_map {l l' : Line} {g : Directive → Directive} (hverb : l'.verb = l.verb)
    (hshape : l'.shape = l.shape) (hclosing : l'.isClosing = l.isClosing)
    (hnumber : l'.number = f l.number)
    (hplain : ∀ verb, g ⟨verb, l.others, l⟩ = ⟨verb, l'.others, l'⟩)
    (hinside : ∀ verb, g ⟨verb, l.tokens, l⟩ = ⟨verb, l'.tokens, l'⟩) (block : Option OpenBlock) :
    step (block.map (OpenBlock.renumber f)) l' =
      match step block l with
      | .error e => .error (e.renumber f)
      | .ok (d, next) => .ok (d.map g, next.map (OpenBlock.renumber f)) := by
  cases block with
  | some block =>
      rw [Option.map_some, step, step, hclosing]
      by_cases hclosing : l.isClosing
      · rw [if_pos hclosing, if_pos hclosing]
        rfl
      · rw [if_neg hclosing, if_neg hclosing]
        dsimp only
        rw [Option.map_some, hinside]
        rfl
  | none =>
      rw [Option.map_none, step, step, hverb, hnumber]
      cases l.verb with
      | error fault => rfl
      | ok verb =>
          dsimp only
          rw [hshape]
          cases l.shape with
          | plain =>
              dsimp only
              rw [Option.map_some, hplain]
              rfl
          | _ =>
              dsimp only
              by_cases hblock : (! verb.isBlock) = true
              · rw [if_pos hblock, if_pos hblock]
                rfl
              · rw [if_neg hblock, if_neg hblock]
                rfl

theorem Item.step_renumber (block : Option OpenBlock) (l : Line) :
    step (block.map (OpenBlock.renumber f)) (l.renumber f) =
      match step block l with
      | .error e => .error (e.renumber f)
      | .ok (d, next) => .ok (d.map (Directive.renumber f), next.map (OpenBlock.renumber f)) :=
  step_map f (l.renumber_verb f) (l.renumber_shape f) (l.renumber_isClosing f) rfl (fun _ => rfl)
    (fun _ => rfl) block

namespace Directive

theorem addTo_renumber (d : Directive) (m : Manifest) : (d.renumber f).addTo m = d.addTo m :=
  addTo_congr (d.renumber_verb f) (Word.map_ofToken_renumber f d.args) rfl rfl m

end Directive

end GoModules
