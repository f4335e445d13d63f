import GoModules.Manifest.Fault
import GoModules.Manifest.Line

/-!
# Items

The structure of a manifest: directives one by one, whether they stand on lines of their own or in
the block of a verb. Where the structure breaks, the last item is the fault.
-/

namespace GoModules

/-- A directive: the verb that holds for it, its arguments, and its line. -/
structure Directive where
  verb : Verb
  args : List Token
  line : Line
deriving DecidableEq, Repr

/-- A directive, or the place where the structure of a manifest breaks. -/
inductive Item
  | directive (d : Directive)
  | broken (e : Manifest.Error)
deriving DecidableEq, Repr

def Line.verb (l : Line) : Except Manifest.Fault Verb :=
  if l.first.kind ≠ .bare then .error (.unexpectedToken l.first.kind)
  else
    match Verb.ofText? l.first.text with
    | some verb => .ok verb
    | none => .error (.unknownDirective l.first.text)

/-- What a line at the top level is, from the kinds of the tokens after its verb. -/
inductive Line.Shape
  | emptyBlock
  | opening
  | plain
deriving DecidableEq, Repr

/-- What a line at the top level is. -/
def Line.shape (l : Line) : Line.Shape :=
  match l.others.map Token.kind with
  | [.openParen, .closeParen] => .emptyBlock
  | [.openParen] => .opening
  | _ => .plain

def Line.isClosing (l : Line) : Bool :=
  l.tokens.map Token.kind == [.closeParen]

/-- A block that has been opened: its verb, and the line on which it was opened. -/
structure OpenBlock where
  verb : Verb
  line : Nat
deriving DecidableEq, Repr

namespace Item

/-- The items of lines, the first of which may stand in a block. -/
def ofLines : (block : Option OpenBlock) → List Line → List Item
  | none, [] => []
  | some block, [] => [.broken ⟨block.line, .unterminatedBlock block.verb⟩]
  | some block, l :: lines =>
      if l.isClosing then ofLines none lines
      else .directive ⟨block.verb, l.tokens, l⟩ :: ofLines (some block) lines
  | none, l :: lines =>
      match l.verb with
      | .error fault => [.broken ⟨l.number, fault⟩]
      | .ok verb =>
          match l.shape with
          | .plain => .directive ⟨verb, l.others, l⟩ :: ofLines none lines
          | shape =>
              if ! verb.isBlock then [.broken ⟨l.number, .notABlock verb⟩]
              else ofLines (if shape = .opening then some ⟨verb, l.number⟩ else none) lines

end Item

end GoModules
