import GoModules.Manifest.Token

/-!
# Lines

The tokens of one line that are not comments, together with the comments that belong to them: the
one at the end of the line, and those that stand alone on the lines directly above. A blank line
separates a comment from what follows it.
-/

namespace GoModules

/-- A line with at least one token that is no comment. -/
structure Line where
  first : Token
  others : List Token := []
  suffix : Option Text := none
  before : List Text := []
deriving DecidableEq, Repr

namespace Line

def tokens (l : Line) : List Token :=
  l.first :: l.others

def number (l : Line) : Nat :=
  l.first.line

/-- The comments of a line, in the order in which they stand. -/
def comments (l : Line) : List Text :=
  l.before ++ l.suffix.toList

/-- The comment among the tokens of a physical line. -/
def comment? (tokens : List Token) : Option Text :=
  (tokens.find? (·.kind = .comment)).map (·.text)

/-- Collects lines out of physical lines. The comments `pending` stand directly above the first. -/
def collect (pending : List Text) : List (List Token) → List Line
  | [] => []
  | tokens :: rest =>
      match tokens.filter (·.kind ≠ .comment), comment? tokens with
      | [], none => collect [] rest
      | [], some comment => collect (pending ++ [comment]) rest
      | first :: others, suffix => ⟨first, others, suffix, pending⟩ :: collect [] rest

def ofTokens (tokens : List Token) : List Line :=
  collect [] (tokens.splitOnP (·.kind = .newline))

end Line

end GoModules
