import GoModules.Text.Blank

/-!
# Comments

What comments say: that a requirement is indirect, that a module is deprecated, and why a version
was retracted.
-/

namespace GoModules.Comment

/-- A text without the pairs of slashes at its start. -/
def dropSlashes : Text → Text
  | '/' :: '/' :: s => dropSlashes s
  | s => s

def body (comment : Text) : Text :=
  Text.trim (dropSlashes comment)

/-- Whether a comment marks a requirement as indirect. -/
def isIndirect (comment : Text) : Bool :=
  body comment == "indirect".toList || "indirect;".toList.isPrefixOf (body comment)

/-- Reads on after a deprecation message has begun, if it has. A later beginning starts it anew,
other comments continue it, and an empty comment ends it. -/
def continueDeprecation : (message : Option Text) → List Text → Option Text
  | message, [] => message
  | message, comment :: rest =>
      match "Deprecated:".toList.isPrefixOf? (body comment), message with
      | some start, _ => continueDeprecation (some (Text.trim start)) rest
      | none, none => continueDeprecation none rest
      | none, some message =>
          if body comment = [] then some message
          else continueDeprecation (some (message ++ ' ' :: body comment)) rest

/-- The deprecation message that a group of comments holds. -/
def deprecation (comments : List Text) : Option Text :=
  continueDeprecation none comments

/-- The reasons that a group of comments gives, one line for each comment. -/
def rationale (comments : List Text) : Text :=
  Text.lines (comments.map body)

end GoModules.Comment
