import GoModules.Manifest.Fault

/-!
# Words

The arguments of directives. An argument is spelled as a bare word, as a raw string, or as a string
in double quotes with escapes.
-/

namespace GoModules.Word

/-- The character that an escape stands for, given the character after the backslash. -/
def unescape? : Char → Option Char
  | '\\' => some '\\'
  | '"' => some '"'
  | '\'' => some '\''
  | 'n' => some '\n'
  | 't' => some '\t'
  | 'r' => some '\r'
  | _ => none

/-- Reads the inside of a string in double quotes. -/
def unquote? : Text → Option Text
  | [] => some []
  | '\\' :: [] => none
  | '\\' :: c :: s => do return (← unescape? c) :: (← unquote? s)
  | c :: s => (unquote? s).map (c :: ·)

/-- A text without its first and its last character. -/
def inside (s : Text) : Text :=
  s.tail.dropLast

/-- The word that a token spells. -/
def ofToken (token : Token) : Except Manifest.Fault Text :=
  match token.kind with
  | .bare => .ok token.text
  | .raw => .ok (inside token.text)
  | .quoted =>
      match unquote? (inside token.text) with
      | some word => .ok word
      | none => .error (.invalidQuoted token.text)
  | kind => .error (.unexpectedToken kind)

def ofTokens (tokens : List Token) : Except Manifest.Fault (List Text) :=
  tokens.mapM ofToken

end GoModules.Word
