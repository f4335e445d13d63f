import GoModules.Text.Basic

/-!
# JSON

Values and their indented text: one member a line, two spaces a level, and nothing inside the
brackets of an empty array or object. The members of an object are written in the order given.
-/

namespace GoModules

inductive Json
  | null
  | bool (b : Bool)
  | str (s : Text)
  | arr (elements : List Json)
  | obj (members : List (Text × Json))

namespace Json

/-- The two-digit hexadecimal form of a control character. -/
def hexByte (n : Nat) : Text :=
  [Nat.digitChar (n / 16), Nat.digitChar (n % 16)]

/-- A character inside a string. -/
def escapeChar (c : Char) : Text :=
  if c = '"' ∨ c = '\\' then ['\\', c]
  else if c = '\n' then ['\\', 'n']
  else if c = '\r' then ['\\', 'r']
  else if c = '\t' then ['\\', 't']
  else if c.toNat = 8 then ['\\', 'b']
  else if c.toNat = 12 then ['\\', 'f']
  else if c.toNat < 0x20 then "\\u00".toList ++ hexByte c.toNat
  else [c]

def quote (s : Text) : Text :=
  '"' :: s.flatMap escapeChar ++ ['"']

/-- The beginning of a line at some depth. -/
def newline (depth : Nat) : Text :=
  '\n' :: List.replicate (2 * depth) ' '

/-- Puts brackets around parts that stand on lines of their own at the next depth. -/
def block (opening closing : Char) (depth : Nat) : List Text → Text
  | [] => [opening, closing]
  | parts =>
      opening :: [','].intercalate (parts.map (newline (depth + 1) ++ ·)) ++ newline depth
        ++ [closing]

mutual

/-- The text of a value that starts at some depth. -/
def render (depth : Nat) : Json → Text
  | .null => "null".toList
  | .bool b => if b then "true".toList else "false".toList
  | .str s => quote s
  | .arr elements => block '[' ']' depth (renderElements (depth + 1) elements)
  | .obj members => block '\x7b' '\x7d' depth (renderMembers (depth + 1) members)

def renderElements (depth : Nat) : List Json → List Text
  | [] => []
  | element :: rest => render depth element :: renderElements depth rest

def renderMembers (depth : Nat) : List (Text × Json) → List Text
  | [] => []
  | (key, value) :: rest =>
      (quote key ++ ": ".toList ++ render depth value) :: renderMembers depth rest

end

/-- The indented text of a value. -/
def text (value : Json) : Text :=
  render 0 value

end Json

end GoModules
