import GoModules.Manifest.Basic

/-!
# Reports

What the program prints: the contents of a manifest in short, and an error with what it comes from.
-/

namespace GoModules.CommandLine

/-- Indents every line of a text but the first. -/
def indent (width : Nat) (s : Text) : Text :=
  s.flatMap fun c => if c = '\n' then '\n' :: List.replicate width ' ' else [c]

/-- A number in at least `width` columns. -/
def padded (width n : Nat) : Text :=
  List.replicate (width - (Text.decimal n).length) ' ' ++ Text.decimal n

/-- One of several causes. -/
def numberedCause (cause : Text) (n : Nat) : Text :=
  padded 5 n ++ ": ".toList ++ indent 7 cause

/-- Causes, the outermost first. A single one has no number. -/
def causes : List Text → List Text
  | [cause] => [List.replicate 4 ' ' ++ indent 4 cause]
  | several => several.zipIdx.map fun (cause, n) => numberedCause cause n

/-- What the program failed to do, and why. -/
def errorReport (failure : Text) (why : List Text) : Text :=
  Text.lines ([("Error: ".toList ++ failure), [], "Caused by:".toList] ++ causes why) ++ ['\n']

/-- A module path with its version, if it has one. -/
def withVersion (path : Text) (version : Option Version) : Text :=
  path ++ (version.map (' ' :: ·.text)).getD []

def requirementLine (r : Requirement) : Text :=
  "require ".toList ++ withVersion r.path r.version ++
    if r.indirect then " (indirect)".toList else []

def replacementLine (r : Replacement) : Text :=
  "replace ".toList ++ withVersion r.path r.version ++ " => ".toList ++
    withVersion r.substitute.path r.substitute.version?

def moduleLines (m : ModuleDecl) : List Text :=
  ("module ".toList ++ m.path) ::
    (m.deprecated.map ("  deprecated: ".toList ++ ·)).toList

/-- The contents of a manifest in short, line by line. -/
def summary (m : Manifest) : List Text :=
  (m.module.map moduleLines).getD [] ++
    (m.go.map ("go ".toList ++ ·)).toList ++
    (m.toolchain.map ("toolchain ".toList ++ ·)).toList ++
    m.require.map requirementLine ++ m.replace.map replacementLine

end GoModules.CommandLine
