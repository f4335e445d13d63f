import GoModules.Text.Basic

/-!
# Module versions

A module version is a semantic version with a leading `v`. The short forms `v1` and `v1.2` stand for
`v1.0.0` and `v1.2.0`. Of the build metadata only the mark `incompatible` means anything, so a
version remembers that mark and forgets every other metadata; what it is written back as is its
canonical form.
-/

namespace GoModules

/-- A module version. An empty pre-release means that there is none. -/
structure Version where
  major : Nat
  minor : Nat := 0
  patch : Nat := 0
  pre : Text := []
  incompatible : Bool := false
deriving DecidableEq, Repr

namespace Version

/-- The characters of pre-release and build identifiers. -/
def isIdentifierChar (c : Char) : Bool :=
  c.isAlphanum || c == '-'

/-- A build identifier: not empty, letters, digits and hyphens. -/
def isBuildIdentifier (s : Text) : Bool :=
  s ≠ [] && s.all isIdentifierChar

/-- A pre-release identifier: if it is a number, it has no superfluous leading zero either. -/
def isPreIdentifier (s : Text) : Bool :=
  isBuildIdentifier s && (! s.all Char.isDigit || s.head? != some '0' || s == ['0'])

def isPreRelease (s : Text) : Bool :=
  (s.splitOn '.').all isPreIdentifier

def isBuild (s : Text) : Bool :=
  (s.splitOn '.').all isBuildIdentifier

/-- The build metadata that is kept. -/
def incompatibleMark : Text :=
  "incompatible".toList

/-- Reads what follows the pre-release of a version: nothing, or a `+` and build metadata. The value
tells whether the metadata is the mark `incompatible`. -/
def readBuild? : Text → Option Bool
  | [] => some false
  | '+' :: build => if isBuild build then some (build == incompatibleMark) else none
  | _ :: _ => none

/-- Reads what follows the three numbers of a version. -/
def readTail? : Text → Option (Text × Bool)
  | '-' :: tail =>
      let (pre, build) := Text.cutAt (· == '+') tail
      if isPreRelease pre then (readBuild? build).map (pre, ·) else none
  | tail => (readBuild? tail).map ([], ·)

/-- Reads a version. Only a version with all three numbers may have a tail. -/
def read? : Text → Option Version
  | 'v' :: s =>
      let (core, tail) := Text.cutAt (fun c => c == '-' || c == '+') s
      match core.splitOn '.', tail with
      | [a], [] => do
          return { major := ← Text.number? a }
      | [a, b], [] => do
          return { major := ← Text.number? a, minor := ← Text.number? b }
      | [a, b, c], tail => do
          let (pre, incompatible) ← readTail? tail
          return ⟨← Text.number? a, ← Text.number? b, ← Text.number? c, pre, incompatible⟩
      | _, _ => none
  | _ => none

/-- The canonical form of a version. -/
def text (v : Version) : Text :=
  'v' :: ['.'].intercalate [Text.decimal v.major, Text.decimal v.minor, Text.decimal v.patch]
    ++ (if v.pre = [] then [] else '-' :: v.pre)
    ++ (if v.incompatible then '+' :: incompatibleMark else [])

def canonical? (s : Text) : Option Text :=
  (read? s).map text

def isCanonical (s : Text) : Bool :=
  canonical? s == some s

/-- Whether a version has the shape of those made up for a commit without a tag: a pre-release of
`v0.0.0`. -/
def isZeroPseudo (v : Version) : Bool :=
  v.major == 0 && v.minor == 0 && v.patch == 0 && v.pre != []

example : canonical? "v1.2".toList = some "v1.2.0".toList := by cbv

example : canonical? "v2.0.0-rc.1+incompatible".toList =
    some "v2.0.0-rc.1+incompatible".toList := by cbv

example : canonical? "v1.2-rc".toList = none := by cbv

end Version

end GoModules
