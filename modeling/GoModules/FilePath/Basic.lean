import GoModules.Text.Utf8

/-!
# File paths

A path is any sequence of bytes, of which only the slash means something. Paths are joined and shown
as they are written; what they lead to is a matter of the disk.
-/

namespace GoModules

/-- A path as it is written. -/
structure FilePath where
  bytes : Bytes
deriving DecidableEq, Repr

/-- The name of an entry of a directory. -/
abbrev Name := Bytes

namespace Name

/-- The name by which a directory knows itself. -/
def here : Name := [0x2e]

/-- The name by which a directory knows the one that holds it. -/
def above : Name := [0x2e, 0x2e]

end Name

namespace FilePath

def slash : UInt8 := 0x2f

def ofText (s : Text) : FilePath :=
  ⟨Utf8.encode s⟩

/-- A path as it is shown. -/
def display (p : FilePath) : Text :=
  Utf8.decodeLossy p.bytes

def isAbsolute (p : FilePath) : Bool :=
  p.bytes.head? == some slash

/-- The path `q` as seen from `p`. Neither is changed: a separator is put between them unless one is
there or `p` is empty, and an absolute `q` stands for itself. -/
def join (p q : FilePath) : FilePath :=
  if q.isAbsolute then q
  else if p.bytes = [] ∨ p.bytes.getLast? = some slash then ⟨p.bytes ++ q.bytes⟩
  else ⟨p.bytes ++ slash :: q.bytes⟩

/-- The names between the separators of a path. -/
def segments (p : FilePath) : List Name :=
  (p.bytes.splitOn slash).filter (· ≠ [])

/-- The path that leads along names, from the root or from the current directory. -/
def ofSegments (absolute : Bool) (segments : List Name) : FilePath :=
  ⟨(if absolute then [slash] else []) ++ [slash].intercalate segments⟩

end FilePath

/-- A directory by its names from the root, the innermost one first. -/
structure Location where
  names : List Name
deriving DecidableEq, Repr

namespace Location

def root : Location := ⟨[]⟩

def child (l : Location) (name : Name) : Location :=
  ⟨name :: l.names⟩

/-- The directory that holds another; the root holds itself. -/
def parent (l : Location) : Location :=
  ⟨l.names.tail⟩

def path (l : Location) : FilePath :=
  .ofSegments true l.names.reverse

/-- Goes one name further, without looking at the disk. -/
def step (l : Location) (name : Name) : Location :=
  if name = Name.here then l else if name = Name.above then l.parent else l.child name

/-- The location that a path leads to from a directory, without looking at the disk. -/
def resolve (l : Location) (p : FilePath) : Location :=
  p.segments.foldl step (if p.isAbsolute then root else l)

example : (Location.root.resolve (.ofText "/a/b/../c/./d".toList)).path =
    .ofText "/a/c/d".toList := by decide

end Location

end GoModules
