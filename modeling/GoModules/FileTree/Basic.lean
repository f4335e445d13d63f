import GoModules.Disk.Basic

/-!
# File trees

A tree of directories, files, special files and symbolic links, and how a path is followed in it.
Unlike cleaning a path, following it meets the links: the directory above is the one that holds the
directory that was reached, and every name before the last one must be that of a directory.
-/

namespace GoModules

/-- What a name in a directory stands for. Of a special file is known what reading it gives. -/
inductive Entry
  | directory
  | file (data : Bytes)
  | special (contents : IoError ⊕ Bytes)
  | link (target : FilePath)
deriving DecidableEq, Repr

/-- The entries below the root, by their locations. -/
structure FileTree where
  entries : List (Location × Entry) := []
deriving DecidableEq, Repr

/-- A directory where one can be. It may have been removed meanwhile: then it is known by the
innermost directory around it that is still there, and by how many levels below that one were
lost. -/
structure Place where
  location : Location
  lost : Nat := 0
deriving DecidableEq, Repr

/-- The directory above a place. -/
def Place.parent : Place → Place
  | ⟨l, 0⟩ => ⟨l.parent, 0⟩
  | ⟨l, lost + 1⟩ => ⟨l, lost⟩

/-- What is at the end of a path. Only the last name of a path may be vacant. -/
inductive Found
  | directory (p : Place)
  | file (l : Location) (data : Bytes)
  | special (l : Location) (contents : IoError ⊕ Bytes)
  | vacant (l : Location)
deriving DecidableEq, Repr

/-- The names to follow. A separator at the end asks for a directory, as the name of a directory for
itself does. -/
def FilePath.steps (p : FilePath) : List Name :=
  if p.bytes.getLast? = some slash then p.segments ++ [Name.here] else p.segments

namespace FileTree

/-- The longest name that a directory can hold. -/
def maxName : Nat := 255

/-- The shortest path that is too long. -/
def maxPath : Nat := 4096

/-- How many links may be met along one path. -/
def maxLinks : Nat := 40

/-- The entry at a location; the root is always there. -/
def entry? (t : FileTree) (l : Location) : Option Entry :=
  if l = .root then some .directory else t.entries.lookup l

/-- Follows names from a place, up to the first link; `followLink` goes on from there. -/
def walkWith (t : FileTree) (followLink : Place → List Name → Except IoError Found) (p : Place) :
    List Name → Except IoError Found
  | [] => .ok (.directory p)
  | name :: rest =>
      if name = Name.here then walkWith t followLink p rest
      else if name = Name.above then walkWith t followLink p.parent rest
      else if p.lost ≠ 0 then .error .noEntry
      else if maxName < name.length then .error .nameTooLong
      else
        match t.entry? (p.location.child name) with
        | none => if rest = [] then .ok (.vacant (p.location.child name)) else .error .noEntry
        | some .directory => walkWith t followLink ⟨p.location.child name, 0⟩ rest
        | some (.file data) =>
            if rest = [] then .ok (.file (p.location.child name) data) else .error .notDirectory
        | some (.special contents) =>
            if rest = [] then .ok (.special (p.location.child name) contents)
            else .error .notDirectory
        | some (.link target) =>
            followLink (if target.isAbsolute then ⟨.root, 0⟩ else p) (target.steps ++ rest)

/-- Follows names from a place, meeting at most `links` links. -/
def walk (t : FileTree) : (links : Nat) → Place → List Name → Except IoError Found
  | 0 => t.walkWith fun _ _ => .error .linkLoop
  | links + 1 => t.walkWith (t.walk links)

end FileTree

/-- A file tree and a working directory in it. -/
structure FileSystem where
  tree : FileTree := {}
  place : Place := ⟨.root, 0⟩
deriving DecidableEq, Repr

namespace FileSystem

/-- Follows a path. -/
def find (fs : FileSystem) (p : FilePath) : Except IoError Found :=
  if 0 ∈ p.bytes then .error .nulByte
  else if p.bytes = [] then .error .noEntry
  else if FileTree.maxPath ≤ p.bytes.length then .error .nameTooLong
  else fs.tree.walk FileTree.maxLinks (if p.isAbsolute then ⟨.root, 0⟩ else fs.place) p.steps

/-- What a path leads to. -/
def stat (fs : FileSystem) (p : FilePath) : Except IoError Kind := do
  match ← fs.find p with
  | .directory _ => return .directory
  | .file .. => return .file
  | .special .. => return .special
  | .vacant _ => throw .noEntry

/-- The contents of what a path leads to. -/
def read (fs : FileSystem) (p : FilePath) : Except IoError Bytes := do
  match ← fs.find p with
  | .directory _ => throw .isDirectory
  | .file _ data => return data
  | .special _ contents => contents.elim throw pure
  | .vacant _ => throw .noEntry

/-- What can be observed of a file system. A working directory that was removed cannot be looked
up. -/
def disk (fs : FileSystem) : Disk where
  workingDirectory := if fs.place.lost = 0 then .ok fs.place.location else .error .noEntry
  stat := fs.stat
  read := fs.read

end FileSystem

end GoModules
