import GoModules.FileTree.Basic

/-!
# Changing file trees

Making directories, writing files, placing links, removing entries and going elsewhere. A change
that cannot be made has no result.
-/

namespace GoModules

/-- Whether a location is another one or lies below it. -/
def Location.isWithin (l outer : Location) : Bool :=
  outer.names.isSuffixOf l.names

namespace FileSystem

/-- Puts an entry at a location, in place of any other. -/
def put (fs : FileSystem) (l : Location) (e : Entry) : FileSystem :=
  { fs with tree.entries := (l, e) :: fs.tree.entries.filter (·.1 ≠ l) }

/-- Makes one directory unless it is there. -/
def makeDirectory? (fs : FileSystem) (p : FilePath) : Option FileSystem :=
  match fs.find p with
  | .ok (.vacant l) => some (fs.put l .directory)
  | .ok (.directory _) => some fs
  | _ => none

def makeDirectories? (fs : FileSystem) (absolute : Bool) (names : List Name) : Option FileSystem :=
  (List.range names.length).foldlM (fun fs i =>
    fs.makeDirectory? (.ofSegments absolute (names.take (i + 1)))) fs

def makeDirectory (fs : FileSystem) (p : FilePath) : Option FileSystem :=
  fs.makeDirectories? p.isAbsolute p.segments

/-- Writes a file, and makes the directories around it. A special file takes what is written and
does not keep it. -/
def write (fs : FileSystem) (p : FilePath) (data : Bytes) : Option FileSystem := do
  let fs ← fs.makeDirectories? p.isAbsolute p.segments.dropLast
  match fs.find p with
  | .ok (.vacant l) | .ok (.file l _) => return fs.put l (.file data)
  | .ok (.special ..) => return fs
  | _ => none

/-- The location of the entry that the last name of a path stands for, which is not followed if it
is a link. -/
def place? (fs : FileSystem) (p : FilePath) : Option Location :=
  let outer := FilePath.ofSegments p.isAbsolute (p.segments.dropLast ++ [Name.here])
  match fs.find outer, p.segments.getLast? with
  | .ok (.directory ⟨l, 0⟩), some name =>
      if name = Name.here ∨ name = Name.above ∨ 0 ∈ name ∨ FileTree.maxName < name.length then none
      else some (l.child name)
  | _, _ => none

/-- Places a link, to anything that could be a path. -/
def link (fs : FileSystem) (target p : FilePath) : Option FileSystem := do
  let l ← fs.place? p
  if (fs.tree.entry? l).isSome then none
  else if 0 ∈ target.bytes ∨ target.bytes = [] ∨ FileTree.maxPath ≤ target.bytes.length then none
  else fs.put l (.link target)

/-- Removes an entry and everything below it. Who is there is left without a directory. -/
def remove (fs : FileSystem) (p : FilePath) : Option FileSystem := do
  let l ← fs.place? p
  let _ ← fs.tree.entry? l
  let place := fs.place
  return {
    tree.entries := fs.tree.entries.filter (! ·.1.isWithin l)
    place :=
      if place.location.isWithin l then
        ⟨l.parent, place.lost + (place.location.names.length - l.parent.names.length)⟩
      else place }

def enter (fs : FileSystem) (p : FilePath) : Option FileSystem :=
  match fs.find p with
  | .ok (.directory place) => some { fs with place }
  | _ => none

end FileSystem

end GoModules
