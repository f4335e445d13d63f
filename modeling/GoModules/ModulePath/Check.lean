import GoModules.ModulePath.Fault
import GoModules.ModulePath.Major
import GoModules.Text.Alphabetic

/-!
# Valid module paths

A module path is made of elements separated by slashes, the first of which looks like a host name.
An element must be usable as the name of a directory on every system. The same rules, with another
set of characters, hold for a version that names a directory.
-/

namespace GoModules.ModulePath

/-- Names that are reserved whatever extension follows them. -/
def reservedNames : List Text :=
  ["CON", "PRN", "AUX", "NUL", "COM1", "COM2", "COM3", "COM4", "COM5", "COM6", "COM7", "COM8",
   "COM9", "LPT1", "LPT2", "LPT3", "LPT4", "LPT5", "LPT6", "LPT7", "LPT8", "LPT9"].map
    String.toList

/-- Whether a name is reserved; case does not matter. -/
def isReserved (name : Text) : Bool :=
  reservedNames.contains (name.map Char.toUpper)

def isPathChar (c : Char) : Bool :=
  c.isAlphanum || ['-', '.', '_', '~'].contains c

/-- The characters of file names: letters of every script, and some of ASCII. -/
def isFileChar (c : Char) : Bool :=
  if c.toNat < 0x80 then
    c.isAlphanum ||
      ['!', '#', '$', '%', '&', '(', ')', '+', ',', '-', '.', '=', '@', '[', ']', '^', '_',
       '\x7b', '\x7d', '~', ' '].contains c
  else
    Text.isAlphabetic c

def isHostChar (c : Char) : Bool :=
  c.isLower || c.isDigit || c == '-' || c == '.'

/-- The part of an element before its first dot. -/
def stem (element : Text) : Text :=
  element.takeWhile (· != '.')

/-- Whether a name ends in a tilde and digits, as the short names made up for long ones do. -/
def isShortName (name : Text) : Bool :=
  let (front, digits) := cutSuffix Char.isDigit name
  digits ≠ [] && front.getLast? == some '~'

/-- Checks what an element of a path and the name of a file have in common. -/
def checkName (allowed : Char → Bool) (name : Text) : Except Fault Unit := do
  if name.getLast? = some '.' then
    throw .trailingDot
  if let some c := name.find? (! allowed ·) then
    throw (.invalidChar c)
  if isReserved (stem name) then
    throw (.reservedName (stem name))

/-- Refuses what is no name at all. -/
def checkSome (name : Text) : Except Fault Unit := do
  if name = [] then
    throw .emptyElement
  if name.all (· == '.') then
    throw (.onlyDots name)

def checkElement (element : Text) : Except Fault Unit := do
  checkSome element
  if element.head? = some '.' then
    throw .leadingDot
  checkName isPathChar element
  if isShortName (stem element) then
    throw .shortName

def checkFileName (name : Text) : Except Fault Unit := do
  checkSome name
  checkName isFileChar name

def hasDoubleSlash : Text → Bool
  | '/' :: '/' :: _ => true
  | _ :: s => hasDoubleSlash s
  | [] => false

def elements (path : Text) : List Text :=
  path.splitOn '/'

/-- Checks the first element of a path beyond what holds for all. -/
def checkHost (host : Text) : Except Fault Unit := do
  if '.' ∉ host then
    throw .missingDot
  if let some c := host.find? (! isHostChar ·) then
    throw (.invalidFirstChar c)

def check (path : Text) : Except Fault Unit := do
  if path = [] then
    throw .empty
  if path.head? = some '-' then
    throw .leadingDash
  if hasDoubleSlash path then
    throw .doubleSlash
  if path.getLast? = some '/' then
    throw .trailingSlash
  (elements path).forM checkElement
  checkHost ((elements path).headD [])
  if (splitMajor? path).isNone then
    throw .invalidMajor

/-- Checks a version as the name of a directory. The mark of escapes must not occur in it. -/
def checkVersion (version : Text) : Except Fault Unit := do
  checkFileName version
  if '!' ∈ version then
    throw .escapeMark

/-- Whether the target of a replacement is a directory rather than a module path: it is rooted, or
starts with the current or the parent directory, with slashes or with backslashes. -/
def isDirectory (target : Text) : Bool :=
  target == ['.'] || target == ['.', '.'] ||
    ["./", ".\\", "../", "..\\", "/", "\\"].any (·.toList.isPrefixOf target) ||
    match target with
    | drive :: ':' :: _ => drive.isAlpha
    | _ => false

end GoModules.ModulePath
