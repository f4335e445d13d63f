import GoModules.Manifest.Basic
import GoModules.Manifest.Comment
import GoModules.Manifest.Item
import GoModules.Manifest.Word
import GoModules.ModulePath.Check
import GoModules.Version.Release

/-!
# Directives

What each directive adds to a manifest, and when it is refused.
-/

namespace GoModules

open Manifest (Fault VersionFault)

/-- Checks that a version agrees with the major-version suffix of a module path. -/
def Version.checkMajor (v : Version) (suffix : Text) : Except VersionFault Unit :=
  let suffix := if ".v".toList.isPrefixOf suffix then (ModulePath.cutUnstable suffix).1 else suffix
  if v.isZeroPseudo ∧ suffix = ".v1".toList then .ok ()
  else if suffix = [] then
    if v.major ≤ 1 ∨ v.incompatible then .ok () else .error (.notFirstMajors v.major)
  else if suffix.tail = 'v' :: Text.decimal v.major then .ok ()
  else .error (.otherMajor suffix.tail v.major)

namespace Directive

def moduleVersion (path version : Text) : Except Fault Version :=
  match Version.read? version, ModulePath.splitMajor? path with
  | none, _ => .error (.invalidVersion path version .malformed)
  | some _, none => .error (.invalidModulePath path)
  | some v, some (_, suffix) => do
      (v.checkMajor suffix).mapError (.invalidVersion path version)
      return v

def substitute (path : Text) (version : Option Text) : Except Fault Substitute :=
  match version, ModulePath.isDirectory path with
  | none, true => .ok (.directory path)
  | none, false =>
      .error (.invalidSubstitute (if '@' ∈ path then .gluedVersion else .missingVersion))
  | some _, true => .error (.invalidSubstitute (.directoryVersion path))
  | some version, false => do
      return .module path (← moduleVersion path version)

/-- A path and perhaps a version: one or two words. -/
def pathAndVersion? (words : List Text) : Option (Text × Option Text) :=
  match words with
  | [path] => some (path, none)
  | [path, version] => some (path, some version)
  | _ => none

/-- Reads the arguments of a replacement: one or two words on both sides of the first arrow. -/
def replacement (args : List Token) : Except Fault Replacement := do
  let old := args.takeWhile (·.kind ≠ .arrow)
  let new := (args.dropWhile (·.kind ≠ .arrow)).tail
  if old.length ∉ [1, 2] ∨ new.length ∉ [1, 2] then
    throw (.usage .replace)
  let old ← Word.ofTokens old
  let new ← Word.ofTokens new
  match pathAndVersion? old, pathAndVersion? new with
  | some (path, version), some (newPath, newVersion) =>
      if (ModulePath.splitMajor? path).isNone then
        throw (.invalidModulePath path)
      let version ← version.mapM (moduleVersion path)
      return ⟨path, version, ← substitute newPath newVersion⟩
  | _, _ => throw (.usage .replace)

def bound (token : Token) : Except Fault Version := do
  let word ← Word.ofToken token
  match Version.read? word with
  | some v => return v
  | none => throw (.invalidVersion Verb.retract.text word .malformed)

/-- Reads the arguments of a retraction: one version, or an interval in brackets. -/
def bounds (args : List Token) : Except Fault (Version × Version) :=
  match args with
  | [v] =>
      if v.kind.isWord then do
        let v ← bound v
        return (v, v)
      else .error (.usage .retract)
  | [opening, low, comma, high, closing] =>
      if opening.kind = .openBracket ∧ low.kind.isWord ∧ comma.kind = .comma ∧ high.kind.isWord ∧
          closing.kind = .closeBracket then do
        return (← bound low, ← bound high)
      else .error (.usage .retract)
  | _ => .error (.usage .retract)

/-- Reads a setting. Its key is not empty, and neither part holds a quote or a comma. -/
def setting? (s : Text) : Option Setting :=
  match Text.cutAt (· == '=') s with
  | (key, '=' :: value) =>
      if key = [] ∨ s.any ['"', '\x60', '\'', ','].contains then none else some ⟨key, value⟩
  | _ => none

/-- Reads the only argument of a directive. -/
def word (verb : Verb) (words : List Text) : Except Fault Text :=
  match words with
  | [word] => .ok word
  | _ => .error (.usage verb)

/-- Reads the two arguments of a directive about one version of a module. -/
def versioned (verb : Verb) (words : List Text) : Except Fault (Text × Version) :=
  match words with
  | [path, version] => do return (path, ← moduleVersion path version)
  | _ => .error (.usage verb)

/-- Adds what a directive declares to a manifest. -/
def addTo (m : Manifest) (d : Directive) : Except Fault Manifest := do
  match d.verb with
  | .module =>
      let words ← Word.ofTokens d.args
      if m.module.isSome then
        throw (.repeated .module)
      let path ← word .module words
      return { m with module := some ⟨path, Comment.deprecation d.line.comments⟩ }
  | .go =>
      let words ← Word.ofTokens d.args
      if m.go.isSome then
        throw (.repeated .go)
      let version ← word .go words
      if ! Release.isLanguage version then
        throw (.invalidGoVersion version)
      return { m with go := some version }
  | .toolchain =>
      let words ← Word.ofTokens d.args
      if m.toolchain.isSome then
        throw (.repeated .toolchain)
      let name ← word .toolchain words
      if ! Release.isToolchain name then
        throw (.invalidToolchain name)
      return { m with toolchain := some name }
  | .require =>
      let (path, version) ← versioned .require (← Word.ofTokens d.args)
      if m.require.any (·.path = path) then
        throw (.duplicateRequire path)
      let indirect := d.line.suffix.any Comment.isIndirect
      return { m with require := m.require ++ [⟨path, version, indirect⟩] }
  | .exclude =>
      let (path, version) ← versioned .exclude (← Word.ofTokens d.args)
      return { m with exclude := m.exclude ++ [⟨path, version⟩] }
  | .replace =>
      return { m with replace := m.replace ++ [← replacement d.args] }
  | .retract =>
      let (low, high) ← bounds d.args
      return { m with retract := m.retract ++ [⟨low, high, Comment.rationale d.line.comments⟩] }
  | .godebug =>
      let s ← word .godebug (← Word.ofTokens d.args)
      match setting? s with
      | some setting => return { m with godebug := m.godebug ++ [setting] }
      | none => throw (.invalidGodebug s)
  | .tool =>
      return { m with tool := m.tool ++ [← word .tool (← Word.ofTokens d.args)] }
  | .ignore =>
      return { m with ignore := m.ignore ++ [← word .ignore (← Word.ofTokens d.args)] }

end Directive

end GoModules
