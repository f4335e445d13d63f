import GoModules.Manifest.Token
import GoModules.Manifest.Verb

/-!
# Faults of manifests

Why a text is no manifest. A fault is reported with the line on which it was met.
-/

namespace GoModules

namespace Manifest

/-- What is wrong with a version beside a module path. -/
inductive VersionFault
  | malformed
  | notFirstMajors (major : Nat)
  | otherMajor (expected : Text) (major : Nat)
deriving DecidableEq, Repr

def VersionFault.message : VersionFault → Text
  | .malformed => "must be of the form v1.2.3".toList
  | .notFirstMajors major => "should be v0 or v1, not v".toList ++ Text.decimal major
  | .otherMajor expected major =>
      "should be ".toList ++ expected ++ ", not v".toList ++ Text.decimal major

/-- What is wrong with the substitute of a replacement. -/
inductive SubstituteFault
  | gluedVersion
  | missingVersion
  | directoryVersion (path : Text)
deriving DecidableEq, Repr

def SubstituteFault.message : SubstituteFault → Text
  | .gluedVersion =>
      "replacement module must match format 'path version', not 'path@version'".toList
  | .missingVersion =>
      ("replacement module without version must be directory path " ++
        "(rooted or starting with . or ..)").toList
  | .directoryVersion path =>
      "replacement module directory path ".toList ++ Text.quoted path ++
        " cannot have version".toList

inductive Fault
  | invalidUtf8
  | lexical (fault : Token.Fault)
  | unexpectedToken (kind : Token.Kind)
  | unknownDirective (verb : Text)
  | notABlock (verb : Verb)
  | unterminatedBlock (verb : Verb)
  | usage (verb : Verb)
  | repeated (verb : Verb)
  | invalidQuoted (token : Text)
  | invalidGoVersion (version : Text)
  | invalidToolchain (name : Text)
  | invalidGodebug (setting : Text)
  | invalidModulePath (path : Text)
  | invalidVersion (path version : Text) (fault : VersionFault)
  | duplicateRequire (path : Text)
  | invalidSubstitute (fault : SubstituteFault)
deriving DecidableEq, Repr

def Fault.message : Fault → Text
  | .invalidUtf8 => "invalid UTF-8".toList
  | .lexical fault => fault.message
  | .unexpectedToken kind => "unexpected ".toList ++ kind.name
  | .unknownDirective verb => "unknown directive: ".toList ++ verb
  | .notABlock verb => verb.text ++ " directive cannot be used as a block".toList
  | .unterminatedBlock verb => "unterminated ".toList ++ verb.text ++ " block".toList
  | .usage verb => "usage: ".toList ++ verb.usage
  | .repeated verb => "repeated ".toList ++ verb.text ++ " statement".toList
  | .invalidQuoted token => "invalid quoted string: ".toList ++ token
  | .invalidGoVersion version =>
      "invalid go version '".toList ++ version ++ "': must match format 1.23.0".toList
  | .invalidToolchain name =>
      "invalid toolchain version '".toList ++ name ++
        "': must match format go1.23.0 or default".toList
  | .invalidGodebug setting => "invalid key=value syntax '".toList ++ setting ++ "'".toList
  | .invalidModulePath path => path ++ ": invalid module path".toList
  | .invalidVersion path version fault =>
      path ++ '@' :: version ++ ": invalid version: ".toList ++ fault.message
  | .duplicateRequire path => path ++ ": require listed more than once".toList
  | .invalidSubstitute fault => fault.message

/-- A fault with the line on which it was met. -/
structure Error where
  line : Nat
  fault : Fault
deriving DecidableEq, Repr

def Error.message (label : Text) (e : Error) : Text :=
  label ++ ':' :: Text.decimal e.line ++ ": ".toList ++ e.fault.message

end Manifest

end GoModules
