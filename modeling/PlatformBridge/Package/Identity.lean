import PlatformBridge.Json.Reader
import PlatformBridge.Text.Basic

/-!
# Package Identity

The identity of a generated package. A name is an identifier of small letters that is no reserved
word; a version starts with three numbers and may go on with a suffix; a description is one short
line.

The reserved words are those of Dart, built-in identifiers included. They cannot name a package, and
are not used to name a member of a class either.

## Main definitions

* `Dart.reserved`: The reserved words.
* `PackageIdentity`: The identity of a package.
* `nameDefect?`: What is wrong with a name.
* `isVersion`: Whether a text is a version.
* `PackageIdentity.check`: The first thing that is wrong with an identity.
-/

namespace PlatformBridge

namespace Dart

/-- The reserved words, built-in identifiers included. -/
def reserved : List String := [
  "abstract", "as", "assert", "async", "await", "break", "case", "catch", "class", "const",
  "continue", "covariant", "default", "deferred", "do", "dynamic", "else", "enum", "export",
  "extends", "extension", "external", "factory", "false", "final", "finally", "for", "function",
  "get", "hide", "if", "implements", "import", "in", "interface", "is", "late", "library",
  "mixin", "new", "null", "on", "operator", "part", "required", "rethrow", "return", "set",
  "show", "static", "super", "switch", "sync", "this", "throw", "true", "try", "typedef", "var",
  "void", "while", "with", "yield"]

end Dart

/-- The identity of a package. -/
structure PackageIdentity where
  name : String
  description : String
  version : String
  dartSdk : String
  deriving DecidableEq, Repr, Inhabited

/-- What is wrong with the identity of a package. -/
inductive PackageError where
  | invalidName (name reason : String)
  | invalidVersion (version : String)
  | invalidDescription (reason : String)
  deriving DecidableEq, Repr

/-- The message of an error. -/
def PackageError.message : PackageError → String
  | invalidName name reason => "invalid package name `" ++ name ++ "`: " ++ reason
  | invalidVersion version => "invalid package version `" ++ version ++ "`"
  | invalidDescription reason => "invalid package description: " ++ reason

/-- The longest name, in bytes. -/
def maxNameLength : Nat := 64

/-- The longest description, in bytes. -/
def maxDescriptionLength : Nat := 180

/-- Whether a character may stand in a name. -/
def isNameChar (c : Char) : Bool := c.isLower || c.isDigit || c = '_'

/-- What is wrong with a name. -/
def nameDefect? (name : String) : Option String :=
  match name.toList with
  | [] => some "name is empty"
  | first :: rest =>
    if maxNameLength < Text.byteLength (first :: rest) then some "name is too long"
    else if !(first.isLower || first = '_') then
      some "name must start with a lowercase letter or underscore"
    else if !(first :: rest).all isNameChar then
      some "name may contain only lowercase letters, digits, and underscores"
    else if Dart.reserved.contains name then some "name is a Dart reserved word"
    else none

/-- What a suffix of a version starts with. -/
def startsSuffix (c : Char) : Bool := c = '-' || c = '+'

/-- Whether a character may stand in the suffix of a version. -/
def isSuffixChar (c : Char) : Bool := c.isAlphanum || c = '.' || startsSuffix c

/-- Whether a text is a version: three numbers with dots between them, then a suffix of letters,
    digits, dots, hyphens and plus signs perhaps, which ends in a letter or digit. -/
def isVersion (version : List Char) : Bool :=
  let core := version.takeWhile fun c => !startsSuffix c
  let suffix := version.dropWhile fun c => !startsSuffix c
  let parts := Text.split (· = '.') core
  parts.length = 3
    && parts.all (fun part => !part.isEmpty && part.all Char.isDigit)
    && suffix.all isSuffixChar
    && !version.getLast?.any fun c => startsSuffix c || c = '.'

/-- Checks a name. -/
def checkName (name : String) : Except PackageError Unit :=
  match nameDefect? name with
  | some reason => .error (.invalidName name reason)
  | none => .ok ()

namespace PackageIdentity

/-- The identity of a package with everything but its name left at its default. -/
def ofName (name : String) : PackageIdentity :=
  { name, description := "Flutnet platform bridge", version := "1.0.0"
    dartSdk := ">=3.0.0 <4.0.0" }

/-- Checks an identity: its name, its version, its description. -/
def check (p : PackageIdentity) : Except PackageError Unit := do
  checkName p.name
  if !isVersion p.version.toList then
    throw (.invalidVersion p.version)
  if maxDescriptionLength < Text.byteLength p.description.toList then
    throw (.invalidDescription "description exceeds 180 characters")
  if p.description.toList.any fun c => c = '\n' || c = '\r' then
    throw (.invalidDescription "description must be a single line")

/-- The document of an identity. -/
def toJson (p : PackageIdentity) : Json :=
  .object [("name", .string p.name), ("description", .string p.description),
    ("version", .string p.version), ("dart_sdk", .string p.dartSdk)]

end PackageIdentity

end PlatformBridge
