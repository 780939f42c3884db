/-!
# Generation Errors

Why a package cannot be generated from a contract: two names of the contract are the same once they
are spelled for one of the two sides, or a path is no good.

## Main definitions

* `Side`: The two sides of the bridge.
* `GenerationError`: The causes.
* `firstRepeated?`, `requireDistinct`: Names that have to be distinct.
-/

namespace PlatformBridge

/-- The sides of the bridge. -/
inductive Side where
  | dart
  | native
  deriving DecidableEq, Repr, Inhabited

/-- The name of a side in a manifest. -/
def Side.text : Side → String
  | dart => "dart"
  | native => "native"

/-- The sides by their names. -/
def Side.names : List (String × Side) := [("dart", dart), ("native", native)]

/-- Why a package cannot be generated. -/
inductive GenerationError where
  /-- Two members of a scope are spelled alike on a side. -/
  | repeatedMember (side : Side) (scope name : String)
  | repeatedPath (path : String)
  | blankPath
  | absolutePath (path : String)
  | unsafePath (path : String)
  deriving DecidableEq, Repr

/-- The message of an error. -/
def GenerationError.message : GenerationError → String
  | repeatedMember .dart scope name =>
    scope ++ " renders two members as `" ++ name ++ "` in Dart"
  | repeatedMember .native scope name =>
    scope ++ " renders two members as `" ++ name ++ "` in Rust"
  | repeatedPath path => "duplicate artifact path: " ++ path
  | blankPath => "artifact path is empty"
  | absolutePath path => "artifact path must be relative: " ++ path
  | unsafePath path => "artifact path contains invalid component: " ++ path

/-- The first name that is among those before it, some of which are given. -/
def firstRepeated? (seen : List String) : List String → Option String
  | [] => none
  | name :: rest =>
    if seen.contains name then some name else firstRepeated? (name :: seen) rest

/-- Names of one scope that have to be distinct. -/
def requireDistinct (side : Side) (scope : String) (names : List String) :
    Except GenerationError Unit :=
  match firstRepeated? [] names with
  | some name => .error (.repeatedMember side scope name)
  | none => .ok ()

/-- The text of a file: its header, then lines, each with its line break. -/
def fileText (header : String) (lines : List String) : String :=
  header ++ String.join (lines.map (· ++ "\n"))

end PlatformBridge
