import PlatformBridge.Package.Identity
import PlatformBridge.Toml.Parser

/-!
# Settings

What can be set in the settings file of the tool: the identity of the package, where it is written
to, and how much is logged. A document with a key that is not known is refused. A table may be given
as an array of the values of its keys, in order; values past the last key are passed over.

How much is logged can be asked for in three places. The level comes from the command line if it is
given there, else from the environment if it is set there to more than blanks, else from the
settings.

## Main definitions

* `SettingsError`: Why settings cannot be used.
* `LogLevel`, `LogLevel.ofText`: Levels and their names.
* `LevelOrigin`, `chooseLevel`: Where the level comes from.
* `Settings`: The settings.
* `PackageSettings.identity`: The identity of the package.
* `OutputSettings.directory`: Where the package is written to.
* `Settings.parse`: The settings in a text.
-/

namespace PlatformBridge

/-- Why settings cannot be used. -/
inductive SettingsError where
  | unreadable (reason : String)
  | malformed
  | invalid (reason : String)
  deriving DecidableEq, Repr

/-- The message of an error. -/
def SettingsError.message : SettingsError → String
  | unreadable reason => "config io error: " ++ reason
  | malformed => "config parse error: not a settings document"
  | invalid reason => "invalid config: " ++ reason

/-- How much is logged. -/
inductive LogLevel where
  | error
  | warn
  | info
  | debug
  | trace
  deriving DecidableEq, Repr, Inhabited

namespace LogLevel

/-- The name of a level. -/
def text : LogLevel → String
  | error => "error"
  | warn => "warn"
  | info => "info"
  | debug => "debug"
  | trace => "trace"

/-- Every level. -/
def all : List LogLevel := [error, warn, info, debug, trace]

/-- The level of exactly a name. -/
def ofName? (name : String) : Option LogLevel := all.find? fun l => l.text = name

/-- The level that somebody asks for, in letters of any case and with blanks around it. -/
def ofText (value : String) : Except SettingsError LogLevel :=
  let name := String.ofList ((Text.trim value.toList).map Char.toLower)
  match if name = "warning" then some warn else ofName? name with
  | some level => .ok level
  | none => .error (.invalid ("unknown log level `" ++ value ++ "`"))

end LogLevel

/-- Where the level comes from. -/
inductive LevelOrigin where
  | flag
  | environment
  | config
  deriving DecidableEq, Repr

/-- The level that counts with its source, or the source of a level that is none. -/
def chooseLevel (flag environment : Option String) (configured : LogLevel) :
    Except (LevelOrigin × SettingsError) (LogLevel × LevelOrigin) :=
  match flag, environment.filter fun v => !Text.isBlank v with
  | some value, _ =>
    ((LogLevel.ofText value).mapError fun e => (.flag, e)).map fun l => (l, .flag)
  | none, some value =>
    ((LogLevel.ofText value).mapError fun e => (.environment, e)).map fun l => (l, .environment)
  | none, none => .ok (configured, .config)

/-- The longest path, in bytes. -/
def maxPathLength : Nat := 4096

/-- The longest part of a path, in bytes. -/
def maxPathPartLength : Nat := 255

/-- The longest version constraint, in bytes. -/
def maxConstraintLength : Nat := 64

/-- What is set about the identity of the package. -/
structure PackageSettings where
  name : Option String
  description : Option String
  version : Option String
  dartSdk : Option String
  deriving DecidableEq, Repr, Inhabited

/-- What is set about the output. -/
structure OutputSettings where
  dir : Option String
  overwrite : Bool
  deriving DecidableEq, Repr, Inhabited

/-- The settings. -/
structure Settings where
  package : PackageSettings
  output : OutputSettings
  level : LogLevel
  deriving DecidableEq, Repr, Inhabited

/-- Whether some part of a path between slashes is too long. -/
def hasLongPart (path : List Char) : Bool :=
  (Text.split (· = '/') path).any fun part => maxPathPartLength < Text.byteLength part

/-- Whether a character is a control character. -/
def isControl (c : Char) : Bool := c.toNat < 0x20 || (0x7F ≤ c.toNat && c.toNat ≤ 0x9F)

/-- Checks a version constraint. -/
def checkConstraint (value : String) : Except SettingsError Unit := do
  if Text.isBlank value then
    throw (.invalid "package.dart_sdk must be non-empty")
  if maxConstraintLength < Text.byteLength value.toList then
    throw (.invalid "package.dart_sdk exceeds max length")
  if value.toList.any fun c => isControl c || c = '"' || c = '\'' || c = '#' then
    throw (.invalid "package.dart_sdk contains characters not allowed in a constraint")

namespace PackageSettings

/-- Nothing set. -/
def empty : PackageSettings := ⟨none, none, none, none⟩

/-- The name that stands in while no name is set. -/
def placeholderName : String := "flutnet_bridge"

/-- The identity of the package, a name given from outside before the one that is set. -/
def identity (s : PackageSettings) (name : Option String) :
    Except SettingsError PackageIdentity := do
  let some name := name.or s.name
    | throw (.invalid "package name must be given on the command line or as package.name")
  s.dartSdk.forM checkConstraint
  let base := PackageIdentity.ofName name
  let p : PackageIdentity := {
    name
    description := s.description.getD base.description
    version := s.version.getD base.version
    dartSdk := s.dartSdk.getD base.dartSdk }
  (p.check).mapError fun e => SettingsError.invalid ("package: " ++ e.message)
  return p

/-- Checks what is set. -/
def check (s : PackageSettings) : Except SettingsError Unit := do
  s.name.forM fun name =>
    (checkName name).mapError fun e => SettingsError.invalid ("package.name: " ++ e.message)
  let _ ← s.identity (some (s.name.getD placeholderName))

end PackageSettings

namespace OutputSettings

/-- Nothing set. -/
def empty : OutputSettings := ⟨none, false⟩

/-- Where a package is written to: the directory that is set, without blanks at its ends, or one
    with the name of the package. -/
def directory (s : OutputSettings) (packageName : String) : String :=
  match s.dir with
  | some dir => String.ofList (Text.trim dir.toList)
  | none => packageName

/-- Checks what is set. -/
def check (s : OutputSettings) : Except SettingsError Unit :=
  match s.dir with
  | none => .ok ()
  | some dir =>
    let path := Text.trim dir.toList
    if path.isEmpty then .error (.invalid "output.dir must be non-empty")
    else if maxPathLength < Text.byteLength path then
      .error (.invalid "output.dir exceeds max length")
    else if hasLongPart path then .error (.invalid "output.dir path component too long")
    else .ok ()

end OutputSettings

/-- Reads a value of a setting. -/
abbrev SettingReader (α : Type) := Toml → Option α

namespace SettingReader

/-- A text. -/
def text : SettingReader String
  | .string s => some s
  | _ => none

/-- True or false. -/
def bool : SettingReader Bool
  | .bool b => some b
  | _ => none

/-- A level by its name, or by its name as the only key of a table with nothing behind it. -/
def level : SettingReader LogLevel
  | .string name => LogLevel.ofName? name
  | .table [(name, .table [])] | .table [(name, .array [])] => LogLevel.ofName? name
  | _ => none

/-- The values of the keys of a table, each key at most known once. -/
def fields? (keys : List String) : Toml → Option (List (String × Toml))
  | .table members => if members.all fun m => keys.contains m.1 then some members else none
  | .array items => some (keys.zip items)
  | _ => none

/-- A value that may be left out. -/
def find? {α : Type} (fields : List (String × Toml)) (key : String) (r : SettingReader α)
    (default : α) : Option α :=
  match fields.find? fun f => f.1 = key with
  | some (_, v) => r v
  | none => some default

end SettingReader

open SettingReader in
/-- Reads what is set about the package. -/
def PackageSettings.read : SettingReader PackageSettings := fun v => do
  let fields ← fields? ["name", "description", "version", "dart_sdk"] v
  let text : SettingReader (Option String) := fun v => (SettingReader.text v).map some
  some {
    name := ← find? fields "name" text none
    description := ← find? fields "description" text none
    version := ← find? fields "version" text none
    dartSdk := ← find? fields "dart_sdk" text none }

open SettingReader in
/-- Reads what is set about the output. -/
def OutputSettings.read : SettingReader OutputSettings := fun v => do
  let fields ← fields? ["dir", "overwrite"] v
  some {
    dir := ← find? fields "dir" (fun v => (SettingReader.text v).map some) none
    overwrite := ← find? fields "overwrite" SettingReader.bool false }

open SettingReader in
/-- Reads what is set about logging. -/
def readLogging : SettingReader LogLevel := fun v => do
  find? (← fields? ["level"] v) "level" SettingReader.level .info

namespace Settings

/-- Nothing set. -/
def empty : Settings := ⟨.empty, .empty, .info⟩

open SettingReader in
/-- Reads the settings in the table of a document. -/
def read? (document : List (String × Toml)) : Option Settings := do
  let fields ← fields? ["package", "output", "logging"] (.table document)
  some {
    package := ← find? fields "package" PackageSettings.read .empty
    output := ← find? fields "output" OutputSettings.read .empty
    level := ← find? fields "logging" readLogging .info }

/-- Checks the settings. -/
def check (s : Settings) : Except SettingsError Unit := do
  s.package.check
  s.output.check

/-- The settings in a text. -/
def parse (text : String) : Except SettingsError Settings := do
  let some s := (Toml.parse? text).bind read? | throw .malformed
  s.check
  return s

/-- The document of the settings. -/
def toJson (s : Settings) : Json :=
  .object [
    ("package", .object [("name", .ofOption s.package.name),
      ("description", .ofOption s.package.description),
      ("version", .ofOption s.package.version), ("dart_sdk", .ofOption s.package.dartSdk)]),
    ("output", .object [("dir", .ofOption s.output.dir),
      ("overwrite", .bool s.output.overwrite)]),
    ("logging", .object [("level", .string s.level.text)])]

/-- The settings file that a new project starts with. -/
def starter (packageName : String) : String :=
  "\n".intercalate [
    "[package]",
    "name = \"" ++ packageName ++ "\"",
    "description = \"Flutnet platform bridge\"",
    "version = \"1.0.0\"",
    "dart_sdk = \">=3.0.0 <4.0.0\"",
    "",
    "[output]",
    "dir = \"" ++ packageName ++ "\"",
    "overwrite = false",
    "",
    "[logging]",
    "level = \"info\"",
    ""]

end Settings

end PlatformBridge
