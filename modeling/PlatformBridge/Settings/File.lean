import PlatformBridge.Files.Store
import PlatformBridge.Settings.Basic

/-!
# Settings Files

The settings are in the file that is asked for, else in the one that the environment names by more
than blanks, else in the file of a fixed name in the working directory. Only that last one may be
missing: then nothing is set.

## Main definitions

* `Settings.fileName`: The file that settings are in unless another is named.
* `LoadedSettings`: Settings, and where they come from.
* `Settings.load`: The settings to be used.
-/

namespace PlatformBridge

/-- Settings, and the file that they are from, if there is one. -/
structure LoadedSettings where
  settings : Settings
  source : Option Path
  deriving DecidableEq, Repr, Inhabited

namespace Settings

/-- The file that settings are in unless another is named. -/
def fileName : String := "flutnet.toml"

/-- The largest settings file, in bytes. -/
def maxFileBytes : Nat := 64 * 1024

/-- The path that somebody names for the settings: the one that is asked for, or the one in the
    environment. -/
def namedPath? (asked environment : Option String) : Except SettingsError (Option Path) :=
  match asked, environment.filter fun v => !Text.isBlank v with
  | some text, _ => .ok (some (Path.ofText text))
  | none, some text =>
    if maxPathLength < Text.byteLength text.toList then
      .error (.invalid "config path exceeds max length")
    else .ok (some (Path.ofText text))
  | none, none => .ok none

/-- Checks the length of a path and of its parts. -/
def checkPath (path : Path) : Except SettingsError Unit :=
  let text := path.text.toList
  if maxPathLength < Text.byteLength text then .error (.invalid "config path exceeds max length")
  else if hasLongPart text then .error (.invalid "config path component too long")
  else .ok ()

/-- The settings in the content of a file. -/
def ofBytes (bytes : ByteArray) : Except SettingsError Settings :=
  if maxFileBytes < bytes.size then .error (.invalid "config file exceeds size limit")
  else match String.fromUTF8? bytes with
    | some text => parse text
    | none => .error (.invalid "config file must be utf-8")

variable {m : Type → Type} [Monad m] [FileStore m]

/-- The settings in a file. -/
def readFile (path : Path) : ExceptT SettingsError m LoadedSettings := do
  ExceptT.mk (pure (checkPath path))
  match ← ExceptT.lift (FileStore.read path) with
  | .error e => throw (.unreadable e.message)
  | .ok bytes => return ⟨← ExceptT.mk (pure (ofBytes bytes)), some path⟩

/-- The settings to be used. -/
def load (asked environment : Option String) : ExceptT SettingsError m LoadedSettings := do
  match ← ExceptT.mk (pure (namedPath? asked environment)) with
  | some path => readFile path
  | none =>
    let path := Path.ofText fileName
    match ← ExceptT.lift (FileStore.kind true path) with
    | .error .notFound => return ⟨empty, none⟩
    | .error e => throw (.unreadable e.message)
    | .ok _ => readFile path

end Settings

end PlatformBridge
