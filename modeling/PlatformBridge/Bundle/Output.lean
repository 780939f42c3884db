import PlatformBridge.Bundle.Basic
import PlatformBridge.Files.Store

/-!
# Packages on Disk

A package is written into a directory of its own. A directory with something in it is refused unless
it may be overwritten; then the files that its manifest lists and the new package does not have are
removed first, and files that no manifest ever listed stay. Each file is put in place as a whole,
the manifest last. The paths in a manifest that is found are not trusted: only one that stays below
the directory is followed. A package that is there can be compared with what would be written.

## Main definitions

* `pathBelow`: A path that stays below a directory.
* `Output.prepare`, `Output.clearListed`, `Output.put`: The parts of writing.
* `Verdict.write`, `Verdict.audit`: Writing a package, and checking one.
-/

namespace PlatformBridge

/-- The failure of an operation on what is at a path. -/
def BundleError.ofFile (path : Path) : FileError → BundleError
  | .notADirectory | .denied => .outputPath path.text
  | .noTemporaryName => .noTemporaryName
  | e => .file path.text e.message

/-- The path in a text, if it leads strictly below where it starts. -/
def pathBelow (text : String) : Except GenerationError Path :=
  let path := Path.ofText text
  if Text.isBlank text then .error .blankPath
  else if path.isAbsolute then .error (.absolutePath text)
  else if !path.isBelow then .error (.unsafePath text)
  else .ok path

/-- The text of the manifest of a package. -/
def Bundle.manifestText (b : Bundle) : Except BundleError String :=
  match Json.indentedCanonical? b.manifest.toJson with
  | some text => .ok text
  | none => .error .serialization

namespace Output

variable {m : Type → Type} [Monad m] [FileStore m]

/-- The result of an operation on what is at a path. -/
def attempt {α : Type} (path : Path) (operation : m (Except FileError α)) :
    ExceptT BundleError m α :=
  ExceptT.mk ((·.mapError (BundleError.ofFile path)) <$> operation)

/-- The path of a file of a package. -/
def pathOf (text : String) : ExceptT BundleError m Path :=
  ExceptT.mk (pure ((pathBelow text).mapError .generation))

/-- Reads the manifest in a directory. -/
def findManifest (dir : Path) : ExceptT BundleError m Manifest := do
  let path := dir.join (Path.ofText Manifest.fileName)
  match ← ExceptT.lift (FileStore.read path) with
  | .error e => throw (.file path.text e.message)
  | .ok bytes =>
    match Json.readBytes? Manifest.reader bytes with
    | some manifest => return manifest
    | none => throw .serialization

/-- The manifest in a directory, if it can be read. -/
def manifest? (dir : Path) : ExceptT BundleError m (Option Manifest) :=
  ExceptT.mk (Except.ok <$> Except.toOption <$> (findManifest dir).run)

/-- Makes a directory ready to be written to, or finds that it must not be. The answer is the
    manifest of what is in it. -/
def prepare (dir : Path) (overwrite : Bool) : ExceptT BundleError m (Option Manifest) := do
  if dir.isEmpty then throw (.outputPath dir.text)
  match ← ExceptT.lift (FileStore.kind false dir) with
  | .error .notFound =>
    attempt dir (FileStore.createDirectories dir)
    return none
  | .error e => throw (.ofFile dir e)
  | .ok .file | .ok .link => throw (.outputPath dir.text)
  | .ok .directory =>
    if ← attempt dir (FileStore.isEmpty dir) then return none
    else if overwrite then manifest? dir
    else throw (.targetNotEmpty dir.text)

/-- Removes a file that is listed but not there to stay. -/
def removeListed (dir : Path) (text : String) : ExceptT BundleError m Unit := do
  let path := dir.join (← pathOf text)
  match ← ExceptT.lift (FileStore.kind false path) with
  | .ok .file => attempt path (FileStore.remove path)
  | .ok .directory | .ok .link => throw (.outputPath path.text)
  | .error .notFound => return
  | .error e => throw (.ofFile path e)

/-- Removes the files that an old manifest lists and a package does not have. -/
def clearListed (dir : Path) (old : Manifest) (b : Bundle) : ExceptT BundleError m Unit :=
  (old.files.filter fun e => !(b.files.any fun a => a.path = e.path)).forM fun e =>
    removeListed dir e.path

/-- Puts a file in place below a directory, in directories of its own if need be. A link is not
    replaced. -/
def put (dir path : Path) (text : String) : ExceptT BundleError m Unit := do
  let target := dir.join path
  let above := target.parent?.getD dir
  attempt above (FileStore.createDirectories above)
  if let .ok .link ← ExceptT.lift (FileStore.kind false target) then
    throw (.outputPath target.text)
  attempt target (FileStore.replace target text.toUTF8)

/-- Compares a file below a directory with what it should hold. -/
def compare (dir path : Path) (text : String) : ExceptT BundleError m Unit := do
  let target := dir.join path
  match ← ExceptT.lift (FileStore.kind false target) with
  | .error .notFound => throw (.drift ("missing artifact: " ++ path.text))
  | .error e => throw (.ofFile target e)
  | .ok .directory | .ok .link => throw (.outputPath target.text)
  | .ok .file =>
    if (← attempt target (FileStore.read target)).data ≠ text.toUTF8.data then
      throw (.drift ("artifact mismatch: " ++ path.text))

/-- Does something with each file of a package in order, then with its manifest. -/
def forEachFile (b : Bundle) (act : Path → String → ExceptT BundleError m Unit) :
    ExceptT BundleError m Unit := do
  b.files.forM fun a => do
    act (← pathOf a.path) a.text
  act (Path.ofText Manifest.fileName) (← ExceptT.mk (pure b.manifestText))

/-- Writes a package into a directory. -/
def write (b : Bundle) (dir : Path) (overwrite : Bool) : ExceptT BundleError m Unit := do
  if let some old ← prepare dir overwrite then
    clearListed dir old b
  forEachFile b (put dir)

/-- Compares what is in a directory with a package. -/
def audit (b : Bundle) (dir : Path) : ExceptT BundleError m Unit := do
  if (← attempt dir (FileStore.kind false dir)) ≠ .directory then
    throw (.outputPath dir.text)
  forEachFile b (compare dir)

end Output

namespace Verdict

variable {m : Type → Type} [Monad m] [FileStore m]

/-- Writes the package of a library into a directory. -/
def write (o : Verdict) (package : PackageIdentity) (dir : Path) (overwrite : Bool) :
    ExceptT BundleError m Manifest := do
  let b ← ExceptT.mk (pure (o.bundle package))
  Output.write b dir overwrite
  return b.manifest

/-- Checks that the package of a library is in a directory. -/
def audit (o : Verdict) (package : PackageIdentity) (dir : Path) :
    ExceptT BundleError m Unit := do
  let b ← ExceptT.mk (pure (o.bundle package))
  Output.audit b dir

end Verdict

end PlatformBridge
