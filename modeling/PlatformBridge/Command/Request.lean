import PlatformBridge.Settings.File
import PlatformBridge.Validation.Verdict

/-!
# Requests

Other tools hand a request to this one as a document and get a response as a document, whether or
not the action succeeds. A request asks for the findings about a library, for its contract, or for a
settings file to start with.

## Main definitions

* `Request`, `Request.reader`: Requests.
* `Response`, `Response.toJson`: Responses.
* `Request.respond`: What a request does.
-/

namespace PlatformBridge

/-- A request. -/
inductive Request where
  | validate (assembly : Path)
  | describe (assembly : Path)
  | scaffold (directory : Path) (package : String) (overwrite : Bool)
  deriving DecidableEq, Repr, Inhabited

/-- Why a request is not fulfilled. -/
inductive RequestError where
  | library (error : LibraryError)
  | validation (failure : ValidationFailure)
  | package (error : PackageError)
  | settings (error : SettingsError)
  | existing (path : Path)
  | file (error : FileError)

/-- The message of an error. -/
def RequestError.message : RequestError → String
  | library error => error.message
  | validation failure => failure.message
  | package error => error.message
  | settings error => error.message
  | existing path => path.text ++ " already exists"
  | file error => "io error: " ++ error.message

/-- The response to a request: what was asked for, or why not. -/
structure Response where
  result : Except String Json

/-- The document of a response. -/
def Response.toJson (r : Response) : Json :=
  match r.result with
  | .ok value => .object [("ok", .bool true), ("result", value.sorted Json.keyBefore)]
  | .error message => .object [("ok", .bool false), ("error", .string message)]

namespace Request

/-- The largest request, in bytes. -/
def maxBytes : Nat := 1024 * 1024

/-- The name of the action that a request asks for. -/
def action : Request → String
  | validate _ => "validate"
  | describe _ => "describe"
  | scaffold _ _ _ => "scaffold"

/-- Reads a path. -/
def path : Json.Reader Path := fun a t => (Json.Reader.text a t).map Path.ofText

/-- Reads a request. -/
def reader : Json.Reader Request :=
  .tagged "action" [
    ("validate", .record ["assembly"] fun r => do some (validate (← r.required "assembly" path))),
    ("describe", .record ["assembly"] fun r => do some (describe (← r.required "assembly" path))),
    ("scaffold", .record ["directory", "package", "overwrite"] fun r => do
      some (scaffold (← r.required "directory" path) (← r.required "package" .text)
        (← r.defaulted "overwrite" .bool false)))]

variable {m : Type → Type} [Monad m] [FileStore m]

/-- A computation with its failures seen as those of a request. -/
def within {ε α : Type} (cause : ε → RequestError) (act : ExceptT ε m α) :
    ExceptT RequestError m α :=
  ExceptT.mk ((·.mapError cause) <$> act.run)

/-- The findings about a library. -/
def findings (o : Verdict) : Json :=
  let valid := !Report.hasErrors o.report
  .object [
    ("assembly", .string o.contract.assembly),
    ("valid", .bool valid),
    ("fingerprint", if valid then .string o.contract.fingerprint.hex else .null),
    ("diagnostics", Report.toJson o.report)]

/-- The contract of a library. -/
def description (c : Contract) : Json :=
  .object [("fingerprint", .string c.fingerprint.hex), ("contract", c.toJson)]

/-- Writes a settings file to start with into a directory. -/
def startProject (directory : Path) (package : String) (overwrite : Bool) :
    ExceptT RequestError m Json := do
  let text := Settings.starter package
  within .package (ExceptT.mk (pure (checkName package)))
  let _ ← within .settings (ExceptT.mk (pure (Settings.parse text)))
  let file := directory.join (Path.ofText Settings.fileName)
  if !overwrite then
    if let .ok _ ← ExceptT.lift (FileStore.kind false file) then
      throw (.existing file)
  within .file (ExceptT.mk (FileStore.createDirectories directory))
  within .file (ExceptT.mk (FileStore.write file text.toUTF8))
  return .object [("config", .string file.text)]

/-- Does what a request asks for. -/
def perform : Request → ExceptT RequestError m Json
  | validate assembly => findings <$> within .library (Verdict.load assembly)
  | describe assembly => do
    let o ← within .library (Verdict.load assembly)
    description <$> within .validation (ExceptT.mk (pure o.toContract))
  | scaffold directory package overwrite => startProject directory package overwrite

/-- The response to a request. -/
def respond (r : Request) : m Response := do
  return ⟨(← r.perform.run).mapError (·.message)⟩

end Request

end PlatformBridge
