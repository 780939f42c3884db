import PlatformBridge.Command.Run

/-!
# The Tool

The command line tool on the files of the computer that it runs on.

## Main definitions

* `main`: The tool.
-/

namespace PlatformBridge

/-- The number that the system gives an error, if it comes from there. -/
def systemCode? : IO.Error → Option UInt32
  | .alreadyExists _ code _ | .otherError code _ | .resourceBusy code _
  | .resourceVanished code _ | .unsupportedOperation code _ | .hardwareFault code _
  | .unsatisfiedConstraints code _ | .illegalOperation code _ | .protocolError code _
  | .timeExpired code _ | .interrupted _ code _ | .noFileOrDirectory _ code _
  | .invalidArgument _ code _ | .permissionDenied _ code _ | .resourceExhausted _ code _
  | .inappropriateType _ code _ | .noSuchThing _ code _ => some code
  | .unexpectedEof | .userError _ => none

/-- The causes by the numbers of the system. -/
def systemCodes : List (UInt32 × FileError) := [
  (2, .notFound), (13, .denied), (17, .alreadyExists), (20, .notADirectory), (21, .isADirectory),
  (36, .nameTooLong), (40, .tooManyLinks)]

/-- The cause of an error of the system. -/
def FileError.ofSystem (e : IO.Error) : FileError :=
  match (systemCode? e).bind fun code => systemCodes.find? fun c => c.1 = code with
  | some (_, cause) => cause
  | none => .other (toString e)

/-- Does something with a path, unless no file can have it. -/
def onPath {α : Type} (path : Path) (act : String → IO α) : IO (Except FileError α) := do
  if path.text.toList.any (· = '\x00') then return .error .zeroInPath
  if path.isEmpty then return .error .notFound
  try return .ok (← act path.text)
  catch e => return .error (.ofSystem e)

/-- Puts bytes into a new file, under the first of a number of names that is not in use. -/
def writeTemporary (name : Nat → String) (bytes : ByteArray) : List Nat → IO (Option String)
  | [] => return none
  | n :: rest => do
    try
      let file ← IO.FS.Handle.mk (name n) .writeNew
      file.write bytes
      file.flush
      return some (name n)
    catch
      | .alreadyExists .. => writeTemporary name bytes rest
      | e => throw e

/-- How many names are tried for a temporary file. -/
def temporaryNames : Nat := 64

/-- Puts a file in place as a whole. -/
def replaceFile (path : Path) (bytes : ByteArray) : IO (Except FileError Unit) := do
  let name := (path.segments.reverse.dropWhile (· = "")).headD ""
  let mark := toString (← IO.monoNanosNow)
  let beside (n : Nat) : String :=
    ((path.parent?.getD (Path.ofText "")).join
      (Path.ofText (".tmp-" ++ name ++ "." ++ mark ++ "." ++ toString n))).text
  let made ← onPath path fun _ => writeTemporary beside bytes (List.range temporaryNames)
  match made with
  | .error e => return .error e
  | .ok none => return .error .noTemporaryName
  | .ok (some temporary) =>
    match ← onPath path fun target => IO.FS.rename temporary target with
    | .ok () => return .ok ()
    | .error e => do
      let _ ← onPath path fun _ => IO.FS.removeFile temporary
      return .error e

instance : FileStore IO where
  kind follow path := onPath path fun text => do
    let file := (← IO.currentDir) / text
    let found ← if follow then file.metadata else file.symlinkMetadata
    match found.type with
    | .file => return .file
    | .dir => return .directory
    | .symlink | .other => return .link
  read path := onPath path fun text => IO.FS.readBinFile text
  isEmpty path := onPath path fun text => do return (← ((← IO.currentDir) / text).readDir).isEmpty
  makeDirectory path := onPath path fun text => IO.FS.createDir text
  write path bytes := onPath path fun text => IO.FS.writeBinFile text bytes
  replace := replaceFile
  remove path := onPath path fun text => IO.FS.removeFile text

/-- What is shown to those who ask for help. -/
def helpText : String := "\n".intercalate [
  "Usage: flutnet [--version] [--config PATH] [--log-level LEVEL] [COMMAND]",
  "",
  "Commands:",
  "  pack ASSEMBLY [PACKAGE] [-o DIR] [--overwrite]   Generate a Dart bridge package",
  "  check ASSEMBLY [PACKAGE] [-o DIR]                Verify a generated package",
  "  validate ASSEMBLY [--format text|json]           Print every diagnostic",
  "  exec --input PATH --output PATH                  Run a JSON request",
  ""]

end PlatformBridge

open PlatformBridge in
/-- Runs the tool. -/
def main (words : List String) : IO UInt32 := do
  let environment := ⟨← IO.getEnv "FLUTNET_CONFIG", ← IO.getEnv "FLUTNET_LOG"⟩
  match ← runTool words environment with
  | .ok finish =>
    (← IO.getStdout).putStr finish.out
    finish.complaints.forM (← IO.getStderr).putStrLn
    return finish.code.toUInt32
  | .error .help =>
    (← IO.getStdout).putStr helpText
    return 0
  | .error (.misuse e) =>
    (← IO.getStderr).putStr ("error: " ++ e.message ++ "\n\n" ++ helpText)
    return 2
