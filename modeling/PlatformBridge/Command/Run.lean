import PlatformBridge.Bundle.Output
import PlatformBridge.Command.Line
import PlatformBridge.Command.Request
import PlatformBridge.Messages

/-!
# Running Commands

What a command does to the files and what it prints. Whatever fails ends the command with one
message on the error stream.

## Main definitions

* `Environment`: What is set outside of the command line.
* `Finish`: How a command ends, and what it prints.
* `Command.run`: A command.
* `runTool`: The tool.
-/

namespace PlatformBridge

/-- What is set outside of the command line. -/
structure Environment where
  /-- The path of the settings. -/
  config : Option String
  /-- How much is logged. -/
  level : Option String
  deriving DecidableEq, Repr, Inhabited

/-- How a command ends, and what it prints. -/
structure Finish where
  code : Nat
  /-- What goes to the output stream. -/
  out : String
  /-- The lines that go to the error stream. -/
  complaints : List String
  deriving DecidableEq, Repr, Inhabited

namespace Finish

/-- A good end. -/
def success (out : String) : Finish := ⟨0, out, []⟩

/-- A bad end with a message. -/
def failure (message : String) : Finish := ⟨1, "", [message]⟩

end Finish

/-- The name of what sets the level. -/
def LevelOrigin.label : LevelOrigin → String
  | flag => "--log-level"
  | environment => "FLUTNET_LOG"
  | config => "config"

/-- The findings about a library as text: a summary, then a line for each. -/
def Verdict.text (o : Verdict) : String :=
  let operations := (o.contract.services.flatMap (·.operations)).length
  let summary := Messages.compose "validate.summary" [
    ("assembly", o.contract.assembly),
    ("services", Nat.repr o.contract.services.length),
    ("operations", Nat.repr operations),
    ("data_types", Nat.repr o.contract.dataTypes.length)]
  let findings :=
    if o.report.isEmpty then [Messages.compose "validate.no_diagnostics" []]
    else o.report.map fun d => Messages.compose "validate.diagnostic" [("diagnostic", d.display)]
  String.join ((summary :: findings).map (· ++ "\n"))

/-- The findings about a library in a format. -/
def Verdict.shown (o : Verdict) : FindingsFormat → String
  | .text => o.text
  | .json => (Report.toJson o.report).pretty ++ "\n"

/-- The message for a description that cannot be used. -/
def LibraryError.explain (path : String) (e : LibraryError) : String :=
  let key := match e with
    | unreadable _ | malformed => "metadata.load_failed"
    | invalid _ => "metadata.invalid"
  Messages.compose key [("path", path), ("error", e.message)]

/-- The message of a key for an error. -/
def Messages.explain (key error : String) : String := compose key [("error", error)]

namespace Command

variable {m : Type → Type} [Monad m] [FileStore m]

/-- A computation with a message for its failures. -/
def explained {ε α : Type} (message : ε → String) (act : ExceptT ε m α) : ExceptT String m α :=
  ExceptT.mk ((·.mapError message) <$> act.run)

/-- A result with a message for its failures. -/
def checked {ε α : Type} (message : ε → String) (result : Except ε α) : ExceptT String m α :=
  ExceptT.mk (pure (result.mapError message))

/-- The contract of the library that a file describes. -/
def verdict (path : String) : ExceptT String m Verdict :=
  explained (LibraryError.explain path) (Verdict.load (Path.ofText path))

/-- The package that is meant, the contract it is made from, and where it is. -/
def package (s : Settings) (a : PackageArguments) :
    ExceptT String m (PackageIdentity × Verdict × String) := do
  let package ← checked (fun e => Messages.explain "package.invalid" e.message)
    (s.package.identity a.name)
  let o ← verdict a.assembly
  checked (fun e => Messages.explain "package.invalid" e.message) package.check
  return (package, o, a.output.getD (s.output.directory package.name))

/-- Answers a request. -/
def answer (input output : String) : ExceptT String m Finish := do
  let about (key path message : String) : String :=
    Messages.compose key [("path", path), ("error", message)]
  let bytes ← explained (fun e : FileError => about "exec.read_failed" input e.message)
    (ExceptT.mk (FileStore.read (Path.ofText input)))
  if Request.maxBytes < bytes.size then
    throw (about "exec.read_failed" input
      (Nat.repr bytes.size ++ " bytes exceeds the " ++ Nat.repr Request.maxBytes ++ " byte limit"))
  let some request := Json.readBytes? Request.reader bytes
    | throw (about "exec.parse_failed" input "not a request")
  let response ← ExceptT.lift request.respond
  explained (fun e : FileError => about "exec.write_failed" output e.message)
    (ExceptT.mk (FileStore.write (Path.ofText output) (response.toJson.pretty ++ "\n").toUTF8))
  match response.result with
  | .ok _ => return .success ""
  | .error message => throw (Messages.compose "exec.action_failed"
      [("action", request.action), ("error", message)])

/-- Runs a command. -/
def run (s : Settings) : Command → ExceptT String m Finish
  | pack a overwrite => do
    let (package, o, dir) ← package s a
    let manifest ← explained (fun e => Messages.explain "pack.failed" e.message)
      (o.write package (Path.ofText dir) (overwrite || s.output.overwrite))
    return .success (Messages.compose "pack.ok" [
      ("count", Nat.repr manifest.files.length),
      ("package", manifest.package.name),
      ("path", dir)] ++ "\n")
  | check a => do
    let (package, o, dir) ← package s a
    explained (fun e => Messages.explain "check.failed" e.message)
      (o.audit package (Path.ofText dir))
    return .success (Messages.compose "check.ok" [("path", dir)] ++ "\n")
  | validate assembly format => do
    let o ← verdict assembly
    match (Report.errors o.report).length with
    | 0 => return .success (o.shown format)
    | n => return {
        code := 1
        out := o.shown format
        complaints := [Messages.compose "validate.failed" [("count", Nat.repr n)]] }
  | exec input output => answer input output

end Command

variable {m : Type → Type} [Monad m] [FileStore m]

/-- Loads the settings, works out the level, and runs a command. -/
def CommandLine.start (line : CommandLine) (environment : Environment) (command : Command) :
    ExceptT String m Finish := do
  let loaded ← Command.explained (fun e => Messages.explain "config.load_failed" e.message)
    (Settings.load line.config environment.config)
  let _ ← Command.checked (fun (source, e) => Messages.compose "logging.level_invalid"
      [("source", LevelOrigin.label source), ("error", SettingsError.message e)])
    (chooseLevel line.level environment.level loaded.settings.level)
  command.run loaded.settings

/-- Runs the tool with some words, unless they ask for help or make no sense. Without a command
    there is nothing to show but help. -/
def runTool (words : List String) (environment : Environment) : m (Except Stop Finish) := do
  match CommandLine.parse words with
  | .error stop => return .error stop
  | .ok line =>
    if line.version then
      return .ok (.success (Messages.compose "main.version" [("version", toolVersion)] ++ "\n"))
    else match line.command with
      | none => return .error .help
      | some command =>
        match ← (line.start environment command).run with
        | .ok finish => return .ok finish
        | .error message => return .ok (.failure message)

end PlatformBridge
