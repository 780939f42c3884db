/-!
# Messages

The messages of the tool by their keys. A template holds names in braces, each of which is replaced
by the argument of that name, one argument after the other.

## Main definitions

* `Messages.templates`: The templates.
* `Messages.replace`: A text with another put in place of a part of it.
* `Messages.compose`: The message of a key with its arguments.
-/

namespace PlatformBridge

namespace Messages

/-- A name in a template. -/
def placeholder (name : String) : String := "\x7b" ++ name ++ "\x7d"

/-- The templates by their keys. -/
def templates : List (String × String) := [
  ("main.version", "flutnet \x7bversion\x7d"),
  ("config.load_failed", "Failed to load config: \x7berror\x7d"),
  ("logging.init_failed", "Failed to initialize logging: \x7berror\x7d"),
  ("logging.level_invalid", "Invalid log level from \x7bsource\x7d: \x7berror\x7d"),
  ("metadata.load_failed", "Failed to load assembly metadata from \x7bpath\x7d: \x7berror\x7d"),
  ("metadata.invalid", "Assembly metadata at \x7bpath\x7d is malformed: \x7berror\x7d"),
  ("package.invalid", "Invalid package settings: \x7berror\x7d"),
  ("pack.failed", "Package synthesis failed: \x7berror\x7d"),
  ("pack.ok", "Wrote \x7bcount\x7d artifacts for \x7bpackage\x7d to \x7bpath\x7d"),
  ("check.failed", "Package check failed: \x7berror\x7d"),
  ("check.ok", "Package at \x7bpath\x7d matches the contract"),
  ("validate.summary",
    "\x7bassembly\x7d: \x7bservices\x7d service(s), \x7boperations\x7d operation(s), "
      ++ "\x7bdata_types\x7d data type(s)"),
  ("validate.diagnostic", "- \x7bdiagnostic\x7d"),
  ("validate.no_diagnostics", "No diagnostics."),
  ("validate.failed", "Contract validation reported \x7bcount\x7d error(s)."),
  ("validate.serialize_failed", "Failed to serialize the validation report: \x7berror\x7d"),
  ("exec.read_failed", "Failed to read exec input \x7bpath\x7d: \x7berror\x7d"),
  ("exec.parse_failed", "Failed to parse exec input \x7bpath\x7d: \x7berror\x7d"),
  ("exec.serialize_failed", "Failed to serialize exec output: \x7berror\x7d"),
  ("exec.write_failed", "Failed to write exec output \x7bpath\x7d: \x7berror\x7d"),
  ("exec.action_failed", "Exec action `\x7baction\x7d` failed: \x7berror\x7d"),
  ("output.stream.stdout", "stdout"),
  ("output.stream.stderr", "stderr"),
  ("output.stream.unknown", "output"),
  ("output.write_failed", "Failed to write to \x7bstream\x7d: \x7berror\x7d")]

/-- The text after a part at its start. -/
def dropStart? : List Char → List Char → Option (List Char)
  | [], text => some text
  | _ :: _, [] => none
  | p :: part, c :: text => if p = c then dropStart? part text else none

/-- A text with `value` in place of every occurrence of `part` in it, from the left. -/
def replaceFrom (part value : List Char) : Nat → List Char → List Char
  | 0, text => text
  | _, [] => []
  | fuel + 1, c :: text =>
    match dropStart? part (c :: text) with
    | some rest => value ++ replaceFrom part value fuel rest
    | none => c :: replaceFrom part value fuel text

/-- A text with `value` in place of every occurrence of `part`, which is not empty. -/
def replace (part value text : String) : String :=
  String.ofList (replaceFrom part.toList value.toList (text.length + 1) text.toList)

/-- The message of a key with its arguments put in, one after the other; a key without template is
    its own. -/
def compose (key : String) (arguments : List (String × String)) : String :=
  let template := ((templates.find? fun m => m.1 = key).map (·.2)).getD key
  arguments.foldl (fun text (name, value) => replace (placeholder name) value text) template

end Messages

end PlatformBridge
