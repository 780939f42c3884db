import PlatformBridge.Text.Basic

/-!
# Command Lines

The words of a command line are options, with a value or without, and operands. An option is spelled
out after two hyphens, its value behind `=` or in the next word, or is one letter after a hyphen,
its value right behind it, behind `=` or in the next word; letters without a value may share a
hyphen. A word that starts with a hyphen and is longer than that is never the value of an option
before it, and after `--` every word is an operand. An option may be given once at each level:
before the name of a command, and after it.

A value is looked at when the next option or operand is reached, and a request for help is met at
once, so whether help or a complaint comes first depends on the order of the words.

## Main definitions

* `Grammar`: The options and operands of a level.
* `Reading`, `Grammar.readWords`: What is read of the words of a level.
* `Command`, `CommandLine`: Commands, and command lines.
* `CommandLine.parse`: The command line in some words.
-/

namespace PlatformBridge

/-- What a value has to be. -/
inductive ValueRule where
  | any
  | nonEmpty
  | oneOf (values : List String)
  deriving DecidableEq, Repr, Inhabited

/-- Whether a value is allowed. -/
def ValueRule.allows (value : String) : ValueRule → Bool
  | any => true
  | nonEmpty => !value.isEmpty
  | oneOf values => values.contains value

/-- What a value is for. -/
structure Slot where
  name : String
  rule : ValueRule
  deriving DecidableEq, Repr, Inhabited

/-- An option; a switch has no value. -/
structure OptionSpec where
  long : String
  short : Option Char
  value : Option ValueRule
  deriving DecidableEq, Repr, Inhabited

/-- The options and operands of a level of a command line. -/
structure Grammar where
  options : List OptionSpec
  operands : List Slot
  deriving DecidableEq, Repr, Inhabited

/-- What is wrong with a command line. -/
inductive UsageError where
  | unknownOption (option : String)
  | unexpectedOperand (operand : String)
  | unexpectedValue (option : String)
  | missingValue (name : String)
  | invalidValue (name value : String)
  | repeated (option : String)
  | missing (name : String)
  deriving DecidableEq, Repr, Inhabited

/-- The message of an error. -/
def UsageError.message : UsageError → String
  | unknownOption option => "unknown option " ++ option
  | unexpectedOperand operand => "unexpected argument `" ++ operand ++ "`"
  | unexpectedValue option => "option " ++ option ++ " takes no value"
  | missingValue name => "a value is missing for " ++ name
  | invalidValue name value => "`" ++ value ++ "` is no value for " ++ name
  | repeated option => "option " ++ option ++ " is given more than once"
  | missing name => name ++ " is missing"

/-- Why the words are not read to their end. -/
inductive Stop where
  | help
  | misuse (error : UsageError)
  deriving DecidableEq, Repr, Inhabited

/-- What is read of the words of a level so far. -/
structure Reading where
  /-- The values with the names of what they are for; a switch that is given has an empty one. -/
  values : List (String × String)
  /-- The operands that are still to come. -/
  operands : List Slot
  /-- A value that is not yet looked at, or not yet there. -/
  pending : Option (Slot × Option String)
  deriving DecidableEq, Repr, Inhabited

namespace Reading

/-- The value for a name. -/
def value? (r : Reading) (name : String) : Option String :=
  (r.values.find? fun v => v.1 = name).map (·.2)

/-- Whether there is a value for a name. -/
def has (r : Reading) (name : String) : Bool := (r.value? name).isSome

/-- The value for a name that has to have one. -/
def need (r : Reading) (name : String) : Except UsageError String :=
  match r.value? name with
  | some value => .ok value
  | none => .error (.missing name)

/-- Whether the next word is the value of an option. -/
def isAwaiting (r : Reading) : Bool :=
  match r.pending with
  | some (_, none) => true
  | _ => false

/-- Takes a value for a name that has none. -/
def take (r : Reading) (slot : Slot) (value : String) : Except Stop Reading :=
  if r.has slot.name then .error (.misuse (.repeated slot.name))
  else if slot.rule.allows value then .ok { r with values := r.values ++ [(slot.name, value)] }
  else .error (.misuse (.invalidValue slot.name value))

/-- Looks at the value that is pending. -/
def finishValue (r : Reading) : Except Stop Reading :=
  match r.pending with
  | none => .ok r
  | some (slot, none) => .error (.misuse (.missingValue slot.name))
  | some (slot, some value) => { r with pending := none }.take slot value

/-- Reads an operand. -/
def operand (r : Reading) (word : String) : Except Stop Reading := do
  match r.operands with
  | [] => throw (.misuse (.unexpectedOperand word))
  | slot :: operands => return { ← r.finishValue with operands, pending := some (slot, some word) }

end Reading

namespace OptionSpec

/-- The switch that asks for help. -/
def help : OptionSpec := ⟨"help", some 'h', none⟩

/-- Reads an option with the value that is attached to it, if there is one. -/
def read (o : OptionSpec) (r : Reading) (attached : Option String) : Except Stop Reading := do
  match o.value, attached with
  | none, some _ => throw (.misuse (.unexpectedValue o.long))
  | none, none =>
    let r ← r.finishValue
    if o = help then throw .help
    r.take ⟨o.long, .any⟩ ""
  | some rule, some value => (← r.finishValue).take ⟨o.long, rule⟩ value
  | some rule, none => return { ← r.finishValue with pending := some (⟨o.long, rule⟩, none) }

end OptionSpec

namespace Grammar

/-- Nothing read yet. -/
def start (g : Grammar) : Reading := ⟨[], g.operands, none⟩

/-- Reads the letters behind a hyphen. -/
def readLetters (g : Grammar) (r : Reading) : List Char → Except Stop Reading
  | [] => .ok r
  | c :: rest =>
    match g.options.find? fun o => o.short = some c with
    | none => .error (.misuse (.unknownOption (String.ofList ['-', c])))
    | some o =>
      match o.value, rest with
      | none, _ => do g.readLetters (← o.read r none) rest
      | some _, [] => o.read r none
      | some _, '=' :: value => o.read r (some (String.ofList value))
      | some _, value => o.read r (some (String.ofList value))

/-- Reads what is behind two hyphens. -/
def readLong (g : Grammar) (r : Reading) (word : List Char) : Except Stop Reading :=
  let name := String.ofList (word.takeWhile (· ≠ '='))
  let attached := match word.dropWhile (· ≠ '=') with
    | [] => none
    | _ :: value => some (String.ofList value)
  match g.options.find? fun o => o.long = name with
  | none => .error (.misuse (.unknownOption ("--" ++ name)))
  | some o => o.read r attached

/-- Reads a word that is not `--`. -/
def readWord (g : Grammar) (r : Reading) (word : String) : Except Stop Reading :=
  match word.toList, r.pending with
  | '-' :: '-' :: rest, _ => g.readLong r rest
  | '-' :: c :: rest, _ => g.readLetters r (c :: rest)
  | _, some (slot, none) => .ok { r with pending := some (slot, some word) }
  | _, _ => r.operand word

/-- Reads the words of a level up to the last. -/
def readWords (g : Grammar) (r : Reading) : List String → Except Stop Reading
  | [] => r.finishValue
  | word :: rest => do
    if word = "--" then (← rest.foldlM Reading.operand r).finishValue
    else g.readWords (← g.readWord r word) rest

end Grammar

/-- How findings are shown. -/
inductive FindingsFormat where
  | text
  | json
  deriving DecidableEq, Repr, Inhabited

/-- What a package is made from, its name, and where it is. -/
structure PackageArguments where
  assembly : String
  name : Option String
  output : Option String
  deriving DecidableEq, Repr, Inhabited

/-- A command. -/
inductive Command where
  /-- Writes a package. -/
  | pack (package : PackageArguments) (overwrite : Bool)
  /-- Checks that a package is what would be written. -/
  | check (package : PackageArguments)
  /-- Shows the findings about a library. -/
  | validate (assembly : String) (format : FindingsFormat)
  /-- Answers a request in a file. -/
  | exec (input output : String)
  deriving DecidableEq, Repr, Inhabited

/-- A command that can be given. -/
structure CommandSpec where
  name : String
  grammar : Grammar
  build : Reading → Except UsageError Command

/-- A command line. -/
structure CommandLine where
  version : Bool
  config : Option String
  level : Option String
  command : Option Command
  deriving DecidableEq, Repr, Inhabited

namespace CommandLine

/-- The options of every level. -/
def common : List OptionSpec := [
  .help, ⟨"version", none, none⟩, ⟨"config", none, some .nonEmpty⟩, ⟨"log-level", none, some .any⟩]

/-- The level before the name of a command. -/
def outer : Grammar := ⟨common, []⟩

/-- The option for where a package is. -/
def outputOption : OptionSpec := ⟨"output", some 'o', some .nonEmpty⟩

/-- The operand for the file that describes a library. -/
def assemblyOperand : Slot := ⟨"ASSEMBLY", .nonEmpty⟩

/-- The operands for a package. -/
def packageOperands : List Slot := [assemblyOperand, ⟨"PACKAGE", .any⟩]

/-- The package in a reading. -/
def packageOf (r : Reading) : Except UsageError PackageArguments := do
  return ⟨← r.need "ASSEMBLY", r.value? "PACKAGE", r.value? "output"⟩

/-- The commands. -/
def commands : List CommandSpec := [
  { name := "pack"
    grammar := ⟨common ++ [outputOption, ⟨"overwrite", none, none⟩], packageOperands⟩
    build := fun r => do return .pack (← packageOf r) (r.has "overwrite") },
  { name := "check"
    grammar := ⟨common ++ [outputOption], packageOperands⟩
    build := fun r => do return .check (← packageOf r) },
  { name := "validate"
    grammar := ⟨common ++ [⟨"format", none, some (.oneOf ["text", "json"])⟩], [assemblyOperand]⟩
    build := fun r => do
      return .validate (← r.need "ASSEMBLY")
        (if r.value? "format" = some "json" then .json else .text) },
  { name := "exec"
    grammar := ⟨common ++ [⟨"input", none, some .nonEmpty⟩, ⟨"output", none, some .nonEmpty⟩], []⟩
    build := fun r => do return .exec (← r.need "input") (← r.need "output") }]

/-- The command line of a reading before the name of a command and, if there is one, of the command
    with the reading after its name. -/
def assemble (before : Reading) (after : Option (Command × Reading)) : CommandLine :=
  let last (name : String) : Option String :=
    (after.bind fun a => a.2.value? name).or (before.value? name)
  { version := (last "version").isSome
    config := last "config"
    level := last "log-level"
    command := after.map (·.1) }

/-- Reads a command line, the words before the name of the command first. -/
def read (r : Reading) : List String → Except Stop CommandLine
  | [] => do return assemble (← r.finishValue) none
  | word :: rest => do
    match if r.isAwaiting then none else commands.find? fun c => c.name = word with
    | some c =>
      let inner ← c.grammar.readWords c.grammar.start rest
      let command ← (c.build inner).mapError Stop.misuse
      return assemble (← r.finishValue) (some (command, inner))
    | none =>
      if word = "--" then
        return assemble (← (← rest.foldlM Reading.operand r).finishValue) none
      else read (← outer.readWord r word) rest

/-- The command line in some words. -/
def parse (words : List String) : Except Stop CommandLine := read outer.start words

end CommandLine

end PlatformBridge
