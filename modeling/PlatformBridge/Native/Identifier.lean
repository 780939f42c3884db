import PlatformBridge.Contract.BridgeType
import PlatformBridge.Generation.Error
import PlatformBridge.Spelling.Case

/-!
# Native Names

How the names of a contract are spelled in the native bindings, which are written in Rust. A keyword
is used as a raw identifier, a name that is taken gets an underscore at its end, and one that is no
identifier a letter in front.

## Main definitions

* `Native.identifier`: A name as an identifier.
* `Native.typeIdentifier`, `Native.moduleOf`, `Native.serviceFile`: Types, modules and files.
* `BridgeType.inNative`: The native type for a type on the bridge.
-/

namespace PlatformBridge

namespace Native

/-- Keywords that can be raw identifiers. -/
def keywords : List String := [
  "as", "async", "await", "break", "const", "continue", "dyn", "else", "enum", "extern", "false",
  "fn", "for", "gen", "if", "impl", "in", "let", "loop", "match", "mod", "move", "mut", "pub",
  "ref", "return", "static", "struct", "trait", "true", "type", "unsafe", "use", "where",
  "while", "abstract", "become", "box", "do", "final", "macro", "override", "priv", "try",
  "typeof", "unsized", "virtual", "yield"]

/-- Keywords that cannot. -/
def pathKeywords : List String := ["self", "Self", "super", "crate"]

/-- Names that the binding of an operation uses. -/
def stubLocals : List String := ["args", "argument", "service", "table", "to_value"]

/-- A name in the right case as an identifier. -/
def identifier (name : String) : String :=
  match name.toList with
  | [] => "v"
  | c :: _ =>
    if c.isDigit then "v" ++ name
    else if pathKeywords.contains name then name ++ "_"
    else if keywords.contains name then "r#" ++ name
    else name

/-- The identifier of a parameter. -/
def parameterIdentifier (name : String) : String :=
  let spelled := identifier (Spelling.snakeCase name)
  if stubLocals.contains spelled then spelled ++ "_" else spelled

/-- The file name of a service, without its ending. -/
def fileStem (name : TypeName) : String := Spelling.snakeCase name.simple

/-- The module of a service. -/
def moduleOf (name : TypeName) : String := identifier (fileStem name)

/-- The path of a service. -/
def serviceFile (name : TypeName) : String := "native/" ++ fileStem name ++ ".rs"

/-- The type of a service or data type. -/
def typeIdentifier (name : TypeName) : String := identifier (Spelling.pascalCase name.simple)

end Native

namespace BridgeType

/-- The native type of the values of a type. -/
def inNative : BridgeType → String
  | primitive .string => "String"
  | primitive p => p.text
  | nullable inner => "Option<" ++ inner.inNative ++ ">"
  | list element => "Vec<" ++ element.inNative ++ ">"
  | map value => "BTreeMap<String, " ++ value.inNative ++ ">"
  | data name => Native.typeIdentifier name
  | enum name => Native.typeIdentifier name

/-- Whether the type has a map in it. -/
def hasMap : BridgeType → Bool
  | map _ => true
  | nullable inner => inner.hasMap
  | list element => element.hasMap
  | primitive _ | data _ | enum _ => false

end BridgeType

end PlatformBridge
