import PlatformBridge.Generation.Error
import PlatformBridge.Package.Identity
import PlatformBridge.Spelling.Case
import PlatformBridge.Spelling.Name

/-!
# Dart Names

How the names of a contract are spelled in Dart. A name that is no identifier gets a letter in
front, and one that is taken gets an underscore at its end; what is taken depends on the scope. The
files of services and data types are named after them in snake case.

## Main definitions

* `Dart.typeIdentifier`, `Dart.serviceFile`, `Dart.dataFile`: Classes and files.
* `Dart.identifier`: A name as an identifier of a scope.
* `Dart.literal`: A text as a string literal.
-/

namespace PlatformBridge

namespace Dart

/-- The class of a service or data type. -/
def typeIdentifier (name : TypeName) : String := Spelling.pascalCase name.simple

/-- The file name of a service or data type, without its ending. -/
def fileStem (name : TypeName) : String := Spelling.snakeCase name.simple

/-- The path of a service, below the sources of the package. -/
def serviceFile (name : TypeName) : String := "services/" ++ fileStem name ++ ".dart"

/-- The path of a data type, below the sources of the package. -/
def dataFile (name : TypeName) : String := "data/" ++ fileStem name ++ ".dart"

/-- Members that every object has. -/
def inheritedNames : List String := ["hashCode", "noSuchMethod", "runtimeType", "toString"]

/-- Names that the body of a generated method uses. -/
def methodLocals : List String :=
  ["result", "callEnvelope", "unwrapReply", "encodeNullable", "decodeNullable", "decodeList",
    "decodeMap"]

/-- Members of every generated data class. -/
def dataClassNames : List String := ["toJson", "fromJson"]

/-- Members of every generated enumeration. -/
def enumerationNames : List String := ["fromWire", "wireName", "values", "index", "name"]

/-- The name with a letter in front if it does not start with one and with an underscore at its end
    if it is reserved. -/
def unreserved (name : String) : String :=
  let name := match name.toList with
    | [] => "v"
    | c :: _ => if c.isDigit then "v" ++ name else name
  if reserved.contains name then name ++ "_" else name

/-- The identifier of a name in a scope where some names are taken. -/
def identifier (taken : List String) (name : String) : String :=
  let spelled := unreserved (Spelling.lowerCamelCase name)
  if taken.contains spelled then spelled ++ "_" else spelled

/-- A character inside a string literal. -/
def escape (c : Char) : List Char :=
  if c = '\'' || c = '\\' || c = '$' then ['\\', c] else [c]

/-- A string literal between single quotes. -/
def literal (text : String) : String :=
  String.ofList ('\'' :: text.toList.flatMap escape ++ ['\''])

end Dart

end PlatformBridge
