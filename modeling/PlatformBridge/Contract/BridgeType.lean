import PlatformBridge.Json.Reader
import PlatformBridge.Spelling.Name

/-!
# Types on the Bridge

The types of values that cross the boundary between the two sides. What is left of a library's own
types is a primitive, an absent value, a list, a map with text keys, or a data type by its name.

## Main definitions

* `Primitive`, `BridgeType`: The types.
* `BridgeType.orNull`: The type of values that may be absent, without repetition.
* `BridgeType.named?`: The data type that a type mentions.
* `BridgeType.reader`, `BridgeType.toJson`: Its document.
-/

namespace PlatformBridge

/-- The types of values without parts. -/
inductive Primitive where
  | bool
  | u8
  | i8
  | i16
  | i32
  | i64
  | f32
  | f64
  | char
  | string
  deriving DecidableEq, Repr, Inhabited

namespace Primitive

/-- Every primitive. -/
def all : List Primitive := [bool, u8, i8, i16, i32, i64, f32, f64, char, string]

/-- The name of a primitive in a contract. -/
def text : Primitive → String
  | bool => "bool"
  | u8 => "u8"
  | i8 => "i8"
  | i16 => "i16"
  | i32 => "i32"
  | i64 => "i64"
  | f32 => "f32"
  | f64 => "f64"
  | char => "char"
  | string => "string"

/-- The name of a primitive in the library that is described. -/
def typeName : Primitive → TypeName
  | bool => "System.Boolean"
  | u8 => "System.Byte"
  | i8 => "System.SByte"
  | i16 => "System.Int16"
  | i32 => "System.Int32"
  | i64 => "System.Int64"
  | f32 => "System.Single"
  | f64 => "System.Double"
  | char => "System.Char"
  | string => "System.String"

/-- The least and the greatest value of an integer type. -/
def integerRange? : Primitive → Option (Int × Int)
  | u8 => some (0, 255)
  | i8 => some (-128, 127)
  | i16 => some (-32768, 32767)
  | i32 => some (-2147483648, 2147483647)
  | i64 => some (-9223372036854775808, 9223372036854775807)
  | _ => none

/-- The primitive of a name in the library that is described. -/
def ofTypeName? (name : TypeName) : Option Primitive :=
  all.find? fun p => p.typeName = name

end Primitive

/-- A type of values that cross the boundary. -/
inductive BridgeType where
  | primitive (p : Primitive)
  | nullable (inner : BridgeType)
  | list (element : BridgeType)
  | map (value : BridgeType)
  | data (name : TypeName)
  | enum (name : TypeName)
  deriving DecidableEq, Repr, Inhabited

namespace BridgeType

/-- The type whose values are those of a type and an absent one. -/
def orNull : BridgeType → BridgeType
  | nullable inner => nullable inner
  | inner => nullable inner

/-- Whether a value may be absent. -/
def isNullable : BridgeType → Bool
  | nullable _ => true
  | _ => false

/-- The data type or enumeration that a type mentions, if any. -/
def named? : BridgeType → Option TypeName
  | primitive _ => none
  | nullable inner => inner.named?
  | list element => element.named?
  | map value => value.named?
  | data name => some name
  | enum name => some name

/-- The type as it is shown in messages. -/
def display : BridgeType → String
  | primitive p => p.typeName
  | nullable inner => inner.display ++ "?"
  | list element => "List<" ++ element.display ++ ">"
  | map value => "Map<System.String, " ++ value.display ++ ">"
  | data name => name
  | enum name => name

/-- The document of a type. -/
def toJson : BridgeType → Json
  | primitive p => .object [("kind", .string "primitive"), ("primitive", .string p.text)]
  | nullable inner => .object [("kind", .string "nullable"), ("inner", inner.toJson)]
  | list element => .object [("kind", .string "list"), ("element", element.toJson)]
  | map value => .object [("kind", .string "map"), ("value", value.toJson)]
  | data name => .object [("kind", .string "data"), ("name", .string name)]
  | enum name => .object [("kind", .string "enum"), ("name", .string name)]

/-- Reads a type that nests less than `fuel` deep. -/
def readerWithin : Nat → Json.Reader BridgeType
  | 0 => fun _ _ => none
  | fuel + 1 => .tagged "kind" [
      ("primitive", .record ["primitive"] fun r =>
        (r.required "primitive" (.name (Primitive.all.map fun p => (p.text, p)))).map primitive),
      ("nullable", .record ["inner"] fun r =>
        (r.required "inner" (readerWithin fuel)).map nullable),
      ("list", .record ["element"] fun r =>
        (r.required "element" (readerWithin fuel)).map list),
      ("map", .record ["value"] fun r => (r.required "value" (readerWithin fuel)).map map),
      ("data", .record ["name"] fun r => (r.required "name" .text).map data),
      ("enum", .record ["name"] fun r => (r.required "name" .text).map enum)]

/-- Reads a type. A document nests too little for the fuel to run out. -/
def reader : Json.Reader BridgeType := readerWithin (Json.maxDepth + 1)

end BridgeType

end PlatformBridge
