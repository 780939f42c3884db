import PlatformBridge.Contract.BridgeType
import PlatformBridge.Dart.Identifier

/-!
# Dart Types and Conversions

The Dart type for a type on the bridge, and the expressions that convert a value between it and its
wire form. A conversion goes down to the primitives and data types, and binds the parts on its way
to `v0`, `v1` and so on. Encoding stops where nothing is left to convert.

## Main definitions

* `BridgeType.inDart`: The type.
* `BridgeType.dartDecode`, `BridgeType.dartEncode`: The conversions.
-/

namespace PlatformBridge

namespace Primitive

/-- The type of a primitive. -/
def inDart : Primitive → String
  | .bool => "bool"
  | .u8 | .i8 | .i16 | .i32 | .i64 => "int"
  | .f32 | .f64 => "double"
  | .char | .string => "String"

/-- The conversion of a wire value to a primitive. -/
def dartDecode (value : String) : Primitive → String
  | .bool => "(" ++ value ++ " as bool)"
  | .u8 | .i8 | .i16 | .i32 | .i64 => "(" ++ value ++ " as num).toInt()"
  | .f32 | .f64 => "(" ++ value ++ " as num).toDouble()"
  | .char | .string => "(" ++ value ++ " as String)"

end Primitive

namespace BridgeType

/-- The Dart type of the values of a type. -/
def inDart : BridgeType → String
  | primitive p => p.inDart
  | nullable inner => inner.inDart ++ "?"
  | list element => "List<" ++ element.inDart ++ ">"
  | map value => "Map<String, " ++ value.inDart ++ ">"
  | data name => Dart.typeIdentifier name
  | enum name => Dart.typeIdentifier name

/-- The variable that a conversion binds at a depth. -/
def dartVariable (depth : Nat) : String := "v" ++ toString depth

/-- The conversion of a wire value, given as an expression, to a value of the type. -/
def dartDecode (value : String) (depth : Nat) : BridgeType → String
  | primitive p => p.dartDecode value
  | nullable inner => "decodeNullable(" ++ value ++ ", (" ++ dartVariable depth ++ ") => "
      ++ inner.dartDecode (dartVariable depth) (depth + 1) ++ ")"
  | list element => "decodeList(" ++ value ++ ", (" ++ dartVariable depth ++ ") => "
      ++ element.dartDecode (dartVariable depth) (depth + 1) ++ ")"
  | map element => "decodeMap(" ++ value ++ ", (" ++ dartVariable depth ++ ") => "
      ++ element.dartDecode (dartVariable depth) (depth + 1) ++ ")"
  | data name => Dart.typeIdentifier name ++ ".fromJson(" ++ value ++ ")"
  | enum name => Dart.typeIdentifier name ++ ".fromWire(" ++ value ++ ")"

/-- The conversion of a value of the type, given as an expression, to its wire form. Where the parts
    of a value are their own wire form, the value is too. -/
def dartEncode (value : String) (depth : Nat) : BridgeType → String
  | primitive _ => value
  | nullable inner =>
    let part := inner.dartEncode (dartVariable depth) (depth + 1)
    if part = dartVariable depth then value
    else "encodeNullable(" ++ value ++ ", (" ++ dartVariable depth ++ ") => " ++ part ++ ")"
  | list element =>
    let part := element.dartEncode (dartVariable depth) (depth + 1)
    if part = dartVariable depth then value
    else value ++ ".map((" ++ dartVariable depth ++ ") => " ++ part ++ ").toList()"
  | map element =>
    let part := element.dartEncode (dartVariable depth) (depth + 1)
    if part = dartVariable depth then value
    else value ++ ".map((k" ++ toString depth ++ ", " ++ dartVariable depth ++ ") => MapEntry(k"
      ++ toString depth ++ ", " ++ part ++ "))"
  | data _ => value ++ ".toJson()"
  | enum _ => value ++ ".wireName"

end BridgeType

end PlatformBridge
