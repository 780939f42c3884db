import PlatformBridge.Json.Printer
import PlatformBridge.Text.Quoted
import PlatformBridge.Wire.Conversion
import PlatformBridge.Wire.Message

/-!
# Arguments of Native Code

Native code reads each argument of a call at a type of its own, and writes its result back to the
wire. A type reads more than a contract lets through: a number of any kind at a floating-point type,
and for single precision one of any size, which becomes infinite and is written as null.

## Main definitions

* `NativeType`: The types at which arguments are read.
* `NativeType.read`: The value that was read, as it is written back.
* `readArgument`: The argument of a call at a place.
* `BridgeType.native?`: The type that stands for one of a contract.
-/

namespace PlatformBridge

/-- A type of native code. -/
inductive NativeType where
  | bool
  | unsigned (bits : Nat)
  | signed (bits : Nat)
  | single
  | double
  | char
  | string
  /-- Any value, as it came. -/
  | value
  /-- Nothing, which is null. -/
  | unit
  | list (element : NativeType)
  | option (inner : NativeType)
  | map (value : NativeType)
  deriving DecidableEq, Repr, Inhabited

/-- Why a value cannot be read: it is of another kind, or the type does not have it. -/
inductive ReadError where
  | kind (found : Json) (expected : NativeType)
  | value (found : Json) (expected : NativeType)
  deriving Repr

namespace NativeType

/-- What a type is called where another value was found. -/
def expectation : NativeType → String
  | bool => "a boolean"
  | unsigned bits => "u" ++ Nat.repr bits
  | signed bits => "i" ++ Nat.repr bits
  | single => "f32"
  | double => "f64"
  | char => "a character"
  | string => "a string"
  | value => "any valid JSON value"
  | unit => "unit"
  | list _ => "a sequence"
  | option _ => "option"
  | map _ => "a map"

/-- The least integer of a type and the one after its greatest. -/
def range? : NativeType → Option (Int × Int)
  | unsigned bits => some (0, Nat.pow 2 bits)
  | signed bits => some (-Nat.pow 2 (bits - 1), Nat.pow 2 (bits - 1))
  | _ => none

end NativeType

/-- What a value is called where it was not expected. -/
def Json.found : Json → String
  | null => "null"
  | bool b => "boolean `" ++ (if b then "true" else "false") ++ "`"
  | number (.integer n) => "integer `" ++ String.ofList (integerText n) ++ "`"
  | number (.float x) => "floating point `" ++ String.ofList (Layout.json.text x) ++ "`"
  | string s => "string " ++ Text.quoted s
  | array _ => "sequence"
  | object _ => "map"

/-- The message of an error. -/
def ReadError.message : ReadError → String
  | kind found expected => "invalid type: " ++ found.found ++ ", expected " ++ expected.expectation
  | value found expected =>
    "invalid value: " ++ found.found ++ ", expected " ++ expected.expectation

/-- A number of native code on the wire, where one that is not finite is null. -/
def Json.ofBinary64 (x : Binary64) : Json :=
  if x.isFinite then number (.float x) else null

namespace NativeType

/-- Every item of a list, as it is read. -/
def readItems (read : Json → Except ReadError Json) : List Json → Except ReadError (List Json)
  | [] => .ok []
  | v :: rest => do return (← read v) :: (← readItems read rest)

/-- The value of every member of an object, as it is read. -/
def readMembers (read : Json → Except ReadError Json) :
    List (String × Json) → Except ReadError (List (String × Json))
  | [] => .ok []
  | (k, v) :: rest => do return (k, ← read v) :: (← readMembers read rest)

/-- The value at a type, as it is written back. -/
def read : NativeType → Json → Except ReadError Json
  | bool, .bool b => .ok (.bool b)
  | single, .number (.integer n) => .ok (.ofBinary64 (.singleOfInt n))
  | single, .number (.float x) => .ok (.ofBinary64 x.toSingle)
  | double, .number n => .ok (.ofBinary64 n.toBinary64)
  | char, .string s =>
    if s.toList.length = 1 then .ok (.string s) else .error (.value (.string s) char)
  | string, .string s => .ok (.string s)
  | value, v => .ok v
  | unit, .null => .ok .null
  | list element, .array items => (readItems element.read items).map .array
  | option _, .null => .ok .null
  | option inner, v => inner.read v
  | map inner, .object members => (readMembers inner.read members).map .object
  | type, .number (.integer n) =>
    match type.range? with
    | some (least, bound) =>
      if least ≤ n && n < bound then .ok (.number (.integer n))
      else .error (.value (.number (.integer n)) type)
    | none => .error (.kind (.number (.integer n)) type)
  | type, v => .error (.kind v type)

end NativeType

/-- The argument of a call at a place. -/
def readArgument (type : NativeType) (arguments : List Json) (index : Nat) : Except Failure Json :=
  match arguments[index]? with
  | none => .error ⟨.argumentParsing, "missing argument " ++ Nat.repr index⟩
  | some v =>
    (type.read v).mapError fun e =>
      ⟨.argumentParsing, "argument " ++ Nat.repr index ++ ": " ++ e.message⟩

/-- The type of native code for a primitive. -/
def Primitive.native : Primitive → NativeType
  | bool => .bool
  | u8 => .unsigned 8
  | i8 => .signed 8
  | i16 => .signed 16
  | i32 => .signed 32
  | i64 => .signed 64
  | f32 => .single
  | f64 => .double
  | char => .char
  | string => .string

/-- The type of native code for a type without data types of its own. -/
def BridgeType.native? : BridgeType → Option NativeType
  | primitive p => some p.native
  | nullable inner => inner.native?.map .option
  | list element => element.native?.map .list
  | map value => value.native?.map .map
  | data _ | enum _ => none

end PlatformBridge
