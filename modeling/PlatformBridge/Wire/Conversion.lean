import PlatformBridge.Contract.Basic
import PlatformBridge.Decimal.Layout
import PlatformBridge.Json.Printer
import PlatformBridge.Wire.Data

/-!
# Conversion

Values cross the boundary as documents whose shape a contract decides: a composite is an object with
one member per field, inherited fields first; an enumeration is the name of a member; a character is
a text of one character. A value that may be absent is null or the value itself, so on the wire a
type inside any number of absences looks the same, and both directions look through them first. That
leaves recursion on the value alone, also for types that contain themselves.

Every error says where in the value it is. Members of an object are visited in the order of their
keys, fields of a composite in the order of the contract, and the first error counts.

## Main definitions

* `Location`, `ConversionError`: What is wrong with a value, and where.
* `Contract.decode`: The data in a document.
* `Contract.encode`: The document of data.
* `Contract.check`: What is wrong with a document at a type, if anything.
-/

namespace PlatformBridge

/-- A place inside a value. -/
inductive Location where
  | root
  | item (of : Location) (index : Nat)
  | member (of : Location) (key : String)
  deriving DecidableEq, Repr, Inhabited

/-- The text of a place. -/
def Location.text : Location → String
  | root => "$"
  | item of index => of.text ++ "[" ++ Nat.repr index ++ "]"
  | member of key => of.text ++ "." ++ key

/-- What is wrong with a value at its type. -/
inductive ConversionError where
  /-- A value of another kind. -/
  | mismatch (place : Location) (expected : BridgeType) (found : String)
  /-- A number that the type does not have. -/
  | outOfRange (place : Location) (value : String) (expected : Primitive)
  /-- A field that may not be left out. -/
  | missingField (place : Location) (field : String)
  /-- A member that is no field. -/
  | unknownField (place : Location) (field : String)
  /-- A name that is no member of the enumeration. -/
  | unknownMember (place : Location) (member : String) (type : TypeName)
  /-- A type that the contract does not define. -/
  | unknownType (place : Location) (type : TypeName)
  deriving DecidableEq, Repr

/-- The message of an error. -/
def ConversionError.message : ConversionError → String
  | mismatch place expected found =>
    place.text ++ ": expected " ++ expected.display ++ ", found " ++ found
  | outOfRange place value expected =>
    place.text ++ ": " ++ value ++ " is out of range for " ++ expected.typeName
  | missingField place field => place.text ++ ": missing field `" ++ field ++ "`"
  | unknownField place field => place.text ++ ": unknown field `" ++ field ++ "`"
  | unknownMember place member type =>
    place.text ++ ": `" ++ member ++ "` is not a member of " ++ type
  | unknownType place type => place.text ++ ": type " ++ type ++ " is not part of the contract"

/-- The double nearest to a number of the wire. -/
def Json.Number.toBinary64 : Json.Number → Binary64
  | integer n => .ofInt n
  | float x => x

namespace BridgeType

/-- The type of the values that are not absent. -/
def present : BridgeType → BridgeType
  | nullable inner => inner.present
  | type => type

end BridgeType

namespace Primitive

/-- Whether a number is one of a floating-point type; on the wire only finite ones are. -/
def holdsFloat (p : Primitive) (x : Binary64) : Bool :=
  match p with
  | f32 => x.isFinite && x.absLe .singleMax
  | f64 => x.isFinite
  | _ => false

/-- Whether a number is one of an integer type. -/
def holdsInteger (p : Primitive) (n : Int) : Bool :=
  match p.integerRange? with
  | some (least, greatest) => least ≤ n && n ≤ greatest
  | none => false

/-- The data in a value without parts. -/
def decode (p : Primitive) (place : Location) (value : Json) : Except ConversionError Data :=
  match p, value with
  | bool, .bool b => .ok (.bool b)
  | string, .string s => .ok (.string s)
  | char, .string s =>
    match s.toList with
    | [c] => .ok (.char c)
    | cs => .error (.mismatch place (.primitive char)
        ("string of " ++ Nat.repr cs.length ++ " characters"))
  | f32, .number n | f64, .number n =>
    if p.holdsFloat n.toBinary64 then .ok (.float n.toBinary64)
    else .error (.outOfRange place (String.ofList (n.text .json)) p)
  | _, .number n =>
    if p.integerRange?.isNone then .error (.mismatch place (.primitive p) value.kind)
    else
      match n with
      | .integer i =>
        if p.holdsInteger i then .ok (.integer i)
        else .error (.outOfRange place (String.ofList (n.text .json)) p)
      | .float _ => .error (.outOfRange place (String.ofList (n.text .json)) p)
  | _, _ => .error (.mismatch place (.primitive p) value.kind)

/-- The document of data without parts. -/
def encode (p : Primitive) (place : Location) (data : Data) : Except ConversionError Json :=
  match p, data with
  | bool, .bool b => .ok (.bool b)
  | string, .string s => .ok (.string s)
  | char, .char c => .ok (.string (String.ofList [c]))
  | f32, .float x | f64, .float x =>
    if p.holdsFloat x then .ok (.number (.float x))
    else .error (.outOfRange place (String.ofList (Layout.plain.text x)) p)
  | _, .integer n =>
    if p.integerRange?.isNone then .error (.mismatch place (.primitive p) data.kind)
    else if p.holdsInteger n then .ok (.number (.integer n))
    else .error (.outOfRange place (String.ofList (Json.integerText n)) p)
  | _, _ => .error (.mismatch place (.primitive p) data.kind)

end Primitive

namespace Contract

/-- The fields of a composite, inherited ones first. -/
def fieldsOf (c : Contract) (place : Location) (name : TypeName) :
    Except ConversionError (List Field) :=
  match c.dataType? name with
  | some ⟨_, .composite _ _⟩ => .ok (c.fieldsWithInherited name)
  | _ => .error (.unknownType place name)

/-- Passes if a name is a member of an enumeration. -/
def checkMember (c : Contract) (place : Location) (name : TypeName) (member : String) :
    Except ConversionError Unit :=
  match c.dataType? name with
  | some ⟨_, .enumeration members⟩ =>
    if members.contains member then .ok () else .error (.unknownMember place member name)
  | _ => .error (.unknownType place name)

/-- Converts what is given for every field, in the order of the fields. A field that may be absent
    may also be left out. Of several entries of a name the first counts. -/
def convertFields {α : Type} (absent : α) (place : Location)
    (entries : List (String × (BridgeType → Location → Except ConversionError α))) :
    List Field → Except ConversionError (List (String × α))
  | [] => .ok []
  | f :: rest => do
    let value ← match entries.find? fun e => e.1 = f.name with
      | some (_, convert) => convert f.type (.member place f.name)
      | none =>
        if f.type.isNullable then .ok absent else .error (.missingField place f.name)
    return (f.name, value) :: (← convertFields absent place entries rest)

/-- Converts the entries of a record. The first entry that is no field is an error before any other.
    -/
def convertRecord {α : Type} (c : Contract) (absent : α) (place : Location) (name : TypeName)
    (entries : List (String × (BridgeType → Location → Except ConversionError α))) :
    Except ConversionError (List (String × α)) := do
  let fields ← c.fieldsOf place name
  if let some unknown := entries.find? fun e => !fields.any fun f => f.name = e.1 then
    throw (.unknownField place unknown.1)
  convertFields absent place entries fields

/-- Converts items one after the other, `index` being the place of the first. -/
def convertItems {α : Type} (element : BridgeType) (place : Location) (index : Nat) :
    List (BridgeType → Location → Except ConversionError α) → Except ConversionError (List α)
  | [] => .ok []
  | convert :: rest => do
    let item ← convert element (.item place index)
    return item :: (← convertItems element place (index + 1) rest)

/-- Converts the values of entries one after the other. -/
def convertEntries {α : Type} (type : BridgeType) (place : Location) :
    List (String × (BridgeType → Location → Except ConversionError α)) →
    Except ConversionError (List (String × α))
  | [] => .ok []
  | (key, convert) :: rest => do
    let value ← convert type (.member place key)
    return (key, value) :: (← convertEntries type place rest)

/-- The data in a value that is not made of others. -/
def decodeLeaf (c : Contract) (value : Json) (type : BridgeType) (place : Location) :
    Except ConversionError Data :=
  match type, value with
  | .primitive p, _ => p.decode place value
  | .enum name, .string s => (c.checkMember place name s).map fun _ => .enum s
  | _, _ => .error (.mismatch place type value.kind)

/-- The document of data that is not made of others. -/
def encodeLeaf (c : Contract) (data : Data) (type : BridgeType) (place : Location) :
    Except ConversionError Json :=
  match type, data with
  | .primitive p, _ => p.encode place data
  | .enum name, .enum member => (c.checkMember place name member).map fun _ => .string member
  | _, _ => .error (.mismatch place type data.kind)

mutual

/-- The data in the document of a value of a type. -/
def decode (c : Contract) : Json → BridgeType → Location → Except ConversionError Data
  | .null, type, place =>
    if type.isNullable then .ok .null else c.decodeLeaf .null type place
  | .array items, type, place =>
    match type.present with
    | .list element => (convertItems element place 0 (c.decodeItems items)).map .list
    | present => c.decodeLeaf (.array items) present place
  | .object members, type, place =>
    match type.present with
    | .map value => (convertEntries value place (c.decodeMembers members)).map .map
    | .data name =>
      (c.convertRecord .null place name (c.decodeMembers members)).map .record
    | present => c.decodeLeaf (.object members) present place
  | .bool b, type, place => c.decodeLeaf (.bool b) type.present place
  | .number n, type, place => c.decodeLeaf (.number n) type.present place
  | .string s, type, place => c.decodeLeaf (.string s) type.present place

/-- `decode` on every item, its type and place still open. -/
def decodeItems (c : Contract) :
    List Json → List (BridgeType → Location → Except ConversionError Data)
  | [] => []
  | v :: rest => c.decode v :: c.decodeItems rest

/-- `decode` on the value of every member, its type and place still open. -/
def decodeMembers (c : Contract) :
    List (String × Json) → List (String × (BridgeType → Location → Except ConversionError Data))
  | [] => []
  | (k, v) :: rest => (k, c.decode v) :: c.decodeMembers rest

end

mutual

/-- The document of data of a type. -/
def encode (c : Contract) : Data → BridgeType → Location → Except ConversionError Json
  | .null, type, place =>
    if type.isNullable then .ok .null else c.encodeLeaf .null type place
  | .list items, type, place =>
    match type.present with
    | .list element => (convertItems element place 0 (c.encodeItems items)).map .array
    | present => c.encodeLeaf (.list items) present place
  | .map entries, type, place =>
    match type.present with
    | .map value => (convertEntries value place (c.encodeEntries entries)).map .object
    | present => c.encodeLeaf (.map entries) present place
  | .record fields, type, place =>
    match type.present with
    | .data name =>
      (c.convertRecord .null place name (c.encodeEntries fields)).map .ofMembers
    | present => c.encodeLeaf (.record fields) present place
  | .enum member, type, place => c.encodeLeaf (.enum member) type.present place
  | .bool b, type, place => c.encodeLeaf (.bool b) type.present place
  | .integer n, type, place => c.encodeLeaf (.integer n) type.present place
  | .float x, type, place => c.encodeLeaf (.float x) type.present place
  | .char k, type, place => c.encodeLeaf (.char k) type.present place
  | .string s, type, place => c.encodeLeaf (.string s) type.present place

/-- `encode` on every item, its type and place still open. -/
def encodeItems (c : Contract) :
    List Data → List (BridgeType → Location → Except ConversionError Json)
  | [] => []
  | v :: rest => c.encode v :: c.encodeItems rest

/-- `encode` on the value of every entry, its type and place still open. -/
def encodeEntries (c : Contract) :
    List (String × Data) → List (String × (BridgeType → Location → Except ConversionError Json))
  | [] => []
  | (k, v) :: rest => (k, c.encode v) :: c.encodeEntries rest

end

/-- Passes if a document is that of a value of a type. -/
def check (c : Contract) (value : Json) (type : BridgeType) : Except ConversionError Unit :=
  (c.decode value type .root).map fun _ => ()

end Contract

end PlatformBridge
