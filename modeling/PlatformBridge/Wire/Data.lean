import PlatformBridge.Contract.BridgeType

/-!
# Data

Values as native code sees them, once a document has been read at a type of a contract. Integers of
all widths are one kind, as are floating-point numbers of both; a record lists its fields in the
order of the contract; the entries of a map are in the order of their keys.

## Main definitions

* `Data`: A value.
* `Data.ofEntries`: A map, from entries in any order.
* `Data.kind`, `Json.kind`: What a value is called in messages.
-/

namespace PlatformBridge

/-- A value as native code sees it. -/
inductive Data where
  | null
  | bool (b : Bool)
  | integer (n : Int)
  | float (x : Binary64)
  | char (c : Char)
  | string (s : String)
  | list (items : List Data)
  | map (entries : List (String × Data))
  | record (fields : List (String × Data))
  | enum (member : String)
  deriving Repr, Inhabited

namespace Data

/-- Sets the value of a key among entries sorted by key. -/
def insertEntry (key : String) (value : Data) : List (String × Data) → List (String × Data)
  | [] => [(key, value)]
  | (k, v) :: rest =>
    if key = k then (key, value) :: rest
    else if Json.keyBefore key k then (key, value) :: (k, v) :: rest
    else (k, v) :: insertEntry key value rest

/-- The map of some entries; the last one of a key counts. -/
def ofEntries (entries : List (String × Data)) : Data :=
  map (entries.foldl (fun sorted (k, v) => insertEntry k v sorted) [])

/-- What a value is called in messages. -/
def kind : Data → String
  | null => "null"
  | bool _ => "boolean"
  | integer _ => "integer"
  | float _ => "float"
  | char _ => "char"
  | string _ => "string"
  | list _ => "list"
  | map _ => "map"
  | record _ => "record"
  | enum _ => "enum member"

end Data

/-- What a value of the wire is called in messages. -/
def Json.kind : Json → String
  | null => "null"
  | bool _ => "boolean"
  | number _ => "number"
  | string _ => "string"
  | array _ => "array"
  | object _ => "object"

end PlatformBridge
