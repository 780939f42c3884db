import PlatformBridge.Decimal.Layout

/-!
# JSON Values

Values of the wire format. An object is the list of its members in the order in which they are
written; `ofMembers` gives the order of the keys, in which a later member replaces an earlier one of
the same key. Keys are ordered by code point, which is the order of their UTF-8 bytes; `sorted`
orders the members of a whole value by any order of keys.

## Main definitions

* `Json.Number`: An integer of 64 bits with or without sign, or a finite double.
* `Json`: A value.
* `Json.insertMember`, `Json.ofMembers`: Objects with sorted, distinct keys.
* `Json.find?`: The member of an object.
-/

namespace PlatformBridge

/-- A number. Integers between `-2 ^ 63` and `2 ^ 64 - 1` are kept exactly. -/
inductive Json.Number where
  | integer (n : Int)
  | float (x : Binary64)
  deriving DecidableEq, Repr, Inhabited

/-- A value. -/
inductive Json where
  | null
  | bool (b : Bool)
  | number (n : Json.Number)
  | string (s : String)
  | array (items : List Json)
  | object (members : List (String × Json))
  deriving Repr, Inhabited

namespace Json

/-- A natural number as a value. -/
def ofNat (n : Nat) : Json := number (.integer n)

/-- A text, or null in place of an absent one. -/
def ofOption : Option String → Json
  | some s => string s
  | none => null

/-- A list of texts. -/
def ofStrings (texts : List String) : Json := array (texts.map string)

/-- Sets the member of a key among members sorted by key. -/
def insertMember (before : String → String → Bool) (key : String) (value : Json) :
    List (String × Json) → List (String × Json)
  | [] => [(key, value)]
  | (k, v) :: rest =>
    if key = k then (key, value) :: rest
    else if before key k then (key, value) :: (k, v) :: rest
    else (k, v) :: insertMember before key value rest

/-- Members in the order of their keys, the last of each key. -/
def sortMembers (before : String → String → Bool) (members : List (String × Json)) :
    List (String × Json) :=
  members.foldl (fun sorted (k, v) => insertMember before k v sorted) []

/-- The order of keys by code point. -/
def keyBefore (a b : String) : Bool := a < b

/-- The object of some members, sorted by key; the last member of a key counts. -/
def ofMembers (members : List (String × Json)) : Json := object (sortMembers keyBefore members)

/-- The member of a key. -/
def find? (members : List (String × Json)) (key : String) : Option Json :=
  (members.find? fun m => m.1 = key).map (·.2)

/-- The member of a key, if the value is an object that has one. -/
def get? (value : Json) (key : String) : Option Json :=
  match value with
  | object members => find? members key
  | _ => none

mutual

/-- The value with the members of every object in it sorted. -/
def sorted (before : String → String → Bool) : Json → Json
  | array items => array (sortedItems before items)
  | object members => object (sortMembers before (sortedMembers before members))
  | null => null
  | bool b => bool b
  | number n => number n
  | string s => string s

/-- `sorted` on every item. -/
def sortedItems (before : String → String → Bool) : List Json → List Json
  | [] => []
  | v :: rest => sorted before v :: sortedItems before rest

/-- `sorted` on the value of every member. -/
def sortedMembers (before : String → String → Bool) : List (String × Json) → List (String × Json)
  | [] => []
  | (k, v) :: rest => (k, sorted before v) :: sortedMembers before rest

end

end Json

end PlatformBridge
