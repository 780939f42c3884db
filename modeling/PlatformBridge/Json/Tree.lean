import PlatformBridge.Json.Token

/-!
# JSON Documents

A document as it is written, before anything has been made of it: members in their order with
repeated keys, numerals as their parts, strings whose text may be unreadable. A machine with a stack
builds it from the tokens, so nesting is bounded by nothing. What a document means is up to who
reads it; `toJson?` reads it as a plain value.

## Main definitions

* `Json.Tree`: A document.
* `Tree.ofTokens?`: The document that tokens spell.
* `Tree.toJson?`: The value of a document.
* `Json.parse?`: The value of a text.
-/

namespace PlatformBridge

namespace Json

/-- A document. A string or key that is no text is `none`. -/
inductive Tree where
  | null
  | bool (b : Bool)
  | number (n : Numeral)
  | string (s : Option String)
  | array (items : List Tree)
  | object (members : List (Option String × Tree))
  deriving Repr, Inhabited

namespace Tree

/-- What a value is inside of: an array with its items so far, or an object with its members so far
    and the key of the value. Both lists are in reverse. -/
inductive Frame where
  | array (items : List Tree)
  | member (members : List (Option String × Tree)) (key : Option String)

/-- What may come next. -/
inductive Builder where
  /-- A value. -/
  | value (stack : List Frame)
  /-- The first item of an array, or its end. -/
  | item (stack : List Frame)
  /-- A key, or, where `mayClose`, the end of an object without members. -/
  | nextKey (members : List (Option String × Tree)) (mayClose : Bool) (stack : List Frame)
  /-- The colon after a key. -/
  | colon (members : List (Option String × Tree)) (key : Option String) (stack : List Frame)
  /-- What follows an item of an array. -/
  | afterItem (items : List Tree) (stack : List Frame)
  /-- What follows a member of an object. -/
  | afterMember (members : List (Option String × Tree)) (stack : List Frame)
  /-- Nothing. -/
  | done (tree : Tree)

namespace Builder

/-- Puts a whole value where it belongs. -/
def place (t : Tree) : List Frame → Builder
  | [] => done t
  | .array items :: stack => afterItem (t :: items) stack
  | .member members key :: stack => afterMember ((key, t) :: members) stack

/-- A token where a value has to start. -/
def begin? (stack : List Frame) : Token → Option Builder
  | .null => some (place .null stack)
  | .bool b => some (place (.bool b) stack)
  | .number n => some (place (.number n) stack)
  | .string s => some (place (.string s) stack)
  | .leftBracket => some (item stack)
  | .leftBrace => some (nextKey [] true stack)
  | _ => none

/-- One token. -/
def step? : Builder → Token → Option Builder
  | value stack, t => begin? stack t
  | item stack, .rightBracket => some (place (.array []) stack)
  | item stack, t => begin? (.array [] :: stack) t
  | nextKey members _ stack, .string s => some (colon members s stack)
  | nextKey _ true stack, .rightBrace => some (place (.object []) stack)
  | colon members key stack, .colon => some (value (.member members key :: stack))
  | afterItem items stack, .comma => some (value (.array items :: stack))
  | afterItem items stack, .rightBracket => some (place (.array items.reverse) stack)
  | afterMember members stack, .comma => some (nextKey members false stack)
  | afterMember members stack, .rightBrace => some (place (.object members.reverse) stack)
  | _, _ => none

/-- Every token, from the first. -/
def run? : Builder → List Token → Option Builder
  | b, [] => some b
  | b, t :: rest =>
    match b.step? t with
    | some b => run? b rest
    | none => none

end Builder

/-- The document that tokens spell, all of them. -/
def ofTokens? (tokens : List Token) : Option Tree :=
  match (Builder.value []).run? tokens with
  | some (.done tree) => some tree
  | _ => none

/-- The document in a sequence of bytes. -/
def ofBytes? (bytes : ByteArray) : Option Tree :=
  (Token.scan? (symbols bytes)).bind ofTokens?

/-- The document in a text. -/
def ofText? (text : String) : Option Tree :=
  (Token.scan? (text.toList.map some)).bind ofTokens?

mutual

/-- The value of a document that nests at most `depth` arrays and objects and whose strings and
    numbers can all be read. -/
def toJson? (depth : Nat) : Tree → Option Json
  | null => some .null
  | bool b => some (.bool b)
  | number n => n.toNumber?.map .number
  | string s => s.map .string
  | array items =>
    match depth with
    | 0 => none
    | depth + 1 => (itemsToJson? depth items).map .array
  | object members =>
    match depth with
    | 0 => none
    | depth + 1 => (membersToJson? depth members).map .ofMembers

/-- `toJson?` on every item. -/
def itemsToJson? (depth : Nat) : List Tree → Option (List Json)
  | [] => some []
  | t :: rest =>
    match toJson? depth t, itemsToJson? depth rest with
    | some v, some vs => some (v :: vs)
    | _, _ => none

/-- `toJson?` on the value of every member. -/
def membersToJson? (depth : Nat) : List (Option String × Tree) → Option (List (String × Json))
  | [] => some []
  | (key, t) :: rest =>
    match key, toJson? depth t, membersToJson? depth rest with
    | some k, some v, some vs => some ((k, v) :: vs)
    | _, _, _ => none

end

end Tree

/-- How many arrays and objects a document may nest. -/
def maxDepth : Nat := 127

/-- The value of a text. -/
def parse? (text : String) : Option Json :=
  (Tree.ofText? text).bind (·.toJson? maxDepth)

end Json

end PlatformBridge
