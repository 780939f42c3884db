import PlatformBridge.Json.Reader
import PlatformBridge.Spelling.Name

/-!
# Type Expressions

How the description of a library refers to a type: by its name, as an array of an element, or as a
generic type with its arguments. In a document a name is a text, an array an object with the key
`array`, and a generic type an object with the keys `generic` and `arguments`.

## Main definitions

* `TypeExpr`: A reference.
* `TypeExpr.display`: The text of a reference in signatures and messages.
* `TypeExpr.reader`, `TypeExpr.toJson`: Its document.
-/

namespace PlatformBridge

/-- A reference to a type. -/
inductive TypeExpr where
  | named (name : TypeName)
  | array (element : TypeExpr)
  | generic (definition : TypeName) (arguments : List TypeExpr)
  deriving Repr, Inhabited

namespace TypeExpr

/-- Whether the reference is to the type that has no values. -/
def isNothing : TypeExpr → Bool
  | named name => name = "System.Void"
  | _ => false

mutual

/-- The reference as it is shown, a generic type with its arguments in angle brackets. -/
def display : TypeExpr → String
  | named name => name
  | array element => display element ++ "[]"
  | generic definition arguments =>
    TypeName.withoutArity definition ++ "<" ++ ", ".intercalate (displayAll arguments) ++ ">"

/-- `display` of every reference. -/
def displayAll : List TypeExpr → List String
  | [] => []
  | t :: rest => display t :: displayAll rest

end

mutual

/-- The document of a reference. -/
def toJson : TypeExpr → Json
  | named name => .string name
  | array element => .object [("array", toJson element)]
  | generic definition arguments =>
    .object [("generic", .string definition), ("arguments", .array (toJsonAll arguments))]

/-- The documents of references. -/
def toJsonAll : List TypeExpr → List Json
  | [] => []
  | t :: rest => toJson t :: toJsonAll rest

end

/-- Reads a reference that nests less than `fuel` deep, in a document already read whole. An object
    is tried as an array before it is tried as a generic type. -/
def readNested? : Nat → Json.Tree → Option TypeExpr
  | _, .string (some name) => some (named name)
  | fuel + 1, .object members =>
    let read : Json.Reader TypeExpr := fun _ t => readNested? fuel t
    let asArray := Json.Reader.record ["array"]
      (fun r => (r.required "array" read).map array) none (.object members)
    let asGeneric := Json.Reader.record ["generic", "arguments"]
      (fun r => do
        some (generic (← r.required "generic" .text) (← r.required "arguments" (.list read))))
      none (.object members)
    asArray.or asGeneric
  | _, _ => none

/-- Reads a reference. A document nests too little for the fuel to run out. -/
def reader : Json.Reader TypeExpr :=
  Json.Reader.whole fun _ t => readNested? (Json.maxDepth + 1) t

end TypeExpr

end PlatformBridge
