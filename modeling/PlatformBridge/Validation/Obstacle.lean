import PlatformBridge.Contract.Document

/-!
# Obstacles

Which types of a library can cross the boundary, and as what. Signed integers, the unsigned byte,
floating-point numbers, characters and texts can; lists, maps with text keys and absent values can
if what they hold can; a type of the library itself can if it is marked as data. Of everything else
each part that is in the way is told, with the reason.

## Main definitions

* `Obstacle`: A type that is in the way, with the reason.
* `Library.type?`: The type of a name.
* `Library.bridgeType`: What a type is on the bridge, or the parts in the way.
-/

namespace PlatformBridge

/-- Why a type cannot cross. -/
inductive ObstacleKind where
  | unsupportedPrimitive
  | nonStringMapKey
  | unsupportedGeneric
  | notMarked
  | serviceType
  | unknownType
  deriving DecidableEq, Repr, Inhabited

namespace ObstacleKind

/-- The reasons by their names. -/
def names : List (String × ObstacleKind) :=
  [("unsupported_primitive", unsupportedPrimitive), ("non_string_map_key", nonStringMapKey),
    ("unsupported_generic", unsupportedGeneric), ("not_marked", notMarked),
    ("service_type", serviceType), ("unknown_type", unknownType)]

/-- The name of a reason. -/
def text : ObstacleKind → String
  | unsupportedPrimitive => "unsupported_primitive"
  | nonStringMapKey => "non_string_map_key"
  | unsupportedGeneric => "unsupported_generic"
  | notMarked => "not_marked"
  | serviceType => "service_type"
  | unknownType => "unknown_type"

/-- The reason in words. -/
def message : ObstacleKind → String
  | unsupportedPrimitive => "primitive has no Dart representation"
  | nonStringMapKey => "map keys must be System.String"
  | unsupportedGeneric => "generic type is not supported"
  | notMarked => "type is not marked as platform data"
  | serviceType => "service types cannot be passed as data"
  | unknownType => "type is not part of the analyzed metadata"

end ObstacleKind

/-- A type that is in the way. -/
structure Obstacle where
  typeName : String
  reason : ObstacleKind
  deriving DecidableEq, Repr, Inhabited

namespace Obstacle

/-- The type with the reason in brackets. -/
def display (u : Obstacle) : String := u.typeName ++ " (" ++ u.reason.message ++ ")"

/-- Reads a type that is in the way. -/
def reader : Json.Reader Obstacle :=
  .record ["type_name", "reason"] fun r => do
    some ⟨← r.required "type_name" .text, ← r.required "reason" (.name ObstacleKind.names)⟩

/-- The document of a type that is in the way. -/
def toJson (u : Obstacle) : Json :=
  .object [("type_name", .string u.typeName), ("reason", .string u.reason.text)]

end Obstacle

/-- The primitives that the other side has no safe representation of. -/
def foreignPrimitives : List TypeName :=
  ["System.UInt16", "System.UInt32", "System.UInt64", "System.IntPtr", "System.UIntPtr",
    "System.Object", "System.Decimal", "System.Void"]

/-- What a generic type is to the other side. -/
inductive GenericKind where
  | nullable
  | list
  | map
  deriving DecidableEq, Repr

/-- The generic types that can cross: the name, the number of arguments, and the kind. -/
def genericKinds : List (TypeName × Nat × GenericKind) := [
  ("System.Nullable`1", 1, .nullable),
  ("System.Collections.Generic.List`1", 1, .list),
  ("System.Collections.Generic.IList`1", 1, .list),
  ("System.Collections.Generic.ICollection`1", 1, .list),
  ("System.Collections.Generic.IReadOnlyList`1", 1, .list),
  ("System.Collections.Generic.IReadOnlyCollection`1", 1, .list),
  ("System.Collections.Generic.IEnumerable`1", 1, .list),
  ("System.Collections.Generic.Dictionary`2", 2, .map),
  ("System.Collections.Generic.IDictionary`2", 2, .map),
  ("System.Collections.Generic.IReadOnlyDictionary`2", 2, .map)]

/-- The kind of a generic type given with a number of arguments. -/
def GenericKind.of? (definition : TypeName) (count : Nat) : Option GenericKind :=
  (genericKinds.find? fun g => g.1 = definition && g.2.1 = count).map (·.2.2)

/-- What a type is on the bridge, or the parts that are in the way. -/
abbrev Resolved := Except (List Obstacle) BridgeType

namespace Library

/-- The type of a name, the last one if there are several. -/
def type? (a : Library) (name : TypeName) : Option DeclaredType :=
  a.types.reverse.find? fun t => t.name = name

/-- A type by its name. -/
def namedType (a : Library) (name : TypeName) : Resolved :=
  match Primitive.ofTypeName? name with
  | some p => .ok (.primitive p)
  | none =>
    if foreignPrimitives.contains name then .error [⟨name, .unsupportedPrimitive⟩]
    else
      match a.type? name with
      | none => .error [⟨name, .unknownType⟩]
      | some t =>
        if t.kind = .interface || (t.isService && !t.isData) then .error [⟨name, .serviceType⟩]
        else if !t.isData then .error [⟨name, .notMarked⟩]
        else if t.kind = .enum then .ok (.enum name)
        else .ok (.data name)

/-- A map, from the type of its keys and what its values are on the bridge. -/
def mapType (key : TypeExpr) (value : Resolved) : Resolved :=
  let keyCauses := match key with
    | .named "System.String" => []
    | key => [⟨key.display, .nonStringMapKey⟩]
  match value with
  | .ok type => if keyCauses.isEmpty then .ok (.map type) else .error keyCauses
  | .error causes => .error (keyCauses ++ causes)

/-- A generic type, given its arguments and what they are on the bridge. -/
def genericType (definition : TypeName) (arguments : List TypeExpr)
    (resolved : List Resolved) : Resolved :=
  match GenericKind.of? definition arguments.length, arguments, resolved with
  | some .nullable, _, [inner] => inner.map .orNull
  | some .list, _, [element] => element.map .list
  | some .map, key :: _, [_, value] => mapType key value
  | _, _, _ => .error [⟨(TypeExpr.generic definition arguments).display, .unsupportedGeneric⟩]

mutual

/-- What a type is on the bridge, or every part of it that is in the way, from left to right. -/
def bridgeType (a : Library) : TypeExpr → Resolved
  | .named name => a.namedType name
  | .array element => (a.bridgeType element).map .list
  | .generic definition arguments =>
    genericType definition arguments (a.bridgeTypes arguments)

/-- `bridgeType` of every type. -/
def bridgeTypes (a : Library) : List TypeExpr → List Resolved
  | [] => []
  | t :: rest => a.bridgeType t :: a.bridgeTypes rest

end

end Library

end PlatformBridge
