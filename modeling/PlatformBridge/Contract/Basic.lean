import PlatformBridge.Contract.BridgeType
import PlatformBridge.Contract.NameSet
import PlatformBridge.Library.Declaration

/-!
# Contracts

A contract is what the two sides agree on: services with their operations and events, and the data
types that go with them. Names are looked up from the front, so of several definitions of one name
the first counts. The fields of a composite are its own after those of its bases.

## Main definitions

* `Operation`, `Event`, `Service`, `DataType`, `Contract`: The parts of a contract.
* `Contract.operation?`, `Contract.event?`, `Contract.dataType?`: Definitions by name.
* `Contract.fieldsWithInherited`: The fields of a composite, inherited ones first.
-/

namespace PlatformBridge

/-- How an operation answers. -/
inductive ReplyMode where
  /-- Not at all. -/
  | fireAndForget
  /-- With a value. -/
  | sync (value : BridgeType)
  /-- Later, with a value or with nothing but the fact. -/
  | async (value : Option BridgeType)
  deriving DecidableEq, Repr, Inhabited

/-- The type of the value in an answer. -/
def ReplyMode.value? : ReplyMode → Option BridgeType
  | fireAndForget => none
  | sync value => some value
  | async value => value

/-- A parameter of an operation. -/
structure Parameter where
  name : String
  type : BridgeType
  mode : Passing
  deriving DecidableEq, Repr, Inhabited

/-- An operation of a service. -/
structure Operation where
  name : String
  id : MemberId
  parameters : List Parameter
  returns : ReplyMode
  isStatic : Bool
  canonicalSignature : String
  formalSignature : String
  deriving DecidableEq, Repr, Inhabited

/-- An event of a service. -/
structure Event where
  name : String
  id : MemberId
  payload : Option BridgeType
  deriving DecidableEq, Repr, Inhabited

/-- A service. -/
structure Service where
  name : TypeName
  operations : List Operation
  events : List Event
  /-- The data types its operations and events mention. -/
  dataTypes : NameSet
  deriving DecidableEq, Repr, Inhabited

/-- A field of a data type. -/
structure Field where
  name : String
  type : BridgeType
  deriving DecidableEq, Repr, Inhabited

/-- What the values of a data type are. -/
inductive DataShape where
  | composite (fields : List Field) (base : Option TypeName)
  | enumeration (members : List String)
  deriving DecidableEq, Repr, Inhabited

/-- A data type. -/
structure DataType where
  name : TypeName
  shape : DataShape
  deriving DecidableEq, Repr, Inhabited

/-- What the two sides agree on. -/
structure Contract where
  assembly : String
  services : List Service
  dataTypes : List DataType
  deriving DecidableEq, Repr, Inhabited

namespace Contract

/-- The service of a name. -/
def service? (c : Contract) (name : TypeName) : Option Service :=
  c.services.find? fun s => s.name = name

/-- The operation of an id, with its service. -/
def operation? (c : Contract) (id : MemberId) : Option (Service × Operation) :=
  c.services.findSome? fun s =>
    (s.operations.find? fun o => o.id = id).map fun o => (s, o)

/-- The event of an id. -/
def event? (c : Contract) (id : MemberId) : Option Event :=
  c.services.findSome? fun s => s.events.find? fun e => e.id = id

/-- The data type of a name. -/
def dataType? (c : Contract) (name : TypeName) : Option DataType :=
  c.dataTypes.find? fun d => d.name = name

/-- The fields and the base of a name that is defined as a composite. -/
def composite? (c : Contract) (name : TypeName) : Option (List Field × Option TypeName) :=
  match c.dataType? name with
  | some ⟨_, .composite fields base⟩ => some (fields, base)
  | _ => none

/-- The composites met by following bases from a name, with their own fields, until a name comes
    again, is not defined, or is no composite. -/
def chain (c : Contract) : Nat → List TypeName → TypeName → List (TypeName × List Field)
  | 0, _, _ => []
  | fuel + 1, seen, name =>
    if seen.contains name then []
    else
      match c.composite? name with
      | none => []
      | some (fields, none) => [(name, fields)]
      | some (fields, some base) => (name, fields) :: c.chain fuel (name :: seen) base

/-- The fields of a composite, those of its bases first; none for any other name. The names on the
    way are distinct and defined, so there are at most as many as data types. -/
def fieldsWithInherited (c : Contract) (name : TypeName) : List Field :=
  (c.chain (c.dataTypes.length + 1) [] name).reverse.flatMap (·.2)

end Contract

end PlatformBridge
