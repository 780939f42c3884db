import PlatformBridge.Validation.Finding

/-!
# Data Types

A marked enumeration needs a member, and a marked class or structure needs fields that can cross the
boundary; a marked interface is refused. Marking is also closed under bases: the base of a marked
type has to be marked. A type without a mark whose base has one is not offered, which is worth a
note.

## Main definitions

* `DeclaredType.declaredBase?`: The base of a type, unless every type of its kind has that base.
* `Library.inheritanceFindings`: What is found about bases.
* `Library.dataTypeOf`: The definition of a marked type, or the finding that refuses it.
-/

namespace PlatformBridge

/-- The bases that every type of some kind has. -/
def implicitBases : List TypeName := ["System.Object", "System.ValueType", "System.Enum"]

/-- The base of a type, unless every type of its kind has that base. -/
def DeclaredType.declaredBase? (t : DeclaredType) : Option TypeName :=
  t.base.filter fun b => !implicitBases.contains b

namespace Library

/-- Whether a name is that of a type marked as data. -/
def isMarkedData (a : Library) (name : TypeName) : Bool :=
  (a.type? name).any (·.isData)

/-- Whether a type and its base do not agree in their marks in a way that is told. -/
def disagrees (a : Library) (base : TypeName) (t : DeclaredType) : Bool :=
  t.declaredBase? = some base
    && if a.isMarkedData base then !t.isData && t.kind ≠ .interface else t.isData

/-- The bases that some type does not agree with, in the order in which they are met. -/
def disputedBases (a : Library) : List TypeName :=
  (a.types.filterMap fun t =>
      t.declaredBase?.filter fun base => a.disagrees base t).foldl
    (fun kept base => if kept.contains base then kept else kept ++ [base]) []

/-- The finding about the types that do not agree with a base. -/
def inheritanceFinding (a : Library) (base : TypeName) : Finding :=
  let subtypes := (a.types.filter (a.disagrees base)).map (·.name)
  if a.isMarkedData base then
    .of .unmarkedDataSubtype base "unmarked subtypes of this data type are not exposed" subtypes []
  else
    .of .unsupportedInheritedDataType base
      "base type must be marked as platform data because marked subtypes derive from it" subtypes []

/-- What is found about bases. -/
def inheritanceFindings (a : Library) : List Finding :=
  a.disputedBases.map a.inheritanceFinding

/-- The definition of a marked type, or the finding that refuses it. -/
def dataTypeOf (a : Library) (t : DeclaredType) : Except Finding DataType :=
  let refuse detail causes := .error (.of .unsupportedDataType t.name detail [] causes)
  match t.kind with
  | .enum =>
    if t.members.isEmpty then refuse "enumerations must declare at least one member" []
    else .ok ⟨t.name, .enumeration t.members⟩
  | .interface => refuse "interfaces cannot be marked as platform data" []
  | .classType | .struct =>
    let resolved := t.fields.map fun f => (f.name, a.bridgeType f.type)
    let causes := resolved.flatMap fun
      | (_, .error causes) => causes
      | (_, .ok _) => []
    if causes.isEmpty then
      let fields := resolved.filterMap fun (name, result) =>
        result.toOption.map fun type => ⟨name, type⟩
      .ok ⟨t.name, .composite fields (t.declaredBase?.filter a.isMarkedData)⟩
    else refuse "data type has fields that cannot cross the boundary" causes

end Library

end PlatformBridge
