import PlatformBridge.Proofs.Contract.Lookup

/-!
# Closed Contracts

A contract is closed if it can be used without asking anyone else: every name
that occurs in one of its types is defined in it, as what the type says it is,
and so is every base. Types occur in the fields of data types, in the
parameters and answers of operations, and as what events carry, and inside
these at any depth.

Closedness speaks about all occurrences at once. What an argument by recursion
on a type needs is the same fact about one type and its parts, which is
`Resolves`. It is an inductive predicate with one rule for each form of type,
so that inverting it hands the hypothesis on to the part.

A type has room for one name only: lists, optional types and maps have one
part that may be named, the keys of a map being primitive. `named?_eq_some_iff`
states this, and it is why the code can ask a type for its name and need not
ask for a list of names.

Fields may be inherited, and a codec reads the types of all of them. Inherited
or not, a field is written in the composite that declares it, and so its type
occurs in the contract. That composites have their bases defined does not
matter for this, as a walk along bases ends where a base is missing.

## Main definitions

* `BridgeType.parts`: A type and the types inside it.
* `Operation.types`, `Event.types`, `Service.types`, `DataType.types`: The
  types that are written in parts of a contract.
* `Contract.types`, `Contract.Mentions`: The types that are written in a
  contract, and all that occur in them.
* `Contract.IsClosed`: Every name that occurs is defined.
* `Contract.Resolves`: Every name inside a type is defined.

## Theorems

* `BridgeType.mem_parts_trans`: Parts of parts.
* `BridgeType.named?_eq_some_iff`: The name a type mentions is the one that
  occurs in it.
* `Contract.Mentions.of_mem_parts`: What occurs in a type that occurs, occurs.
* `Contract.IsClosed.resolves`: In a closed contract every type that occurs
  resolves.
* `Contract.mentions_of_mem_fieldsWithInherited`,
  `Contract.IsClosed.resolves_field`: So do the types of all fields, inherited
  ones included.
* `Contract.IsClosed.exists_dataType`: A name that occurs is that of a data
  type.
-/

namespace PlatformBridge

namespace BridgeType

/-- A type and the types inside it. -/
def parts : BridgeType → List BridgeType
  | primitive p => [primitive p]
  | nullable inner => nullable inner :: inner.parts
  | list element => list element :: element.parts
  | map value => map value :: value.parts
  | data name => [data name]
  | enum name => [enum name]

theorem mem_parts_self (t : BridgeType) : t ∈ t.parts := by
  cases t <;> exact List.mem_cons_self

/-- What is inside a part is inside the whole. -/
theorem mem_parts_trans (t u v : BridgeType) (hu : u ∈ t.parts) (hv : v ∈ u.parts) :
    v ∈ t.parts := by
  induction t with
  | primitive p =>
      rw [parts, List.mem_singleton] at hu
      exact hu ▸ hv
  | nullable inner ih | list inner ih | map inner ih =>
      rw [parts, List.mem_cons] at hu
      rcases hu with rfl | hu
      · exact hv
      · exact List.mem_cons_of_mem _ (ih hu)
  | data name =>
      rw [parts, List.mem_singleton] at hu
      exact hu ▸ hv
  | enum name =>
      rw [parts, List.mem_singleton] at hu
      exact hu ▸ hv

/-- A type has room for one name only, and mentions it if it occurs at any depth. -/
theorem named?_eq_some_iff (t : BridgeType) (name : TypeName) :
    t.named? = some name ↔ .data name ∈ t.parts ∨ .enum name ∈ t.parts := by
  induction t with
  | primitive p => simp only [named?, parts, List.mem_singleton, reduceCtorEq, or_self]
  | nullable inner ih | list inner ih | map inner ih =>
      rw [named?, ih, parts]
      simp only [List.mem_cons, reduceCtorEq, false_or]
  | data n =>
      simp only [named?, parts, List.mem_singleton, Option.some.injEq, data.injEq, reduceCtorEq,
        or_false]
      exact eq_comm
  | enum n =>
      simp only [named?, parts, List.mem_singleton, Option.some.injEq, enum.injEq, reduceCtorEq,
        false_or]
      exact eq_comm

end BridgeType

/-- The types of the parameters of an operation and of its answer. -/
def Operation.types (o : Operation) : List BridgeType :=
  o.parameters.map (·.type) ++ o.returns.value?.toList

/-- The type of what an event carries. -/
def Event.types (e : Event) : List BridgeType := e.payload.toList

/-- The types of the operations and events of a service. -/
def Service.types (s : Service) : List BridgeType :=
  s.operations.flatMap (·.types) ++ s.events.flatMap (·.types)

/-- The types of the fields of a data type. -/
def DataType.types (d : DataType) : List BridgeType :=
  match d.shape with
  | .composite fields _ => fields.map (·.type)
  | .enumeration _ => []

namespace Contract

/-- The types that are written in a contract. -/
def types (c : Contract) : List BridgeType :=
  c.services.flatMap (·.types) ++ c.dataTypes.flatMap (·.types)

/-- A type occurs in a contract, at any depth. -/
def Mentions (c : Contract) (t : BridgeType) : Prop := ∃ u ∈ c.types, t ∈ u.parts

/-- Every name that occurs in a contract is defined in it. -/
structure IsClosed (c : Contract) : Prop where
  /-- The name of a data type is that of a composite. -/
  data : ∀ name, c.Mentions (.data name) → (c.composite? name).isSome = true
  /-- The name of an enumeration is that of an enumeration. -/
  enum : ∀ name, c.Mentions (.enum name) → (c.enumeration? name).isSome = true
  /-- The base of a composite is a data type. -/
  base : ∀ d ∈ c.dataTypes, ∀ fields base, d.shape = .composite fields (some base) →
    (c.dataType? base).isSome = true
  /-- A value that may be absent is absent in one way only. -/
  nullable : ∀ inner, c.Mentions (.nullable inner) → inner.isNullable = false
  /-- The data types of a service are those that occur in its operations and events. -/
  dataTypes : ∀ s ∈ c.services, ∀ name, name ∈ s.dataTypes.toList
    ↔ ∃ t ∈ s.types, .data name ∈ t.parts ∨ .enum name ∈ t.parts

/-- Every name inside a type is defined in a contract. -/
inductive Resolves (c : Contract) : BridgeType → Prop where
  | primitive (p : Primitive) : Resolves c (.primitive p)
  | nullable (inner : BridgeType) (h : Resolves c inner) : Resolves c (.nullable inner)
  | list (element : BridgeType) (h : Resolves c element) : Resolves c (.list element)
  | map (value : BridgeType) (h : Resolves c value) : Resolves c (.map value)
  | data (name : TypeName) (h : (c.composite? name).isSome = true) : Resolves c (.data name)
  | enum (name : TypeName) (h : (c.enumeration? name).isSome = true) : Resolves c (.enum name)

/-- What occurs in a type that occurs, occurs. -/
theorem Mentions.of_mem_parts {c : Contract} {t u : BridgeType} (ht : c.Mentions t)
    (hu : u ∈ t.parts) : c.Mentions u := by
  rcases ht with ⟨w, hw, htw⟩
  exact ⟨w, hw, w.mem_parts_trans t u htw hu⟩

/-- The types of fields occur in the contract. -/
theorem mentions_field (c : Contract) (d : DataType) (hd : d ∈ c.dataTypes) (fields : List Field)
    (base : Option TypeName) (hshape : d.shape = .composite fields base) (f : Field)
    (hf : f ∈ fields) : c.Mentions f.type := by
  have hmem : f.type ∈ d.types := by
    rw [DataType.types, hshape]
    exact List.mem_map_of_mem hf
  exact ⟨f.type, List.mem_append_right _ (List.mem_flatMap.mpr ⟨d, hd, hmem⟩),
    f.type.mem_parts_self⟩

/-- In a closed contract every type that occurs resolves. -/
theorem IsClosed.resolves {c : Contract} (hc : c.IsClosed) (t : BridgeType)
    (ht : c.Mentions t) : c.Resolves t := by
  induction t with
  | primitive p => exact .primitive p
  | nullable inner ih =>
      exact .nullable inner (ih (ht.of_mem_parts (List.mem_cons_of_mem _ inner.mem_parts_self)))
  | list element ih =>
      exact .list element (ih (ht.of_mem_parts (List.mem_cons_of_mem _ element.mem_parts_self)))
  | map value ih =>
      exact .map value (ih (ht.of_mem_parts (List.mem_cons_of_mem _ value.mem_parts_self)))
  | data name => exact .data name (hc.data name ht)
  | enum name => exact .enum name (hc.enum name ht)

/-- Wherever a field is inherited from, it is written in the composite that declares it. -/
theorem mentions_of_mem_fieldsWithInherited (c : Contract) (name : TypeName) (f : Field)
    (hf : f ∈ c.fieldsWithInherited name) : c.Mentions f.type := by
  rcases c.exists_composite?_of_mem_fieldsWithInherited name f hf with
    ⟨owner, fields, base, howner, hmem⟩
  have hd := c.mem_of_composite?_eq_some owner fields base howner
  exact c.mentions_field _ hd fields base rfl f hmem

/-- In a closed contract the types of all fields resolve, inherited ones included. -/
theorem IsClosed.resolves_field {c : Contract} (hc : c.IsClosed) (name : TypeName) (f : Field)
    (hf : f ∈ c.fieldsWithInherited name) : c.Resolves f.type :=
  hc.resolves f.type (c.mentions_of_mem_fieldsWithInherited name f hf)

/-- A name that occurs in a closed contract is that of one of its data types. -/
theorem IsClosed.exists_dataType {c : Contract} (hc : c.IsClosed) (name : TypeName)
    (h : c.Mentions (.data name) ∨ c.Mentions (.enum name)) : ∃ d ∈ c.dataTypes, d.name = name := by
  rcases h with hdata | henum
  · rcases Option.isSome_iff_exists.mp (hc.data name hdata) with ⟨⟨fields, base⟩, hfind⟩
    exact ⟨_, c.mem_of_composite?_eq_some name fields base hfind, rfl⟩
  · rcases Option.isSome_iff_exists.mp (hc.enum name henum) with ⟨members, hfind⟩
    rw [enumeration?_eq_some_iff] at hfind
    exact ⟨_, (c.mem_of_dataType?_eq_some name _ hfind).1, rfl⟩

end Contract

end PlatformBridge
