import PlatformBridge.Dart.Expression
import PlatformBridge.Proofs.Contract.Closed

/-!
# Encoding Layer by Layer

A type is a leaf with layers around it, each of which makes the values inside
it absent, listed or mapped. The expression that encodes a value of the type
is built in the same way, with a converter for each layer, from the outside
in. A converter is left out where the parts of a value need no conversion, and
whether they do is told by the text of their conversion: it is compared with
the variable that holds them.

That the comparison is right at every layer rests on one fact. A conversion
that does anything is longer than what it is applied to, so a variable is the
text of its own conversion only if there is nothing to convert in it. Lengths
are enough for this; what the texts are does not matter. The induction is over
the type, since a layer that gets its converter makes the conversion around it
longer in turn.

Layers are a type of their own, although a type could be taken apart by its
constructors. Three of these would be treated alike in every proof, and what is
said of a layer is said once. `dartEncode_by_layers` is then about any number
of layers, with a leaf that is a data type or an enumeration.

Each layer binds a variable, named by its depth. `holder` says which variable
holds what is inside a number of layers, and the converter at that place is
applied to it.

## Main definitions

* `Layer`, `Layer.around`, `Layer.converter`: A layer, what it makes of a
  type, and its converter.
* `BridgeType.layers`, `BridgeType.leaf`: What a type is made of.
* `BridgeType.holder`: What holds the value inside a number of layers.
* `BridgeType.converted`: The converters of some layers around the conversion
  of a leaf.

## Theorems

* `BridgeType.foldr_around_layers`: A type is its leaf with its layers around
  it.
* `BridgeType.converted_cons`: The converters of layers by the first one.
* `BridgeType.dartEncode_of_named?_eq_none`, `BridgeType.length_lt_dartEncode`:
  A conversion that does nothing, and one that does something.
* `BridgeType.dartEncode_eq_self_iff`: Which conversions do nothing.
* `BridgeType.dartEncode_around`: The conversion of a layer.
* `BridgeType.dartEncode_eq_converted`: The conversion of all layers.
* `BridgeType.dartEncode_by_layers`: The conversion of a type.
-/

namespace PlatformBridge

/-- What a type does with the values of the type inside it. -/
inductive Layer where
  /-- They may be absent. -/
  | nullable
  /-- They are listed. -/
  | list
  /-- They are mapped. -/
  | map
  deriving DecidableEq, Repr

namespace Layer

/-- A type with a layer around it. -/
def around (layer : Layer) (inner : BridgeType) : BridgeType :=
  match layer with
  | nullable => .nullable inner
  | list => .list inner
  | map => .map inner

/-- The converter of a layer. It is applied to a value, and converts the parts of the value, which
    it binds to the variable of a depth, by an expression. -/
def converter (layer : Layer) (value : String) (depth : Nat) (part : String) : String :=
  match layer with
  | nullable =>
    "encodeNullable(" ++ value ++ ", (" ++ BridgeType.dartVariable depth ++ ") => " ++ part ++ ")"
  | list => value ++ ".map((" ++ BridgeType.dartVariable depth ++ ") => " ++ part ++ ").toList()"
  | map =>
    value ++ ".map((k" ++ toString depth ++ ", " ++ BridgeType.dartVariable depth
      ++ ") => MapEntry(k" ++ toString depth ++ ", " ++ part ++ "))"

-- Every converter has code of its own.
theorem length_lt_converter (layer : Layer) (value : String) (depth : Nat) (part : String) :
    value.length < (layer.converter value depth part).length := by
  cases layer with
  | nullable =>
      have hcode : 0 < "encodeNullable(".length := by decide
      unfold converter
      simp only [String.append_assoc, String.length_append]
      exact Nat.lt_of_le_of_lt (Nat.le_add_right value.length _) (Nat.lt_add_of_pos_left hcode)
  | list =>
      have hcode : 0 < ".map((".length := by decide
      unfold converter
      simp only [String.append_assoc, String.length_append]
      exact Nat.lt_add_of_pos_right (Nat.add_pos_left hcode _)
  | map =>
      have hcode : 0 < ".map((k".length := by decide
      unfold converter
      simp only [String.append_assoc, String.length_append]
      exact Nat.lt_add_of_pos_right (Nat.add_pos_left hcode _)

end Layer

namespace BridgeType

/-- The layers of a type, from the outside in. -/
def layers : BridgeType → List Layer
  | nullable inner => .nullable :: inner.layers
  | list element => .list :: element.layers
  | map value => .map :: value.layers
  | _ => []

/-- What is inside all layers of a type. -/
def leaf : BridgeType → BridgeType
  | nullable inner => inner.leaf
  | list element => element.leaf
  | map value => value.leaf
  | type => type

/-- What holds the value inside a number of layers: the expression that is converted, or the
    variable that the last of these layers binds. -/
def holder (value : String) (depth : Nat) : Nat → String
  | 0 => value
  | i + 1 => dartVariable (depth + i)

/-- The converters of some layers, one inside the other, around the conversion of a leaf. -/
def converted (layers : List Layer) (value : String) (depth : Nat) (ending : String) : String :=
  layers.zipIdx.foldr
    (fun place part => place.1.converter (holder value depth place.2) (depth + place.2) part)
    (holder value depth layers.length ++ ending)

/-- A type is its leaf with its layers around it. -/
theorem foldr_around_layers (type : BridgeType) :
    type.layers.foldr Layer.around type.leaf = type := by
  induction type with
  | primitive p | data name | enum name => rfl
  | nullable inner ih | list inner ih | map inner ih =>
      rw [layers, leaf, List.foldr_cons, ih]
      rfl

/-- The name in a type is the one in its leaf. -/
theorem named?_leaf (type : BridgeType) : type.leaf.named? = type.named? := by
  induction type with
  | primitive p | data name | enum name => rfl
  | nullable inner ih | list inner ih | map inner ih => exact ih

-- A leaf has no layer around it.
theorem leaf_ne_around (type : BridgeType) (layer : Layer) (inner : BridgeType) :
    type.leaf ≠ layer.around inner := by
  induction type with
  | primitive p | data name | enum name => cases layer <;> nofun
  | nullable inner ih | list inner ih | map inner ih => exact ih

-- Behind the first layer its variable is what is converted.
theorem holder_succ (value : String) (depth i : Nat) :
    holder value depth (i + 1) = holder (dartVariable depth) (depth + 1) i := by
  cases i with
  | zero => rfl
  | succ i => rw [holder, holder, Nat.add_assoc, Nat.add_comm 1 i]

/-- Converters are put around a leaf from the inside out. -/
theorem converted_cons (layer : Layer) (rest : List Layer) (value : String) (depth : Nat)
    (ending : String) : converted (layer :: rest) value depth ending
      = layer.converter value depth (converted rest (dartVariable depth) (depth + 1) ending) := by
  have hstep : ∀ (place : Layer × Nat) (part : String),
      place.1.converter (holder value depth (place.2 + 1)) (depth + (place.2 + 1)) part
        = place.1.converter (holder (dartVariable depth) (depth + 1) place.2)
          (depth + 1 + place.2) part := by
    intro place part
    rw [holder_succ, Nat.add_assoc, Nat.add_comm 1 place.2]
  rw [converted, List.zipIdx_cons', List.foldr_cons, List.foldr_map, List.length_cons, holder_succ]
  simp only [Prod.map_fst, Prod.map_snd, id, hstep]
  rfl

/-- A value without data types in it is its own wire form. -/
theorem dartEncode_of_named?_eq_none (type : BridgeType) (value : String) (depth : Nat)
    (h : type.named? = none) : type.dartEncode value depth = value := by
  induction type generalizing value depth with
  | primitive p => rfl
  | nullable inner ih | list inner ih | map inner ih => rw [dartEncode, ih _ _ h, if_pos rfl]
  | data name | enum name => cases h

/-- A layer gets its converter if the conversion of the parts does something. -/
theorem dartEncode_around_of_ne (layer : Layer) (inner : BridgeType) (value : String) (depth : Nat)
    (h : inner.dartEncode (dartVariable depth) (depth + 1) ≠ dartVariable depth) :
    (layer.around inner).dartEncode value depth
      = layer.converter value depth (inner.dartEncode (dartVariable depth) (depth + 1)) := by
  cases layer with
  | nullable | list | map => exact if_neg h

-- So a conversion that does something around parts does something itself.
theorem length_lt_dartEncode_around (layer : Layer) (inner : BridgeType) (value : String)
    (depth : Nat) (h : (dartVariable depth).length
      < (inner.dartEncode (dartVariable depth) (depth + 1)).length) :
    value.length < ((layer.around inner).dartEncode value depth).length := by
  rw [dartEncode_around_of_ne layer inner value depth fun heq => Nat.ne_of_lt h (by rw [heq])]
  exact layer.length_lt_converter value depth _

/-- A conversion that does something is longer than what it is applied to. -/
theorem length_lt_dartEncode (type : BridgeType) (value : String) (depth : Nat)
    (h : type.named? ≠ none) : value.length < (type.dartEncode value depth).length := by
  induction type generalizing value depth with
  | primitive p => exact absurd rfl h
  | nullable inner ih => exact length_lt_dartEncode_around .nullable inner value depth (ih _ _ h)
  | list inner ih => exact length_lt_dartEncode_around .list inner value depth (ih _ _ h)
  | map inner ih => exact length_lt_dartEncode_around .map inner value depth (ih _ _ h)
  | data name | enum name =>
      rw [dartEncode, String.length_append]
      exact Nat.lt_add_of_pos_right (by decide)

/-- A conversion does nothing just if there is no data type to convert. -/
theorem dartEncode_eq_self_iff (type : BridgeType) (value : String) (depth : Nat) :
    type.dartEncode value depth = value ↔ type.named? = none := by
  constructor
  · intro heq
    by_contra hnamed
    exact Nat.ne_of_lt (type.length_lt_dartEncode value depth hnamed) (by rw [heq])
  · exact type.dartEncode_of_named?_eq_none value depth

/-- The conversion of a layer around a type with a data type in it. -/
theorem dartEncode_around (layer : Layer) (inner : BridgeType) (value : String) (depth : Nat)
    (h : inner.named? ≠ none) : (layer.around inner).dartEncode value depth
      = layer.converter value depth (inner.dartEncode (dartVariable depth) (depth + 1)) :=
  dartEncode_around_of_ne layer inner value depth (mt (dartEncode_eq_self_iff _ _ _).mp h)

/-- If the leaf is converted by an ending, all layers around it get their converters. -/
theorem dartEncode_eq_converted (type : BridgeType) (ending : String) (h : type.named? ≠ none)
    (hleaf : ∀ value depth, type.leaf.dartEncode value depth = value ++ ending) (value : String)
    (depth : Nat) : type.dartEncode value depth = converted type.layers value depth ending := by
  induction type generalizing value depth with
  | primitive p => exact absurd rfl h
  | nullable inner ih =>
      rw [layers, converted_cons, ← ih h hleaf]
      exact dartEncode_around .nullable inner value depth h
  | list inner ih =>
      rw [layers, converted_cons, ← ih h hleaf]
      exact dartEncode_around .list inner value depth h
  | map inner ih =>
      rw [layers, converted_cons, ← ih h hleaf]
      exact dartEncode_around .map inner value depth h
  | data name | enum name => exact hleaf value depth

/-- The conversion of a value to its wire form is the value itself just if no data type and no
    enumeration occurs in its type. Else there is one around all layers, and the conversion is that
    of the leaf inside one converter for each layer. -/
theorem dartEncode_by_layers (type : BridgeType) (value : String) (depth : Nat) :
    (type.dartEncode value depth = value
      ↔ ∀ name, .data name ∉ type.parts ∧ .enum name ∉ type.parts)
    ∧ type.layers.foldr Layer.around type.leaf = type
    ∧ match type.leaf with
      | .data _ => type.dartEncode value depth = converted type.layers value depth ".toJson()"
      | .enum _ => type.dartEncode value depth = converted type.layers value depth ".wireName"
      | leaf => (∃ p, leaf = .primitive p) ∧ type.dartEncode value depth = value := by
  have hnone : type.named? = none ↔ ∀ name, .data name ∉ type.parts ∧ .enum name ∉ type.parts := by
    rw [Option.eq_none_iff_forall_ne_some]
    exact forall_congr' fun name => (not_congr (type.named?_eq_some_iff name)).trans not_or
  refine ⟨(type.dartEncode_eq_self_iff value depth).trans hnone, type.foldr_around_layers, ?_⟩
  have hnamed := type.named?_leaf
  -- A leaf has no layers, and of the other types only two kinds have a name.
  cases hleaf : type.leaf with
  | primitive p =>
      rw [hleaf] at hnamed
      exact ⟨⟨p, rfl⟩, type.dartEncode_of_named?_eq_none value depth hnamed.symm⟩
  | nullable inner => exact absurd hleaf (type.leaf_ne_around .nullable inner)
  | list inner => exact absurd hleaf (type.leaf_ne_around .list inner)
  | map inner => exact absurd hleaf (type.leaf_ne_around .map inner)
  | data name =>
      rw [hleaf] at hnamed
      exact type.dartEncode_eq_converted _ (by rw [← hnamed]; nofun) (fun _ _ => by rw [hleaf]; rfl)
        value depth
  | enum name =>
      rw [hleaf] at hnamed
      exact type.dartEncode_eq_converted _ (by rw [← hnamed]; nofun) (fun _ _ => by rw [hleaf]; rfl)
        value depth

-- Each converter binds its own variable, and the leaf is what the innermost one holds.
example : (nullable (map (list (data "Acme.Car")))).dartEncode "cars" 0
    = "encodeNullable(cars, (v0) => v0.map((k1, v1) => MapEntry(k1, "
      ++ "v1.map((v2) => v2.toJson()).toList())))" := by
  decide

end BridgeType

end PlatformBridge
