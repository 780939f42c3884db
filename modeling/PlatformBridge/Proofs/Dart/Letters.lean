import PlatformBridge.Dart.Expression
import PlatformBridge.Proofs.Spelling.Letters

/-!
# Letters of Dart Code

The identifiers, types and conversions of the Dart side are plain, whatever
the contract calls its types and their members: letter case leaves nothing of
a name but letters, digits and underscores. What a conversion is applied to is
a text of its own, and stays in it as it is.

This last point is why conversions are not simply said to be plain. They are
applied to variables, which are plain, but also to lookups of a key, and a key
is a wire name in quotes. `Surrounds` says of a conversion that it puts plain
code around whatever it is applied to, and both uses follow from it.

## Main definitions

* `BridgeType.Surrounds`: A conversion that puts plain code around a value.

## Theorems

* `Dart.isPlain_typeIdentifier`, `Dart.isPlain_fileStem`,
  `Dart.isPlain_identifier`: Names.
* `BridgeType.isPlain_inDart`, `BridgeType.isPlain_dartVariable`: Types and
  variables.
* `BridgeType.Surrounds.all`: What a conversion makes of a text of a class.
* `BridgeType.surrounds_dartDecode`, `BridgeType.isPlain_dartDecode`,
  `BridgeType.isPlain_dartEncode`: Conversions.
-/

namespace PlatformBridge

open Text

namespace Dart

@[simp] theorem isPlain_typeIdentifier (name : TypeName) : All isPlain (typeIdentifier name) :=
  Spelling.isPlain_pascalCase _

@[simp] theorem isPlain_fileStem (name : TypeName) : All isPlain (fileStem name) :=
  Spelling.isPlain_snakeCase _

-- Every identifier is plain, before and after an underscore is put at its end.
theorem isPlain_ending (text : String) (h : All isPlain text) (taken : Bool) :
    All isPlain (if taken then text ++ "_" else text) := by
  cases taken with
  | true => exact all_append.mpr ⟨h, all_fixed rfl⟩
  | false => exact h

theorem isPlain_unreserved (name : String) (h : All isPlain name) :
    All isPlain (unreserved name) := by
  refine isPlain_ending _ ?_ _
  split
  · exact all_fixed rfl
  · split
    · exact all_append.mpr ⟨all_fixed rfl, h⟩
    · exact h

@[simp] theorem isPlain_identifier (taken : List String) (name : String) :
    All isPlain (identifier taken name) :=
  isPlain_ending _ (isPlain_unreserved _ (Spelling.isPlain_lowerCamelCase name)) _

end Dart

namespace BridgeType

@[simp] theorem isPlain_inDart (type : BridgeType) : All isPlain type.inDart := by
  induction type with
  | primitive p => cases p <;> exact all_fixed rfl
  | nullable inner ih =>
      change All isPlain (inner.inDart ++ "?")
      exact all_append.mpr ⟨ih, all_fixed rfl⟩
  | list element ih =>
      change All isPlain ("List<" ++ element.inDart ++ ">")
      exact all_append.mpr ⟨all_append.mpr ⟨all_fixed rfl, ih⟩, all_fixed rfl⟩
  | map value ih =>
      change All isPlain ("Map<String, " ++ value.inDart ++ ">")
      exact all_append.mpr ⟨all_append.mpr ⟨all_fixed rfl, ih⟩, all_fixed rfl⟩
  | data name | enum name => exact Dart.isPlain_typeIdentifier name

@[simp] theorem isPlain_dartVariable (depth : Nat) : All isPlain (dartVariable depth) :=
  all_append.mpr ⟨all_fixed rfl, isPlain_repr depth⟩

section Conversions

/-- A conversion that puts plain code around a value. -/
def Surrounds (convert : String → String) : Prop :=
  ∃ opening closing, All isPlain opening ∧ All isPlain closing
    ∧ ∀ value, convert value = opening ++ value ++ closing

/-- A text of a class that has the plain characters stays in this class. -/
theorem Surrounds.all {p : Char → Bool} (hp : HoldsPlain p) {convert : String → String}
    (h : Surrounds convert) {value : String} (hvalue : All p value) : All p (convert value) := by
  rcases h with ⟨opening, closing, hopening, hclosing, heq⟩
  rw [heq]
  exact all_append.mpr ⟨all_append.mpr ⟨hp.all hopening, hvalue⟩, hp.all hclosing⟩

theorem holdsPlain_isPlain : HoldsPlain isPlain := fun _ h => h

-- A conversion of parts, with the names of its function and of its variable.
theorem surrounds_parts (opening : String) (hopening : All isPlain opening) (depth : Nat)
    {convert : String → String} (h : Surrounds convert) :
    Surrounds fun value => opening ++ value ++ ", (" ++ dartVariable depth ++ ") => "
      ++ convert (dartVariable depth) ++ ")" := by
  refine ⟨opening, ", (" ++ dartVariable depth ++ ") => " ++ convert (dartVariable depth) ++ ")",
    hopening, ?_, fun value => by simp only [String.append_assoc]⟩
  have hpart := h.all holdsPlain_isPlain (isPlain_dartVariable depth)
  simp only [all_append]
  exact ⟨⟨⟨⟨all_fixed rfl, isPlain_dartVariable depth⟩, all_fixed rfl⟩, hpart⟩, all_fixed rfl⟩

/-- A value is converted from its wire form by plain code around it. -/
theorem surrounds_dartDecode (type : BridgeType) (depth : Nat) :
    Surrounds fun value => type.dartDecode value depth := by
  -- What is put around a value depends on the type alone, so it can be said before the value is
  -- known.
  induction type generalizing depth with
  | primitive q =>
      cases q with
      | bool => exact ⟨"(", " as bool)", all_fixed rfl, all_fixed rfl, fun _ => rfl⟩
      | u8 | i8 | i16 | i32 | i64 =>
          exact ⟨"(", " as num).toInt()", all_fixed rfl, all_fixed rfl, fun _ => rfl⟩
      | f32 | f64 => exact ⟨"(", " as num).toDouble()", all_fixed rfl, all_fixed rfl, fun _ => rfl⟩
      | char | string => exact ⟨"(", " as String)", all_fixed rfl, all_fixed rfl, fun _ => rfl⟩
  | nullable inner ih =>
      have hparts := surrounds_parts "decodeNullable(" (all_fixed rfl) depth (ih (depth + 1))
      exact hparts
  | list inner ih =>
      have hparts := surrounds_parts "decodeList(" (all_fixed rfl) depth (ih (depth + 1))
      exact hparts
  | map inner ih =>
      have hparts := surrounds_parts "decodeMap(" (all_fixed rfl) depth (ih (depth + 1))
      exact hparts
  | data name =>
      exact ⟨Dart.typeIdentifier name ++ ".fromJson(", ")",
        all_append.mpr ⟨Dart.isPlain_typeIdentifier name, all_fixed rfl⟩, all_fixed rfl,
        fun _ => rfl⟩
  | enum name =>
      exact ⟨Dart.typeIdentifier name ++ ".fromWire(", ")",
        all_append.mpr ⟨Dart.isPlain_typeIdentifier name, all_fixed rfl⟩, all_fixed rfl,
        fun _ => rfl⟩

theorem isPlain_dartDecode (type : BridgeType) (depth : Nat) {value : String}
    (h : All isPlain value) : All isPlain (type.dartDecode value depth) :=
  (type.surrounds_dartDecode depth).all holdsPlain_isPlain h

theorem isPlain_dartEncode (type : BridgeType) (value : String) (depth : Nat)
    (h : All isPlain value) : All isPlain (type.dartEncode value depth) := by
  induction type generalizing value depth with
  | primitive q => exact h
  | nullable inner ih =>
      rw [dartEncode]
      split
      · exact h
      · simp only [all_append]
        exact ⟨⟨⟨⟨⟨⟨all_fixed rfl, h⟩, all_fixed rfl⟩, isPlain_dartVariable depth⟩, all_fixed rfl⟩,
          ih _ _ (isPlain_dartVariable depth)⟩, all_fixed rfl⟩
  | list inner ih =>
      rw [dartEncode]
      split
      · exact h
      · simp only [all_append]
        exact ⟨⟨⟨⟨⟨h, all_fixed rfl⟩, isPlain_dartVariable depth⟩, all_fixed rfl⟩,
          ih _ _ (isPlain_dartVariable depth)⟩, all_fixed rfl⟩
  | map inner ih =>
      rw [dartEncode]
      split
      · exact h
      · simp only [all_append]
        exact ⟨⟨⟨⟨⟨⟨⟨⟨⟨h, all_fixed rfl⟩, isPlain_repr depth⟩, all_fixed rfl⟩,
          isPlain_dartVariable depth⟩, all_fixed rfl⟩, isPlain_repr depth⟩, all_fixed rfl⟩,
          ih _ _ (isPlain_dartVariable depth)⟩, all_fixed rfl⟩
  | data name | enum name => exact all_append.mpr ⟨h, all_fixed rfl⟩

end Conversions

end BridgeType

end PlatformBridge
