import PlatformBridge.Native.Identifier
import PlatformBridge.Proofs.Spelling.Letters

/-!
# Letters of Native Code

The identifiers and types of the native side are plain, whatever the contract
calls its types and their members. An identifier is a spelling with a mark
before it or behind it at most, and the mark is plain too. A type is made of
identifiers and of fixed texts around them, so the proof is an induction over
the type.

These are simp lemmas, like those on spellings that they rest on. A line of
native code consists of such parts and of fixed texts, and is seen to be plain
by its parts.

## Theorems

* `Native.isPlain_identifier`, `Native.isPlain_parameterIdentifier`,
  `Native.isPlain_typeIdentifier`, `Native.isPlain_fileStem`: Names.
* `BridgeType.isPlain_inNative`: Types.
-/

namespace PlatformBridge

open Text

namespace Native

/-- What is put before or behind a name to make it an identifier is plain. -/
theorem isPlain_identifier (name : String) (h : All isPlain name) :
    All isPlain (identifier name) := by
  unfold identifier
  split
  · exact all_fixed rfl
  · split
    · exact all_append.mpr ⟨all_fixed rfl, h⟩
    · split
      · exact all_append.mpr ⟨h, all_fixed rfl⟩
      · split
        · exact all_append.mpr ⟨all_fixed rfl, h⟩
        · exact h

@[simp] theorem isPlain_parameterIdentifier (name : String) :
    All isPlain (parameterIdentifier name) := by
  have h := isPlain_identifier _ (Spelling.isPlain_snakeCase name)
  unfold parameterIdentifier
  dsimp only
  split
  · exact all_append.mpr ⟨h, all_fixed rfl⟩
  · exact h

@[simp] theorem isPlain_typeIdentifier (name : TypeName) : All isPlain (typeIdentifier name) :=
  isPlain_identifier _ (Spelling.isPlain_pascalCase _)

@[simp] theorem isPlain_fileStem (name : TypeName) : All isPlain (fileStem name) :=
  Spelling.isPlain_snakeCase _

end Native

namespace BridgeType

@[simp] theorem isPlain_inNative (type : BridgeType) : All isPlain type.inNative := by
  induction type with
  | primitive p => cases p <;> exact all_fixed rfl
  | nullable inner ih =>
      change All isPlain ("Option<" ++ inner.inNative ++ ">")
      exact all_append.mpr ⟨all_append.mpr ⟨all_fixed rfl, ih⟩, all_fixed rfl⟩
  | list element ih =>
      change All isPlain ("Vec<" ++ element.inNative ++ ">")
      exact all_append.mpr ⟨all_append.mpr ⟨all_fixed rfl, ih⟩, all_fixed rfl⟩
  | map value ih =>
      change All isPlain ("BTreeMap<String, " ++ value.inNative ++ ">")
      exact all_append.mpr ⟨all_append.mpr ⟨all_fixed rfl, ih⟩, all_fixed rfl⟩
  | data name | enum name => exact Native.isPlain_typeIdentifier name

end BridgeType

end PlatformBridge
