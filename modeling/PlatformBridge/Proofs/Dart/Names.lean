import PlatformBridge.Dart.Identifier
import PlatformBridge.Proofs.Spelling.Case

/-!
# Names of Dart Members

Whatever a member or parameter is called in a contract, its name in Dart is a
word in lower camel case that is neither reserved nor taken. A word that is
one or the other gets an underscore at its end. No word has more than one,
since what is reserved or taken has none itself, so that a word with an
underscore is free.

Some names are taken in every class, those of the members that all objects
have, and others only for the parameters of a method, the local names that its
body uses. The list of taken names is a parameter, and all that is asked of it
is that no name on it has an underscore.

A name may come out empty or start with a digit when its other characters are
dropped. It gets a letter in front then, before anything is looked up.
`exists_isMemberWord_unreserved` is this first step, and says what it leaves: a
word, perhaps with an underscore.

## Main definitions

* `Dart.IsMemberWord`: A small letter, then letters and digits.
* `Dart.IsMemberName`: A name for a member or parameter where some names are
  taken.
* `Dart.IsGetterName`: A name for the getter of an event.

## Theorems

* `Dart.exists_isMemberWord_unreserved`: What becomes of a name before it is
  looked up in its scope.
* `Dart.isMemberName_identifier`: Every identifier is such a name.
* `Dart.isGetterName_pascalCase`: What getters are called.
-/

namespace PlatformBridge

namespace Dart

/-- A small letter, then letters and digits. -/
def IsMemberWord (text : List Char) : Prop :=
  ∃ c rest, text = c :: rest ∧ c.isLower = true ∧ ∀ d ∈ rest, d.isAlphanum = true

/-- A name for a member or parameter: a word in lower camel case, with an underscore behind it or
    without, that is not among the reserved words and the names that are taken. -/
structure IsMemberName (taken : List String) (name : String) : Prop where
  spelled : ∃ word, IsMemberWord word ∧ (name.toList = word ∨ name.toList = word ++ ['_'])
  notReserved : name ∉ reserved
  notTaken : name ∉ taken

/-- A name for the getter of an event: `on`, then letters and digits. -/
def IsGetterName (name : String) : Prop :=
  ∃ rest, name.toList = 'o' :: 'n' :: rest ∧ ∀ d ∈ rest, d.isAlphanum = true

/-- A letter in front makes any name a word, if it is not one already. -/
theorem exists_isMemberWord_unreserved (name : String) : ∃ word : String, IsMemberWord word.toList
    ∧ unreserved (Spelling.lowerCamelCase name)
      = if reserved.contains word then word ++ "_" else word := by
  unfold unreserved
  refine ⟨_, ?_, rfl⟩
  have halphanum := Spelling.mem_pascalChars name.toList
  rw [Spelling.lowerCamelCase, String.toList_ofList]
  cases hpascal : Spelling.pascalChars name.toList with
  | nil => exact ⟨'v', [], rfl, rfl, fun d hd => absurd hd List.not_mem_nil⟩
  | cons c rest =>
      rw [hpascal, List.forall_mem_cons] at halphanum
      rw [Spelling.uncapitalize]
      dsimp only
      by_cases hdigit : c.toLower.isDigit = true
      · simp only [hdigit, if_true, String.toList_append, String.toList_ofList]
        refine ⟨'v', c.toLower :: rest, rfl, rfl, List.forall_mem_cons.mpr ⟨?_, halphanum.2⟩⟩
        rw [Char.isAlphanum, hdigit, Bool.or_true]
      · rw [if_neg hdigit, String.toList_ofList]
        exact ⟨c.toLower, rest, rfl,
          (Spelling.isSmall_toLower c halphanum.1).resolve_right hdigit, halphanum.2⟩

/-- Every identifier is a name for a member or parameter, where words are taken. -/
theorem isMemberName_identifier (taken : List String) (htaken : ∀ t ∈ taken, '_' ∉ t.toList)
    (name : String) : IsMemberName taken (identifier taken name) := by
  rcases exists_isMemberWord_unreserved name with ⟨word, hcamel, hword⟩
  have hreserved : ∀ t ∈ reserved, '_' ∉ t.toList := by decide
  have hending : (word ++ "_").toList = word.toList ++ ['_'] := String.toList_append
  have hmem : '_' ∈ (word ++ "_").toList := by simp [hending]
  -- A word with an underscore is neither reserved nor taken.
  have hescaped : IsMemberName taken (word ++ "_") :=
    ⟨⟨_, hcamel, Or.inr hending⟩, fun h => hreserved _ h hmem, fun h => htaken _ h hmem⟩
  rw [identifier, hword]
  by_cases hfree : reserved.contains word = true
  · have hother : taken.contains (word ++ "_") = false :=
      Bool.eq_false_iff.mpr fun h => hescaped.notTaken (List.contains_iff_mem.mp h)
    simp only [hfree, if_true, hother, Bool.false_eq_true, if_false]
    exact hescaped
  · simp only [hfree, if_false, Bool.false_eq_true]
    split
    · exact hescaped
    · rename_i hopen
      exact ⟨⟨_, hcamel, Or.inl rfl⟩, fun h => hfree (List.contains_iff_mem.mpr h),
        fun h => hopen (List.contains_iff_mem.mpr h)⟩

-- One underscore is enough where both could be asked for.
example : identifier inheritedNames "To-String" = "toString_"
    ∧ identifier inheritedNames "class" = "class_" ∧ identifier inheritedNames "2nd" = "v2nd" := by
  decide

/-- The getter of an event has `on` in front of letters and digits, so it is no reserved word. -/
theorem isGetterName_pascalCase (name : String) :
    IsGetterName ("on" ++ Spelling.pascalCase name) := by
  refine ⟨(Spelling.pascalCase name).toList, String.toList_append, ?_⟩
  rw [Spelling.pascalCase, String.toList_ofList]
  exact Spelling.mem_pascalChars name.toList

end Dart

end PlatformBridge
