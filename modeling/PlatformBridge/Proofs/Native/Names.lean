import PlatformBridge.Native.Identifier
import PlatformBridge.Proofs.Spelling.Case

/-!
# Names of Native Members

Whatever a member or parameter is called in a contract, its name on the native
side is an identifier of Rust: a word that is no keyword, or a keyword as a
raw identifier. No keyword has an underscore or a digit, so a name that gets
one of them is none either.

Names come in two spellings, since types and the members of enumerations are in
Pascal case and all others in snake case. What the proof needs of a spelling
is the same in both cases, and `IsSpelled` is just this: letters, digits and
underscores, of which no underscore comes first. What is still in the way of
an identifier is a digit in front, no character at all, or a keyword, and each
of these has a rule.

Parameters have to keep clear of the variables of a binding as well. They get
an underscore if need be, and no variable of a binding ends in one.

## Main definitions

* `Spelling.IsSpelled`: A name in snake case or Pascal case.
* `Native.IsWord`: A letter, then letters, digits and underscores.
* `Native.IsIdentifier`: A word that is no keyword, or a raw identifier.

## Theorems

* `Spelling.isSpelled_snakeCase`, `Spelling.isSpelled_pascalCase`: Spellings.
* `Native.not_mem_keywords_of_mem`, `Native.isIdentifier_append`: What is no
  keyword.
* `Native.isIdentifier_identifier`: Members have identifiers.
* `Native.isIdentifier_parameterIdentifier`: So have parameters.
* `Native.parameterIdentifier_not_mem_stubLocals`: Parameters leave the names
  alone that a binding uses.
-/

namespace PlatformBridge

namespace Spelling

/-- Letters, digits and underscores, of which no underscore comes first. -/
structure IsSpelled (name : String) : Prop where
  made : ∀ c ∈ name.toList, c.isAlphanum = true ∨ c = '_'
  head : name.toList.head? ≠ some '_'

theorem isSpelled_snakeCase (name : String) : IsSpelled (snakeCase name) := by
  constructor
  · intro c hc
    rw [snakeCase, String.toList_ofList] at hc
    have halphanum : c.isAlphanum = (c.isUpper || c.isLower || c.isDigit) := rfl
    rcases mem_snakeChars _ c hc with rfl | hlower | hdigit
    · exact Or.inr rfl
    · exact Or.inl (by rw [halphanum, hlower, Bool.or_true, Bool.true_or])
    · exact Or.inl (by rw [halphanum, hdigit, Bool.or_true])
  · rw [snakeCase, String.toList_ofList]
    exact head?_snakeChars _

theorem isSpelled_pascalCase (name : String) : IsSpelled (pascalCase name) := by
  have hall := (isPascal_pascalCase name).alphanum
  refine ⟨fun c hc => Or.inl (hall c hc), fun hhead => ?_⟩
  cases hall '_' (List.mem_of_head? hhead)

end Spelling

namespace Native

/-- A letter, then letters, digits and underscores. -/
def IsWord (text : List Char) : Prop :=
  ∃ c rest, text = c :: rest ∧ c.isAlpha = true ∧ ∀ d ∈ rest, d.isAlphanum = true ∨ d = '_'

/-- A word that is no keyword, or a keyword that may be a raw identifier as one. -/
inductive IsIdentifier : String → Prop
  | plain {name : String} (word : IsWord name.toList) (free : name ∉ keywords ++ pathKeywords) :
    IsIdentifier name
  | raw {word : String} (keyword : word ∈ keywords) : IsIdentifier ("r#" ++ word)

/-- What has an underscore or a digit is no keyword. -/
theorem not_mem_keywords_of_mem (name : String) (c : Char) (hmem : c ∈ name.toList)
    (hc : c = '_' ∨ c.isDigit = true) : name ∉ keywords ++ pathKeywords := by
  have hnone : (keywords ++ pathKeywords).all
      (fun word => word.toList.all fun c => !(c = '_' || c.isDigit)) = true := by decide
  intro hname
  have hother := List.all_eq_true.mp (List.all_eq_true.mp hnone name hname) c hmem
  rcases hc with rfl | hdigit
  · cases hother
  · rw [hdigit, Bool.or_true] at hother
    cases hother

/-- An underscore can be put at the end of every word. -/
theorem isIdentifier_append (name : String) (h : IsWord name.toList) :
    IsIdentifier (name ++ "_") := by
  have hending : (name ++ "_").toList = name.toList ++ ['_'] := String.toList_append
  refine .plain ?_ (not_mem_keywords_of_mem _ '_' (by simp [hending]) (Or.inl rfl))
  rcases h with ⟨c, rest, htext, hc, hrest⟩
  refine ⟨c, rest ++ ['_'], by rw [hending, htext, List.cons_append], hc, ?_⟩
  rw [List.forall_mem_append, List.forall_mem_singleton]
  exact ⟨hrest, Or.inr rfl⟩

/-- Members have identifiers. -/
theorem isIdentifier_identifier (name : String) (h : Spelling.IsSpelled name) :
    IsIdentifier (identifier name) := by
  have hmade := h.made
  have hhead := h.head
  unfold identifier
  cases htext : name.toList with
  | nil =>
      have hletter : IsIdentifier "v" := .plain ⟨'v', [], by decide, by decide, by simp⟩ (by decide)
      exact hletter
  | cons c rest =>
      rw [htext, List.forall_mem_cons] at hmade
      rw [htext, List.head?_cons] at hhead
      dsimp only
      by_cases hdigit : c.isDigit = true
      · -- A number gets a letter in front.
        rw [if_pos hdigit]
        have hletter : ("v" ++ name).toList = 'v' :: c :: rest := by
          rw [String.toList_append, htext]
          rfl
        exact .plain ⟨'v', c :: rest, hletter, rfl, List.forall_mem_cons.mpr hmade⟩
          (not_mem_keywords_of_mem _ c (by simp [hletter]) (Or.inr hdigit))
      · rw [if_neg hdigit]
        have hword : IsWord name.toList := by
          refine ⟨c, rest, htext, ?_, hmade.2⟩
          have halphanum := hmade.1.resolve_right fun heq => hhead (heq ▸ rfl)
          rw [Char.isAlphanum, Bool.or_eq_true] at halphanum
          exact halphanum.resolve_right hdigit
        split
        · exact isIdentifier_append name hword
        · rename_i hpath
          split
          · rename_i hkeyword
            exact .raw (List.contains_iff_mem.mp hkeyword)
          · rename_i hkeyword
            refine .plain hword fun hmem => ?_
            rcases List.mem_append.mp hmem with hmem | hmem
            · exact hkeyword (List.contains_iff_mem.mpr hmem)
            · exact hpath (List.contains_iff_mem.mpr hmem)

section Parameters

variable (name : String)

/-- Parameters have identifiers. -/
theorem isIdentifier_parameterIdentifier : IsIdentifier (parameterIdentifier name) := by
  have h := isIdentifier_identifier _ (Spelling.isSpelled_snakeCase name)
  unfold parameterIdentifier
  dsimp only
  split
  · rename_i hlocal
    generalize identifier (Spelling.snakeCase name) = spelled at h hlocal
    cases h with
    | plain word free => exact isIdentifier_append _ word
    | raw keyword =>
        have hnone : ∀ word ∈ keywords, stubLocals.contains ("r#" ++ word) = false := by decide
        rw [hnone _ keyword] at hlocal
        cases hlocal
  · exact h

/-- Parameters leave the names alone that a binding uses. -/
theorem parameterIdentifier_not_mem_stubLocals : parameterIdentifier name ∉ stubLocals := by
  have hnone : ∀ taken ∈ stubLocals, taken ++ "_" ∉ stubLocals := by decide
  unfold parameterIdentifier
  dsimp only
  split
  · rename_i hlocal
    exact hnone _ (List.contains_iff_mem.mp hlocal)
  · rename_i hfree
    exact fun hmem => hfree (List.contains_iff_mem.mpr hmem)

end Parameters

end Native

end PlatformBridge
