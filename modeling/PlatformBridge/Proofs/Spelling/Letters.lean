import PlatformBridge.Proofs.Spelling.Case
import PlatformBridge.Proofs.Text.Letters

/-!
# Letters of Spelled Names

In whatever letter case a name is spelled, the result is plain: the
characters of the name that are not letters or digits are dropped. So a
spelling can stand anywhere in generated code, whatever name it is made of,
and needs no escape. The names in messages, which are quoted as they are, are
another matter.

These are simp lemmas. The modules on identifiers build on them, and a line
of code that has identifiers in it is then seen to be plain by simp.

## Theorems

* `Spelling.isPlain_pascalCase`, `Spelling.isPlain_lowerCamelCase`,
  `Spelling.isPlain_snakeCase`: The three spellings.
-/

namespace PlatformBridge

open Text

namespace Spelling

@[simp] theorem isPlain_pascalCase (name : String) : All isPlain (pascalCase name) := by
  rw [pascalCase, all_ofList]
  exact fun c hc => isPlain_of_isAlphanum c (mem_pascalChars _ c hc)

@[simp] theorem isPlain_lowerCamelCase (name : String) : All isPlain (lowerCamelCase name) := by
  rw [lowerCamelCase, all_ofList]
  have hpascal := mem_pascalChars name.toList
  intro c hc
  cases hchars : pascalChars name.toList with
  | nil =>
      rw [hchars] at hc
      cases hc
  | cons first rest =>
      rw [hchars] at hc hpascal
      rcases List.mem_cons.mp hc with rfl | hc
      · -- A small letter is a letter.
        refine isPlain_of_isAlphanum _ ?_
        rcases isSmall_toLower first (hpascal first List.mem_cons_self) with h | h
        · exact isAlphanum_of_isLower _ h
        · rw [Char.isAlphanum, h, Bool.or_true]
      · exact isPlain_of_isAlphanum c (hpascal c (List.mem_cons_of_mem _ hc))

@[simp] theorem isPlain_snakeCase (name : String) : All isPlain (snakeCase name) := by
  rw [snakeCase, all_ofList]
  intro c hc
  rcases mem_snakeChars _ c hc with rfl | h | h
  · rfl
  · exact isPlain_of_isAlphanum c (isAlphanum_of_isLower c h)
  · exact isPlain_of_isAlphanum c (by rw [Char.isAlphanum, h, Bool.or_true])

end Spelling

end PlatformBridge
