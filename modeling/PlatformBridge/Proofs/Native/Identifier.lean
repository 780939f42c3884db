import PlatformBridge.Native.Identifier
import PlatformBridge.Proofs.Spelling.Case

/-!
# What Native Identifiers Keep

A name becomes an identifier by what is put before or behind it, if anything.
A name in Pascal case is no keyword, since it does not start with a small
letter, and has no underscore, so it can be told from its identifier. Two
types get one identifier only if they have one name in Pascal case.

Injectivity is proved by an inverse. `unescaped` takes the underscores and the
`v` away that may have been put to a name, and it does not have to know
whether they were: a name in Pascal case has neither an underscore nor a small
letter in front. It would not do for names in snake case: one that starts with
a digit gets a `v`, and another one may start with this `v` already.

## Main definitions

* `Native.unescaped`: A name in Pascal case, from its identifier.

## Theorems

* `Native.not_mem_keywords`: Names in Pascal case are no keywords.
* `Native.unescaped_identifier`: What is put to a name can be taken away
  again.
* `Native.identifier_pascalCase_inj`: Names in Pascal case have identifiers of
  their own.
-/

namespace PlatformBridge

namespace Native

/-- A name in Pascal case, from the text of its identifier. -/
def unescaped : List Char → List Char
  | 'v' :: rest => rest
  | text => text.filter (· ≠ '_')

theorem unescaped_of_head (c : Char) (rest : List Char) (hc : c ≠ 'v') :
    unescaped (c :: rest) = (c :: rest).filter (· ≠ '_') := by
  unfold unescaped
  split
  · rename_i heq
    exact absurd (List.cons.inj heq).1 hc
  · rfl

/-- A name in Pascal case is no keyword that gets a mark, since all of these start with a small
    letter. -/
theorem not_mem_keywords (name : String) (h : Spelling.IsPascal name) : name ∉ keywords := by
  have hall : ∀ word ∈ keywords, ∃ c, word.toList.head? = some c ∧ c.isLower = true := by
    have hany : ∀ word ∈ keywords, word.toList.head?.any Char.isLower = true := by decide
    exact fun word hword => (Option.any_eq_true ..).mp (hany word hword)
  intro hmem
  rcases hall name hmem with ⟨c, hc, hlower⟩
  rw [h.head c hc] at hlower
  cases hlower

/-- What is put to a name in Pascal case can be taken away again. -/
theorem unescaped_identifier (name : String) (h : Spelling.IsPascal name) :
    unescaped (identifier name).toList = name.toList := by
  -- A name in Pascal case has no underscore to be taken away.
  have hfilter : name.toList.filter (· ≠ '_') = name.toList :=
    List.filter_eq_self.mpr fun c hc => decide_eq_true fun heq : c = '_' =>
      absurd (heq ▸ h.alphanum c hc) (by decide)
  unfold identifier
  cases htext : name.toList with
  | nil =>
      change unescaped "v".toList = []
      decide
  | cons c rest =>
      have hlower : c.isLower = false := h.head c (by rw [htext, List.head?_cons])
      have hv : c ≠ 'v' := by
        rintro rfl
        cases hlower
      rw [htext] at hfilter
      dsimp only
      by_cases hdigit : c.isDigit = true
      · rw [if_pos hdigit, String.toList_append, htext]
        rfl
      · rw [if_neg hdigit]
        split
        · rw [String.toList_append, htext, List.cons_append, unescaped_of_head c _ hv,
            ← List.cons_append, List.filter_append, hfilter]
          exact List.append_nil _
        · rw [if_neg fun hmem => not_mem_keywords name h (List.contains_iff_mem.mp hmem), htext,
            unescaped_of_head c rest hv, hfilter]

/-- Names in Pascal case have identifiers of their own. -/
theorem identifier_pascalCase_inj (name other : String) :
    identifier (Spelling.pascalCase name) = identifier (Spelling.pascalCase other)
      ↔ Spelling.pascalCase name = Spelling.pascalCase other := by
  constructor
  · intro h
    rw [← String.toList_inj, ← unescaped_identifier _ (Spelling.isPascal_pascalCase name),
      ← unescaped_identifier _ (Spelling.isPascal_pascalCase other), h]
  · intro h
    rw [h]

end Native

end PlatformBridge
