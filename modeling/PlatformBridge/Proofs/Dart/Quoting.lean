import PlatformBridge.Proofs.Dart.Literals

/-!
# Texts between Quotes

A text that is written as a literal is read back character by character: the
quote in front opens the literal, a backslash takes the meaning of the quote,
backslash or dollar sign behind it away and may stand in front of nothing
else, a dollar sign may not stand on its own, and the next quote ends the
literal. All else stands for itself, line breaks too; what the language says
about these is no matter of the quotes.

Every character has one spelling, and where it ends does not depend on what
comes behind. So the spellings of neighbours cannot combine: whatever follows
a literal, it is read up to its own quote and as the text it was made from.
The other way round, what is read as a text is the literal of this text, and
no literal is a start of another.

The rest behind a literal is part of every statement here. Reading a literal
that stands alone would be a weaker fact, since a literal is always followed
by more code, and that code might start with a quote or a backslash.

## Main definitions

* `Dart.scanText?`, `Dart.scanLiteral?`: Reading up to the quote that ends a
  literal.

## Theorems

* `Dart.scanText?_escape_append`: One character, whatever follows.
* `Dart.scanText?_flatMap_escape_append`: A text, whatever follows.
* `Dart.eq_of_scanText?_eq_some`: What has been read was spelled like that.
* `Dart.scanLiteral?_literal_append`: A literal, whatever follows.
* `Dart.scanLiteral?_eq_some_iff`: Nothing else is read.
* `Dart.literal_append_inj`: No literal is a start of another.
-/

namespace PlatformBridge

namespace Dart

/-- Reads up to the quote that ends a literal, from behind a backslash or not: the text that is read
    and what is behind the quote. -/
def scanText? : Bool → List Char → Option (List Char × List Char)
  | _, [] => none
  | true, c :: rest =>
    if isEscaped c then (scanText? false rest).map fun r => (c :: r.1, r.2) else none
  | false, c :: rest =>
    if c = '\'' then some ([], rest)
    else if c = '\\' then scanText? true rest
    else if c = '$' then none
    else (scanText? false rest).map fun r => (c :: r.1, r.2)

/-- Reads the literal at the start of a text: what it stands for and what is behind it. -/
def scanLiteral? (text : String) : Option (String × String) :=
  match text.toList with
  | '\'' :: rest =>
    (scanText? false rest).map fun r => (String.ofList r.1, String.ofList r.2)
  | _ => none

/-- A character is read from its spelling and from nothing behind it. -/
theorem scanText?_escape_append (c : Char) (rest : List Char) :
    scanText? false (escape c ++ rest)
      = (scanText? false rest).map fun r => (c :: r.1, r.2) := by
  rw [escape_eq]
  cases hc : isEscaped c with
  | true =>
      rw [if_pos rfl, List.cons_append, List.singleton_append, scanText?, if_neg (by decide),
        if_pos rfl, scanText?, if_pos hc]
  | false =>
      simp only [isEscaped, Bool.or_eq_false_iff, decide_eq_false_iff_not] at hc
      rw [if_neg Bool.false_ne_true, List.singleton_append, scanText?, if_neg hc.1.1,
        if_neg hc.1.2, if_neg hc.2]

/-- An escaped text is read as the text, and the reader goes on behind it. -/
theorem scanText?_flatMap_escape_append (text rest : List Char) :
    scanText? false (text.flatMap escape ++ rest)
      = (scanText? false rest).map fun r => (text ++ r.1, r.2) := by
  induction text with
  | nil => exact Option.map_id'.symm
  | cons c text ih =>
      rw [List.flatMap_cons, List.append_assoc, scanText?_escape_append, ih, Option.map_map]
      rfl

-- What has been read is spelled out, and the backslash in front of it belongs to the spelling.
theorem eq_of_scanText?_eq_some (isEscape : Bool) (input : List Char) (r : List Char × List Char)
    (h : scanText? isEscape input = some r) :
    (if isEscape then '\\' :: input else input) = r.1.flatMap escape ++ '\'' :: r.2 := by
  induction input generalizing isEscape r with
  | nil => cases isEscape <;> cases h
  | cons c rest ih =>
      -- Behind a backslash there is one of the characters that need one; elsewhere a quote ends the
      -- text, a backslash goes on, and a dollar sign is refused.
      cases isEscape with
      | true =>
          rw [scanText?] at h
          split at h
          · rename_i hc
            rcases Option.map_eq_some_iff.mp h with ⟨r', hr', rfl⟩
            have hrest := ih false r' hr'
            rw [if_neg Bool.false_ne_true] at hrest
            rw [if_pos rfl, List.flatMap_cons, escape_eq, if_pos hc, hrest]
            rfl
          · cases h
      | false =>
          rw [scanText?] at h
          rw [if_neg Bool.false_ne_true]
          split at h
          · rename_i hquote
            cases h
            rw [hquote]
            rfl
          · rename_i hquote
            split at h
            · rename_i hslash
              rw [hslash]
              exact ih true r h
            · rename_i hslash
              split at h
              · cases h
              · rename_i hdollar
                rcases Option.map_eq_some_iff.mp h with ⟨r', hr', rfl⟩
                have hrest := ih false r' hr'
                have hc : isEscaped c = false := by simp [isEscaped, hquote, hslash, hdollar]
                rw [if_neg Bool.false_ne_true] at hrest
                rw [List.flatMap_cons, escape_eq, hc, if_neg Bool.false_ne_true, hrest]
                rfl

theorem toList_literal_append (text rest : String) : (literal text ++ rest).toList
    = '\'' :: (text.toList.flatMap escape ++ '\'' :: rest.toList) := by
  simp [literal]

/-- A text is read as another and a rest just if it is the literal of the one in front of the
    other. -/
theorem scanLiteral?_eq_some_iff (input text rest : String) :
    scanLiteral? input = some (text, rest) ↔ input = literal text ++ rest := by
  rw [← String.toList_inj, toList_literal_append, scanLiteral?]
  constructor
  · intro h
    split at h
    · rename_i inside hinput
      rcases Option.map_eq_some_iff.mp h with ⟨r, hr, heq⟩
      rw [Prod.mk.injEq] at heq
      have hinside := eq_of_scanText?_eq_some false inside r hr
      rw [if_neg Bool.false_ne_true] at hinside
      rw [hinput, hinside, ← heq.1, ← heq.2, String.toList_ofList, String.toList_ofList]
    · cases h
  · intro h
    rw [h]
    simp [scanText?_flatMap_escape_append, scanText?]

-- A run of escapes is read one by one. A dollar sign on its own is no text, and neither is a
-- backslash in front of a letter.
example : [scanLiteral? "'\\\\\\'\\$''x", scanLiteral? "'$x'", scanLiteral? "'\\n'"]
    = [some ("\\'$", "'x"), none, none] := by decide

/-- A literal is read up to its own quote and as its own text, whatever is behind it. -/
theorem scanLiteral?_literal_append (text rest : String) :
    scanLiteral? (literal text ++ rest) = some (text, rest) :=
  (scanLiteral?_eq_some_iff _ text rest).mpr rfl

/-- No literal is a start of another. -/
theorem literal_append_inj (text rest text' rest' : String)
    (h : literal text ++ rest = literal text' ++ rest') : text = text' ∧ rest = rest' := by
  have hread := (scanLiteral?_eq_some_iff _ text rest).mpr rfl
  rw [h, (scanLiteral?_eq_some_iff _ text' rest').mpr rfl, Option.some.injEq,
    Prod.mk.injEq] at hread
  exact ⟨hread.1.symm, hread.2.symm⟩

end Dart

end PlatformBridge
