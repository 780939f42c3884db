import Mathlib.Data.List.Infix
import PlatformBridge.Messages

/-!
# Replacing a Part of a Text

What is left of a text when a part of it is replaced wherever it occurs. The
search goes from the left and goes on behind what it has found, so occurrences
that overlap are not all replaced, and what is put in is not searched again.
`Replaces` says this by rules, one for each thing the search can do, and the
function keeps them for every part but the empty one.

The function has a fuel, for it goes on behind an occurrence and not with the
next letter. By `replaceFrom_eq_iff` any fuel will do that is as great as the
text is long. From there on the fuel does not occur, and proofs about replacing
go by the rules. The rules are deterministic, so the equivalence can be used in
both directions: to know what a text becomes it is enough to give a derivation.

Two things are told from the rules. A text can be cut where no occurrence
crosses, and each half is replaced for itself. And a letter can be counted:
there are not more of it afterwards if it is not in the value, and not fewer
if it is not in the part. Counting is how changes are noticed later, without
saying where in a text they are.

## Main definitions

* `Messages.Replaces`: A text and what it is with a value in place of a part.

## Theorems

* `Messages.dropStart?_eq_some_iff`: A text starts with a part.
* `Messages.replaceFrom_eq_iff`, `Messages.replace_eq_iff`: The function keeps
  the rules.
* `Messages.Replaces.append`, `Messages.Replaces.skip`: A text is cut where no
  occurrence crosses.
* `Messages.replaces_self`: Without an occurrence, nothing changes.
* `Messages.Replaces.count_le_count`: A letter outside of the part is not
  lost.
* `Messages.Replaces.count_ge_count`: A letter outside of the value is not
  added.
* `Messages.Replaces.count_lt_count`: A letter of the part is lost with every
  occurrence.
-/

namespace PlatformBridge

namespace Messages

/-- A text starts with a part if there is a rest behind it. -/
theorem dropStart?_eq_some_iff (part text rest : List Char) :
    dropStart? part text = some rest ↔ text = part ++ rest := by
  induction part generalizing text with
  | nil => simp only [dropStart?, Option.some.injEq, List.nil_append]
  | cons p part ih =>
      cases text with
      | nil => simp only [dropStart?, reduceCtorEq, List.cons_append]
      | cons c text =>
          by_cases hc : p = c
          · simp only [dropStart?, hc, if_true, ih, List.cons_append, List.cons.injEq, true_and]
          · simp only [dropStart?, if_neg hc, reduceCtorEq, List.cons_append, List.cons.injEq,
              Ne.symm hc, false_and]

/-- A text, and what it is with `value` in place of every occurrence of `part`. -/
inductive Replaces (part value : List Char) : List Char → List Char → Prop where
  | nil : Replaces part value [] []
  | found (text out : List Char) (hrest : Replaces part value text out) :
      Replaces part value (part ++ text) (value ++ out)
  | kept (c : Char) (text out : List Char) (hstart : ¬ part <+: c :: text)
      (hrest : Replaces part value text out) : Replaces part value (c :: text) (c :: out)

variable {part value text out : List Char}

/-- What the search yields is by the rules. Every turn takes at least one letter, so a fuel of as
    many letters lasts. -/
theorem replaces_replaceFrom (hpart : part ≠ []) (fuel : Nat) (text : List Char)
    (hfuel : text.length ≤ fuel) : Replaces part value text (replaceFrom part value fuel text) := by
  induction fuel generalizing text with
  | zero =>
      rw [List.length_eq_zero_iff.mp (Nat.le_zero.mp hfuel)]
      exact .nil
  | succ fuel ih =>
      cases text with
      | nil => exact .nil
      | cons c text =>
          rw [replaceFrom]
          -- The text goes on behind the part that was found, or behind one character.
          cases hstart : dropStart? part (c :: text) with
          | some rest =>
              have htext := (dropStart?_eq_some_iff _ _ _).mp hstart
              have hlength := congrArg List.length htext
              have hpos := List.length_pos_iff.mpr hpart
              rw [List.length_append] at hlength
              rw [htext]
              exact .found rest _ (ih rest (by omega))
          | none =>
              refine .kept c text _ ?_ (ih text (Nat.le_of_succ_le_succ hfuel))
              rintro ⟨rest, hrest⟩
              rw [(dropStart?_eq_some_iff _ _ _).mpr hrest.symm] at hstart
              exact Option.some_ne_none rest hstart

/-- The rules leave no choice, so what they lead to is what the search yields. -/
theorem Replaces.replaceFrom_eq (hpart : part ≠ []) (h : Replaces part value text out) (fuel : Nat)
    (hfuel : text.length ≤ fuel) : replaceFrom part value fuel text = out := by
  induction h generalizing fuel with
  | nil => cases fuel <;> rfl
  | found text out hrest ih =>
      rcases List.exists_cons_of_ne_nil hpart with ⟨p, more, rfl⟩
      rw [List.length_append, List.length_cons] at hfuel
      rcases Nat.exists_eq_add_of_lt (show 0 < fuel by omega) with ⟨fuel, rfl⟩
      have hstart := (dropStart?_eq_some_iff (p :: more) (p :: more ++ text) text).mpr rfl
      rw [List.cons_append] at hstart ⊢
      rw [Nat.zero_add, replaceFrom, hstart]
      exact congrArg (value ++ ·) (ih fuel (by omega))
  | kept c text out hstart hrest ih =>
      rcases Nat.exists_eq_add_of_lt (Nat.lt_of_lt_of_le (Nat.succ_pos _) hfuel) with ⟨fuel, rfl⟩
      have hnone : dropStart? part (c :: text) = none := by
        rw [Option.eq_none_iff_forall_ne_some]
        intro rest hrest
        exact hstart ⟨rest, ((dropStart?_eq_some_iff _ _ _).mp hrest).symm⟩
      rw [Nat.zero_add, replaceFrom, hnone]
      exact congrArg (c :: ·) (ih fuel (by rw [List.length_cons] at hfuel; omega))

/-- The search keeps the rules, as long as there is fuel for every letter. -/
theorem replaceFrom_eq_iff (hpart : part ≠ []) (fuel : Nat) (hfuel : text.length ≤ fuel) :
    replaceFrom part value fuel text = out ↔ Replaces part value text out :=
  ⟨fun h => h ▸ replaces_replaceFrom hpart fuel text hfuel,
    fun h => h.replaceFrom_eq hpart fuel hfuel⟩

/-- A part of a text is replaced by the rules. -/
theorem replace_eq_iff (part value text out : String) (hpart : part.toList ≠ []) :
    replace part value text = out ↔ Replaces part.toList value.toList text.toList out.toList := by
  rw [← replaceFrom_eq_iff hpart (text.length + 1) (by rw [String.length_toList]; omega), replace,
    ← String.toList_inj, String.toList_ofList]

namespace Replaces

/-- A text can be cut where no occurrence crosses: each half is replaced for itself. -/
theorem append {left right l r : List Char} (hleft : Replaces part value left l)
    (hright : Replaces part value right r)
    (hapart : ∀ after, after <:+ left → after ≠ [] → part <+: after ++ right → part <+: after) :
    Replaces part value (left ++ right) (l ++ r) := by
  induction hleft with
  | nil => exact hright
  | found text out hrest ih =>
      rw [List.append_assoc, List.append_assoc]
      exact .found _ _ (ih fun after h => hapart after (h.trans (List.suffix_append part text)))
  | kept c text out hstart hrest ih =>
      refine .kept c _ _ (fun h => hstart ?_) (ih fun after h => hapart after
        (h.trans (List.suffix_cons c text)))
      exact hapart (c :: text) List.suffix_rfl (List.cons_ne_nil c text) h

/-- A letter that is not in the part is not lost. -/
theorem count_le_count (h : Replaces part value text out) (c : Char) (hpart : c ∉ part) :
    text.count c ≤ out.count c := by
  induction h with
  | nil => exact Nat.le_refl _
  | found text out hrest ih =>
      rw [List.count_append, List.count_append, List.count_eq_zero.mpr hpart]
      omega
  | kept d text out hstart hrest ih =>
      rw [List.count_cons, List.count_cons]
      omega

/-- There are not more of a letter that is not in the value. -/
theorem count_ge_count (h : Replaces part value text out) (c : Char) (hvalue : c ∉ value) :
    out.count c ≤ text.count c := by
  induction h with
  | nil => exact Nat.le_refl _
  | found text out hrest ih =>
      rw [List.count_append, List.count_append, List.count_eq_zero.mpr hvalue]
      omega
  | kept d text out hstart hrest ih =>
      rw [List.count_cons, List.count_cons]
      omega

/-- There are fewer of a letter of the part that is not in the value, if the part occurs. -/
theorem count_lt_count (h : Replaces part value text out) (c : Char) (hpart : c ∈ part)
    (hvalue : c ∉ value) (hoccurs : part <:+: text) : out.count c < text.count c := by
  induction h with
  | nil =>
      rw [List.infix_nil.mp hoccurs] at hpart
      exact absurd hpart List.not_mem_nil
  | found text out hrest ih =>
      have hrest := hrest.count_ge_count c hvalue
      have hpos := List.count_pos_iff.mpr hpart
      rw [List.count_append, List.count_append, List.count_eq_zero.mpr hvalue]
      omega
  | kept d text out hstart hrest ih =>
      -- The part does not start here, so it occurs further on.
      rcases List.infix_cons_iff.mp hoccurs with hprefix | hinfix
      · exact absurd hprefix hstart
      · have hfewer := ih hinfix
        rw [List.count_cons, List.count_cons]
        omega

end Replaces

/-- A text in front of another stays as it is, if no occurrence starts in it. -/
theorem Replaces.skip {right r : List Char} (left : List Char)
    (hright : Replaces part value right r)
    (hnone : ∀ after, after <:+ left → after ≠ [] → ¬ part <+: after ++ right) :
    Replaces part value (left ++ right) (left ++ r) := by
  induction left with
  | nil => exact hright
  | cons c left ih =>
      refine .kept c _ _ (hnone (c :: left) List.suffix_rfl (List.cons_ne_nil c left)) (ih ?_)
      exact fun after h => hnone after (h.trans (List.suffix_cons c left))

/-- Without an occurrence, nothing changes. -/
theorem replaces_self (h : ¬ part <:+: text) : Replaces part value text text := by
  have hskip : Replaces part value (text ++ []) (text ++ []) := by
    refine Replaces.skip text .nil fun after hafter _ hstart => ?_
    rw [List.append_nil] at hstart
    exact h (hstart.isInfix.trans hafter.isInfix)
  rwa [List.append_nil] at hskip

end Messages

end PlatformBridge
