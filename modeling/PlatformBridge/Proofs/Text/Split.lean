import PlatformBridge.Text.Basic

/-!
# Parts of Texts

Texts are cut at separators as lists are, so what is known of lists holds of
them: a text is put together again from its parts, and a text that is made of
parts without separators is cut into just these.

Paths are cut at slashes, versions at dots, settings into lines and generated
files into lines too. All of them are cut by `Text.split`, which keeps empty
parts. It is the library's own function because cutting by a predicate on
characters is what these readers do; `split_eq_splitOnP` says that it is the
one on lists, and from there on the lemmas about lists are used.

A file whose lines all end in a line break has one part more than it has
lines, an empty one behind the last break. `split_lines` is stated with this
part, since readers that go by lines have to pass it.

## Theorems

* `Text.split_eq_splitOnP`, `Text.split_eq_splitOn`: Cutting a text is
  cutting a list.
* `Text.split_ne_nil`: A text has a part.
* `Text.split_append_cons`, `Text.split_of_forall`: Where a text is cut.
* `Text.split_congr`: Separators that agree on the characters of a text.
* `Text.of_mem_split`: What is in a part.
* `Text.intercalate_split`, `Text.split_intercalate`: Parts and the text made
  of them.
* `Text.mem_intercalate`: What is in a text that is made of parts.
* `Text.split_lines`: The lines of a text.
* `Text.byteLength_append`: The length of texts one after the other.
-/

namespace PlatformBridge

namespace Text

/-- Cutting a text is cutting the list of its characters, and that is all that is proved of it by
    its definition. -/
theorem split_eq_splitOnP (p : Char → Bool) (text : List Char) :
    split p text = text.splitOnP p := by
  induction text with
  | nil => rfl
  | cons c rest ih =>
      rw [split, ih, List.splitOnP_cons_eq_if_modifyHead]
      split
      · rfl
      · cases hparts : rest.splitOnP p with
        | nil => exact absurd hparts (List.splitOnP_ne_nil p rest)
        | cons part parts => rfl

/-- An empty text has a part too, the empty one. -/
theorem split_ne_nil (p : Char → Bool) (text : List Char) : split p text ≠ [] := by
  rw [split_eq_splitOnP]
  exact List.splitOnP_ne_nil p text

/-- A separator divides the parts before it from those after it. -/
theorem split_append_cons (p : Char → Bool) (before after : List Char) (c : Char)
    (hc : p c = true) : split p (before ++ c :: after) = split p before ++ split p after := by
  simp only [split_eq_splitOnP, List.splitOnP_append_cons before after hc]

/-- A text without separators is its only part. -/
theorem split_of_forall (p : Char → Bool) (text : List Char) (h : ∀ c ∈ text, p c = false) :
    split p text = [text] := by
  rw [split_eq_splitOnP, List.splitOnP_eq_singleton h]

/-- Only what separates the characters of a text matters to how it is cut. -/
theorem split_congr (p q : Char → Bool) (text : List Char) (h : ∀ c ∈ text, p c = q c) :
    split p text = split q text := by
  induction text with
  | nil => rfl
  | cons c rest ih =>
      rw [List.forall_mem_cons] at h
      rw [split, split, h.1, ih h.2]

/-- The parts of a text have its characters, but for the separators. -/
theorem of_mem_split (p : Char → Bool) (text part : List Char) (h : part ∈ split p text) (c : Char)
    (hc : c ∈ part) : c ∈ text ∧ p c = false := by
  induction text generalizing part with
  | nil =>
      rw [List.mem_singleton.mp h] at hc
      cases hc
  | cons d rest ih =>
      rw [split] at h
      split at h
      · rcases List.mem_cons.mp h with rfl | h
        · cases hc
        · exact ⟨List.mem_cons_of_mem d (ih part h hc).1, (ih part h hc).2⟩
      -- A character that does not divide goes to the first part of the rest.
      · rename_i hd
        cases hparts : split p rest with
        | nil => exact absurd hparts (split_ne_nil p rest)
        | cons first others =>
            rw [hparts] at h
            dsimp only at h
            rcases List.mem_cons.mp h with rfl | h
            · rcases List.mem_cons.mp hc with rfl | hc
              · exact ⟨List.mem_cons_self, Bool.eq_false_iff.mpr hd⟩
              · have hfirst := ih first (hparts ▸ List.mem_cons_self) hc
                exact ⟨List.mem_cons_of_mem d hfirst.1, hfirst.2⟩
            · have hothers := ih part (hparts ▸ List.mem_cons_of_mem first h) hc
              exact ⟨List.mem_cons_of_mem d hothers.1, hothers.2⟩

theorem split_eq_splitOn (c : Char) (text : List Char) : split (· = c) text = text.splitOn c := by
  rw [split_eq_splitOnP, List.splitOn]
  rfl

/-- Parts with the separator between them are the text that they are parts of. -/
theorem intercalate_split (c : Char) (text : List Char) :
    [c].intercalate (split (· = c) text) = text := by
  rw [split_eq_splitOn, List.intercalate_splitOn]

/-- Texts without the separator are the parts of the text that is made of them. -/
theorem split_intercalate (c : Char) (parts : List (List Char)) (hne : parts ≠ [])
    (h : ∀ part ∈ parts, c ∉ part) : split (· = c) ([c].intercalate parts) = parts := by
  rw [split_eq_splitOn, List.splitOn_intercalate c h hne]

/-- A text that is made of parts has their characters and the separator. -/
theorem mem_intercalate (c d : Char) (parts : List (List Char)) (h : d ∈ [c].intercalate parts) :
    d = c ∨ ∃ part ∈ parts, d ∈ part := by
  induction parts with
  | nil => cases h
  | cons part rest ih =>
      cases rest with
      | nil =>
          rw [List.intercalate_singleton] at h
          exact Or.inr ⟨part, List.mem_cons_self, h⟩
      | cons next others =>
          rw [List.intercalate_cons_cons, List.append_assoc, List.mem_append, List.mem_append,
            List.mem_singleton] at h
          rcases h with h | h | h
          · exact Or.inr ⟨part, List.mem_cons_self, h⟩
          · exact Or.inl h
          · rcases ih h with h | ⟨other, hother, hmem⟩
            · exact Or.inl h
            · exact Or.inr ⟨other, List.mem_cons_of_mem part hother, hmem⟩

/-- Lines that end in line breaks are the lines of their text, with nothing after the last one. -/
theorem split_lines (lines : List (List Char)) (h : ∀ line ∈ lines, '\n' ∉ line) :
    split (· = '\n') (lines.flatMap (· ++ ['\n'])) = lines ++ [[]] := by
  induction lines with
  | nil => rfl
  | cons line rest ih =>
      rw [List.forall_mem_cons] at h
      have hline : ∀ c ∈ line, decide (c = '\n') = false := fun c hc =>
        decide_eq_false fun heq => h.1 (heq ▸ hc)
      rw [List.flatMap_cons, List.append_assoc, List.singleton_append,
        split_append_cons _ _ _ _ (decide_eq_true rfl), split_of_forall _ _ hline, ih h.2]
      rfl

theorem byteLength_cons (c : Char) (text : List Char) :
    byteLength (c :: text) = c.utf8Size + byteLength text := rfl

theorem byteLength_append (text other : List Char) :
    byteLength (text ++ other) = byteLength text + byteLength other := by
  induction text with
  | nil => exact (Nat.zero_add _).symm
  | cons c rest ih => rw [List.cons_append, byteLength_cons, byteLength_cons, ih, Nat.add_assoc]

end Text

end PlatformBridge
