import Mathlib.Data.List.Basic
import PlatformBridge.Proofs.Text.Split

/-!
# Letters of Texts

What is known of the characters of a text that is put together from others.
Generated code is made of fixed texts, of names in letter case and of
numbers, and these have none of the characters that start or end anything but
a word; it is only the names that are quoted as they are that may have them.

Several readers are modelled in other modules, each of which takes some
characters for something special: a line break, a quote, a backslash, a
slash, a dollar sign. `isPlain` leaves out all of these at once. What is
plain is shown to be so one time, in the modules on letters, and every reader
then gets what it needs from `HoldsPlain`, which says of its class of
characters that it has the plain ones.

That a text is plain is proved as the text is built. The lemmas about
appending and joining are simp lemmas for this reason, and `all_fixed` settles
a text that is written out by running through it.

## Main definitions

* `Text.All`: A text with characters of a class.
* `Text.isInLine`: The characters that end no line.
* `Text.isPlain`: The characters that mean nothing special to either
  language.
* `Text.HoldsPlain`: A class that has all plain characters.

## Theorems

* `Text.all_append`, `Text.all_ofList`, `Text.all_fixed`, `Text.all_join`,
  `Text.all_intercalate`: Texts made of others.
* `Text.All.imp`, `Text.HoldsPlain.all`: A class in a greater one.
* `Text.ne_of_class`, `Text.ne_of_isPlain`: Characters of different classes.
* `Text.isPlain_of_isAlphanum`, `Text.isAlphanum_of_isLower`: Letters and
  digits.
* `Text.isAlphanum_repr`, `Text.isPlain_repr`: Numbers.
-/

namespace PlatformBridge

namespace Text

/-- All characters of a text are of a class. -/
def All (p : Char → Bool) (text : String) : Prop := ∀ c ∈ text.toList, p c = true

/-- A character that ends no line. -/
def isInLine (c : Char) : Bool := !(c = '\n' || c = '\r')

/-- A character that ends no line, starts and ends neither a literal nor a comment, and stands for
    itself in both. -/
def isPlain (c : Char) : Bool := !(['\'', '"', '/', '\\', '$', '\n', '\r'].contains c)

section All

variable {p : Char → Bool}

@[simp] theorem all_append {s t : String} : All p (s ++ t) ↔ All p s ∧ All p t := by
  simp [All, or_imp, forall_and]

@[simp] theorem all_ofList {text : List Char} :
    All p (String.ofList text) ↔ ∀ c ∈ text, p c = true := by
  simp [All]

/-- A text that is written out is the list of its characters. -/
theorem all_fixed {text : List Char} (h : text.all p = true) : All p (String.ofList text) :=
  all_ofList.mpr (List.all_eq_true.mp h)

theorem all_join {parts : List String} :
    All p (String.join parts) ↔ ∀ part ∈ parts, All p part := by
  simp only [All, String.toList_join, List.mem_flatMap]
  exact ⟨fun h part hpart c hc => h c ⟨part, hpart, hc⟩,
    fun h c ⟨part, hpart, hc⟩ => h part hpart c hc⟩

/-- Parts that are joined are of a class if they are and what is put between them is. -/
theorem all_intercalate {separator : String} {parts : List String} (hsep : All p separator)
    (h : ∀ part ∈ parts, All p part) : All p (separator.intercalate parts) := by
  induction parts with
  | nil => simp [All]
  | cons part rest ih =>
      rw [List.forall_mem_cons] at h
      cases rest with
      | nil => simpa using h.1
      | cons next others =>
          rw [String.intercalate_cons_cons, all_append, all_append]
          exact ⟨⟨h.1, hsep⟩, ih h.2⟩

end All

/-- Every plain character is of a class. -/
def HoldsPlain (p : Char → Bool) : Prop := ∀ c, isPlain c = true → p c = true

/-- What is plain is of every class that holds the plain characters. This is how a reader of one
    language comes by what it has to know of a name. -/
theorem HoldsPlain.all {p : Char → Bool} (hp : HoldsPlain p) {text : String}
    (h : All isPlain text) : All p text := fun c hc => hp c (h c hc)

/-- Two characters are told apart by a class that only one of them is in. -/
theorem ne_of_class {p : Char → Bool} {c d : Char} (h : p c = true) (hd : p d = false) : c ≠ d := by
  rintro rfl
  rw [hd] at h
  cases h

theorem ne_of_isPlain {c d : Char} (h : isPlain c = true) (hd : isPlain d = false) : c ≠ d :=
  ne_of_class h hd

theorem All.imp {p q : Char → Bool} {text : String} (h : All p text)
    (himp : ∀ c, p c = true → q c = true) : All q text := fun c hc => himp c (h c hc)

/-- The letters and digits of names are plain. -/
theorem isPlain_of_isAlphanum (c : Char) (h : c.isAlphanum = true) : isPlain c = true := by
  have hspecial : ['\'', '"', '/', '\\', '$', '\n', '\r'].all (fun d => !d.isAlphanum) = true := by
    decide
  rw [isPlain, Bool.not_eq_true', List.contains_eq_mem, decide_eq_false_iff_not]
  intro hc
  have hnone := List.all_eq_true.mp hspecial c hc
  rw [h] at hnone
  cases hnone

theorem isAlphanum_of_isLower (c : Char) (h : c.isLower = true) : c.isAlphanum = true := by
  change (c.isUpper || c.isLower || c.isDigit) = true
  rw [h, Bool.or_true, Bool.true_or]

/-- Numbers are written in digits. -/
theorem isAlphanum_repr (n : Nat) : All Char.isAlphanum n.repr := by
  intro c hc
  rw [Nat.toList_repr] at hc
  have hdigit := Nat.isDigit_of_mem_toDigits (by decide) (by decide) hc
  rw [Char.isAlphanum, hdigit, Bool.or_true]

@[simp] theorem isPlain_repr (n : Nat) : All isPlain n.repr :=
  (isAlphanum_repr n).imp isPlain_of_isAlphanum

end Text

end PlatformBridge
