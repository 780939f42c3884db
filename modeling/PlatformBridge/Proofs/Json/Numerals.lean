import PlatformBridge.Proofs.Decimal.Shortest
import PlatformBridge.Proofs.Json.Scanning

/-!
# Numerals Read Back

What is written for a number of a program is a numeral that means this
number. An integer is written in its digits. A double is written as its
shortest decimal in one of two notations, and each of them spells the digits
with the place of their point. The decimal is read again, zeros in front of it
or behind it apart, and that it rounds to the double is known.

A numeral is dealt with by its parts: what text they make, and what is read
from this text, is said once for all of them. Whether a numeral is an integer
or not is decided by its form, so the double one is written `1.0`. `Spells`
keeps that a text has a fraction or an exponent along with what its digits are
worth.

The two notations differ in where the zeros go. In the positional one there
are three cases, by whether the point comes before the digits, behind them or
among them, and each case is a lemma about texts. In all of them the digits of
the text are the digits of the decimal with zeros around them, and its value
is the same because the place of the point makes up for the zeros. It is
here, and nowhere else, that powers of ten are added and taken away.

## Main definitions

* `Json.Numeral.IsWhole`, `Json.Numeral.IsPlaces`: Digits in front of a point
  and behind it.
* `Json.Numeral.Parts`: The digits, the fraction and the exponent of a
  numeral.
* `Json.Numeral.Parts.Spells`: Parts that have a text and a value.

## Theorems

* `Json.Numeral.valueOf_replicate_append`,
  `Json.Numeral.valueOf_append_replicate`: Zeros around digits.
* `Json.Numeral.Parts.ofChars?_text`: A numeral is read as its parts.
* `Json.Numeral.Parts.isLegible`: Numbers that are written in such parts.
* `Json.exists_spells_below`, `Json.exists_spells_above`,
  `Json.exists_spells_among`: Where the point is.
* `Json.exists_spells_positional`, `Json.exists_spells_scientific`: The two
  notations.
* `Json.exists_spells_positiveText`: The text of a double.
* `Json.Numeral.Parts.Spells.toNumber?`: What such a text is read as.
* `Json.isLegible_integer`, `Json.isLegible_float`: Numbers of 64 bits are
  legible.
-/

namespace PlatformBridge

namespace Json

namespace Numeral

section Digits

theorem valueOf_eq (digits : List Char) : valueOf digits = Nat.ofDigitChars 10 digits 0 :=
  Nat.ofDigitChars_eq_foldl.symm

/-- A number is what its digits are worth. -/
theorem valueOf_toDigits (n : Nat) : valueOf (Nat.toDigits 10 n) = n := by
  rw [valueOf_eq, Nat.ofDigitChars_ten_toDigits]

/-- Zeros before digits mean nothing. -/
theorem valueOf_replicate_append (k : Nat) (digits : List Char) :
    valueOf (List.replicate k '0' ++ digits) = valueOf digits := by
  rw [valueOf_eq, Nat.ofDigitChars_append, Nat.ofDigitChars_replicate_zero, Nat.mul_zero,
    ← valueOf_eq]

/-- A zero after digits is a factor of ten. -/
theorem valueOf_append_replicate (k : Nat) (digits : List Char) :
    valueOf (digits ++ List.replicate k '0') = valueOf digits * 10 ^ k := by
  rw [valueOf_eq, Nat.ofDigitChars_append, Nat.ofDigitChars_replicate_zero, ← valueOf_eq,
    Nat.mul_comm]

/-- Digits that a numeral starts with: they start with zero only if they are zero. -/
structure IsWhole (whole : List Char) : Prop where
  isDigit : ∀ c ∈ whole, c.isDigit = true
  ne_nil : whole ≠ []
  leading : whole.head? = some '0' → whole.length = 1

/-- Digits after a point or an exponent. -/
structure IsPlaces (places : List Char) : Prop where
  isDigit : ∀ c ∈ places, c.isDigit = true
  ne_nil : places ≠ []

theorem isPlaces_toDigits (n : Nat) : IsPlaces (Nat.toDigits 10 n) :=
  ⟨fun _ => Nat.isDigit_of_mem_toDigits (by decide) (by decide), Nat.toDigits_ne_nil⟩

/-- Only zero starts with zero. -/
theorem head?_toDigits_ne (n : Nat) (h : 0 < n) : (Nat.toDigits 10 n).head? ≠ some '0' := by
  induction n using Nat.strongRecOn with
  | ind n ih =>
      by_cases hlt : n < 10
      · rw [Nat.toDigits_of_lt_base hlt, List.head?_singleton, ne_eq, Option.some.injEq,
          Nat.digitChar_eq_zero]
        omega
      · rw [Nat.toDigits_of_base_le (by decide) (by omega),
          List.head?_append_of_ne_nil _ Nat.toDigits_ne_nil]
        exact ih (n / 10) (by omega) (by omega)

theorem isWhole_toDigits (n : Nat) : IsWhole (Nat.toDigits 10 n) := by
  refine ⟨(isPlaces_toDigits n).isDigit, Nat.toDigits_ne_nil, fun hzero => ?_⟩
  rcases Nat.eq_zero_or_pos n with rfl | hpos
  · rfl
  · exact absurd hzero (head?_toDigits_ne n hpos)

/-- Digits are read as far as they go. -/
theorem digitsOf_append (digits rest : List Char) (hdigits : ∀ c ∈ digits, c.isDigit = true)
    (hrest : ∀ c ∈ rest.head?, c.isDigit = false) : digitsOf (digits ++ rest) = (digits, rest) := by
  rw [digitsOf, List.takeWhile_append_of_pos hdigits, List.dropWhile_append_of_pos hdigits]
  cases rest with
  | nil => rw [List.takeWhile_nil, List.dropWhile_nil, List.append_nil]
  | cons c rest =>
      have hc := hrest c rfl
      rw [List.takeWhile_cons_of_neg (by simp [hc]), List.dropWhile_cons_of_neg (by simp [hc]),
        List.append_nil]

end Digits

/-- The parts of a numeral without sign: digits, a fraction perhaps, and perhaps an exponent, with
    its sign and its digits. -/
structure Parts where
  whole : List Char
  fraction : Option (List Char)
  exponent : Option (Bool × List Char)

namespace Parts

variable (p : Parts)

/-- The text of a fraction. -/
def fractionText : Option (List Char) → List Char
  | none => []
  | some places => '.' :: places

/-- The text of an exponent. -/
def exponentText : Option (Bool × List Char) → List Char
  | none => []
  | some (negative, digits) => 'e' :: (if negative then '-' else '+') :: digits

/-- The text of a numeral. -/
def text (negative : Bool) : List Char :=
  (if negative then ['-'] else []) ++
    (p.whole ++ (fractionText p.fraction ++ exponentText p.exponent))

/-- The value of an exponent. -/
def exponentOf : Option (Bool × List Char) → Int
  | none => 0
  | some (negative, digits) => if negative then -(valueOf digits : Int) else valueOf digits

/-- The numeral of some parts. -/
def numeral (negative : Bool) : Numeral where
  negative
  digits := valueOf (p.whole ++ p.fraction.getD [])
  exponent := exponentOf p.exponent - (p.fraction.getD []).length
  isIntegral := p.fraction.isNone && p.exponent.isNone

/-- Parts that a numeral can have. -/
structure IsValid : Prop where
  whole : IsWhole p.whole
  fraction : ∀ places ∈ p.fraction, IsPlaces places
  exponent : ∀ e ∈ p.exponent, IsPlaces e.2

/-- What is written for an exponent is read as this exponent. -/
theorem exponentOf?_exponentText (e : Option (Bool × List Char)) (h : ∀ d ∈ e, IsPlaces d.2) :
    exponentOf? (exponentText e) = some (e.map fun d => exponentOf (some d)) := by
  rcases e with _ | ⟨negative, digits⟩
  · rfl
  · obtain ⟨hdigits, hne⟩ := h _ rfl
    have hall : digits.all Char.isDigit = true := List.all_eq_true.mpr hdigits
    cases negative with
    | true => simp [exponentText, exponentOf?, hall, hne, exponentOf]
    | false => simp [exponentText, exponentOf?, hall, hne, exponentOf]

/-- What is written for a fraction is read as this fraction, and the exponent is left. -/
theorem fractionOf?_fractionText (f : Option (List Char)) (e : Option (Bool × List Char))
    (h : ∀ places ∈ f, IsPlaces places) :
    fractionOf? (fractionText f ++ exponentText e) = some (f, exponentText e) := by
  cases f with
  | none =>
      rcases e with _ | e
      · rfl
      · rfl
  | some places =>
      obtain ⟨hdigits, hne⟩ := h _ rfl
      have hrest : ∀ c ∈ (exponentText e).head?, c.isDigit = false := by
        rcases e with _ | e
        · rintro c ⟨⟩
        · rintro c ⟨⟩
          rfl
      rw [fractionText, List.cons_append, fractionOf?, digitsOf_append places _ hdigits hrest]
      simp [hne]

/-- A numeral is read as its parts. -/
theorem ofChars?_text (h : p.IsValid) (negative : Bool) :
    ofChars? (p.text negative) = some (p.numeral negative) := by
  obtain ⟨hdigits, hne, hleading⟩ := h.whole
  have hrest : ∀ c ∈ (fractionText p.fraction ++ exponentText p.exponent).head?,
      c.isDigit = false := by
    rcases p.fraction with _ | places
    · rcases p.exponent with _ | e
      · rintro c ⟨⟩
      · rintro c ⟨⟩
        rfl
    · rintro c ⟨⟩
      rfl
  have hwhole := digitsOf_append p.whole _ hdigits hrest
  -- The whole part is not empty, and starts with a zero only if it is one.
  have hstart : (p.whole.isEmpty || (p.whole.head? = some '0' && 1 < p.whole.length)) = false := by
    simp [hne]
    intro hzero
    rw [hleading hzero]
  have hvalue : (p.exponent.map fun d => exponentOf (some d)).getD 0 = exponentOf p.exponent := by
    rcases p.exponent with _ | e
    · rfl
    · rfl
  cases negative with
  | true =>
      rw [text, if_pos rfl, List.singleton_append, ofChars?]
      simp only [hwhole, hstart, fractionOf?_fractionText _ _ h.fraction,
        exponentOf?_exponentText _ h.exponent, Option.bind_eq_bind, Option.bind_some, hvalue,
        Option.isNone_map, Bool.false_eq_true, if_false]
      rfl
  | false =>
      rw [text, if_neg (by decide), List.nil_append, ofChars?]
      · simp only [hwhole, hstart, fractionOf?_fractionText _ _ h.fraction,
          exponentOf?_exponentText _ h.exponent, Option.bind_eq_bind, Option.bind_some, hvalue,
          Option.isNone_map, Bool.false_eq_true, if_false]
        rfl
      · -- A digit is no minus.
        intro rest hminus
        obtain ⟨c, cs, hcons⟩ := List.exists_cons_of_ne_nil hne
        rw [hcons, List.cons_append, List.cons.injEq] at hminus
        have hc := hdigits c (hcons ▸ List.mem_cons_self)
        rw [hminus.1] at hc
        cases hc

/-- Digits and the marks between them are all that a numeral is made of. -/
theorem isNumeric_of_isDigit {c : Char} (h : c.isDigit = true) : Token.isNumeric c = true := by
  rw [Token.isNumeric, h]
  rfl

theorem isNumeric_text (h : p.IsValid) (negative : Bool) :
    ∀ c ∈ p.text negative, Token.isNumeric c = true := by
  intro c hc
  rw [text, List.mem_append, List.mem_append, List.mem_append] at hc
  -- A character is in the sign, the whole part, the places behind the point, or the exponent.
  rcases hc with hsign | hwhole | hfraction | hexponent
  · cases negative with
    | true =>
        rw [if_pos rfl, List.mem_singleton] at hsign
        rw [hsign]
        rfl
    | false => cases hsign
  · exact isNumeric_of_isDigit (h.whole.isDigit c hwhole)
  · cases hplaces : p.fraction with
    | none =>
        rw [hplaces] at hfraction
        cases hfraction
    | some places =>
        rw [hplaces, fractionText, List.mem_cons] at hfraction
        rcases hfraction with rfl | hmem
        · rfl
        · exact isNumeric_of_isDigit ((h.fraction places hplaces).isDigit c hmem)
  · cases he : p.exponent with
    | none =>
        rw [he] at hexponent
        cases hexponent
    | some e =>
        rw [he, exponentText, List.mem_cons, List.mem_cons] at hexponent
        rcases hexponent with rfl | hmark | hmem
        · rfl
        · rw [hmark]
          cases e.1
          · rfl
          · rfl
        · exact isNumeric_of_isDigit ((h.exponent e he).isDigit c hmem)

/-- A numeral starts with a digit or a minus, which is how the scanner knows it for one. -/
theorem exists_text_eq_cons (h : p.IsValid) (negative : Bool) :
    ∃ c rest, p.text negative = c :: rest ∧ (c.isDigit || c = '-') = true := by
  cases negative with
  | true => exact ⟨'-', _, rfl, rfl⟩
  | false =>
      obtain ⟨c, cs, hcons⟩ := List.exists_cons_of_ne_nil h.whole.ne_nil
      refine ⟨c, cs ++ (fractionText p.fraction ++ exponentText p.exponent), ?_, ?_⟩
      · rw [text, if_neg (by decide), List.nil_append, hcons, List.cons_append]
      · rw [h.whole.isDigit c (hcons ▸ List.mem_cons_self), Bool.true_or]

/-- A number that is written in parts of its meaning is legible. -/
theorem isLegible (h : p.IsValid) {layout : Layout} {n : Number} (negative : Bool)
    (htext : n.text layout = p.text negative)
    (hmeans : (p.numeral negative).toNumber? = some n) : Token.IsLegible layout n := by
  have hnumeral : Numeral.ofChars? (n.text layout) = some (p.numeral negative) := by
    rw [htext, p.ofChars?_text h]
  refine ⟨?_, ?_, ?_, ?_⟩
  · rw [Token.numeralOf, hnumeral, Option.getD_some]
  · rw [Token.numeralOf, hnumeral, Option.getD_some, hmeans]
  · rw [htext]
    exact p.isNumeric_text h negative
  · rw [htext]
    exact p.exists_text_eq_cons h negative

/-- Parts that spell a decimal which is not an integer by its form. -/
structure Spells (text : List Char) (v : Rat) : Prop where
  isValid : p.IsValid
  text_eq : p.text false = text
  isReal : (p.fraction.isNone && p.exponent.isNone) = false
  value : ((p.numeral false).digits : Rat) * 10 ^ (p.numeral false).exponent = v

end Parts

end Numeral

/-- Integers of 64 bits are legible. -/
theorem isLegible_integer (layout : Layout) (n : Int) (hlow : -0x8000000000000000 ≤ n)
    (hhigh : n < 0x10000000000000000) : Token.IsLegible layout (.integer n) := by
  have hvalid : (⟨Nat.toDigits 10 n.natAbs, none, none⟩ : Numeral.Parts).IsValid :=
    ⟨Numeral.isWhole_toDigits n.natAbs, nofun, nofun⟩
  refine Numeral.Parts.isLegible _ hvalid (decide (n < 0)) ?_ ?_
  · rw [Number.text, integerText, Numeral.Parts.text, Numeral.Parts.fractionText,
      Numeral.Parts.exponentText]
    by_cases hsign : n < 0
    · simp [hsign]
    · simp [hsign]
  · simp only [Numeral.Parts.numeral, Numeral.Parts.exponentOf, Numeral.toNumber?,
      Option.getD_none, List.append_nil, Numeral.valueOf_toDigits, Option.isNone_none]
    by_cases hsign : n < 0
    · have hsmall : n.natAbs ≤ 0x8000000000000000 := by omega
      have hvalue : -(n.natAbs : Int) = n := by omega
      rw [decide_eq_true hsign, if_neg (by simp), if_pos (by simp [hsmall]; omega), hvalue]
    · have hsmall : n.natAbs < 0x10000000000000000 := by omega
      have hvalue : (n.natAbs : Int) = n := by omega
      rw [decide_eq_false hsign, if_pos (by simp [hsmall]), hvalue]

section Layouts

open Numeral

theorem isPlaces_append_toDigits (zeros n : Nat) :
    IsPlaces (List.replicate zeros '0' ++ Nat.toDigits 10 n) := by
  refine ⟨fun c hc => ?_, by simp⟩
  rcases List.mem_append.mp hc with hzero | hdigit
  · rw [List.eq_of_mem_replicate hzero]
    rfl
  · exact (isPlaces_toDigits n).isDigit c hdigit

variable {n : Nat} (hn : 0 < n) (place : Int)
include hn

/-- Digits that start a number of more digits start with the same one. -/
theorem isWhole_of_head? {whole : List Char} (hdigits : ∀ c ∈ whole, c.isDigit = true)
    (hhead : whole.head? = (Nat.toDigits 10 n).head?) : IsWhole whole := by
  refine ⟨hdigits, ?_, fun hzero => ?_⟩
  · rintro rfl
    exact Nat.toDigits_ne_nil (List.head?_eq_none_iff.mp hhead.symm)
  · exact absurd (hhead.symm.trans hzero) (head?_toDigits_ne n hn)

omit hn in
/-- Zeros between the point and the digits. -/
theorem exists_spells_below (n zeros : Nat) : ∃ p : Numeral.Parts, p.Spells
    ('0' :: '.' :: List.replicate zeros '0' ++ Nat.toDigits 10 n)
    (n * 10 ^ (-zeros - (Nat.toDigits 10 n).length : Int)) := by
  refine ⟨⟨['0'], some (List.replicate zeros '0' ++ Nat.toDigits 10 n), none⟩,
    ⟨⟨?_, ?_, nofun⟩, ?_, rfl, ?_⟩⟩
  · exact isWhole_toDigits 0
  · rintro places ⟨⟩
    exact isPlaces_append_toDigits zeros n
  · simp [Parts.text, Parts.fractionText, Parts.exponentText]
  · have hvalue : valueOf (['0'] ++ (List.replicate zeros '0' ++ Nat.toDigits 10 n)) = n := by
      rw [← List.append_assoc, ← List.replicate_one, ← List.replicate_add,
        valueOf_replicate_append, valueOf_toDigits]
    simp only [Parts.numeral, Parts.exponentOf, Option.getD_some, hvalue, List.length_append,
      List.length_replicate]
    congr 2
    omega

/-- Zeros between the digits and the point. -/
theorem exists_spells_above (zeros : Nat) : ∃ p : Numeral.Parts, p.Spells
    (Nat.toDigits 10 n ++ List.replicate zeros '0' ++ ['.', '0']) (n * 10 ^ (zeros : Int)) := by
  refine ⟨⟨Nat.toDigits 10 n ++ List.replicate zeros '0', some ['0'], none⟩,
    ⟨⟨?_, ?_, nofun⟩, ?_, rfl, ?_⟩⟩
  · refine isWhole_of_head? hn (fun c hc => ?_) ?_
    · rcases List.mem_append.mp hc with hdigit | hzero
      · exact (isPlaces_toDigits n).isDigit c hdigit
      · rw [List.eq_of_mem_replicate hzero]
        rfl
    · exact List.head?_append_of_ne_nil _ Nat.toDigits_ne_nil
  · rintro places ⟨⟩
    exact isPlaces_toDigits 0
  · simp [Parts.text, Parts.fractionText, Parts.exponentText]
  · simp only [Parts.numeral, Parts.exponentOf, Option.getD_some, ← List.replicate_one,
      valueOf_append_replicate, valueOf_toDigits, List.length_replicate]
    rw [zpow_natCast, Nat.cast_one, zpow_sub₀ (by norm_num), zpow_zero, zpow_one]
    push_cast
    ring

/-- The point among the digits. -/
theorem exists_spells_among {k : Nat} (hk : 0 < k) (hlong : k < (Nat.toDigits 10 n).length) :
    ∃ p : Numeral.Parts, p.Spells
      ((Nat.toDigits 10 n).take k ++ '.' :: (Nat.toDigits 10 n).drop k)
      (n * 10 ^ (k - (Nat.toDigits 10 n).length : Int)) := by
  have hdigits := (isPlaces_toDigits n).isDigit
  refine ⟨⟨(Nat.toDigits 10 n).take k, some ((Nat.toDigits 10 n).drop k), none⟩,
    ⟨⟨?_, ?_, nofun⟩, ?_, rfl, ?_⟩⟩
  · refine isWhole_of_head? hn (fun c hc => hdigits c (List.mem_of_mem_take hc)) ?_
    rw [List.head?_take, if_neg (Nat.ne_of_gt hk)]
  · rintro places ⟨⟩
    refine ⟨fun c hc => hdigits c (List.mem_of_mem_drop hc), ?_⟩
    rw [ne_eq, List.drop_eq_nil_iff]
    exact Nat.not_le_of_lt hlong
  · simp [Parts.text, Parts.fractionText, Parts.exponentText]
  · simp only [Parts.numeral, Parts.exponentOf, Option.getD_some, List.take_append_drop,
      valueOf_toDigits, List.length_drop]
    congr 2
    omega

/-- The text with a point spells the digits with the place of their point. -/
theorem exists_spells_positional : ∃ p : Numeral.Parts, p.Spells
    (Layout.positionalText true (Nat.toDigits 10 n) place)
    (n * 10 ^ (place - (Nat.toDigits 10 n).length)) := by
  rw [Layout.positionalText]
  by_cases hsmall : place ≤ 0
  · have hspells := exists_spells_below n (-place).toNat
    have hplace : -((-place).toNat : Int) = place := by omega
    rw [hplace] at hspells
    rwa [if_pos hsmall]
  · rw [if_neg hsmall]
    have hplace : (place.toNat : Int) = place := by omega
    by_cases hlong : (Nat.toDigits 10 n).length ≤ place.toNat
    · have hspells := exists_spells_above hn (place.toNat - (Nat.toDigits 10 n).length)
      rw [Nat.cast_sub hlong, hplace] at hspells
      simpa only [if_pos hlong, if_true] using hspells
    · have hspells := exists_spells_among hn (show 0 < place.toNat by omega) (by omega)
      rw [hplace] at hspells
      simpa only [if_neg hlong] using hspells

/-- The text with an exponent spells the digits with the place of their point. -/
theorem exists_spells_scientific : ∃ p : Numeral.Parts, p.Spells
    (Layout.scientificText (Nat.toDigits 10 n) (place - 1))
    (n * 10 ^ (place - (Nat.toDigits 10 n).length)) := by
  have hdigits := (isPlaces_toDigits n).isDigit
  have hvalue := valueOf_toDigits n
  have hexponent : Parts.exponentOf
      (some (decide (place - 1 < 0), Nat.toDigits 10 (place - 1).natAbs)) = place - 1 := by
    rw [Parts.exponentOf, valueOf_toDigits]
    by_cases hsign : place - 1 < 0
    · rw [if_pos (decide_eq_true hsign)]
      omega
    · rw [if_neg (by simpa using hsign)]
      omega
  have hplaces := isPlaces_toDigits (place - 1).natAbs
  generalize htext : Nat.toDigits 10 n = text at *
  -- The text has one digit in front of the point, so whether there is a point depends on whether
  -- there are more.
  rcases text with _ | ⟨first, _ | ⟨second, rest⟩⟩
  · exact absurd htext Nat.toDigits_ne_nil
  · refine ⟨⟨[first], none, some (decide (place - 1 < 0), Nat.toDigits 10 (place - 1).natAbs)⟩,
      ⟨⟨?_, nofun, ?_⟩, ?_, rfl, ?_⟩⟩
    · exact htext ▸ isWhole_toDigits n
    · rintro e ⟨⟩
      exact hplaces
    · simp [Parts.text, Parts.fractionText, Parts.exponentText, Layout.scientificText]
    · simp only [Parts.numeral, hexponent, Option.getD_none, List.append_nil, hvalue,
        List.length_singleton, List.length_nil]
      congr 2
      omega
  · refine ⟨⟨[first], some (second :: rest),
      some (decide (place - 1 < 0), Nat.toDigits 10 (place - 1).natAbs)⟩,
      ⟨⟨?_, ?_, ?_⟩, ?_, rfl, ?_⟩⟩
    · refine isWhole_of_head? hn (fun c hc => ?_) (by rw [htext]; rfl)
      rw [List.mem_singleton.mp hc]
      exact hdigits first List.mem_cons_self
    · rintro places ⟨⟩
      exact ⟨fun c hc => hdigits c (List.mem_cons_of_mem first hc), nofun⟩
    · rintro e ⟨⟩
      exact hplaces
    · simp [Parts.text, Parts.fractionText, Parts.exponentText, Layout.scientificText]
    · simp only [Parts.numeral, hexponent, Option.getD_some, List.singleton_append, hvalue,
        List.length_cons]
      congr 2
      push_cast
      ring

omit hn in
/-- The text of a number that is not zero spells the shortest decimal. -/
theorem exists_spells_positiveText (x : Binary64) (hpos : 0 < x.magnitude) :
    ∃ p : Numeral.Parts, p.Spells (Layout.json.positiveText x)
      (Decimal.shortest false (.of x)).value := by
  have hwide := Interval.isWide_of x hpos
  have hdigits := hwide.digits_pos (Decimal.covers_shortest false hwide)
  simp only [Layout.positiveText, Decimal.value]
  rw [show Layout.json.halfUp = false from rfl, show Layout.json.pointZero = true from rfl,
    show Layout.json.positional = some (-5, 15) from rfl]
  dsimp only
  generalize Decimal.shortest false (.of x) = d at *
  have hexponent : d.exponent
      = d.exponent + (Nat.toDigits 10 d.digits).length - (Nat.toDigits 10 d.digits).length := by
    omega
  split
  · have hspells := exists_spells_positional hdigits
      (d.exponent + (Nat.toDigits 10 d.digits).length)
    rwa [← hexponent] at hspells
  · have hspells := exists_spells_scientific hdigits
      (d.exponent + (Nat.toDigits 10 d.digits).length)
    rwa [← hexponent] at hspells

end Layouts

/-- A numeral that is not an integer by its form means the double that it is read as. -/
theorem Numeral.Parts.Spells.toNumber? {p : Numeral.Parts} {text : List Char} {v : Rat}
    (h : p.Spells text v) (x : Binary64) (hfinite : x.isFinite = true)
    (hx : Binary64.ofDecimal x.isNegative (p.numeral false).digits (p.numeral false).exponent = x) :
    (p.numeral x.isNegative).toNumber? = some (.float x) := by
  have hreal : (p.numeral x.isNegative).isIntegral = false := h.isReal
  simp only [Numeral.toNumber?, hreal, Bool.false_and, Bool.false_eq_true, if_false]
  exact (congrArg (fun y => if y.isFinite then some (Number.float y) else none) hx).trans
    (if_pos hfinite)

/-- A finite number shows its sign, also when it is zero. -/
theorem text_json (x : Binary64) (h : x.isFinite = true) :
    Layout.json.text x = (if x.isNegative then ['-'] else []) ++
      if x.magnitude = 0 then ['0', '.', '0'] else Layout.json.positiveText x := by
  have hnan : x.isNaN = false := by
    rw [Binary64.isFinite, decide_eq_true_eq] at h
    rw [Binary64.isNaN, decide_eq_false_iff_not]
    omega
  have hsign : (x.isNegative && (Layout.json.signedZero || x.magnitude ≠ 0)) = x.isNegative :=
    Bool.and_true x.isNegative
  simp only [Layout.text, hnan, hsign, h]
  rfl

/-- Finite doubles are legible. -/
theorem isLegible_float (x : Binary64) (h : x.isFinite = true) :
    Token.IsLegible .json (.float x) := by
  rcases Nat.eq_zero_or_pos x.magnitude with hzero | hpos
  · have hspells : (⟨['0'], some ['0'], none⟩ : Numeral.Parts).Spells ['0', '.', '0'] 0 :=
      ⟨⟨Numeral.isWhole_toDigits 0, by rintro places ⟨⟩; exact Numeral.isPlaces_toDigits 0, nofun⟩,
        rfl, rfl, zero_mul _⟩
    refine Numeral.Parts.isLegible _ hspells.isValid x.isNegative ?_ (hspells.toNumber? x h ?_)
    · rw [Number.text, text_json x h, if_pos hzero]
      rfl
    · exact (congrArg (Binary64.ofParts x.isNegative) hzero.symm).trans x.ofParts_eq
  · obtain ⟨p, hspells⟩ := exists_spells_positiveText x hpos
    refine p.isLegible hspells.isValid x.isNegative ?_ (hspells.toNumber? x h ?_)
    · rw [Number.text, text_json x h, if_neg hpos.ne', ← hspells.text_eq]
      rfl
    · exact Binary64.ofDecimal_shortest x h hpos false _ _ hspells.value

end Json

end PlatformBridge
