import Mathlib.Data.List.Basic
import PlatformBridge.Package.Identity
import PlatformBridge.Proofs.Results
import PlatformBridge.Proofs.Text.Letters

/-!
# Versions of Packages

What the check of an identity lets through as a version, compared with the
grammar of versions: three numbers with dots between them, then a label for a
pre-release behind a hyphen perhaps, then a label for a build behind a plus
sign perhaps. A label is made of identifiers with dots between them, and an
identifier of letters, digits and hyphens.

The check looks at the characters behind the numbers one by one, and at the
last of them once more. It does not see the identifiers. So it lets through
what has an identifier without characters or a second plus sign, and it
refuses an identifier that ends with a hyphen if that is the end of the
version. In all other versions it agrees with the grammar.

To compare the two, both are brought to the same form. A version is cut where
the numbers end, which is at the first hyphen or plus sign in either reading,
and the numbers are dealt with once. What stands behind them is described by
its characters, the number of plus signs, and the pieces between its dividers:
`exists_isMarked_iff` does this for the grammar, and the lemmas on suffixes do
it for the check. The dot and the plus sign divide identifiers, and a hyphen
does not, as it may be part of one.

What is left over is arithmetic of these three conditions. A piece without
characters is what the check cannot see, and the last piece is where a hyphen
is refused.

## Main definitions

* `Version.IsNumber`, `Version.IsCore`: The numbers.
* `Version.IsIdentifier`, `Version.IsLabel`, `Version.IsMarked`: What may stand
  behind them.
* `Version.IsGrammatical`: The grammar.
* `Version.IsSuffix`: What the check lets through behind the numbers.
* `Version.identifiers`: The identifiers that stand behind the numbers.

## Theorems

* `PackageIdentity.check_eq_ok_iff`: An identity is accepted if each of its
  parts is.
* `Version.isCore_iff`: The numbers by the dots between them.
* `Version.isLabel_iff`, `Version.exists_isMarked_iff`: The grammar by
  characters and identifiers.
* `Version.isSuffix_cons_iff`, `Version.isSuffix_iff_of_split`: What is
  accepted behind the numbers.
* `Version.isVersion_iff`: What is accepted as a version.
* `Version.isVersion_append_iff`, `Version.isGrammatical_append_iff`: Both for
  a version that is cut.
* `Version.isVersion_append_and_iff`, `Version.isVersion_and_iff`: Where they
  agree.
* `PackageIdentity.version_of_check`: The same for identities.
* `PackageIdentity.exists_check_not_isGrammatical`: Versions on which they
  differ.
-/

namespace PlatformBridge

/-- An identity is accepted if each of its parts is. -/
theorem PackageIdentity.check_eq_ok_iff (p : PackageIdentity) :
    p.check = .ok () ↔ checkName p.name = .ok () ∧ isVersion p.version.toList = true
      ∧ Text.byteLength p.description.toList ≤ maxDescriptionLength
      ∧ ∀ c ∈ p.description.toList, c ≠ '\n' ∧ c ≠ '\r' := by
  unfold check
  simp only [Results.bind_eq_ok, Results.unless_bind_eq_ok, Results.unless_eq_ok,
    Bool.not_eq_true', Bool.not_eq_false, Nat.not_lt, List.any_eq_true, not_exists, not_and,
    Bool.or_eq_true, decide_eq_true_eq, not_or, ne_eq]
  constructor
  · rintro ⟨⟨⟩, hname, hversion, hlength, hline, _⟩
    exact ⟨hname, hversion, hlength, hline⟩
  · rintro ⟨hname, hversion, hlength, hline⟩
    exact ⟨(), hname, hversion, hlength, hline, rfl⟩

namespace Version

section Grammar

/-- A number: some digits. -/
def IsNumber (text : List Char) : Prop := text ≠ [] ∧ ∀ c ∈ text, c.isDigit = true

/-- Three numbers with dots between them. -/
def IsCore (text : List Char) : Prop :=
  ∃ major minor patch, IsNumber major ∧ IsNumber minor ∧ IsNumber patch
    ∧ text = major ++ '.' :: (minor ++ '.' :: patch)

/-- An identifier: some letters, digits and hyphens. -/
def IsIdentifier (text : List Char) : Prop :=
  text ≠ [] ∧ ∀ c ∈ text, c.isAlphanum = true ∨ c = '-'

/-- A label: some identifiers with dots between them. -/
def IsLabel (text : List Char) : Prop :=
  ∃ identifiers, identifiers ≠ [] ∧ (∀ i ∈ identifiers, IsIdentifier i)
    ∧ text = ['.'].intercalate identifiers

/-- A label behind its mark, or nothing. -/
def IsMarked (mark : Char) (text : List Char) : Prop :=
  text = [] ∨ ∃ label, IsLabel label ∧ text = mark :: label

/-- A version: numbers, then a pre-release perhaps, then a build perhaps, and no other plus sign. -/
def IsGrammatical (version : List Char) : Prop :=
  (∃ core release build, IsCore core ∧ IsMarked '-' release ∧ IsMarked '+' build
    ∧ version = core ++ (release ++ build)) ∧ version.count '+' ≤ 1

/-- What is accepted behind the numbers: nothing, or a hyphen or plus sign and then characters of a
    class, the last of which is a letter or digit. -/
def IsSuffix (text : List Char) : Prop :=
  text = [] ∨ ∃ mark rest last, text = mark :: rest ∧ startsSuffix mark = true
    ∧ (∀ c ∈ rest, isSuffixChar c = true) ∧ rest.getLast? = some last ∧ last.isAlphanum = true

/-- A character between two identifiers. -/
def isDivider (c : Char) : Bool := c = '.' || c = '+'

/-- The identifiers in what stands behind the numbers. -/
def identifiersOf : List Char → List (List Char)
  | [] => []
  | _ :: rest => Text.split isDivider rest

/-- The identifiers of a version. -/
def identifiers (version : List Char) : List (List Char) :=
  identifiersOf (version.dropWhile fun c => !startsSuffix c)

end Grammar

section Core

/-- A number, as the check looks for it. -/
theorem isNumber_iff (text : List Char) :
    (!text.isEmpty && text.all Char.isDigit) = true ↔ IsNumber text := by
  rw [IsNumber, Bool.and_eq_true, List.all_eq_true, Bool.not_eq_true', List.isEmpty_eq_false_iff]

/-- Numbers with dots between them are what is between the dots. -/
theorem isCore_iff (text : List Char) :
    IsCore text ↔ (Text.split (· = '.') text).length = 3
      ∧ ∀ part ∈ Text.split (· = '.') text, IsNumber part := by
  constructor
  · rintro ⟨major, minor, patch, hmajor, hminor, hpatch, rfl⟩
    have hdot : ∀ part, IsNumber part → '.' ∉ part := fun part hpart hmem =>
      Text.ne_of_class (hpart.2 _ hmem) (by decide) rfl
    have hsplit := Text.split_intercalate '.' [major, minor, patch] (by simp)
      (by simp [hdot _ hmajor, hdot _ hminor, hdot _ hpatch])
    have htext : ['.'].intercalate [major, minor, patch]
        = major ++ '.' :: (minor ++ '.' :: patch) := by simp [List.intercalate]
    rw [htext] at hsplit
    rw [hsplit]
    simp [hmajor, hminor, hpatch]
  · rintro ⟨hlength, hparts⟩
    rcases List.length_eq_three.mp hlength with ⟨major, minor, patch, hsplit⟩
    rw [hsplit] at hparts
    refine ⟨major, minor, patch, hparts _ (by simp), hparts _ (by simp), hparts _ (by simp), ?_⟩
    rw [← Text.intercalate_split '.' text, hsplit]
    simp [List.intercalate]

/-- There are only digits and dots in the numbers of a version, so nothing in them starts a suffix.
    -/
theorem isDigit_or_of_mem_core {core : List Char} (h : IsCore core) (c : Char) (hc : c ∈ core) :
    c.isDigit = true ∨ c = '.' := by
  rcases h with ⟨major, minor, patch, hmajor, hminor, hpatch, rfl⟩
  simp only [List.mem_append, List.mem_cons] at hc
  rcases hc with hc | rfl | hc | rfl | hc
  · exact Or.inl (hmajor.2 c hc)
  · exact Or.inr rfl
  · exact Or.inl (hminor.2 c hc)
  · exact Or.inr rfl
  · exact Or.inl (hpatch.2 c hc)

theorem startsSuffix_of_mem_core {core : List Char} (h : IsCore core) (c : Char) (hc : c ∈ core) :
    startsSuffix c = false := by
  rcases isDigit_or_of_mem_core h c hc with hdigit | rfl
  · simp [startsSuffix, Text.ne_of_class hdigit (d := '-') (by decide),
      Text.ne_of_class hdigit (d := '+') (by decide)]
  · rfl

end Core

section Labels

/-- A label has no plus sign in it, so its identifiers are what is between its dividers. -/
theorem split_isDivider (text : List Char) (h : ∀ c ∈ text, c ≠ '+') :
    Text.split isDivider text = Text.split (· = '.') text := by
  refine Text.split_congr _ _ text fun c hc => ?_
  rw [isDivider, decide_eq_false (h c hc), Bool.or_false]

theorem isSuffixChar_iff (c : Char) :
    isSuffixChar c = true ↔ (c.isAlphanum = true ∨ c = '-') ∨ isDivider c = true := by
  simp only [isSuffixChar, startsSuffix, isDivider, Bool.or_eq_true, decide_eq_true_eq]
  tauto

theorem isDivider_of_isIdentifier {text : List Char} (h : IsIdentifier text) (c : Char)
    (hc : c ∈ text) : isDivider c = false := by
  rcases h.2 c hc with halphanum | rfl
  · rw [isDivider, decide_eq_false (Text.ne_of_class halphanum (by decide)),
      decide_eq_false (Text.ne_of_class halphanum (by decide))]
    rfl
  · rfl

/-- A label is made of the characters of a suffix, but for the plus sign, and has no identifier
    without characters. -/
theorem isLabel_iff (text : List Char) : IsLabel text
    ↔ (∀ c ∈ text, isSuffixChar c = true ∧ c ≠ '+') ∧ [] ∉ Text.split isDivider text := by
  constructor
  · rintro ⟨identifiers, hne, hidentifiers, rfl⟩
    -- No divider is in an identifier, so a label is cut where its identifiers meet.
    have hdivider : ∀ i ∈ identifiers, ∀ c ∈ i, isDivider c = false := fun i hi =>
      isDivider_of_isIdentifier (hidentifiers i hi)
    have hchar := fun c => Text.mem_intercalate '.' c identifiers
    have hplus : ∀ c ∈ ['.'].intercalate identifiers, c ≠ '+' := by
      rintro c hc rfl
      rcases hchar _ hc with h | ⟨i, hi, hmem⟩
      · cases h
      · exact absurd (hdivider i hi _ hmem) (by decide)
    refine ⟨fun c hc => ⟨(isSuffixChar_iff c).mpr ?_, hplus c hc⟩, ?_⟩
    · rcases hchar c hc with rfl | ⟨i, hi, hmem⟩
      · exact Or.inr rfl
      · exact Or.inl ((hidentifiers i hi).2 c hmem)
    · have hdot : ∀ i ∈ identifiers, '.' ∉ i := fun i hi hmem =>
        absurd (hdivider i hi _ hmem) (by decide)
      rw [split_isDivider _ hplus, Text.split_intercalate '.' identifiers hne hdot]
      exact fun hmem => (hidentifiers [] hmem).1 rfl
  · rintro ⟨hchars, hempty⟩
    refine ⟨Text.split isDivider text, Text.split_ne_nil _ _, fun i hi => ⟨?_, fun c hc => ?_⟩, ?_⟩
    · rintro rfl
      exact hempty hi
    · rcases Text.of_mem_split _ text i hi c hc with ⟨hmem, hdivider⟩
      rcases (isSuffixChar_iff c).mp (hchars c hmem).1 with h | h
      · exact h
      · rw [hdivider] at h
        cases h
    · rw [split_isDivider text fun c hc => (hchars c hc).2, Text.intercalate_split]

/-- A text that does not end with an identifier without characters has a last character, and that is
    no divider. -/
theorem exists_getLast?_of_split (text : List Char) (h : [] ∉ Text.split isDivider text) :
    ∃ last, text.getLast? = some last ∧ isDivider last = false := by
  rcases List.eq_nil_or_concat text with rfl | ⟨before, last, rfl⟩
  · exact absurd List.mem_cons_self h
  · rw [List.concat_eq_append] at h ⊢
    refine ⟨last, List.getLast?_concat, Bool.eq_false_iff.mpr fun hlast => h ?_⟩
    rw [Text.split_append_cons _ _ _ _ hlast]
    exact List.mem_append_right _ List.mem_cons_self

theorem count_of_isLabel {text : List Char} (h : IsLabel text) : text.count '+' = 0 :=
  List.count_eq_zero.mpr fun hmem => (((isLabel_iff text).mp h).1 _ hmem).2 rfl

theorem isLabel_of_count {text : List Char} (hchars : ∀ c ∈ text, isSuffixChar c = true)
    (hcount : text.count '+' = 0) (hfull : [] ∉ Text.split isDivider text) : IsLabel text :=
  (isLabel_iff text).mpr ⟨fun c hc =>
    ⟨hchars c hc, fun heq => List.count_eq_zero.mp hcount (heq ▸ hc)⟩, hfull⟩

/-- Behind a mark there is a pre-release, a build or both, just if all characters are those of a
    suffix, there is one plus sign at most, and no identifier is without characters. -/
theorem exists_isMarked_iff (mark : Char) (rest : List Char) (hmark : startsSuffix mark = true) :
    (∃ release build, IsMarked '-' release ∧ IsMarked '+' build ∧ mark :: rest = release ++ build)
      ↔ (∀ c ∈ rest, isSuffixChar c = true) ∧ (mark :: rest).count '+' ≤ 1
        ∧ [] ∉ Text.split isDivider rest := by
  have hsplit : ∀ before after, Text.split isDivider (before ++ '+' :: after)
      = Text.split isDivider before ++ Text.split isDivider after := fun before after =>
    Text.split_append_cons _ before after '+' rfl
  constructor
  -- A release and a build, or one of the two: the plus sign is only in front of the build.
  · rintro ⟨release, build, hrelease, hbuild, heq⟩
    rcases hrelease with rfl | ⟨label, hlabel, rfl⟩
    · rcases hbuild with rfl | ⟨label', hlabel', rfl⟩
      · cases heq
      · rcases List.cons.inj heq with ⟨rfl, rfl⟩
        have hchars := (isLabel_iff rest).mp hlabel'
        have hcount : ('+' :: rest).count '+' = 1 := by
          rw [List.count_cons_self, count_of_isLabel hlabel']
        exact ⟨fun c hc => (hchars.1 c hc).1, Nat.le_of_eq hcount, hchars.2⟩
    · rw [List.cons_append, List.cons.injEq] at heq
      rcases heq with ⟨rfl, rfl⟩
      have hchars := (isLabel_iff label).mp hlabel
      rw [List.count_cons_of_ne (by decide), List.count_append, count_of_isLabel hlabel,
        List.forall_mem_append]
      rcases hbuild with rfl | ⟨label', hlabel', rfl⟩
      · rw [List.append_nil]
        exact ⟨⟨fun c hc => (hchars.1 c hc).1, List.forall_mem_nil _⟩, Nat.zero_le 1, hchars.2⟩
      · have hchars' := (isLabel_iff label').mp hlabel'
        rw [hsplit, List.mem_append, not_or, List.count_cons_self, count_of_isLabel hlabel',
          List.forall_mem_cons]
        exact ⟨⟨fun c hc => (hchars.1 c hc).1, rfl, fun c hc => (hchars'.1 c hc).1⟩, Nat.le_refl 1,
          hchars.2, hchars'.2⟩
  · rintro ⟨hchars, hcount, hfull⟩
    simp only [startsSuffix, Bool.or_eq_true, decide_eq_true_eq] at hmark
    rcases hmark with rfl | rfl
    · rw [List.count_cons_of_ne (by decide)] at hcount
      -- Behind a hyphen there is a release, and a build if there is a plus sign.
      by_cases hplus : '+' ∈ rest
      · rcases List.append_of_mem hplus with ⟨before, after, rfl⟩
        rw [List.forall_mem_append, List.forall_mem_cons] at hchars
        rw [List.count_append, List.count_cons_self] at hcount
        rw [hsplit, List.mem_append, not_or] at hfull
        exact ⟨'-' :: before, '+' :: after,
          Or.inr ⟨before, isLabel_of_count hchars.1 (by omega) hfull.1, rfl⟩,
          Or.inr ⟨after, isLabel_of_count hchars.2.2 (by omega) hfull.2, rfl⟩, rfl⟩
      · have hlabel := isLabel_of_count hchars (List.count_eq_zero.mpr hplus) hfull
        exact ⟨'-' :: rest, [], Or.inr ⟨rest, hlabel, rfl⟩, Or.inl rfl, (List.append_nil _).symm⟩
    · rw [List.count_cons_self] at hcount
      have hlabel := isLabel_of_count hchars (by omega) hfull
      exact ⟨[], '+' :: rest, Or.inl rfl, Or.inr ⟨rest, hlabel, rfl⟩, rfl⟩

end Labels

section Suffixes

-- Among the characters of a suffix, the letters and digits are those that do not end one.
theorem isAlphanum_iff_of_isSuffixChar (c : Char) (h : isSuffixChar c = true) :
    c.isAlphanum = true ↔ (startsSuffix c || decide (c = '.')) = false := by
  constructor
  · intro halphanum
    rw [startsSuffix, decide_eq_false (Text.ne_of_class halphanum (by decide)),
      decide_eq_false (Text.ne_of_class halphanum (by decide)),
      decide_eq_false (Text.ne_of_class halphanum (by decide))]
    rfl
  · intro hends
    rw [Bool.or_eq_false_iff] at hends
    rw [isSuffixChar, hends.1, hends.2, Bool.or_false, Bool.or_false] at h
    exact h

/-- Behind a mark something is accepted just if its characters are those of a suffix and the last
    one, which may be the mark, does not end it too early. -/
theorem isSuffix_cons_iff (mark : Char) (rest : List Char) (hmark : startsSuffix mark = true) :
    IsSuffix (mark :: rest) ↔ (∀ c ∈ rest, isSuffixChar c = true)
      ∧ (mark :: rest).getLast?.any (fun c => startsSuffix c || c = '.') = false := by
  rw [List.getLast?_cons, Option.any_some]
  constructor
  · rintro (h | ⟨_, _, last, heq, _, hchars, hlast, halphanum⟩)
    · cases h
    · rcases List.cons.inj heq with ⟨rfl, rfl⟩
      rw [hlast, Option.getD_some]
      have hmem := hchars last (List.mem_of_getLast? hlast)
      exact ⟨hchars, (isAlphanum_iff_of_isSuffixChar last hmem).mp halphanum⟩
  · rintro ⟨hchars, hends⟩
    cases hlast : rest.getLast? with
    | none =>
        rw [hlast, Option.getD_none, hmark] at hends
        cases hends
    | some last =>
        rw [hlast, Option.getD_some] at hends
        have hmem := hchars last (List.mem_of_getLast? hlast)
        exact Or.inr ⟨mark, rest, last, rfl, hmark, hchars, hlast,
          (isAlphanum_iff_of_isSuffixChar last hmem).mpr hends⟩

/-- Where no identifier is without characters, a suffix can only end too early with a hyphen. -/
theorem isSuffix_iff_of_split (mark : Char) (rest : List Char) (hmark : startsSuffix mark = true)
    (hfull : [] ∉ Text.split isDivider rest) : IsSuffix (mark :: rest)
      ↔ (∀ c ∈ rest, isSuffixChar c = true) ∧ (mark :: rest).getLast? ≠ some '-' := by
  rcases exists_getLast?_of_split rest hfull with ⟨last, hlast, hdivider⟩
  rw [isSuffix_cons_iff mark rest hmark, List.getLast?_cons, hlast, Option.getD_some,
    Option.any_some, ne_eq, Option.some.injEq]
  rw [isDivider, Bool.or_eq_false_iff, decide_eq_false_iff_not, decide_eq_false_iff_not] at hdivider
  simp [startsSuffix, hdivider.1, hdivider.2]

end Suffixes

section Versions

-- Behind the numbers comes nothing, or what starts a suffix.
theorem cut_append (core suffix : List Char) (hcore : IsCore core)
    (hsuffix : ∀ c, suffix.head? = some c → startsSuffix c = true) :
    (core ++ suffix).takeWhile (fun c => !startsSuffix c) = core
      ∧ (core ++ suffix).dropWhile (fun c => !startsSuffix c) = suffix := by
  have hall : ∀ c ∈ core, (!startsSuffix c) = true := fun c hc => by
    rw [startsSuffix_of_mem_core hcore c hc, Bool.not_false]
  rw [List.takeWhile_append_of_pos hall, List.dropWhile_append_of_pos hall]
  cases suffix with
  | nil => exact ⟨List.append_nil core, rfl⟩
  | cons c rest => simp [hsuffix c rfl]

theorem head?_of_isSuffix {suffix : List Char} (h : IsSuffix suffix) (c : Char)
    (hc : suffix.head? = some c) : startsSuffix c = true := by
  rcases h with rfl | ⟨mark, rest, last, rfl, hmark, _⟩
  · cases hc
  · exact Option.some.inj hc ▸ hmark

theorem getLast?_of_isCore {core : List Char} (h : IsCore core) :
    ∃ last, core.getLast? = some last ∧ last.isDigit = true := by
  rcases h with ⟨major, minor, patch, _, _, hpatch, rfl⟩
  rcases List.eq_nil_or_concat patch with rfl | ⟨before, last, rfl⟩
  · exact absurd rfl hpatch.1
  · refine ⟨last, ?_, hpatch.2 last (by simp)⟩
    rw [List.concat_eq_append, List.getLast?_append, List.getLast?_cons, List.getLast?_append,
      List.getLast?_cons, List.getLast?_append]
    rfl

/-- What is accepted as a version: numbers, and what is accepted behind them. -/
theorem isVersion_iff (version : List Char) : isVersion version = true
    ↔ ∃ core suffix, IsCore core ∧ IsSuffix suffix ∧ version = core ++ suffix := by
  have hparts : ∀ core : List Char, (decide ((Text.split (· = '.') core).length = 3)
      && (Text.split (· = '.') core).all fun part => !part.isEmpty && part.all Char.isDigit) = true
        ↔ IsCore core := by
    intro core
    rw [isCore_iff, Bool.and_eq_true, decide_eq_true_eq, List.all_eq_true]
    simp only [isNumber_iff]
  unfold isVersion
  dsimp only
  rw [Bool.and_eq_true, Bool.and_eq_true, hparts, List.all_eq_true, Bool.not_eq_true']
  constructor
  · rintro ⟨⟨hcore, hchars⟩, hends⟩
    refine ⟨_, _, hcore, ?_, List.takeWhile_append_dropWhile.symm⟩
    cases hsuffix : version.dropWhile fun c => !startsSuffix c with
    | nil => exact Or.inl rfl
    | cons mark rest =>
        have hhead := List.head?_dropWhile_not (fun c => !startsSuffix c) version
        simp only [hsuffix, List.head?_cons, Bool.not_eq_false'] at hhead
        rw [hsuffix, List.forall_mem_cons] at hchars
        rw [← List.takeWhile_append_dropWhile (p := fun c => !startsSuffix c) (l := version),
          hsuffix, List.getLast?_append_cons] at hends
        exact (isSuffix_cons_iff mark rest hhead).mpr ⟨hchars.2, hends⟩
  · rintro ⟨core, suffix, hcore, hsuffix, rfl⟩
    -- The core has no character that starts a suffix, so the version is cut behind it.
    have hcut := cut_append core suffix hcore fun c hc => head?_of_isSuffix hsuffix c hc
    rw [hcut.1, hcut.2]
    cases suffix with
    | nil =>
        rcases getLast?_of_isCore hcore with ⟨last, hlast, hdigit⟩
        have hmem : last ∈ core := List.mem_of_getLast? hlast
        rw [List.append_nil, hlast, Option.any_some, startsSuffix_of_mem_core hcore last hmem,
          decide_eq_false (Text.ne_of_class hdigit (by decide))]
        exact ⟨⟨hcore, List.forall_mem_nil _⟩, rfl⟩
    | cons mark rest =>
        have hmark := head?_of_isSuffix hsuffix mark rfl
        have hchars := (isSuffix_cons_iff mark rest hmark).mp hsuffix
        have hmem : isSuffixChar mark = true := by rw [isSuffixChar, hmark, Bool.or_true]
        rw [List.getLast?_append_cons]
        exact ⟨⟨hcore, List.forall_mem_cons.mpr ⟨hmem, hchars.1⟩⟩, hchars.2⟩

/-- A version has the characters of a suffix, its numbers included. -/
theorem isSuffixChar_of_isVersion {version : List Char} (h : isVersion version = true) :
    ∀ c ∈ version, isSuffixChar c = true := by
  rcases (isVersion_iff version).mp h with ⟨core, suffix, hcore, hsuffix, rfl⟩
  rw [List.forall_mem_append]
  refine ⟨fun c hc => ?_, ?_⟩
  · rcases isDigit_or_of_mem_core hcore c hc with hdigit | rfl
    · simp [isSuffixChar, Char.isAlphanum, hdigit]
    · rfl
  · cases suffix with
    | nil => exact List.forall_mem_nil _
    | cons mark rest =>
        have hmark := head?_of_isSuffix hsuffix mark rfl
        have hmem : isSuffixChar mark = true := by rw [isSuffixChar, hmark, Bool.or_true]
        exact List.forall_mem_cons.mpr ⟨hmem, ((isSuffix_cons_iff mark rest hmark).mp hsuffix).1⟩

-- What stands behind the numbers is one and the same in all ways to look at a version.
theorem suffix_eq_of_append_eq {core core' suffix suffix' : List Char} (hcore : IsCore core)
    (hcore' : IsCore core') (hsuffix : ∀ c, suffix.head? = some c → startsSuffix c = true)
    (hsuffix' : ∀ c, suffix'.head? = some c → startsSuffix c = true)
    (h : core ++ suffix = core' ++ suffix') : suffix = suffix' := by
  rw [← (cut_append core suffix hcore hsuffix).2, h, (cut_append core' suffix' hcore' hsuffix').2]

theorem head?_of_isMarked {release build : List Char} (hrelease : IsMarked '-' release)
    (hbuild : IsMarked '+' build) (c : Char) (hc : (release ++ build).head? = some c) :
    startsSuffix c = true := by
  rcases hrelease with rfl | ⟨label, _, rfl⟩
  · rcases hbuild with rfl | ⟨label, _, rfl⟩
    · cases hc
    · cases hc
      rfl
  · cases hc
    rfl

theorem count_of_isCore {core : List Char} (h : IsCore core) : core.count '+' = 0 :=
  List.count_eq_zero.mpr fun hmem => absurd (startsSuffix_of_mem_core h _ hmem) (by decide)

section Cut

variable {core suffix : List Char} (hcore : IsCore core)
  (hsuffix : ∀ c, suffix.head? = some c → startsSuffix c = true)

include hcore hsuffix

/-- A version is accepted if what stands behind its numbers is. -/
theorem isVersion_append_iff : isVersion (core ++ suffix) = true ↔ IsSuffix suffix := by
  rw [isVersion_iff]
  constructor
  · rintro ⟨core', suffix', hcore', hsuffix', heq⟩
    have hhead := fun c hc => head?_of_isSuffix hsuffix' c hc
    rw [suffix_eq_of_append_eq hcore hcore' hsuffix hhead heq]
    exact hsuffix'
  · exact fun h => ⟨core, suffix, hcore, h, rfl⟩

/-- A version has the grammar if what stands behind its numbers is a pre-release, a build, or both.
    -/
theorem isGrammatical_append_iff : IsGrammatical (core ++ suffix)
    ↔ (∃ release build, IsMarked '-' release ∧ IsMarked '+' build ∧ suffix = release ++ build)
      ∧ suffix.count '+' ≤ 1 := by
  rw [IsGrammatical, List.count_append, count_of_isCore hcore, Nat.zero_add]
  refine and_congr_left fun _ => ⟨?_, ?_⟩
  · rintro ⟨core', release, build, hcore', hrelease, hbuild, heq⟩
    exact ⟨release, build, hrelease, hbuild, suffix_eq_of_append_eq hcore hcore' hsuffix
      (head?_of_isMarked hrelease hbuild) heq⟩
  · rintro ⟨release, build, hrelease, hbuild, rfl⟩
    exact ⟨core, release, build, hcore, hrelease, hbuild, rfl⟩

-- The last character of a version is the last one behind the numbers, or else a digit.
theorem getLast?_append_ne_iff :
    (core ++ suffix).getLast? ≠ some '-' ↔ suffix.getLast? ≠ some '-' := by
  cases suffix with
  | nil =>
      rcases getLast?_of_isCore hcore with ⟨last, hlast, hdigit⟩
      rw [List.append_nil, hlast, ne_eq, Option.some.injEq]
      exact iff_of_true (Text.ne_of_class hdigit (by decide)) nofun
  | cons mark rest => rw [List.getLast?_append_cons]

/-- Behind the numbers, what is accepted has the grammar if no identifier is without characters and
    there is one plus sign at most, and what has the grammar is accepted if it does not end with a
    hyphen. -/
theorem isVersion_append_and_iff : isVersion (core ++ suffix) = true
      ∧ (core ++ suffix).count '+' ≤ 1 ∧ [] ∉ identifiers (core ++ suffix)
    ↔ IsGrammatical (core ++ suffix) ∧ (core ++ suffix).getLast? ≠ some '-' := by
  rw [isVersion_append_iff hcore hsuffix, isGrammatical_append_iff hcore hsuffix,
    getLast?_append_ne_iff hcore hsuffix, List.count_append, count_of_isCore hcore, Nat.zero_add,
    identifiers, (cut_append core suffix hcore hsuffix).2]
  cases suffix with
  | nil =>
      exact iff_of_true ⟨Or.inl rfl, Nat.zero_le 1, List.not_mem_nil⟩
        ⟨⟨⟨[], [], Or.inl rfl, Or.inl rfl, rfl⟩, Nat.zero_le 1⟩, nofun⟩
  | cons mark rest =>
      have hmark := hsuffix mark rfl
      rw [exists_isMarked_iff mark rest hmark, identifiersOf]
      constructor
      · rintro ⟨haccepted, hcount, hfull⟩
        rcases (isSuffix_iff_of_split mark rest hmark hfull).mp haccepted with ⟨hchars, hlast⟩
        exact ⟨⟨⟨hchars, hcount, hfull⟩, hcount⟩, hlast⟩
      · rintro ⟨⟨⟨hchars, hcount, hfull⟩, _⟩, hlast⟩
        exact ⟨(isSuffix_iff_of_split mark rest hmark hfull).mpr ⟨hchars, hlast⟩, hcount, hfull⟩

end Cut

/-- The check and the grammar agree but for identifiers without characters, more than one plus sign,
    and a hyphen at the end. -/
theorem isVersion_and_iff (version : List Char) :
    isVersion version = true ∧ version.count '+' ≤ 1 ∧ [] ∉ identifiers version
      ↔ IsGrammatical version ∧ version.getLast? ≠ some '-' := by
  constructor
  · intro h
    rcases (isVersion_iff version).mp h.1 with ⟨core, suffix, hcore, hsuffix, rfl⟩
    exact (isVersion_append_and_iff hcore fun c hc => head?_of_isSuffix hsuffix c hc).mp h
  · intro h
    rcases h.1.1 with ⟨core, release, build, hcore, hrelease, hbuild, rfl⟩
    exact (isVersion_append_and_iff hcore (head?_of_isMarked hrelease hbuild)).mpr h

end Versions

end Version

/-- Where the rest of an identity is accepted, its version is accepted just if it is made of numbers
    and of what is accepted behind them. That is the grammar of versions, except where there is an
    identifier without characters or more than one plus sign, or a hyphen at the end. -/
theorem PackageIdentity.version_of_check (p : PackageIdentity) (version : String)
    (hrest : ∃ other, { p with version := other }.check = .ok ()) :
    ({ p with version }.check = .ok () ↔ ∃ core suffix, Version.IsCore core
        ∧ Version.IsSuffix suffix ∧ version.toList = core ++ suffix)
      ∧ ({ p with version }.check = .ok () ∧ version.toList.count '+' ≤ 1
          ∧ [] ∉ Version.identifiers version.toList
        ↔ Version.IsGrammatical version.toList ∧ version.toList.getLast? ≠ some '-') := by
  have hversion : { p with version }.check = .ok () ↔ isVersion version.toList = true := by
    rcases hrest with ⟨other, hother⟩
    rcases (check_eq_ok_iff _).mp hother with ⟨hname, _, hdescription⟩
    rw [check_eq_ok_iff]
    exact ⟨fun h => h.2.1, fun h => ⟨hname, h, hdescription⟩⟩
  rw [hversion]
  exact ⟨Version.isVersion_iff version.toList, Version.isVersion_and_iff version.toList⟩

/-- A version with a pre-release and a build is accepted, and has the grammar. -/
theorem PackageIdentity.version_of_release :
    (∃ other, { ofName "acme" with version := other }.check = .ok ())
      ∧ { ofName "acme" with version := "1.0.0-a-b+c.d" }.check = .ok ()
      ∧ Version.IsGrammatical "1.0.0-a-b+c.d".toList :=
  ⟨⟨"1.0.0", rfl⟩, rfl,
    ((version_of_check (ofName "acme") "1.0.0-a-b+c.d" ⟨"1.0.0", rfl⟩).2.mp
      ⟨rfl, by decide, by decide⟩).1⟩

/-- A second plus sign and an identifier without characters are let through, and a pre-release that
    ends with a hyphen is not. -/
theorem PackageIdentity.exists_check_not_isGrammatical :
    ({ ofName "acme" with version := "1.0.0+a+b" }.check = .ok ()
        ∧ ¬ Version.IsGrammatical "1.0.0+a+b".toList)
      ∧ ({ ofName "acme" with version := "1.0.0-a..b" }.check = .ok ()
        ∧ ¬ Version.IsGrammatical "1.0.0-a..b".toList)
      ∧ { ofName "acme" with version := "1.0.0-a-" }.check = .error (.invalidVersion "1.0.0-a-")
      ∧ Version.IsGrammatical "1.0.0-a-".toList := by
  have hgrammar := fun version => (Version.isVersion_and_iff version).mpr
  refine ⟨⟨rfl, fun h => absurd h.2 (by decide)⟩, ⟨rfl, fun h => ?_⟩, rfl, ?_⟩
  · exact (hgrammar _ ⟨h, by decide⟩).2.2 (by decide)
  · have hnumber : ∀ digit : Char, digit.isDigit = true → Version.IsNumber [digit] :=
      fun digit hdigit => ⟨List.cons_ne_nil _ _, List.forall_mem_singleton.mpr hdigit⟩
    refine ⟨⟨"1.0.0".toList, "-a-".toList, [], ?_, ?_, Or.inl rfl, rfl⟩, by decide⟩
    · exact ⟨['1'], ['0'], ['0'], hnumber _ rfl, hnumber _ rfl, hnumber _ rfl, rfl⟩
    · refine Or.inr ⟨['a', '-'], (Version.isLabel_iff _).mpr ⟨?_, by decide⟩, rfl⟩
      exact List.forall_mem_cons.mpr ⟨by decide, List.forall_mem_singleton.mpr (by decide)⟩

end PlatformBridge
