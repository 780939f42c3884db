import PlatformBridge.Proofs.Bundle.Modules
import PlatformBridge.Proofs.Settings.Identity

/-!
# Texts in the Description of a Package

Two texts of an identity are written between double quotes in the description of
a package: what the package is about, and the version constraint. Between such
quotes a backslash stands in front of a quote or another backslash, and nowhere
else.

What the package is about is escaped, so it is read back as it is. The
constraint is written as it is. No quote can be in it, and so it is read back
unless there is a backslash in it.

Reading is by the rules of the format and not by those that the description is
written with: lines are found by their keys, wherever they are, and what stands
behind a key has to be one text and nothing else. That the text which is written
stays on its line is therefore part of what has to be shown.

## Main definitions

* `Pubspec.readScalar?`: Reading up to the quote that ends a text.
* `Pubspec.quoted?`: A text between quotes with nothing behind it.
* `Pubspec.scalarsUnder`: The texts under a key.

## Theorems

* `Pubspec.readScalar?_escape`: An escaped text is read back.
* `Pubspec.readScalar?_eq_self_iff`: When a text is read back that is written as
  it is.
* `Pubspec.filterMap_behindKey?_pubspec`: The lines that have a text.
* `Pubspec.scalarsUnder_pubspec`: The texts in the description of a package.
* `PackageSettings.scalars_of_identity`: What is read back of an identity from
  settings.
* `PackageSettings.exists_scalars_ne`: Constraints that are not read back.
-/

namespace PlatformBridge

namespace Pubspec

/-- Reads up to the quote that ends a text, from behind a backslash or not: the text and what is
    behind the quote. A backslash takes the meaning of the quote or backslash behind it away, and
    may not stand in front of anything else. -/
def readScalar? : Bool → List Char → Option (List Char × List Char)
  | _, [] => none
  | true, c :: rest =>
    if c = '\\' || c = '"' then (readScalar? false rest).map fun r => (c :: r.1, r.2) else none
  | false, c :: rest =>
    if c = '\\' then readScalar? true rest
    else if c = '"' then some ([], rest)
    else (readScalar? false rest).map fun r => (c :: r.1, r.2)

/-- A text between quotes that has nothing behind it. -/
def quoted? : List Char → Option String
  | '"' :: rest =>
    match readScalar? false rest with
    | some (text, []) => some (String.ofList text)
    | _ => none
  | _ => none

/-- What is behind a key on a line, if the key is the first thing on the line but for spaces. -/
def behindKey? (key line : List Char) : Option (List Char) :=
  (key ++ [':', ' ']).isPrefixOf? (line.dropWhile (· = ' '))

/-- What is read under a key in the description of a package, or nothing where that is no text
    between quotes that ends its line. -/
def scalarsUnder (key text : String) : List (Option String) :=
  ((Text.split (· = '\n') text.toList).filterMap (behindKey? key.toList)).map quoted?

section Scalars

/-- An escaped text is read back, and its own quote ends it. -/
theorem readScalar?_escape (text rest : List Char) :
    readScalar? false (text.flatMap Dart.escapeScalar ++ '"' :: rest) = some (text, rest) := by
  induction text with
  | nil => rfl
  | cons c text ih =>
      rw [List.flatMap_cons, Dart.escapeScalar, List.append_assoc]
      cases hc : c = '\\' || c = '"' with
      | true =>
          rw [if_pos rfl, List.cons_append, List.cons_append, List.nil_append, readScalar?,
            if_pos rfl, readScalar?, if_pos hc, ih]
          rfl
      | false =>
          rw [Bool.or_eq_false_iff, decide_eq_false_iff_not, decide_eq_false_iff_not] at hc
          rw [if_neg Bool.false_ne_true, List.cons_append, List.nil_append, readScalar?,
            if_neg hc.1, if_neg hc.2, ih]
          rfl

/-- The quote at the end is no part of what is read. -/
theorem length_lt_of_readScalar? (isEscape : Bool) (text : List Char) (r : List Char × List Char)
    (h : readScalar? isEscape text = some r) : r.1.length < text.length := by
  induction text generalizing isEscape r with
  | nil => cases isEscape <;> cases h
  | cons c rest ih =>
      have hmap : ∀ r, (readScalar? false rest).map (fun r => (c :: r.1, r.2)) = some r →
          r.1.length < (c :: rest).length := by
        intro r hr
        rcases Option.map_eq_some_iff.mp hr with ⟨r', hr', rfl⟩
        exact Nat.succ_lt_succ (ih false r' hr')
      cases isEscape with
      | true =>
          rw [readScalar?] at h
          split at h
          · exact hmap r h
          · cases h
      | false =>
          rw [readScalar?] at h
          split at h
          · exact Nat.lt_succ_of_lt (ih true r h)
          · split at h
            · cases h
              exact Nat.succ_pos _
            · exact hmap r h

/-- A text that is written as it is, without quotes in it, is read back just if it has no backslash
    either: what is read of a backslash is shorter than what is written. -/
theorem readScalar?_eq_self_iff (text : List Char) (h : '"' ∉ text) :
    readScalar? false (text ++ ['"']) = some (text, []) ↔ '\\' ∉ text := by
  induction text with
  | nil => exact iff_of_true rfl List.not_mem_nil
  | cons c rest ih =>
      rw [List.mem_cons, not_or] at h
      rw [List.cons_append, readScalar?, List.mem_cons, not_or]
      by_cases hslash : c = '\\'
      · rw [if_pos hslash, hslash]
        refine iff_of_false (fun hread => ?_) (fun hne => hne.1 rfl)
        cases rest with
        | nil => cases hread
        | cons d others =>
            rw [List.cons_append, readScalar?] at hread
            split at hread
            · rcases Option.map_eq_some_iff.mp hread with ⟨r, hr, heq⟩
              -- A backslash takes the next character with it, so less is read than was written.
              have hlength := length_lt_of_readScalar? false _ r hr
              rw [(List.cons.inj (Prod.mk.inj heq).1).2] at hlength
              simp at hlength
            · cases hread
      · rw [if_neg hslash, if_neg (Ne.symm h.1), and_iff_right (Ne.symm hslash), ← ih h.2]
        constructor
        · intro hread
          rcases Option.map_eq_some_iff.mp hread with ⟨r, hr, heq⟩
          rw [hr, ← (List.cons.inj (Prod.mk.inj heq).1).2, ← (Prod.mk.inj heq).2]
        · intro hread
          rw [hread]
          rfl

end Scalars

section Lines

variable (c : Contract) (p : PackageIdentity)

/-- The description of a package is on lines of its own if each part of the identity is. -/
theorem newline_not_mem_pubspec (hcheck : p.check = .ok ()) (hsdk : '\n' ∉ p.dartSdk.toList) :
    ∀ line ∈ Dart.pubspec p, '\n' ∉ line.toList := by
  rcases p.check_eq_ok_iff.mp hcheck with ⟨_, hversion, _, hline⟩
  have hname : '\n' ∉ p.name.toList := fun hmem =>
    absurd (Contract.isNameChar_of_check p hcheck _ hmem) (by decide)
  have hversion : '\n' ∉ p.version.toList := fun hmem =>
    absurd (Version.isSuffixChar_of_isVersion hversion _ hmem) (by decide)
  have hdescription : '\n' ∉ p.description.toList.flatMap Dart.escapeScalar := by
    rw [List.mem_flatMap]
    rintro ⟨c, hc, hmem⟩
    rw [Dart.escapeScalar] at hmem
    split at hmem
    · rcases List.mem_pair.mp hmem with h | rfl
      · cases h
      · exact (hline _ hc).1 rfl
    · exact (hline c hc).1 (List.mem_singleton.mp hmem).symm
  simp only [Dart.pubspec, List.forall_mem_cons]
  simp [hname, hversion, hdescription, hsdk]

/-- The lines of the description of a package that have a text between quotes. -/
theorem filterMap_behindKey?_pubspec (fingerprint : String) :
    ((headerLines "#" fingerprint ++ Dart.pubspec p).map (·.toList)).filterMap
        (behindKey? "description".toList)
      = ['"' :: (p.description.toList.flatMap Dart.escapeScalar ++ ['"'])]
    ∧ ((headerLines "#" fingerprint ++ Dart.pubspec p).map (·.toList)).filterMap
        (behindKey? "sdk".toList)
      = ['"' :: (p.dartSdk.toList ++ ['"'])] := by
  constructor
  · simp [headerLines, Dart.pubspec, behindKey?, List.dropWhile, List.isPrefixOf?]
  · simp [headerLines, Dart.pubspec, behindKey?, List.dropWhile, List.isPrefixOf?]

/-- The texts in the description of a package. -/
theorem scalarsUnder_pubspec (hcheck : p.check = .ok ()) (hsdk : '\n' ∉ p.dartSdk.toList) :
    scalarsUnder "description" (fileText (c.header "#") (Dart.pubspec p)) = [some p.description]
    ∧ scalarsUnder "sdk" (fileText (c.header "#") (Dart.pubspec p))
      = [quoted? ('"' :: (p.dartSdk.toList ++ ['"']))] := by
  have hlines : ∀ line ∈ (headerLines "#" (c.fingerprint.short headerDigits)
      ++ Dart.pubspec p).map (·.toList), '\n' ∉ line := by
    rw [List.forall_mem_map, List.forall_mem_append]
    refine ⟨fun line hline => ?_, newline_not_mem_pubspec p hcheck hsdk⟩
    rcases List.mem_pair.mp hline with rfl | rfl
    · decide
    · simp [c.newline_not_mem_digits]
  have hread : ∀ key : String, behindKey? key.toList [] = none →
      scalarsUnder key (fileText (c.header "#") (Dart.pubspec p))
        = (((headerLines "#" (c.fingerprint.short headerDigits) ++ Dart.pubspec p).map
          (·.toList)).filterMap (behindKey? key.toList)).map quoted? := by
    intro key hkey
    rw [scalarsUnder, Contract.header, toList_fileText, Text.split_lines _ hlines,
      List.filterMap_append, List.filterMap_cons_none hkey, List.filterMap_nil, List.append_nil]
  have hkeys := filterMap_behindKey?_pubspec p (c.fingerprint.short headerDigits)
  rw [hread "description" (by decide), hread "sdk" (by decide), hkeys.1, hkeys.2]
  refine ⟨?_, rfl⟩
  have hescape := readScalar?_escape p.description.toList []
  simp [quoted?, hescape]

/-- A text that is written as it is stands between the quotes just if it is read back. -/
theorem quoted?_eq_self_iff (text : String) :
    quoted? ('"' :: (text.toList ++ ['"'])) = some text
      ↔ readScalar? false (text.toList ++ ['"']) = some (text.toList, []) := by
  rw [quoted?]
  constructor
  · intro h
    split at h
    · rename_i read hread
      rw [hread, ← Option.some.inj h, String.toList_ofList]
    · cases h
  · intro h
    rw [h]
    simp

end Lines

end Pubspec

/-- What is set of a package is read back from its description: what the package is about always,
    and the version constraint unless there is a backslash in it. -/
theorem PackageSettings.scalars_of_identity (c : Contract) (s : PackageSettings)
    (name : Option String) (p : PackageIdentity) (h : s.identity name = .ok p) :
    Pubspec.scalarsUnder "description" (fileText (c.header "#") (Dart.pubspec p))
        = [some p.description]
      ∧ (Pubspec.scalarsUnder "sdk" (fileText (c.header "#") (Dart.pubspec p)) = [some p.dartSdk]
        ↔ '\\' ∉ p.dartSdk.toList) := by
  rcases s.check_of_identity name p h with ⟨hcheck, hconstraint⟩
  have hchars := ((checkConstraint_eq_ok_iff p.dartSdk).mp hconstraint).2.2
  have hnewline : '\n' ∉ p.dartSdk.toList := fun hmem => absurd (hchars _ hmem).1 (by decide)
  have hquote : '"' ∉ p.dartSdk.toList := fun hmem => (hchars _ hmem).2.1 rfl
  rcases Pubspec.scalarsUnder_pubspec c p hcheck hnewline with ⟨hdescription, hsdk⟩
  refine ⟨hdescription, ?_⟩
  rw [hsdk, List.cons.injEq, and_iff_left rfl, Pubspec.quoted?_eq_self_iff,
    Pubspec.readScalar?_eq_self_iff _ hquote]

/-- A description with quotes and a backslash in it is read back, and so is a plain constraint. -/
theorem PackageSettings.scalars_of_quotes :
    ∃ p, (⟨none, some "Says \"hi\\\"", none, some "^3.5.0"⟩ : PackageSettings).identity
        (some "acme") = .ok p
      ∧ Pubspec.scalarsUnder "description"
          (fileText ((Contract.outline "Acme.Bell" []).header "#") (Dart.pubspec p))
        = [some "Says \"hi\\\""]
      ∧ Pubspec.scalarsUnder "sdk"
          (fileText ((Contract.outline "Acme.Bell" []).header "#") (Dart.pubspec p))
        = [some "^3.5.0"] := by
  have hidentity : (⟨none, some "Says \"hi\\\"", none, some "^3.5.0"⟩ : PackageSettings).identity
      (some "acme") = .ok ⟨"acme", "Says \"hi\\\"", "1.0.0", "^3.5.0"⟩ :=
    (identity_eq_ok_iff _ _ _).mpr ⟨"acme", rfl, by decide, by decide, rfl⟩
  have hscalars := scalars_of_identity (.outline "Acme.Bell" []) _ _ _ hidentity
  exact ⟨_, hidentity, hscalars.1, hscalars.2.mpr (by decide)⟩

/-- A constraint with a backslash in it is not read back: at its end the backslash hides the quote,
    and in front of another backslash it is gone. -/
theorem PackageSettings.exists_scalars_ne :
    (∃ p, (⟨none, none, none, some ">=3.0.0\\"⟩ : PackageSettings).identity (some "acme") = .ok p
        ∧ Pubspec.scalarsUnder "sdk"
          (fileText ((Contract.outline "Acme.Bell" []).header "#") (Dart.pubspec p)) = [none])
      ∧ ∃ p, (⟨none, none, none, some "3\\\\0"⟩ : PackageSettings).identity (some "acme") = .ok p
        ∧ Pubspec.scalarsUnder "sdk"
          (fileText ((Contract.outline "Acme.Bell" []).header "#") (Dart.pubspec p)) = [some "3\\0"]
        ∧ p.dartSdk = "3\\\\0" := by
  have hidentity : ∀ sdk, checkConstraint sdk = .ok () →
      { PackageIdentity.ofName "acme" with dartSdk := sdk }.check = .ok () →
      (⟨none, none, none, some sdk⟩ : PackageSettings).identity (some "acme")
        = .ok { PackageIdentity.ofName "acme" with dartSdk := sdk } := by
    intro sdk hsdk hcheck
    refine (identity_eq_ok_iff _ _ _).mpr ⟨"acme", rfl, fun value hvalue => ?_, hcheck, rfl⟩
    exact Option.mem_some.mp hvalue ▸ hsdk
  have hread := fun sdk hcheck hnewline => (Pubspec.scalarsUnder_pubspec (.outline "Acme.Bell" [])
    { PackageIdentity.ofName "acme" with dartSdk := sdk } hcheck hnewline).2
  refine ⟨⟨_, hidentity ">=3.0.0\\" (by decide) rfl, ?_⟩,
    ⟨_, hidentity "3\\\\0" (by decide) rfl, ?_⟩⟩
  · exact (hread _ rfl (by decide)).trans (by decide)
  · exact ⟨(hread _ rfl (by decide)).trans (by decide), rfl⟩

end PlatformBridge
