import PlatformBridge.Proofs.Settings.Loading
import PlatformBridge.Proofs.Spelling.Case
import PlatformBridge.Proofs.Text.Split
import PlatformBridge.Proofs.Toml.Lines

/-!
# The Settings File of a New Project

A new project starts with a settings file that is put together from fixed
lines and the name of the package, which is written into two of them as it is.
For every name that a package can have this file is read without an error, and
says what it was made to say.

The name comes from outside and has passed one check, the one for names of
packages. What the file needs of it is that it can stand between quotes as it
is, and that it is a path of its own; both follow from the few characters that
a name may have. The table that the lines add up to has the name in it as a
variable. It is computed with the name left open, by the equations of the
functions that add to a table, and so the file is read for all names at once.

## Main definitions

* `Settings.started`: What the file of a new project says.
* `Settings.textLine`, `Settings.headerLine`: Two kinds of lines.
* `Settings.starterLines`, `Settings.starterTable`: The lines of the file and
  what they add up to.

## Theorems

* `checkName_eq_ok_iff`: What is accepted as a name.
* `of_isNameChar`: What a character of a name is not.
* `Settings.leads_starterLines`, `Settings.read?_starterTable`,
  `Settings.parse?_starter`: The lines are read as settings.
* `Settings.check_started_package`, `Settings.check_started_output`,
  `Settings.parse_eq_started`: The settings pass their checks.
* `Settings.parse_starter`: The file of a new project is read, and gives the
  package its name and its place.
-/

namespace PlatformBridge

/-- A name is accepted if it is a short text of small letters, digits and underscores that does not
    start with a digit and is no reserved word. -/
theorem checkName_eq_ok_iff (name : String) : checkName name = .ok ()
    ↔ (∃ first rest, name.toList = first :: rest ∧ (first.isLower = true ∨ first = '_'))
      ∧ Text.byteLength name.toList ≤ maxNameLength
      ∧ (∀ c ∈ name.toList, isNameChar c = true) ∧ name ∉ Dart.reserved := by
  have hdefect : checkName name = .ok () ↔ nameDefect? name = none := by
    unfold checkName
    cases nameDefect? name with
    | none => exact iff_of_true rfl rfl
    | some reason => exact iff_of_false nofun nofun
  -- The checks are a row of conditions, each of which gives a reason or leaves the rest to the
  -- others.
  have hpass : ∀ (c : Prop) [Decidable c] (reason : String) (others : Option String),
      (if c then some reason else others) = none ↔ ¬ c ∧ others = none := by
    intro c _ reason others
    by_cases hc : c
    · rw [if_pos hc]
      exact iff_of_false nofun fun h => h.1 hc
    · rw [if_neg hc, and_iff_right hc]
  rw [hdefect]
  unfold nameDefect?
  cases name.toList with
  | nil => exact iff_of_false nofun nofun
  | cons first rest =>
      simp only [hpass, Nat.not_lt, List.cons.injEq, Bool.not_eq_true', Bool.not_eq_false,
        Bool.or_eq_true, decide_eq_true_eq, List.all_eq_true, List.contains_eq_mem, and_true]
      constructor
      · rintro ⟨hlength, hfirst, hchars, hreserved⟩
        exact ⟨⟨first, rest, ⟨rfl, rfl⟩, hfirst⟩, hlength, hchars, hreserved⟩
      · rintro ⟨⟨_, _, ⟨rfl, rfl⟩, hfirst⟩, hlength, hchars, hreserved⟩
        exact ⟨hlength, hfirst, hchars, hreserved⟩

-- Small letters, digits and underscores are neither blank nor of a meaning in a text or path.
theorem of_isNameChar (c : Char) (h : isNameChar c = true) :
    Text.isBlankChar c = false ∧ Toml.isPlain c = true ∧ c ≠ '"' ∧ c ≠ '\\' ∧ c ≠ '/' := by
  have hbounds : 48 ≤ c.toNat ∧ c.toNat ≤ 122 := by
    rw [isNameChar, Bool.or_eq_true, Bool.or_eq_true, decide_eq_true_eq] at h
    rcases h with (hlower | hdigit) | rfl
    · have := Spelling.bounds_of_isAlphanum c (Text.isAlphanum_of_isLower c hlower)
      omega
    · have := Spelling.bounds_of_isAlphanum c (by rw [Char.isAlphanum, hdigit, Bool.or_true])
      omega
    · decide
  refine ⟨?_, ?_, Text.ne_of_class h (by decide), Text.ne_of_class h (by decide),
    Text.ne_of_class h (by decide)⟩
  · simp [Text.isBlankChar]
    omega
  · simp [Toml.isPlain]
    omega

-- A text without blanks has none at its ends.
theorem trim_of_forall (text : List Char) (h : ∀ c ∈ text, Text.isBlankChar c = false) :
    Text.trim text = text := by
  have hdrop : ∀ text : List Char, (∀ c ∈ text, Text.isBlankChar c = false) →
      text.dropWhile Text.isBlankChar = text := by
    intro text h
    cases text with
    | nil => rfl
    | cons c rest => rw [List.dropWhile_cons_of_neg (by simp [h c List.mem_cons_self])]
  rw [Text.trim, hdrop text h, hdrop text.reverse fun c hc => h c (List.mem_reverse.mp hc),
    List.reverse_reverse]

namespace Settings

/-- What the file of a new project says. -/
def started (name : String) : Settings where
  package := ⟨some name, some "Flutnet platform bridge", some "1.0.0", some ">=3.0.0 <4.0.0"⟩
  output := ⟨some name, false⟩
  level := .info

/-- A line with a key and a text between quotes. -/
def textLine (key text : String) : List Char :=
  key.toList ++ ' ' :: '=' :: ' ' :: '"' :: (text.toList ++ ['"'])

/-- A line with a header. -/
def headerLine (key : String) : List Char := '[' :: (key.toList ++ [']'])

/-- The lines of the file of a new project. -/
def starterLines (name : String) : List (List Char) := [
  headerLine "package",
  textLine "name" name,
  textLine "description" "Flutnet platform bridge",
  textLine "version" "1.0.0",
  textLine "dart_sdk" ">=3.0.0 <4.0.0",
  [],
  headerLine "output",
  textLine "dir" name,
  "overwrite".toList ++ ' ' :: '=' :: ' ' :: (toString false).toList,
  [],
  headerLine "logging",
  textLine "level" "info"]

theorem toList_starter (name : String) :
    (starter name).toList = (starterLines name).flatMap (· ++ ['\n']) := by
  simp [starter, starterLines, headerLine, textLine, show toString false = "false" from rfl]

/-- A line with a text adds it to the table of the last header. -/
theorem turns_textLine (key text : String) (hkey : Toml.IsBareKey key.toList)
    (htext : Toml.IsVerbatim text.toList) (s : Toml.Place) (root : Toml.Members)
    (hassign : Toml.Node.inTable? s.header (Toml.Node.assign? [] key (.string text)) s.root
      = some root) :
    Toml.Turns (textLine key text) s ⟨s.header, root⟩ :=
  Toml.turns_assignment key hkey _ _ (Toml.denotes_quoted text htext) s root hassign

/-- The table that the lines of the file add up to. -/
def starterTable (name : String) : Toml.Members := [
  ("package", .table .header [
    ("name", .leaf (.string name)),
    ("description", .leaf (.string "Flutnet platform bridge")),
    ("version", .leaf (.string "1.0.0")),
    ("dart_sdk", .leaf (.string ">=3.0.0 <4.0.0"))]),
  ("output", .table .header [
    ("dir", .leaf (.string name)),
    ("overwrite", .leaf (.bool false))]),
  ("logging", .table .header [
    ("level", .leaf (.string "info"))])]

open Toml in
/-- The lines add up to the table. -/
theorem leads_starterLines (name : String) (hname : IsVerbatim name.toList) :
    Leads (starterLines name) ⟨[], []⟩ ⟨["logging"], starterTable name⟩ := by
  refine .cons _ _ _ _ _ (turns_header "package" (by decide) _ _ rfl) ?_
  refine .cons _ _ _ _ _ (turns_textLine "name" _ (by decide) hname _ _ rfl) ?_
  refine .cons _ _ _ _ _ (turns_textLine "description" _ (by decide) (by decide) _ _ rfl) ?_
  refine .cons _ _ _ _ _ (turns_textLine "version" _ (by decide) (by decide) _ _ rfl) ?_
  refine .cons _ _ _ _ _ (turns_textLine "dart_sdk" _ (by decide) (by decide) _ _ rfl) ?_
  refine .cons _ _ _ _ _ (turns_empty _) ?_
  refine .cons _ _ _ _ _ (turns_header "output" (by decide) _ _ rfl) ?_
  refine .cons _ _ _ _ _ (turns_textLine "dir" _ (by decide) hname _ _ rfl) ?_
  refine .cons _ _ _ _ _
    (turns_assignment "overwrite" (by decide) _ _ (denotes_bool false) _ _ rfl) ?_
  refine .cons _ _ _ _ _ (turns_empty _) ?_
  refine .cons _ _ _ _ _ (turns_header "logging" (by decide) _ _ rfl) ?_
  refine .cons _ _ _ _ _ (turns_textLine "level" _ (by decide) (by decide) _ _ rfl) ?_
  exact .nil _

/-- The table is read as what the file was made to say. -/
theorem read?_starterTable (name : String) :
    read? (Toml.Node.membersToToml (starterTable name)) = some (started name) := rfl

/-- The file of a new project is read as what it was made to say. -/
theorem parse?_starter (name : String) (hname : Toml.IsVerbatim name.toList) :
    (Toml.parse? (starter name)).bind read? = some (started name) := by
  have hlength : (starterLines name).length < (starter name).toList.length + 1 := by
    rw [toList_starter, List.length_flatMap]
    simp [starterLines]
    omega
  have hread := (leads_starterLines name hname).read _ hlength
  rw [← toList_starter] at hread
  -- The file starts with a header, hence not with a mark of the byte order.
  have hstart : ∃ rest, (starter name).toList = '[' :: rest := ⟨_, toList_starter name⟩
  rcases hstart with ⟨rest, hfirst⟩
  have hparse : Toml.parse? (starter name) = (Toml.readLinesOf? ((starter name).toList.length + 1)
      [] [] (starter name).toList).map Toml.Node.membersToToml := by
    unfold Toml.parse?
    rw [hfirst]
    rfl
  rw [hparse, hread]
  exact read?_starterTable name

section Checks

variable (name : String) (h : checkName name = .ok ())

include h

/-- What is said of the package passes its check. -/
theorem check_started_package : (started name).package.check = .ok () := by
  refine (PackageSettings.check_eq_ok_iff _).mpr ⟨?_, ?_, ?_⟩
  · rintro _ ⟨⟩
    exact h
  · rintro _ ⟨⟩
    decide
  · exact (((started name).package.withName name).check_eq_checkName (.ofName "acme")
      rfl rfl rfl).trans h

-- A name is all of its path: there are no blanks or slashes in it.
theorem directory_started : (started name).output.directory name = name := by
  have hchars := ((checkName_eq_ok_iff name).mp h).2.2.1
  have htrim := trim_of_forall name.toList fun c hc => (of_isNameChar c (hchars c hc)).1
  simp [OutputSettings.directory, started, htrim]

/-- So does what is said of the output: the place of the package is its name. -/
theorem check_started_output : (started name).output.check = .ok () := by
  rcases (checkName_eq_ok_iff name).mp h with ⟨⟨first, rest, hcons, _⟩, hlength, hchars, _⟩
  have htrim := trim_of_forall name.toList fun c hc => (of_isNameChar c (hchars c hc)).1
  have hsplit := Text.split_of_forall (· = '/') name.toList fun c hc =>
    decide_eq_false (of_isNameChar c (hchars c hc)).2.2.2.2
  have hlong : hasLongPart name.toList = false := by
    rw [hasLongPart, hsplit, List.any_cons, List.any_nil, Bool.or_false, decide_eq_false_iff_not]
    exact Nat.not_lt.mpr (Nat.le_trans hlength (by decide))
  have hshort : ¬ maxPathLength < Text.byteLength name.toList :=
    Nat.not_lt.mpr (Nat.le_trans hlength (by decide))
  have hempty : name.toList.isEmpty = false := by rw [hcons, List.isEmpty_cons]
  unfold OutputSettings.check
  simp [started, htrim, hempty, hlong, hshort]

/-- The file of a new project is accepted. -/
theorem parse_eq_started : parse (starter name) = .ok (started name) := by
  have hchars := ((checkName_eq_ok_iff name).mp h).2.2.1
  have hverbatim : Toml.IsVerbatim name.toList := by
    intro c hc
    rcases of_isNameChar c (hchars c hc) with ⟨_, hplain, hquote, hslash, _⟩
    exact ⟨hplain, hquote, hslash⟩
  have hcheck : (started name).check = .ok () := by
    unfold check
    rw [check_started_package name h]
    exact check_started_output name h
  unfold parse
  rw [parse?_starter name hverbatim]
  dsimp only
  rw [hcheck]
  rfl

end Checks

/-- For every name that a package can have, the settings file of a new project is read without an
    error. The name that is set is this one, and so is the directory; the identity of the package
    has the name, and the place of the package is the path of the name. -/
theorem parse_starter (name : String) (h : checkName name = .ok ()) :
    ∃ s, parse (starter name) = .ok s
      ∧ s.package.name = some name ∧ s.output.dir = some name
      ∧ ∃ p, s.package.identity none = .ok p ∧ p.name = name
        ∧ s.output.directory p.name = name := by
  refine ⟨started name, parse_eq_started name h, rfl, rfl, (started name).package.withName name, ?_,
    rfl, directory_started name h⟩
  rcases (PackageSettings.check_eq_ok_iff _).mp (check_started_package name h) with
    ⟨_, hconstraint, hcheck⟩
  exact (PackageSettings.identity_eq_ok_iff _ none _).mpr ⟨name, rfl, hconstraint, hcheck, rfl⟩

/-- A name that starts with an underscore and a digit is one, and the file that it is written into
    is read. -/
theorem parse_starter_of_underscore :
    checkName "_2nd_class" = .ok ()
      ∧ ∃ s, parse (starter "_2nd_class") = .ok s ∧ s.package.name = some "_2nd_class"
        ∧ s.output.directory "acme" = "_2nd_class" := by
  have h : checkName "_2nd_class" = .ok () := rfl
  rcases parse_starter "_2nd_class" h with ⟨s, hs, hname, hdir, _⟩
  refine ⟨h, s, hs, hname, ?_⟩
  rw [OutputSettings.directory, hdir]
  decide

end Settings

end PlatformBridge
