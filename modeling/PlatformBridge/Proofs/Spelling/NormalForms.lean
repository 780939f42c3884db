import PlatformBridge.Proofs.Spelling.Case
import PlatformBridge.Proofs.Text.Letters

/-!
# Names that are Spelled Already

Every spelling has a normal form that can be told from the text alone. A name
is in snake case if it is made of small letters, digits and underscores, and
every underscore stands alone between two of the others. It is in Pascal case
if it is made of letters and digits and does not start with a small letter,
and in lower camel case if it does not start with a capital.

What a spelling yields is in normal form, and a name in normal form is
spelled as it is. So to spell a name twice is to spell it once, and the names
that a spelling leaves alone are those in its normal form.

Snake case takes the most work, since its words have to be found again where
the underscores stand. `joined_begun` is the induction: what has been read
of the text from its end is the word that begins and the words behind it, and
the underscores between them are those of the text. It needs both that no two
underscores are next to each other and that none is last, or a word would be
lost. In the other two cases the whole name is one word, and only its first
letter is changed.

The normal forms are a fact about texts, and no word appears in them. That is
what makes them useful elsewhere: file names and identifiers are looked at as
texts.

## Main definitions

* `Spelling.IsSnake`, `Spelling.IsCamel`: Names in snake case and in lower
  camel case.
* `Spelling.joined`: The words of a text while one of them begins.

## Theorems

* `Spelling.not_infix_joinUnderscore`, `Spelling.getLast?_joinUnderscore`:
  Where joined words have underscores.
* `Spelling.isSnake_snakeCase`, `Spelling.isCamel_lowerCamelCase`: What is
  spelled is in normal form.
* `Spelling.joined_begun`, `Spelling.joinUnderscore_words`: A text in snake
  case is its words again.
* `Spelling.snakeCase_of_isSnake`, `Spelling.lowerCamelCase_of_isCamel`: What
  is in normal form stays as it is.
* `Spelling.snakeCase_eq_self_iff`, `Spelling.pascalCase_eq_self_iff`,
  `Spelling.lowerCamelCase_eq_self_iff`: The names that are spelled as they
  are.
* `Spelling.toList_lowerCamelCase`: Lower camel case is Pascal case but for
  the first letter.
* `Spelling.spellings_are_normal`: The spellings of a name, and what they
  have in common.
-/

namespace PlatformBridge

namespace Spelling

/-- A name in snake case. -/
structure IsSnake (name : String) : Prop where
  letters : ∀ c ∈ name.toList, c = '_' ∨ c.isLower = true ∨ c.isDigit = true
  head : name.toList.head? ≠ some '_'
  last : name.toList.getLast? ≠ some '_'
  single : ¬ ['_', '_'] <:+: name.toList

/-- A name in lower camel case. -/
structure IsCamel (name : String) : Prop where
  alphanum : ∀ c ∈ name.toList, c.isAlphanum = true
  head : ∀ c, name.toList.head? = some c → c.isUpper = false

section Joining

theorem joinUnderscore_cons {word : List Char} {rest : List (List Char)} (h : rest ≠ []) :
    joinUnderscore (word :: rest) = word ++ '_' :: joinUnderscore rest := by
  cases rest with
  | nil => exact absurd rfl h
  | cons next rest => rfl

/-- A pair of underscores is not in a word, and does not start in one. -/
theorem infix_append_iff {word text : List Char} (h : '_' ∉ word) :
    ['_', '_'] <:+: word ++ text ↔ ['_', '_'] <:+: text := by
  induction word with
  | nil => rfl
  | cons c rest ih =>
      rw [List.mem_cons, not_or] at h
      rw [List.cons_append, List.infix_cons_iff, ih h.2, List.cons_prefix_cons]
      exact or_iff_right fun hstart => h.1 hstart.1

variable {words : List (List Char)} (h : AreWords words)

include h

theorem joinUnderscore_ne_nil (hne : words ≠ []) : joinUnderscore words ≠ [] := by
  rcases List.exists_cons_of_ne_nil hne with ⟨word, rest, rfl⟩
  rcases List.exists_cons_of_ne_nil (h word List.mem_cons_self).1 with ⟨c, others, rfl⟩
  cases rest <;> exact List.cons_ne_nil _ _

/-- Joined words do not end in an underscore, since the last word does not. -/
theorem getLast?_joinUnderscore : (joinUnderscore words).getLast? ≠ some '_' := by
  induction words with
  | nil => exact nofun
  | cons word rest ih =>
      have hrest : AreWords rest := fun w hw => h w (List.mem_cons_of_mem word hw)
      by_cases hnil : rest = []
      · subst hnil
        exact fun hlast => (h word List.mem_cons_self).2 (List.mem_of_getLast? hlast)
      · have hlast := ih hrest
        rw [List.getLast?_eq_some_getLast (joinUnderscore_ne_nil hrest hnil)] at hlast
        rwa [joinUnderscore_cons hnil, List.getLast?_append, List.getLast?_cons,
          List.getLast?_eq_some_getLast (joinUnderscore_ne_nil hrest hnil)]

/-- Between two words there is one underscore, and none in a word, so no two are next to each other.
    -/
theorem not_infix_joinUnderscore : ¬ ['_', '_'] <:+: joinUnderscore words := by
  induction words with
  | nil => exact fun hpair => by simp [joinUnderscore] at hpair
  | cons word rest ih =>
      rcases h word List.mem_cons_self with ⟨_, hno⟩
      have hrest : AreWords rest := fun w hw => h w (List.mem_cons_of_mem word hw)
      by_cases hnil : rest = []
      · subst hnil
        intro hpair
        exact hno (hpair.subset List.mem_cons_self)
      · rw [joinUnderscore_cons hnil, infix_append_iff hno, List.infix_cons_iff,
          List.cons_prefix_cons, not_or]
        refine ⟨fun hstart => head?_joinUnderscore hrest ?_, ih hrest⟩
        rcases hstart.2 with ⟨behind, hbehind⟩
        rw [← hbehind]
        rfl

end Joining

/-- A spelling in snake case is in snake case. -/
theorem isSnake_snakeCase (name : String) : IsSnake (snakeCase name) := by
  have hwords := areWords_words cutsBeforeCapital name.toList
  constructor <;> rw [snakeCase, String.toList_ofList]
  · exact mem_snakeChars name.toList
  · exact head?_snakeChars name.toList
  · exact getLast?_joinUnderscore hwords
  · exact not_infix_joinUnderscore hwords

theorem isAlphanum_of_isSmall {c : Char} (h : c.isLower = true ∨ c.isDigit = true) :
    c.isAlphanum = true := by
  rcases h with h | h
  · exact Text.isAlphanum_of_isLower c h
  · rw [Char.isAlphanum, h, Bool.or_true]

-- Small letters and digits are small already.
theorem toLower_of_isSmall {c : Char} (h : c.isLower = true ∨ c.isDigit = true) :
    c.toLower = c :=
  of_isAlphanum c (isAlphanum_of_isSmall h)
    (fun c => c.isLower = true ∨ c.isDigit = true → c.toLower = c) (by decide) h

-- A small letter, a digit and an underscore are no capitals.
theorem isUpper_of_isSnakeChar {c : Char} (h : c = '_' ∨ c.isLower = true ∨ c.isDigit = true) :
    c.isUpper = false := by
  rcases h with rfl | h
  · rfl
  · exact of_isAlphanum c (isAlphanum_of_isSmall h)
      (fun c => c.isLower = true ∨ c.isDigit = true → c.isUpper = false) (by decide) h

/-- The words of a text, with an underscore in front of each but the one that begins, which may be
    empty. -/
def joined (state : List Char × List (List Char)) : List Char :=
  joinUnderscore (state.1 :: state.2)

theorem joined_cons (c : Char) (word : List Char) (rest : List (List Char)) :
    joined (c :: word, rest) = c :: joined (word, rest) := by
  cases rest <;> rfl

section Words

variable {text : List Char} (hletters : ∀ c ∈ text, c = '_' ∨ c.isLower = true ∨ c.isDigit = true)
variable (hlast : text.getLast? ≠ some '_') (hsingle : ¬ ['_', '_'] <:+: text)

include hletters hlast hsingle

/-- Read from its end, a text in snake case is the word that begins and the words behind it, and a
    word begins everywhere but at an underscore. -/
theorem joined_begun :
    joined (begun cutsBeforeCapital text) = text
      ∧ ((begun cutsBeforeCapital text).1 = [] → text = [] ∨ text.head? = some '_') := by
  induction text with
  | nil => exact ⟨rfl, fun _ => Or.inl rfl⟩
  | cons c rest ih =>
      rw [List.forall_mem_cons] at hletters
      rw [List.infix_cons_iff, not_or] at hsingle
      have hlast' : rest.getLast? ≠ some '_' := by
        intro hrest
        rw [List.getLast?_cons, hrest] at hlast
        exact hlast rfl
      rcases ih hletters.2 hlast' hsingle.2 with ⟨hjoin, hnil⟩
      rcases hletters.1 with rfl | hc
      · -- What is behind an underscore is a word: it is neither the end nor another underscore.
        have hword : (begun cutsBeforeCapital rest).1 ≠ [] := by
          intro hempty
          rcases hnil hempty with rfl | hhead
          · exact hlast rfl
          · rcases List.head?_eq_some_iff.mp hhead with ⟨behind, rfl⟩
            exact hsingle.1 ⟨behind, rfl⟩
        rw [begun_of_not_alphanum _ _ rest rfl, ← pushWord_begun, pushWord,
          if_neg (by simpa using hword)]
        exact ⟨congrArg ('_' :: ·) hjoin, fun _ => Or.inr rfl⟩
      · -- What is behind a letter or digit is no capital, so the word goes on.
        have hcuts : cutsBeforeCapital c (begun cutsBeforeCapital rest).1 = false := by
          cases hword : (begun cutsBeforeCapital rest).1 with
          | nil => rfl
          | cons first behind =>
              have hstate : begun cutsBeforeCapital rest
                  = (first :: behind, (begun cutsBeforeCapital rest).2) := Prod.ext hword rfl
              have hfirst : first ∈ rest := by
                rw [← hjoin, hstate, joined_cons]
                exact List.mem_cons_self
              rw [cutsBeforeCapital, isUpper_of_isSnakeChar (hletters.2 first hfirst),
                Bool.false_and]
        rw [begun_of_alphanum _ c rest (isAlphanum_of_isSmall hc), hcuts,
          if_neg Bool.false_ne_true, joined_cons]
        exact ⟨congrArg (c :: ·) hjoin, fun hempty => absurd hempty (List.cons_ne_nil _ _)⟩

end Words

/-- A text in snake case is its words again. -/
theorem joinUnderscore_words (name : String) (h : IsSnake name) :
    joinUnderscore (words cutsBeforeCapital name.toList) = name.toList := by
  rcases joined_begun h.letters h.last h.single with ⟨hjoin, hnil⟩
  rw [← pushWord_begun]
  generalize begun cutsBeforeCapital name.toList = state at hjoin hnil
  rcases state with ⟨word, others⟩
  dsimp only at hnil ⊢
  by_cases hword : word = []
  · rw [(hnil hword).resolve_right h.head] at hjoin ⊢
    subst hword
    cases others with
    | nil => rfl
    | cons first rest => cases hjoin
  · rw [pushWord, if_neg (by simpa using hword)]
    exact hjoin

/-- A name in snake case is spelled as it is. -/
theorem snakeCase_of_isSnake (name : String) (h : IsSnake name) : snakeCase name = name := by
  have hwords : ∀ word ∈ words cutsBeforeCapital name.toList, word.map Char.toLower = word := by
    intro word hword
    have hsmall : ∀ c ∈ word, c.toLower = c := by
      intro c hc
      have hkept : c ∈ name.toList.filter Char.isAlphanum := by
        rw [← flatten_words cutsBeforeCapital]
        exact List.mem_flatten.mpr ⟨word, hword, hc⟩
      rcases List.mem_filter.mp hkept with ⟨hmem, halphanum⟩
      rcases h.letters c hmem with rfl | hc
      · cases halphanum
      · exact toLower_of_isSmall hc
    rw [List.map_congr_left hsmall, List.map_id']
  rw [← String.toList_inj, snakeCase, String.toList_ofList, snakeChars,
    List.map_congr_left hwords, List.map_id', joinUnderscore_words name h]

/-- The names that are spelled in snake case as they are. -/
theorem snakeCase_eq_self_iff (name : String) : snakeCase name = name ↔ IsSnake name :=
  ⟨fun h => h ▸ isSnake_snakeCase name, snakeCase_of_isSnake name⟩

/-- The names that are spelled in Pascal case as they are. -/
theorem pascalCase_eq_self_iff (name : String) : pascalCase name = name ↔ IsPascal name :=
  ⟨fun h => h ▸ isPascal_pascalCase name, pascalCase_of_isPascal name⟩

/-- A name in lower camel case is the one in Pascal case but for the first letter. -/
theorem toList_lowerCamelCase (name : String) :
    (lowerCamelCase name).toList = (pascalCase name).toList.modifyHead Char.toLower := by
  rw [lowerCamelCase, pascalCase, String.toList_ofList, String.toList_ofList]
  cases pascalChars name.toList <;> rfl

/-- A spelling in lower camel case is in lower camel case. -/
theorem isCamel_lowerCamelCase (name : String) : IsCamel (lowerCamelCase name) := by
  have hpascal := (isPascal_pascalCase name).alphanum
  constructor <;> rw [toList_lowerCamelCase] <;> intro c hc
  · cases hchars : (pascalCase name).toList with
    | nil =>
        rw [hchars] at hc
        cases hc
    | cons first rest =>
        rw [hchars] at hc hpascal
        rcases List.mem_cons.mp hc with rfl | hc
        · exact of_isAlphanum first (hpascal first List.mem_cons_self)
            (fun c => c.toLower.isAlphanum = true) (by decide)
        · exact hpascal c (List.mem_cons_of_mem first hc)
  · cases hchars : (pascalCase name).toList with
    | nil =>
        rw [hchars] at hc
        cases hc
    | cons first rest =>
        rw [hchars] at hc hpascal
        cases hc
        exact of_isAlphanum first (hpascal first List.mem_cons_self)
          (fun c => c.toLower.isUpper = false) (by decide)

/-- A name in lower camel case is spelled as it is. -/
theorem lowerCamelCase_of_isCamel (name : String) (h : IsCamel name) :
    lowerCamelCase name = name := by
  rw [← String.toList_inj, lowerCamelCase, String.toList_ofList,
    pascalChars_of_alphanum name.toList h.alphanum]
  cases hchars : name.toList with
  | nil => rfl
  | cons c rest =>
      have hlower : c.toUpper.toLower = c :=
        of_isAlphanum c (h.alphanum c (hchars ▸ List.mem_cons_self))
          (fun c => c.isUpper = false → c.toUpper.toLower = c) (by decide) (h.head c (hchars ▸ rfl))
      rw [capitalize, uncapitalize, hlower]

/-- The names that are spelled in lower camel case as they are. -/
theorem lowerCamelCase_eq_self_iff (name : String) : lowerCamelCase name = name ↔ IsCamel name :=
  ⟨fun h => h ▸ isCamel_lowerCamelCase name, lowerCamelCase_of_isCamel name⟩

/-- The spellings of a name are normal forms. In snake case there are small letters, digits and
    single underscores between them; in Pascal case letters and digits, and no small letter in
    front; lower camel case is Pascal case with a small letter in front. What is spelled already
    stays as it is, and without underscores and capitals the spellings are the same. -/
theorem spellings_are_normal (name : String) :
    IsSnake (snakeCase name) ∧ IsPascal (pascalCase name)
      ∧ (lowerCamelCase name).toList = (pascalCase name).toList.modifyHead Char.toLower
      ∧ snakeCase (snakeCase name) = snakeCase name
      ∧ pascalCase (pascalCase name) = pascalCase name
      ∧ lowerCamelCase (lowerCamelCase name) = lowerCamelCase name
      ∧ (snakeCase name).toList.filter (· ≠ '_') = (pascalCase name).toList.map Char.toLower := by
  refine ⟨isSnake_snakeCase name, isPascal_pascalCase name, toList_lowerCamelCase name,
    snakeCase_of_isSnake _ (isSnake_snakeCase name),
    pascalCase_of_isPascal _ (isPascal_pascalCase name),
    lowerCamelCase_of_isCamel _ (isCamel_lowerCamelCase name), ?_⟩
  rw [snakeCase, pascalCase, String.toList_ofList, String.toList_ofList, filter_snakeChars,
    map_toLower_pascalChars]

end Spelling

end PlatformBridge
