import PlatformBridge.Spelling.Case

/-!
# What Letter Case Forgets

A spelling keeps the letters and digits of a name and nothing else of it. How
the words are cut makes a difference only to where underscores and capitals
stand, so in small letters and without underscores all spellings of a name
are the same text. This is what is left of a name once it is spelled, and two
names that differ in nothing else cannot be told apart by any spelling.

The words of a name are found from its end, one character at a time, and the
word that is being made may be empty. `begun` keeps this word apart from the
finished ones. Inductions over the characters of a name are about `begun`,
where a character either goes in front of the word or starts a new one, and
not about `words`, where an empty word would have been dropped already.

Letters and digits are few, so what is true of each of them can be tried out:
`of_isAlphanum` turns a statement about them into one about the numbers below
123, and the lemmas about capitals and small letters are decided there.

The last part says what stands at the front of a spelling and what it is made
of. Identifiers in both languages are spellings, and it is from here that
their legality is proved.

## Main definitions

* `Spelling.kept`: What every spelling keeps of a name.
* `Spelling.begun`: The words of a text as they are found.
* `Spelling.IsPascal`: Names in Pascal case.
* `Spelling.CutOtherwise`: Names that differ in how they are cut.
* `Spelling.AreWords`: Words that can be told apart when they are joined.

## Theorems

* `Spelling.begun_of_alphanum`, `Spelling.begun_of_not_alphanum`: One
  character in front of a text.
* `Spelling.flatten_words`: The words of a name are its letters and digits.
* `Spelling.of_isAlphanum`: Letters and digits can be tried out.
* `Spelling.filter_joinUnderscore`: What joining adds to words.
* `Spelling.filter_snakeChars`, `Spelling.map_toLower_pascalChars`: What the
  spellings keep.
* `Spelling.mem_pascalChars`, `Spelling.isLower_head_pascalChars`: What a
  name in Pascal case is made of.
* `Spelling.pascalCase_of_isPascal`: Such a name is spelled as it is.
* `Spelling.filter_snakeCase_of_pascalCase_eq`: What one spelling says about
  another.
* `Spelling.mem_snakeChars`, `Spelling.head?_snakeChars`: What stands in a
  name in snake case.
* `Spelling.areWords_words`: The words of a name can be told apart.
-/

namespace PlatformBridge

namespace Spelling

/-- What every spelling keeps of a name: its letters and digits, as small ones. -/
def kept (text : List Char) : List Char := (text.filter Char.isAlphanum).map Char.toLower

theorem flatten_pushWord (word : List Char) (words : List (List Char)) :
    (pushWord word words).flatten = word ++ words.flatten := by
  cases word with
  | nil => rfl
  | cons c rest => rfl

/-- The words of a text as they are found from its end: the one that begins the text, which may be
    empty, and those behind it. -/
def begun (cuts : Char → List Char → Bool) (text : List Char) : List Char × List (List Char) :=
  text.foldr (addChar cuts) ([], [])

section Begun

variable (cuts : Char → List Char → Bool) (c : Char) (text : List Char)

theorem pushWord_begun : pushWord (begun cuts text).1 (begun cuts text).2 = words cuts text := rfl

theorem begun_of_not_alphanum (hc : c.isAlphanum = false) :
    begun cuts (c :: text) = ([], words cuts text) := by
  rw [begun, List.foldr_cons, addChar, hc, Bool.not_false, if_pos rfl]
  rfl

theorem begun_of_alphanum (hc : c.isAlphanum = true) : begun cuts (c :: text)
    = if cuts c (begun cuts text).1 then ([c], words cuts text)
      else (c :: (begun cuts text).1, (begun cuts text).2) := by
  rw [begun, List.foldr_cons, addChar, hc, Bool.not_true, if_neg Bool.false_ne_true]
  rfl

/-- The words of a name, one after the other, are its letters and digits. -/
theorem flatten_words : (words cuts text).flatten = text.filter Char.isAlphanum := by
  -- At every point the word that begins and the words behind it are what has been kept so far.
  have hsofar : (begun cuts text).1 ++ (begun cuts text).2.flatten
      = text.filter Char.isAlphanum := by
    induction text with
    | nil => rfl
    | cons c rest ih =>
        rw [List.filter_cons]
        cases hc : c.isAlphanum with
        | true =>
            rw [begun_of_alphanum cuts c rest hc, if_pos rfl, ← ih]
            split
            · rw [← pushWord_begun, flatten_pushWord]
              rfl
            · rfl
        | false =>
            rw [begun_of_not_alphanum cuts c rest hc, if_neg Bool.false_ne_true, ← ih,
              ← pushWord_begun, flatten_pushWord]
            rfl
  rw [← pushWord_begun, flatten_pushWord]
  exact hsofar

/-- No word is empty. -/
theorem ne_nil_of_mem_words : ∀ word ∈ words cuts text, word ≠ [] := by
  have hpush : ∀ (first : List Char) (others : List (List Char)), (∀ w ∈ others, w ≠ []) →
      ∀ w ∈ pushWord first others, w ≠ [] := by
    intro first others hothers
    cases first with
    | nil => exact hothers
    | cons c rest => exact List.forall_mem_cons.mpr ⟨List.cons_ne_nil c rest, hothers⟩
  have hsofar : ∀ w ∈ (begun cuts text).2, w ≠ [] := by
    induction text with
    | nil => exact List.forall_mem_nil _
    | cons c rest ih =>
        cases hc : c.isAlphanum with
        | true =>
            rw [begun_of_alphanum cuts c rest hc]
            split
            · exact hpush _ _ ih
            · exact ih
        | false =>
            rw [begun_of_not_alphanum cuts c rest hc]
            exact hpush _ _ ih
  exact hpush _ _ hsofar

end Begun

section Letters

variable (c : Char) (h : c.isAlphanum = true)

-- The letters and digits, by their numbers.
include h in
theorem bounds_of_isAlphanum : 65 ≤ c.toNat ∧ c.toNat ≤ 90 ∨ 97 ≤ c.toNat ∧ c.toNat ≤ 122
    ∨ 48 ≤ c.toNat ∧ c.toNat ≤ 57 := by
  unfold Char.isAlphanum Char.isAlpha Char.isUpper Char.isLower Char.isDigit at h
  simp only [Bool.or_eq_true, Bool.and_eq_true, decide_eq_true_eq, UInt32.le_iff_toNat_le,
    ge_iff_le] at h
  change ((65 ≤ c.toNat ∧ c.toNat ≤ 90) ∨ (97 ≤ c.toNat ∧ c.toNat ≤ 122))
    ∨ (48 ≤ c.toNat ∧ c.toNat ≤ 57) at h
  omega

-- There are few of them, so what holds of each can be tried out.
include h in
theorem of_isAlphanum (P : Char → Prop)
    (hP : ∀ n < 123, (Char.ofNat n).isAlphanum = true → P (Char.ofNat n)) : P c := by
  have hbounds := bounds_of_isAlphanum c h
  have hc := hP c.toNat (by omega)
  rw [Char.ofNat_toNat] at hc
  exact hc h

include h in
theorem isSmall_toLower : c.toLower.isLower = true ∨ c.toLower.isDigit = true :=
  of_isAlphanum c h (fun c => c.toLower.isLower = true ∨ c.toLower.isDigit = true) (by decide)

include h in
theorem toLower_toUpper : c.toUpper.toLower = c.toLower :=
  of_isAlphanum c h (fun c => c.toUpper.toLower = c.toLower) (by decide)

include h in
theorem isAlphanum_toUpper : c.toUpper.isAlphanum = true :=
  of_isAlphanum c h (fun c => c.toUpper.isAlphanum = true) (by decide)

include h in
theorem isLower_toUpper : c.toUpper.isLower = false :=
  of_isAlphanum c h (fun c => c.toUpper.isLower = false) (by decide)

include h in
theorem toUpper_of_not_lower (hlower : c.isLower = false) : c.toUpper = c :=
  of_isAlphanum c h (fun c => c.isLower = false → c.toUpper = c) (by decide) hlower

include h in
theorem toLower_ne_underscore : c.toLower ≠ '_' :=
  of_isAlphanum c h (fun c => c.toLower ≠ '_') (by decide)

end Letters

/-- Joining words adds underscores and nothing else. -/
theorem filter_joinUnderscore (words : List (List Char)) (h : '_' ∉ words.flatten) :
    (joinUnderscore words).filter (· ≠ '_') = words.flatten := by
  have hfilter : ∀ word : List Char, '_' ∉ word → word.filter (· ≠ '_') = word := fun word hword =>
    List.filter_eq_self.mpr fun c hc => decide_eq_true fun heq : c = '_' => hword (heq ▸ hc)
  induction words with
  | nil => rfl
  | cons word rest ih =>
      rw [List.flatten_cons, List.mem_append, not_or] at h
      cases rest with
      | nil =>
          rw [joinUnderscore, hfilter word h.1, List.flatten_singleton]
      | cons next rest =>
          rw [joinUnderscore, List.filter_append, List.filter_cons_of_neg (by simp), ih h.2,
            hfilter word h.1]
          · rfl
          · exact List.cons_ne_nil next rest

/-- Without its underscores, a name in snake case is what every spelling keeps. -/
theorem filter_snakeChars (text : List Char) :
    (snakeChars text).filter (· ≠ '_') = kept text := by
  have hflatten : ((words cutsBeforeCapital text).map (·.map Char.toLower)).flatten
      = kept text := by
    rw [← List.map_flatten, flatten_words]
    rfl
  rw [snakeChars, filter_joinUnderscore, hflatten]
  rw [hflatten]
  intro hmem
  rcases List.mem_map.mp hmem with ⟨c, hc, heq⟩
  exact toLower_ne_underscore c (List.mem_filter.mp hc).2 heq

/-- In small letters, a name in Pascal case is what every spelling keeps. -/
theorem map_toLower_pascalChars (text : List Char) :
    (pascalChars text).map Char.toLower = kept text := by
  -- A capital letter in front of a word is a small one again.
  have hcapitalize : ∀ word : List Char, (∀ c ∈ word, c.isAlphanum = true) →
      (capitalize word).map Char.toLower = word.map Char.toLower := by
    intro word hword
    cases word with
    | nil => rfl
    | cons c rest =>
        rw [capitalize, List.map_cons, toLower_toUpper c (hword c List.mem_cons_self),
          List.map_cons]
  have halphanum : ∀ c ∈ (words (fun _ _ => false) text).flatten, c.isAlphanum = true := by
    intro c hc
    rw [flatten_words] at hc
    exact (List.mem_filter.mp hc).2
  rw [kept, ← flatten_words fun _ _ => false, pascalChars]
  generalize words (fun _ _ => false) text = parts at halphanum ⊢
  induction parts with
  | nil => rfl
  | cons word rest ih =>
      rw [List.flatten_cons, List.forall_mem_append] at halphanum
      rw [List.flatMap_cons, List.map_append, hcapitalize word halphanum.1, ih halphanum.2,
        List.flatten_cons, List.map_append]

/-- The letters and digits of a word are those of its name. -/
theorem isAlphanum_of_mem_words (cuts : Char → List Char → Bool) (text word : List Char)
    (h : word ∈ words cuts text) (c : Char) (hc : c ∈ word) : c.isAlphanum = true := by
  have hmem : c ∈ (words cuts text).flatten := List.mem_flatten.mpr ⟨word, h, hc⟩
  rw [flatten_words] at hmem
  exact (List.mem_filter.mp hmem).2

/-- In a name in Pascal case there are letters and digits. -/
theorem mem_pascalChars (text : List Char) (c : Char) (hc : c ∈ pascalChars text) :
    c.isAlphanum = true := by
  rcases List.mem_flatMap.mp hc with ⟨word, hword, hc⟩
  have hall := isAlphanum_of_mem_words _ text word hword
  cases word with
  | nil => cases hc
  | cons d rest =>
      rcases List.mem_cons.mp hc with rfl | hc
      · exact isAlphanum_toUpper d (hall d List.mem_cons_self)
      · exact hall c (List.mem_cons_of_mem d hc)

/-- A name in Pascal case does not start with a small letter. -/
theorem isLower_head_pascalChars (text : List Char) (c : Char)
    (h : (pascalChars text).head? = some c) : c.isLower = false := by
  have hne := ne_nil_of_mem_words (fun _ _ => false) text
  have hall := isAlphanum_of_mem_words (fun _ _ => false) text
  rw [pascalChars] at h
  cases hwords : words (fun _ _ => false) text with
  | nil =>
      rw [hwords] at h
      cases h
  | cons word rest =>
      rw [hwords] at h hne hall
      cases word with
      | nil => exact absurd rfl (hne [] List.mem_cons_self)
      | cons d others =>
          cases h
          exact isLower_toUpper d (hall _ List.mem_cons_self d List.mem_cons_self)

/-- A name of letters and digits that does not start with a small letter, so that it is in Pascal
    case already. -/
structure IsPascal (name : String) : Prop where
  alphanum : ∀ c ∈ name.toList, c.isAlphanum = true
  head : ∀ c, name.toList.head? = some c → c.isLower = false

theorem isPascal_pascalCase (name : String) : IsPascal (pascalCase name) := by
  constructor
  · rw [pascalCase, String.toList_ofList]
    exact mem_pascalChars _
  · rw [pascalCase, String.toList_ofList]
    exact isLower_head_pascalChars _

/-- Between letters and digits alone no word ends. -/
theorem begun_of_forall_alphanum (text : List Char) (h : ∀ c ∈ text, c.isAlphanum = true) :
    begun (fun _ _ => false) text = (text, []) := by
  induction text with
  | nil => rfl
  | cons c rest ih =>
      rw [List.forall_mem_cons] at h
      rw [begun_of_alphanum _ c rest h.1, ih h.2, if_neg Bool.false_ne_true]

-- They are one word.
theorem pascalChars_of_alphanum (text : List Char) (h : ∀ c ∈ text, c.isAlphanum = true) :
    pascalChars text = capitalize text := by
  rw [pascalChars, ← pushWord_begun, begun_of_forall_alphanum text h]
  cases text with
  | nil => rfl
  | cons c rest => exact List.flatMap_singleton capitalize (c :: rest)

/-- A name in Pascal case is spelled as it is, since it is a single word. -/
theorem pascalCase_of_isPascal (name : String) (h : IsPascal name) : pascalCase name = name := by
  rw [← String.toList_inj, pascalCase, String.toList_ofList,
    pascalChars_of_alphanum name.toList h.alphanum]
  cases htext : name.toList with
  | nil => rfl
  | cons c rest =>
      have halphanum : c.isAlphanum = true := h.alphanum c (htext ▸ List.mem_cons_self)
      have hlower : c.isLower = false := h.head c (htext ▸ rfl)
      rw [capitalize, toUpper_of_not_lower c halphanum hlower]

/-- Names with the same letters and digits that are cut into words at different places. -/
structure CutOtherwise (name other : String) : Prop where
  ne : snakeCase name ≠ snakeCase other
  kept_eq : (snakeCase name).toList.filter (· ≠ '_') = (snakeCase other).toList.filter (· ≠ '_')

/-- Names that are spelled alike in Pascal case are spelled alike in snake case but for the
    underscores. -/
theorem filter_snakeCase_of_pascalCase_eq (name other : String)
    (h : pascalCase name = pascalCase other) :
    (snakeCase name).toList.filter (· ≠ '_') = (snakeCase other).toList.filter (· ≠ '_') := by
  rw [pascalCase, pascalCase, String.ofList_inj] at h
  simp only [snakeCase, String.toList_ofList, filter_snakeChars, ← map_toLower_pascalChars, h]

/-- In a name in snake case there are small letters, digits and underscores. -/
theorem mem_snakeChars (text : List Char) (c : Char) (hc : c ∈ snakeChars text) :
    c = '_' ∨ c.isLower = true ∨ c.isDigit = true := by
  by_cases hunderscore : c = '_'
  · exact Or.inl hunderscore
  · have hkept : c ∈ kept text := by
      rw [← filter_snakeChars]
      exact List.mem_filter.mpr ⟨hc, decide_eq_true hunderscore⟩
    rcases List.mem_map.mp hkept with ⟨d, hd, rfl⟩
    exact Or.inr (isSmall_toLower d (List.mem_filter.mp hd).2)

/-- Words that can be told apart when they are joined. -/
def AreWords (words : List (List Char)) : Prop := ∀ word ∈ words, word ≠ [] ∧ '_' ∉ word

/-- Joined words start with a letter or digit: a word is not empty, and no underscore is put in
    front of the first. -/
theorem head?_joinUnderscore {words : List (List Char)} (h : AreWords words) :
    (joinUnderscore words).head? ≠ some '_' := by
  cases words with
  | nil => exact nofun
  | cons word rest =>
      rcases h word List.mem_cons_self with ⟨hne, hno⟩
      rcases List.exists_cons_of_ne_nil hne with ⟨c, others, rfl⟩
      have hhead : (joinUnderscore ((c :: others) :: rest)).head? = some c := by
        cases rest <;> rfl
      rw [hhead, ne_eq, Option.some.injEq]
      rintro rfl
      exact hno List.mem_cons_self

/-- The words of a name can be told apart, in small letters too. -/
theorem areWords_words (cuts : Char → List Char → Bool) (text : List Char) :
    AreWords ((words cuts text).map (·.map Char.toLower)) := by
  intro small hsmall
  rcases List.mem_map.mp hsmall with ⟨word, hword, rfl⟩
  refine ⟨by simpa using ne_nil_of_mem_words cuts text word hword, fun hmem => ?_⟩
  rcases List.mem_map.mp hmem with ⟨c, hc, hlower⟩
  exact toLower_ne_underscore c (isAlphanum_of_mem_words cuts text word hword c hc) hlower

/-- A name in snake case does not start with an underscore. -/
theorem head?_snakeChars (text : List Char) : (snakeChars text).head? ≠ some '_' :=
  head?_joinUnderscore (areWords_words cutsBeforeCapital text)

end Spelling

end PlatformBridge
