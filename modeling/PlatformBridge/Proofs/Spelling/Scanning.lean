import PlatformBridge.Proofs.Spelling.NormalForms
import Mathlib.Data.List.DropRight

/-!
# Spelling in One Pass

The words of a name need not be found first. A name can be spelled from left
to right, one character after the other, and this is how a program would
rather do it. Here the two ways are shown to be the same, so what is proved
about words holds of the pass, and the other way round.

In Pascal case it is enough to know whether a word begins. In snake case it
takes a look at the character before and the one behind, and at the end of
what is written so far. A character that is no letter or digit breaks off,
and so does a capital that begins a word: it comes after a small letter or a
digit, or after a capital and in front of a small letter. To break off is to
write an underscore, but not in front of everything and not after another
one. An underscore that is left at the end is dropped.

What is still to be written depends on what has been written in one respect
only. If it ends in a letter or digit, the first word of the rest may go on
with the word before, or an underscore comes first. If nothing can be broken
off, the words of the rest are written as they are. `trimmed_scanSnake` says
both at once, because the induction goes back and forth between them.

Words are found from the end of a text and the pass goes from its start.
`behind` is where the two meet: it says what the words of the rest look like
behind a letter or digit, and the lemmas about one more character in front
are the steps of the induction.

## Main definitions

* `Spelling.scanPascal`: What is written of a name in Pascal case.
* `Spelling.breakOff`, `Spelling.beginsWord`, `Spelling.addSmall`,
  `Spelling.scanSnake`: What is written in snake case.
* `Spelling.joinedSmall`, `Spelling.behind`: What is still to be written
  behind a letter or digit.
* `Spelling.trimmed`: A text without the underscores at its end.
* `Spelling.IsBroken`: Nothing can be broken off.

## Theorems

* `Spelling.pascalChars_eq_scanPascal`: The words of a name in Pascal case.
* `Spelling.snakeChars_of_alphanum`, `Spelling.snakeChars_of_not_alphanum`:
  One character in front of the words of a text.
* `Spelling.behind_of_not_alphanum`, `Spelling.head?_begun`: What a character
  that is no letter or digit does.
* `Spelling.cutsBeforeCapital_begun`: Where a word begins, by the characters
  before and behind.
* `Spelling.trimmed_append_snakeChars`, `Spelling.breakOff_of_isBroken`,
  `Spelling.breakOff_of_not_isBroken`: Underscores at the end.
* `Spelling.trimmed_scanSnake`: What a text adds to what has been written.
* `Spelling.snakeChars_eq_scanSnake`: The words of a name in snake case.
-/

namespace PlatformBridge

namespace Spelling

section Pascal

/-- Writes what is left of a name in Pascal case, where a word begins or goes on. -/
def scanPascal : Bool → List Char → List Char
  | _, [] => []
  | begins, c :: rest =>
    if !c.isAlphanum then scanPascal true rest
    else (if begins then c.toUpper else c) :: scanPascal false rest

theorem pascalChars_eq_capitalize (text : List Char) : pascalChars text
    = capitalize (begun (fun _ _ => false) text).1
      ++ (begun (fun _ _ => false) text).2.flatMap capitalize := by
  rw [pascalChars, ← pushWord_begun]
  cases (begun (fun _ _ => false) text).1 <;> rfl

/-- Where a word goes on, its first letter stays as it is. -/
theorem scanPascal_eq (text : List Char) : scanPascal true text = pascalChars text
    ∧ scanPascal false text = (begun (fun _ _ => false) text).1
      ++ (begun (fun _ _ => false) text).2.flatMap capitalize := by
  induction text with
  | nil => exact ⟨rfl, rfl⟩
  | cons c rest ih =>
      rw [scanPascal, scanPascal, pascalChars_eq_capitalize]
      cases hc : c.isAlphanum with
      | true =>
          rw [begun_of_alphanum _ c rest hc, ih.2]
          exact ⟨rfl, rfl⟩
      | false =>
          rw [begun_of_not_alphanum _ c rest hc, ih.1]
          exact ⟨rfl, rfl⟩

/-- A name in Pascal case is written in one pass. -/
theorem pascalChars_eq_scanPascal (text : List Char) : pascalChars text = scanPascal true text :=
  (scanPascal_eq text).1.symm

end Pascal

/-- Writes an underscore, unless it would be the first character or follow another one. -/
def breakOff (out : List Char) : List Char :=
  if out = [] || out.getLast? = some '_' then out else out ++ ['_']

/-- Whether a capital begins a word, by the characters before and behind it. -/
def beginsWord (before after : Option Char) : Bool :=
  before.any fun b => b.isLower || b.isDigit || (b.isUpper && after.any Char.isLower)

/-- Writes one more character of a name in snake case, from the characters before and behind it. -/
def addSmall (out : List Char) (before after : Option Char) (c : Char) : List Char :=
  if !c.isAlphanum then breakOff out
  else if c.isUpper && beginsWord before after then breakOff out ++ [c.toLower]
  else out ++ [c.toLower]

/-- Writes what is left of a name in snake case, from the character before it. -/
def scanSnake (out : List Char) (before : Option Char) : List Char → List Char
  | [] => out
  | c :: rest => scanSnake (addSmall out before rest.head? c) (some c) rest

section Words

/-- The words of a text in small letters, with an underscore in front of each but the one that
    begins. -/
def joinedSmall (text : List Char) : List Char :=
  let state := begun cutsBeforeCapital text
  joined (state.1.map Char.toLower, state.2.map (·.map Char.toLower))

/-- What is to be written of a text behind a letter or digit. -/
def behind (b : Char) (text : List Char) : List Char :=
  if cutsBeforeCapital b (begun cutsBeforeCapital text).1 then '_' :: joinedSmall text
  else joinedSmall text

variable (c : Char) (text : List Char)

section Alphanum

variable (hc : c.isAlphanum = true)

include hc

/-- Behind a letter or digit the word goes on or is cut, which is what the definition of the rest
    says. -/
theorem joinedSmall_of_alphanum : joinedSmall (c :: text) = c.toLower :: behind c text := by
  rw [joinedSmall, begun_of_alphanum _ c text hc, behind]
  split
  · rename_i hcuts
    have hword : (begun cutsBeforeCapital text).1 ≠ [] := by
      intro hword
      rw [hword] at hcuts
      cases hcuts
    rw [← pushWord_begun, pushWord, if_neg (by simpa using hword)]
    rfl
  · exact joined_cons _ _ _

/-- A letter or digit is written, and then what is to be written behind it. -/
theorem snakeChars_of_alphanum : snakeChars (c :: text) = c.toLower :: behind c text := by
  have hword : (begun cutsBeforeCapital (c :: text)).1.isEmpty = false := by
    rw [begun_of_alphanum _ c text hc]
    split <;> rfl
  rw [← joinedSmall_of_alphanum c text hc, snakeChars, ← pushWord_begun, pushWord,
    if_neg (Bool.eq_false_iff.mp hword)]
  rfl

end Alphanum

section NotAlphanum

variable (hc : c.isAlphanum = false)

include hc

/-- In front of everything, a character that is no letter or digit leaves no trace. -/
theorem snakeChars_of_not_alphanum : snakeChars (c :: text) = snakeChars text := by
  rw [snakeChars, ← pushWord_begun, begun_of_not_alphanum _ c text hc]
  rfl

/-- A character that is no letter or digit ends the word, and an underscore is owed if another
    comes. -/
theorem behind_of_not_alphanum (b : Char) : behind b (c :: text)
    = if snakeChars text = [] then [] else '_' :: snakeChars text := by
  rw [behind, joinedSmall, begun_of_not_alphanum _ c text hc]
  by_cases hwords : words cutsBeforeCapital text = []
  · have hnil : snakeChars text = [] := by
      rw [snakeChars, hwords]
      rfl
    rw [if_pos hnil, hwords]
    rfl
  · have hne : (words cutsBeforeCapital text).map (·.map Char.toLower) ≠ [] := by simpa using hwords
    have hsome : snakeChars text ≠ [] :=
      joinUnderscore_ne_nil (areWords_words cutsBeforeCapital text) hne
    rw [if_neg hsome]
    exact joinUnderscore_cons hne

end NotAlphanum

/-- A word begins with the first character of a text, or not at all. -/
theorem head?_begun :
    (begun cutsBeforeCapital text).1.head? = text.head?.filter Char.isAlphanum := by
  cases text with
  | nil => rfl
  | cons c rest =>
      cases hc : c.isAlphanum with
      | true =>
          rw [begun_of_alphanum _ c rest hc, List.head?_cons, Option.filter_some, if_pos hc]
          split <;> rfl
      | false =>
          rw [begun_of_not_alphanum _ c rest hc, List.head?_cons, Option.filter_some, hc,
            if_neg Bool.false_ne_true]
          rfl

/-- A word begins in front of a letter or digit just if it is a capital, and the characters before
    and behind it say so. -/
theorem cutsBeforeCapital_begun (b : Char) (hc : c.isAlphanum = true) :
    cutsBeforeCapital b (begun cutsBeforeCapital (c :: text)).1
      = (c.isUpper && beginsWord (some b) text.head?) := by
  have hafter : ∀ word : List Char, word.head?.any Char.isLower = text.head?.any Char.isLower →
      cutsBeforeCapital b (c :: word) = (c.isUpper && beginsWord (some b) text.head?) := by
    intro word hword
    rw [cutsBeforeCapital, hword]
    rfl
  rw [begun_of_alphanum _ c text hc]
  split
  · rename_i hcuts
    -- The next character is a capital, and so it is not a small letter.
    cases hword : (begun cutsBeforeCapital text).1 with
    | nil =>
        rw [hword] at hcuts
        cases hcuts
    | cons d word =>
        have hhead := head?_begun text
        rw [hword, List.head?_cons, eq_comm, Option.filter_eq_some_iff] at hhead
        rw [hword, cutsBeforeCapital, Bool.and_eq_true] at hcuts
        refine hafter [] ?_
        rw [hhead.1, Option.any_some]
        cases hlower : d.isLower with
        | false => rfl
        | true =>
            rw [isUpper_of_isSnakeChar (Or.inr (Or.inl hlower))] at hcuts
            exact absurd hcuts.1 Bool.false_ne_true
  · refine hafter _ ?_
    rw [head?_begun]
    cases text.head? with
    | none => rfl
    | some d =>
        rw [Option.filter_some]
        split
        · rfl
        · rename_i hd
          have hlower : d.isLower = false :=
            Bool.eq_false_iff.mpr fun h => hd (isAlphanum_of_isSmall (Or.inl h))
          rw [Option.any_some, hlower]
          rfl

end Words

section Snake

/-- A text without the underscores at its end. -/
def trimmed (out : List Char) : List Char := out.rdropWhile (· = '_')

theorem trimmed_concat (out : List Char) : trimmed (out ++ ['_']) = trimmed out :=
  List.rdropWhile_concat_pos _ _ _ (decide_eq_true rfl)

theorem trimmed_of_getLast? {out : List Char} (h : out.getLast? ≠ some '_') :
    trimmed out = out := by
  rw [trimmed, List.rdropWhile_eq_self_iff]
  intro hne hlast
  rw [List.getLast?_eq_some_getLast hne, of_decide_eq_true hlast] at h
  exact h rfl

theorem getLast?_snakeChars (text : List Char) : (snakeChars text).getLast? ≠ some '_' :=
  getLast?_joinUnderscore (areWords_words cutsBeforeCapital text)

/-- What ends in words has no underscore at its end. -/
theorem trimmed_append_snakeChars (out text : List Char) (hne : snakeChars text ≠ []) :
    trimmed (out ++ snakeChars text) = out ++ snakeChars text := by
  have hlast := getLast?_snakeChars text
  rw [List.getLast?_eq_some_getLast hne] at hlast
  refine trimmed_of_getLast? ?_
  rwa [List.getLast?_append, List.getLast?_eq_some_getLast hne]

/-- Nothing can be broken off: nothing has been written, or an underscore at last. -/
def IsBroken (out : List Char) : Prop := out = [] ∨ out.getLast? = some '_'

theorem breakOff_of_isBroken {out : List Char} (h : IsBroken out) : breakOff out = out := by
  rcases h with rfl | h
  · rfl
  · rw [breakOff, h, decide_eq_true rfl, Bool.or_true, if_pos rfl]

theorem breakOff_of_not_isBroken {out : List Char} (h : ¬ IsBroken out) :
    breakOff out = out ++ ['_'] := by
  rw [IsBroken, not_or] at h
  rw [breakOff, decide_eq_false h.1, decide_eq_false h.2, Bool.false_or,
    if_neg Bool.false_ne_true]

theorem not_isBroken_concat (out : List Char) (c : Char) (hc : c.isAlphanum = true) :
    ¬ IsBroken (out ++ [c.toLower]) := by
  rw [IsBroken, List.getLast?_concat, Option.some.injEq, not_or]
  exact ⟨List.append_ne_nil_of_right_ne_nil _ (List.cons_ne_nil _ _), toLower_ne_underscore c hc⟩

/-- What a text adds to what has been written: its words if nothing can be broken off, and else what
    comes behind the letter or digit before it. -/
theorem trimmed_scanSnake (text out : List Char) (before : Option Char) :
    (IsBroken out → trimmed (scanSnake out before text) = trimmed (out ++ snakeChars text))
    ∧ ∀ b, ¬ IsBroken out → before = some b →
      trimmed (scanSnake out before text) = out ++ behind b text := by
  -- The output ends in an underscore or not, which the scan tells by looking back, so both cases go
  -- through the induction together.
  induction text generalizing out before with
  | nil =>
      refine ⟨fun _ => ?_, fun b hout _ => ?_⟩
      · rw [scanSnake, show snakeChars [] = [] from rfl, List.append_nil]
      · rw [scanSnake, show behind b [] = [] from rfl, List.append_nil]
        exact trimmed_of_getLast? fun h => hout (Or.inr h)
  | cons c rest ih =>
      rw [scanSnake, addSmall]
      cases hc : c.isAlphanum with
      | false =>
          rw [Bool.not_false, if_pos rfl]
          refine ⟨fun hout => ?_, fun b hout _ => ?_⟩
          · rw [breakOff_of_isBroken hout, (ih out _).1 hout, snakeChars_of_not_alphanum c rest hc]
          · rw [breakOff_of_not_isBroken hout, (ih _ _).1 (Or.inr List.getLast?_concat),
              behind_of_not_alphanum c rest hc b]
            by_cases hrest : snakeChars rest = []
            · -- No word is left, and the underscore is dropped.
              rw [if_pos hrest, hrest, List.append_nil, List.append_nil, trimmed_concat]
              exact trimmed_of_getLast? fun h => hout (Or.inr h)
            · rw [if_neg hrest, trimmed_append_snakeChars _ _ hrest, List.append_assoc]
              rfl
      | true =>
          have hopen := fun out => not_isBroken_concat out c hc
          rw [Bool.not_true, if_neg Bool.false_ne_true]
          refine ⟨fun hout => ?_, fun b hout hbefore => ?_⟩
          · have hne : snakeChars (c :: rest) ≠ [] := by
              rw [snakeChars_of_alphanum c rest hc]
              exact List.cons_ne_nil _ _
            rw [breakOff_of_isBroken hout, ite_self, (ih _ _).2 c (hopen out) rfl,
              trimmed_append_snakeChars _ _ hne, snakeChars_of_alphanum c rest hc,
              List.append_assoc]
            rfl
          · subst hbefore
            rw [behind, cutsBeforeCapital_begun c rest b hc, joinedSmall_of_alphanum c rest hc]
            split
            · rw [breakOff_of_not_isBroken hout, (ih _ _).2 c (hopen _) rfl, List.append_assoc,
                List.append_assoc]
              rfl
            · rw [(ih _ _).2 c (hopen out) rfl, List.append_assoc]
              rfl

/-- A name in snake case is written in one pass. -/
theorem snakeChars_eq_scanSnake (text : List Char) :
    snakeChars text = trimmed (scanSnake [] none text) := by
  rw [(trimmed_scanSnake text [] none).1 (Or.inl rfl), List.nil_append]
  exact (trimmed_of_getLast? (getLast?_snakeChars text)).symm

-- A capital begins a word after a digit, but not after a space that has broken off already.
example : scanSnake [] none "v2Get HTTPStatus-".toList = "v2_get_http_status_".toList := by cbv

end Snake

end Spelling

end PlatformBridge
