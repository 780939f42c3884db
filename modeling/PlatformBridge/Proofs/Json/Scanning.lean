import Mathlib.Data.List.Basic
import PlatformBridge.Json.Printer
import PlatformBridge.Json.Token

/-!
# Scanning Written Text

What the scanner makes of text that was written. It is at its simplest
between tokens, so texts are put together from pieces that it meets there. A
bracket, a comma or a string is over with its last character. A word or a
numeral is not, and ends only where a character comes that cannot be part of
it. In written text a value is always followed by such a character, if by
any, so it makes no difference which of the two a piece is, as long as the
next one starts with a delimiter.

`Adds` is for pieces of the first kind and `Scans` for those of the second,
and every piece of the first kind is also one of the second. The scanner goes
on from `Scans` in a state that depends on what the last piece was. What
`Scans` keeps of this state is that closing it leads between tokens, and
`step?_of_isDelimiter` says that a delimiter does just that, whatever the
state was.

Blanks are dealt with where they are written, between the pieces of a list.
Layouts write different blanks there, so they are parameters of the lemmas
about lists, and the compact and the indented text of an array are two uses of
one lemma.

## Main definitions

* `Json.Token.Adds`: A text from one place between tokens to another.
* `Json.Token.Scans`: The same, but the last token may still be open.
* `Json.Token.isDelimiter`: A character that ends an open token.
* `Json.Token.IsLegible`: What is written for a number means this number.

## Theorems

* `Json.Token.step?_of_isDelimiter`: A delimiter acts after the token before
  it was ended.
* `Json.Token.Adds.append`, `Json.Token.Adds.append_scans`,
  `Json.Token.Scans.append_cons`: Pieces one after the other, with a delimiter
  between them if need be.
* `Json.Token.Scans.scan?_eq`: What the scanner finds in a whole text.
* `Json.Token.adds_blanks`: Blanks add nothing.
* `Json.Token.run?_escape`: What is written for a character in a string.
* `Json.Token.adds_quoted`: A written string is one token, its text.
* `Json.Token.scans_number`: A written number is one token, if it is legible.
* `Json.Token.scans_separated`, `Json.Token.adds_bracketed`,
  `Json.Token.adds_block`: Lists.
-/

namespace PlatformBridge

namespace Json

namespace Token

/-- The symbols of a text without stray bytes. -/
def symbolsOf (text : List Char) : List (Option Char) := text.map some

/-- The scanner between tokens, with those found so far in reverse. -/
def between (found : List Token) : Scanner := ⟨found, .between⟩

/-- A text leads from one place between tokens to another, over some tokens. -/
def Adds (text : List Char) (tokens : List Token) : Prop :=
  ∀ found, (between found).run? (symbolsOf text) = some (between (tokens.reverse ++ found))

/-- A text leads over some tokens, the last of which may still be open. -/
def Scans (text : List Char) (tokens : List Token) : Prop :=
  ∀ found, ∃ s, (between found).run? (symbolsOf text) = some s
    ∧ s.close? = some (between (tokens.reverse ++ found))

/-- A character that can be part of neither a word nor a numeral. -/
def isDelimiter (c : Char) : Bool := !c.isLower && !isNumeric c

/-- The scanner goes on from where it is. -/
theorem run?_append (symbols more : List (Option Char)) :
    ∀ s : Scanner, s.run? (symbols ++ more) = (s.run? symbols).bind (·.run? more) := by
  induction symbols with
  | nil =>
      intro s
      rfl
  | cons symbol symbols ih =>
      intro s
      rw [List.cons_append, Scanner.run?, Scanner.run?]
      cases s.step? symbol with
      | none => rfl
      | some t => exact ih t

theorem symbolsOf_append (text more : List Char) :
    symbolsOf (text ++ more) = symbolsOf text ++ symbolsOf more := List.map_append

/-- A delimiter acts after the token before it was ended. -/
theorem step?_of_isDelimiter (s : Scanner) (found : List Token)
    (hclose : s.close? = some (between found)) (c : Char) (hc : isDelimiter c = true) :
    s.step? (some c) = (between found).step? (some c) := by
  rw [isDelimiter, Bool.and_eq_true, Bool.not_eq_true', Bool.not_eq_true'] at hc
  rcases s with ⟨reversed, mode⟩
  cases mode with
  | between =>
      simp only [Scanner.close?, Option.some.injEq] at hclose
      rw [← hclose]
  | word word =>
      simp only [Scanner.step?, Scanner.stepChar?, hc.1, Bool.false_eq_true, if_false, hclose,
        Option.bind_some]
      rfl
  | numeral numeral =>
      simp only [Scanner.step?, Scanner.stepChar?, hc.2, Bool.false_eq_true, if_false, hclose,
        Option.bind_some]
      rfl
  | string text => cases hclose
  | escape text => cases hclose
  | unit text code left => cases hclose

namespace Adds

variable {text more : List Char} {tokens others : List Token}

theorem nil : Adds [] [] := fun _ => rfl

/-- Pieces that are over are over one after the other. -/
theorem append (h : Adds text tokens) (hmore : Adds more others) :
    Adds (text ++ more) (tokens ++ others) := by
  intro found
  rw [symbolsOf_append, run?_append, h, Option.bind_some, hmore, List.reverse_append,
    List.append_assoc]

theorem append_scans (h : Adds text tokens) (hmore : Scans more others) :
    Scans (text ++ more) (tokens ++ others) := by
  intro found
  rcases hmore (tokens.reverse ++ found) with ⟨s, hrun, hclose⟩
  refine ⟨s, ?_, ?_⟩
  · rw [symbolsOf_append, run?_append, h, Option.bind_some, hrun]
  · rw [hclose, List.reverse_append, List.append_assoc]

theorem scans (h : Adds text tokens) : Scans text tokens := fun found => ⟨_, h found, rfl⟩

end Adds

namespace Scans

variable {text more : List Char} {tokens others : List Token} {c : Char}

/-- After a delimiter it makes no difference whether the piece before it was over. -/
theorem run?_append_cons (h : Scans text tokens) (hc : isDelimiter c = true) (found : List Token) :
    (between found).run? (symbolsOf (text ++ c :: more))
      = (between (tokens.reverse ++ found)).run? (symbolsOf (c :: more)) := by
  rcases h found with ⟨s, hrun, hclose⟩
  rw [symbolsOf_append, run?_append, hrun, Option.bind_some, symbolsOf, List.map_cons, Scanner.run?,
    Scanner.run?, step?_of_isDelimiter s _ hclose c hc]

/-- A piece, and one that starts with a delimiter. -/
theorem append_cons (h : Scans text tokens) (hc : isDelimiter c = true)
    (hmore : Scans (c :: more) others) : Scans (text ++ c :: more) (tokens ++ others) := by
  intro found
  rcases hmore (tokens.reverse ++ found) with ⟨s, hrun, hclose⟩
  refine ⟨s, ?_, ?_⟩
  · rw [h.run?_append_cons hc, hrun]
  · rw [hclose, List.reverse_append, List.append_assoc]

/-- The same, if the second piece is over with its last character. -/
theorem append_cons_adds (h : Scans text tokens) (hc : isDelimiter c = true)
    (hmore : Adds (c :: more) others) : Adds (text ++ c :: more) (tokens ++ others) := by
  intro found
  rw [h.run?_append_cons hc, hmore, List.reverse_append, List.append_assoc]

/-- What the scanner finds in a whole text. -/
theorem scan?_eq (h : Scans text tokens) : scan? (symbolsOf text) = some tokens := by
  rcases h [] with ⟨s, hrun, hclose⟩
  have hstart : Scanner.start = between [] := rfl
  rw [scan?, hstart, hrun, Option.bind_some, hclose, Option.map_some, between, List.append_nil,
    List.reverse_reverse]

end Scans

section Pieces

/-- Blanks add nothing. -/
theorem adds_blanks (blanks : List Char) (h : ∀ c ∈ blanks, isBlank c = true) :
    Adds blanks [] := by
  induction blanks with
  | nil => exact .nil
  | cons c blanks ih =>
      intro found
      have hc : (between found).step? (some c) = some (between found) := by
        have hblank := h c List.mem_cons_self
        simp only [Scanner.step?, Scanner.stepChar?, Scanner.enter?, between, hblank, if_true]
      rw [symbolsOf, List.map_cons, Scanner.run?, hc]
      exact ih (fun d hd => h d (List.mem_cons_of_mem c hd)) found

theorem adds_leftBracket : Adds ['['] [.leftBracket] := fun _ => rfl

theorem adds_rightBracket : Adds [']'] [.rightBracket] := fun _ => rfl

theorem adds_leftBrace : Adds ['{'] [.leftBrace] := fun _ => rfl

theorem adds_rightBrace : Adds ['}'] [.rightBrace] := fun _ => rfl

theorem adds_comma : Adds [','] [.comma] := fun _ => rfl

theorem adds_colon : Adds [':'] [.colon] := fun _ => rfl

theorem scans_null : Scans "null".toList [.null] := fun _ => ⟨_, rfl, rfl⟩

theorem scans_true : Scans "true".toList [.bool true] := fun _ => ⟨_, rfl, rfl⟩

theorem scans_false : Scans "false".toList [.bool false] := fun _ => ⟨_, rfl, rfl⟩

end Pieces

section Strings

/-- The scanner inside a string, with the characters so far in reverse. -/
def inString (found : List Token) (reversed : List Char) : Scanner :=
  ⟨found, .string ⟨some reversed, none⟩⟩

/-- A hexadecimal digit is read as what it was written for. -/
theorem hexValue?_hexDigit (n : Nat) (h : n < 16) : hexValue? (hexDigit n) = some n := by
  revert n
  decide

/-- A control character without an escape of its own is written as a unit below thirty-two. -/
theorem run?_escape_unit (c : Char) (hc : c.toNat < 0x20) (found : List Token)
    (reversed : List Char) :
    (inString found reversed).run? (symbolsOf
        ['\\', 'u', '0', '0', hexDigit (c.toNat / 16), hexDigit (c.toNat % 16)])
      = some (inString found (c :: reversed)) := by
  have hhigh := hexValue?_hexDigit (c.toNat / 16) (by omega)
  have hlow := hexValue?_hexDigit (c.toNat % 16) (by omega)
  have hzero : hexValue? '0' = some 0 := rfl
  have hcode : 16 * (c.toNat / 16) + c.toNat % 16 = c.toNat := Nat.div_add_mod _ _
  -- Such a unit is no half of a surrogate pair.
  have hpush : (⟨some reversed, none⟩ : StringText).pushUnit c.toNat
      = ⟨some (c :: reversed), none⟩ := by
    have hnot : ¬ (0xD800 ≤ c.toNat) := by omega
    have hnot' : ¬ (0xDC00 ≤ c.toNat) := by omega
    simp [StringText.pushUnit, StringText.push, hnot, hnot', Char.ofNat_toNat]
  simp [symbolsOf, inString, Scanner.run?, Scanner.step?, Scanner.stepChar?, hhigh, hlow, hzero,
    hcode, hpush]

/-- What is written for a character inside a string adds that character. -/
theorem run?_escape (c : Char) (found : List Token) (reversed : List Char) :
    (inString found reversed).run? (symbolsOf (escape c))
      = some (inString found (c :: reversed)) := by
  unfold escape
  split_ifs with hquote hback hbs hff hlf hcr htab hcontrol
  · subst hquote
    rfl
  · subst hback
    rfl
  · subst hbs
    rfl
  · subst hff
    rfl
  · subst hlf
    rfl
  · subst hcr
    rfl
  · subst htab
    rfl
  · exact run?_escape_unit c hcontrol found reversed
  · simp [symbolsOf, inString, Scanner.run?, Scanner.step?, Scanner.stepChar?, hquote, hback,
      hcontrol, StringText.push]

/-- The characters of a string are added one by one, and the scanner stays inside the string. -/
theorem run?_flatMap_escape (found : List Token) (cs : List Char) :
    ∀ reversed, (inString found reversed).run? (symbolsOf (cs.flatMap escape))
      = some (inString found (cs.reverse ++ reversed)) := by
  induction cs with
  | nil =>
      intro reversed
      rfl
  | cons c cs ih =>
      intro reversed
      rw [List.flatMap_cons, symbolsOf_append, run?_append, run?_escape, Option.bind_some, ih,
        List.reverse_cons, List.append_assoc, List.singleton_append]

/-- A written string is one token, its text. -/
theorem adds_quoted (s : String) : Adds (quoted s) [.string (some s)] := by
  intro found
  have hopen : (between found).step? (some '"') = some (inString found []) := rfl
  have hclose : (inString found s.toList.reverse).run? (symbolsOf ['"'])
      = some (between (.string (some s) :: found)) := by
    have htext : (⟨some s.toList.reverse, none⟩ : StringText).text? = some s := by
      simp [StringText.text?]
    simp [symbolsOf, inString, Scanner.run?, Scanner.step?, Scanner.stepChar?, htext, between,
      Scanner.push]
  rw [quoted, List.cons_append, symbolsOf, List.map_cons, Scanner.run?, hopen]
  simp only
  rw [← symbolsOf, symbolsOf_append, run?_append, run?_flatMap_escape, Option.bind_some,
    List.append_nil, hclose]
  rfl

end Strings

section Numbers

/-- The numeral that a number is written as. -/
def numeralOf (layout : Layout) (n : Number) : Numeral :=
  (Numeral.ofChars? (n.text layout)).getD default

/-- What is written for a number is a numeral that means this number. -/
structure IsLegible (layout : Layout) (n : Number) : Prop where
  isNumeral : Numeral.ofChars? (n.text layout) = some (numeralOf layout n)
  means : (numeralOf layout n).toNumber? = some n
  isNumeric : ∀ c ∈ n.text layout, isNumeric c = true
  starts : ∃ c rest, n.text layout = c :: rest ∧ (c.isDigit || c = '-') = true

/-- A digit or a minus between tokens starts a numeral. -/
theorem step?_numeral (found : List Token) (c : Char) (hc : (c.isDigit || c = '-') = true) :
    (between found).step? (some c) = some ⟨found, .numeral [c]⟩ := by
  have hother : ∀ d : Char, (d.isDigit || d = '-') = false → c ≠ d := by
    rintro d hd rfl
    rw [hc] at hd
    cases hd
  have hblank : isBlank c = false := by
    simp [isBlank, hother ' ' rfl, hother '\t' rfl, hother '\n' rfl, hother '\r' rfl]
  simp only [Scanner.step?, Scanner.stepChar?, Scanner.enter?, between, hblank, hc,
    hother '{' rfl, hother '}' rfl, hother '[' rfl, hother ']' rfl, hother ':' rfl, hother ',' rfl,
    hother '"' rfl, Bool.false_eq_true, if_false, if_true]

/-- A numeral that has been started goes on over digits and marks. -/
theorem run?_numeral (found : List Token) (text : List Char)
    (h : ∀ c ∈ text, isNumeric c = true) :
    ∀ reversed, (⟨found, .numeral reversed⟩ : Scanner).run? (symbolsOf text)
      = some ⟨found, .numeral (text.reverse ++ reversed)⟩ := by
  induction text with
  | nil =>
      intro reversed
      rfl
  | cons c text ih =>
      intro reversed
      have hc := h c List.mem_cons_self
      have hrest := ih (fun d hd => h d (List.mem_cons_of_mem c hd)) (c :: reversed)
      rw [List.reverse_cons, List.append_assoc, List.singleton_append, ← hrest]
      simp only [symbolsOf, List.map_cons, Scanner.run?, Scanner.step?, Scanner.stepChar?, hc,
        if_true]

/-- A written number is one token, though it is not over with its last character. -/
theorem scans_number (layout : Layout) (n : Number) (h : IsLegible layout n) :
    Scans (n.text layout) [.number (numeralOf layout n)] := by
  intro found
  rcases h.starts with ⟨c, rest, htext, hc⟩
  have hrest : ∀ d ∈ rest, isNumeric d = true := fun d hd =>
    h.isNumeric d (htext ▸ List.mem_cons_of_mem c hd)
  refine ⟨⟨found, .numeral (rest.reverse ++ [c])⟩, ?_, ?_⟩
  · rw [htext, symbolsOf, List.map_cons, Scanner.run?, step?_numeral found c hc]
    exact run?_numeral found rest hrest [c]
  · have hreverse : (rest.reverse ++ [c]).reverse = n.text layout := by
      rw [htext, List.reverse_append, List.reverse_reverse, List.reverse_singleton,
        List.singleton_append]
    simp only [Scanner.close?, hreverse, h.isNumeral, Option.map_some]
    rfl

end Numbers

section Lists

variable {ι : Type} (text : ι → List Char) (tokens : ι → List Token)

/-- Pieces with a comma between each two, whatever blanks follow the comma. -/
theorem scans_separated (blanks : List Char) (hblanks : ∀ c ∈ blanks, isBlank c = true)
    (xs : List ι) (h : ∀ x ∈ xs, Scans (text x) (tokens x)) :
    Scans (separated (',' :: blanks) (xs.map text)) ([.comma].intercalate (xs.map tokens)) := by
  induction xs with
  | nil => exact Adds.nil.scans
  | cons x xs ih =>
      have hx := h x List.mem_cons_self
      have hrest := ih fun y hy => h y (List.mem_cons_of_mem x hy)
      cases xs with
      | nil =>
          rw [List.map_singleton, List.map_singleton, List.intercalate_singleton]
          exact hx
      | cons y xs =>
          rw [List.map_cons, List.map_cons, List.map_cons, List.map_cons,
            List.intercalate_cons_cons, separated, List.append_assoc, List.append_assoc]
          · have hcomma : Adds (',' :: blanks) [.comma] :=
              adds_comma.append (adds_blanks blanks hblanks)
            exact hx.append_cons rfl (hcomma.append_scans hrest)
          · intro hnil
            cases hnil

theorem isDelimiter_of_isBlank (c : Char) (h : isBlank c = true) : isDelimiter c = true := by
  simp only [isBlank, Bool.or_eq_true, decide_eq_true_eq] at h
  rcases h with ((rfl | rfl) | rfl) | rfl
  · rfl
  · rfl
  · rfl
  · rfl

variable (opening closing : Char) (left right : Token) (hleft : Adds [opening] [left])
variable (hright : Adds [closing] [right]) (hclosing : isDelimiter closing = true)

include hleft hright hclosing in
/-- Pieces between brackets, with blanks before each of them and others before the end. -/
theorem adds_bracketed (before after : List Char) (hbefore : ∀ c ∈ before, isBlank c = true)
    (hafter : ∀ c ∈ after, isBlank c = true) (xs : List ι)
    (h : ∀ x ∈ xs, Scans (text x) (tokens x)) :
    Adds (opening :: before ++ (separated (',' :: before) (xs.map text) ++ (after ++ [closing])))
      (left :: ([.comma].intercalate (xs.map tokens) ++ [right])) := by
  have hopen : Adds (opening :: before) [left] := hleft.append (adds_blanks before hbefore)
  have hlist := scans_separated text tokens before hbefore xs h
  have hend : Adds (after ++ [closing]) [right] := (adds_blanks after hafter).append hright
  refine hopen.append ?_
  -- The last piece is ended by the first of the blanks, or by the bracket if there are none.
  cases after with
  | nil => exact hlist.append_cons_adds hclosing hend
  | cons c after =>
      exact hlist.append_cons_adds (isDelimiter_of_isBlank c (hafter c List.mem_cons_self)) hend

theorem isBlank_of_mem_newline (level : Nat) (c : Char) (hc : c ∈ newline level) :
    isBlank c = true := by
  rcases List.mem_cons.mp hc with rfl | hc
  · rfl
  · rw [List.eq_of_mem_replicate hc]
    rfl

include hleft hright hclosing in
/-- Pieces between brackets, each on a line of its own. -/
theorem adds_block (level : Nat) (xs : List ι) (h : ∀ x ∈ xs, Scans (text x) (tokens x)) :
    Adds (block level opening closing (xs.map text))
      (left :: ([.comma].intercalate (xs.map tokens) ++ [right])) := by
  cases xs with
  | nil => exact hleft.append hright
  | cons x xs =>
      have hlines := adds_bracketed text tokens opening closing left right hleft hright hclosing
        (newline (level + 1)) (newline level) (isBlank_of_mem_newline _) (isBlank_of_mem_newline _)
        (x :: xs) h
      rw [List.map_cons, block, List.append_assoc, List.append_assoc, ← List.map_cons]
      · exact hlines
      · intro hnil
        cases hnil

end Lists

end Token

end Json

end PlatformBridge
