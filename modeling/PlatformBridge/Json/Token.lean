import PlatformBridge.Json.Value

/-!
# JSON Tokens

A document is scanned one symbol at a time by a machine that keeps the tokens found so far and the
one it is inside. A symbol is a character, or `none` for a byte that is part of no character.

A string that nobody reads needs less than one that somebody does: between its quotes a stray byte
or half of a surrogate pair is let through. Such a string is scanned to `none`, and is refused where
its text is asked for. Likewise a numeral is kept by its parts and its size is judged when it is
read.

## Main definitions

* `Numeral`: A number as it is written.
* `Token`, `scan?`: Tokens, and the scanner.
* `Json.symbols`: The symbols of a sequence of bytes.
-/

namespace PlatformBridge

namespace Json

/-- A number as it is written: `± digits · 10 ^ exponent`, and whether it is written without a point
    and an exponent. -/
structure Numeral where
  negative : Bool
  digits : Nat
  exponent : Int
  isIntegral : Bool
  deriving DecidableEq, Repr, Inhabited

namespace Numeral

/-- The value of decimal digits. -/
def valueOf (digits : List Char) : Nat :=
  digits.foldl (fun n c => 10 * n + (c.toNat - '0'.toNat)) 0

/-- The digits at the start of a text, and the rest. -/
def digitsOf (text : List Char) : List Char × List Char :=
  (text.takeWhile Char.isDigit, text.dropWhile Char.isDigit)

/-- The exponent at the end of a numeral: nothing, or a mark, a sign perhaps, and digits. -/
def exponentOf? : List Char → Option (Option Int)
  | [] => some none
  | mark :: rest =>
    let (negative, digits) := match rest with
      | '-' :: digits => (true, digits)
      | '+' :: digits => (false, digits)
      | digits => (false, digits)
    if (mark = 'e' || mark = 'E') && !digits.isEmpty && digits.all Char.isDigit then
      some (some (if negative then -(valueOf digits : Int) else valueOf digits))
    else none

/-- The fraction after the digits before the point, if there is a point, and the rest. -/
def fractionOf? : List Char → Option (Option (List Char) × List Char)
  | '.' :: rest =>
    let (digits, rest) := digitsOf rest
    if digits.isEmpty then none else some (some digits, rest)
  | rest => some (none, rest)

/-- Reads a numeral: a sign perhaps, digits that start with zero only if they are zero, a fraction
    and an exponent perhaps. -/
def ofChars? (text : List Char) : Option Numeral :=
  let (negative, text) := match text with
    | '-' :: text => (true, text)
    | text => (false, text)
  let (whole, rest) := digitsOf text
  if whole.isEmpty || (whole.head? = some '0' && 1 < whole.length) then none
  else do
    let (fraction, rest) ← fractionOf? rest
    let exponent ← exponentOf? rest
    let places := fraction.getD []
    some {
      negative
      digits := valueOf (whole ++ places)
      exponent := exponent.getD 0 - places.length
      isIntegral := fraction.isNone && exponent.isNone }

/-- The number that is meant: an integer if it is written as one and fits 64 bits with or without
    sign, else the nearest double, unless that is infinite. Minus zero is a double. -/
def toNumber? (n : Numeral) : Option Number :=
  if n.isIntegral && !n.negative && n.digits < 0x10000000000000000 then some (.integer n.digits)
  else if n.isIntegral && n.negative && 0 < n.digits && n.digits ≤ 0x8000000000000000 then
    some (.integer (-(n.digits : Int)))
  else
    let x := Binary64.ofDecimal n.negative n.digits n.exponent
    if x.isFinite then some (.float x) else none

end Numeral

/-- A token. -/
inductive Token where
  | leftBrace
  | rightBrace
  | leftBracket
  | rightBracket
  | colon
  | comma
  | null
  | bool (b : Bool)
  | number (n : Numeral)
  | string (s : Option String)
  deriving DecidableEq, Repr

namespace Token

/-- The text of a string so far, in reverse; `none` once the string has a part that is no text. -/
structure StringText where
  reversed : Option (List Char)
  /-- The first half of a surrogate pair whose second half has to come next. -/
  pending : Option Nat
  deriving DecidableEq, Repr

namespace StringText

/-- No text. -/
def empty : StringText := ⟨some [], none⟩

/-- The text with a part that is no text. -/
def spoil (_ : StringText) : StringText := ⟨none, none⟩

/-- The text with one more character. -/
def push (t : StringText) (c : Char) : StringText :=
  if t.pending.isSome then t.spoil else { t with reversed := t.reversed.map (c :: ·) }

/-- The text with one more unit of sixteen bits. -/
def pushUnit (t : StringText) (unit : Nat) : StringText :=
  match t.pending with
  | some high =>
    if 0xDC00 ≤ unit && unit ≤ 0xDFFF then
      let code := 0x10000 + (high - 0xD800) * 0x400 + (unit - 0xDC00)
      ⟨t.reversed.map (Char.ofNat code :: ·), none⟩
    else t.spoil
  | none =>
    if 0xD800 ≤ unit && unit ≤ 0xDBFF then { t with pending := some unit }
    else if 0xDC00 ≤ unit && unit ≤ 0xDFFF then t.spoil
    else t.push (Char.ofNat unit)

/-- The finished text. -/
def text? (t : StringText) : Option String :=
  if t.pending.isSome then none else t.reversed.map fun cs => String.ofList cs.reverse

end StringText

/-- Where the scanner stands. -/
inductive Mode where
  | between
  | word (reversed : List Char)
  | numeral (reversed : List Char)
  | string (text : StringText)
  | escape (text : StringText)
  /-- Inside the four hexadecimal digits of a unit, of which `left` are still to come. -/
  | unit (text : StringText) (code left : Nat)
  deriving DecidableEq, Repr

/-- The tokens found, in reverse, and where the scanner stands. -/
structure Scanner where
  reversed : List Token
  mode : Mode
  deriving DecidableEq, Repr

/-- The blanks between tokens. -/
def isBlank (c : Char) : Bool := c = ' ' || c = '\t' || c = '\n' || c = '\r'

/-- The characters a numeral is made of. -/
def isNumeric (c : Char) : Bool :=
  c.isDigit || c = '-' || c = '+' || c = '.' || c = 'e' || c = 'E'

/-- The literal that a word spells. -/
def ofWord? (word : List Char) : Option Token :=
  if word = "null".toList then some .null
  else if word = "true".toList then some (.bool true)
  else if word = "false".toList then some (.bool false)
  else none

/-- The value of a hexadecimal digit. -/
def hexValue? (c : Char) : Option Nat :=
  if c.isDigit then some (c.toNat - '0'.toNat)
  else if 'a' ≤ c && c ≤ 'f' then some (c.toNat - 'a'.toNat + 10)
  else if 'A' ≤ c && c ≤ 'F' then some (c.toNat - 'A'.toNat + 10)
  else none

/-- The character that an escape other than that of a unit stands for. -/
def unescape? (c : Char) : Option Char :=
  if c = '"' || c = '\\' || c = '/' then some c
  else if c = 'b' then some '\x08'
  else if c = 'f' then some '\x0c'
  else if c = 'n' then some '\n'
  else if c = 'r' then some '\r'
  else if c = 't' then some '\t'
  else none

namespace Scanner

/-- The scanner before the first symbol. -/
def start : Scanner := ⟨[], .between⟩

/-- The scanner after a whole token. -/
def push (s : Scanner) (t : Token) : Scanner := ⟨t :: s.reversed, .between⟩

/-- Ends a token that only the next symbol can end; inside a string there is none to end. -/
def close? (s : Scanner) : Option Scanner :=
  match s.mode with
  | .between => some s
  | .word reversed => (ofWord? reversed.reverse).map s.push
  | .numeral reversed => (Numeral.ofChars? reversed.reverse).map fun n => s.push (.number n)
  | .string _ | .escape _ | .unit _ _ _ => none

/-- A character between tokens. -/
def enter? (s : Scanner) (c : Char) : Option Scanner :=
  if isBlank c then some s
  else if c = '{' then some (s.push .leftBrace)
  else if c = '}' then some (s.push .rightBrace)
  else if c = '[' then some (s.push .leftBracket)
  else if c = ']' then some (s.push .rightBracket)
  else if c = ':' then some (s.push .colon)
  else if c = ',' then some (s.push .comma)
  else if c = '"' then some { s with mode := .string .empty }
  else if c.isDigit || c = '-' then some { s with mode := .numeral [c] }
  else if c.isLower then some { s with mode := .word [c] }
  else none

/-- One character. -/
def stepChar? (s : Scanner) (c : Char) : Option Scanner :=
  match s.mode with
  | .between => s.enter? c
  | .word reversed =>
    if c.isLower then some { s with mode := .word (c :: reversed) }
    else s.close?.bind (·.enter? c)
  | .numeral reversed =>
    if isNumeric c then some { s with mode := .numeral (c :: reversed) }
    else s.close?.bind (·.enter? c)
  | .string text =>
    if c = '"' then some (s.push (.string text.text?))
    else if c = '\\' then some { s with mode := .escape text }
    else if c.toNat < 0x20 then none
    else some { s with mode := .string (text.push c) }
  | .escape text =>
    if c = 'u' then some { s with mode := .unit text 0 4 }
    else (unescape? c).map fun c => { s with mode := .string (text.push c) }
  | .unit text code left =>
    (hexValue? c).map fun digit =>
      let code := 16 * code + digit
      if left ≤ 1 then { s with mode := .string (text.pushUnit code) }
      else { s with mode := .unit text code (left - 1) }

/-- One symbol; a stray byte is let through inside a string only. -/
def step? (s : Scanner) : Option Char → Option Scanner
  | some c => s.stepChar? c
  | none =>
    match s.mode with
    | .string text => some { s with mode := .string text.spoil }
    | _ => none

/-- Every symbol of a document, from the first. -/
def run? (s : Scanner) : List (Option Char) → Option Scanner
  | [] => some s
  | symbol :: rest =>
    match s.step? symbol with
    | some s => run? s rest
    | none => none

end Scanner

/-- The tokens of a document. -/
def scan? (document : List (Option Char)) : Option (List Token) :=
  ((Scanner.start.run? document).bind (·.close?)).map (·.reversed.reverse)

end Token

/-- Whether a byte continues a character of several bytes. -/
def isTail (b : UInt8) : Bool := 0x80 ≤ b && b ≤ 0xBF

/-- The bits that a continuing byte adds to a code point. -/
def addTail (code : Nat) (b : UInt8) : Nat := code * 64 + (b.toNat - 0x80)

/-- The character that UTF-8 puts in a byte and the bytes after it, and how many of those it takes.
    -/
def leading? (a : UInt8) (rest : List UInt8) : Option (Char × Nat) :=
  if a < 0x80 then some (Char.ofNat a.toNat, 0)
  else match rest with
    | [] => none
    | b :: rest =>
      if !isTail b then none
      else if 0xC2 ≤ a && a ≤ 0xDF then some (Char.ofNat (addTail (a.toNat - 0xC0) b), 1)
      else match rest with
        | [] => none
        | c :: rest =>
          if !isTail c then none
          else if 0xE0 ≤ a && a ≤ 0xEF then
            if (a = 0xE0 && b < 0xA0) || (a = 0xED && 0x9F < b) then none
            else some (Char.ofNat (addTail (addTail (a.toNat - 0xE0) b) c), 2)
          else match rest with
            | [] => none
            | d :: _ =>
              if !isTail d || a < 0xF0 || 0xF4 < a || (a = 0xF0 && b < 0x90)
                  || (a = 0xF4 && 0x8F < b) then none
              else some (Char.ofNat (addTail (addTail (addTail (a.toNat - 0xF0) b) c) d), 3)

/-- The symbols of some bytes, in reverse and before those already found: the characters that UTF-8
    puts there, and `none` for each byte that is part of no character. -/
def symbolsOnto (found : List (Option Char)) : List UInt8 → List (Option Char)
  | [] => found
  | a :: rest =>
    match leading? a rest with
    | some (c, taken) => symbolsOnto (some c :: found) (rest.drop taken)
    | none => symbolsOnto (none :: found) rest
termination_by bytes => bytes.length
decreasing_by all_goals simp only [List.length_cons, List.length_drop]; omega

/-- The symbols of some bytes. -/
def symbols (bytes : ByteArray) : List (Option Char) :=
  match String.fromUTF8? bytes with
  | some text => text.toList.map some
  | none => (symbolsOnto [] bytes.toList).reverse

end Json

end PlatformBridge
