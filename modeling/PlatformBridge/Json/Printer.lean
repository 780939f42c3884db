import PlatformBridge.Json.Value

/-!
# JSON Text

The compact, the indented and the canonical text of a value. In a string the quote, the backslash
and the control characters are escaped and nothing else is. The canonical text sorts the members of
every object by the text of their keys and writes floating-point numbers in the canonical layout, so
equal values have equal text.

## Main definitions

* `Json.quoted`: A string between quotes.
* `Json.compact`: Text without blanks.
* `Json.pretty`: Text with one item or member a line, two blanks for each level.
* `Json.canonical`: The canonical text.
-/

namespace PlatformBridge

namespace Json

/-- The lower-case hexadecimal digit of a number below sixteen. -/
def hexDigit (n : Nat) : Char :=
  if n < 10 then Char.ofNat ('0'.toNat + n) else Char.ofNat ('a'.toNat + (n - 10))

/-- A character inside a string. -/
def escape (c : Char) : List Char :=
  if c = '"' then ['\\', '"']
  else if c = '\\' then ['\\', '\\']
  else if c = '\x08' then ['\\', 'b']
  else if c = '\x0c' then ['\\', 'f']
  else if c = '\n' then ['\\', 'n']
  else if c = '\r' then ['\\', 'r']
  else if c = '\t' then ['\\', 't']
  else if c.toNat < 0x20 then
    ['\\', 'u', '0', '0', hexDigit (c.toNat / 16), hexDigit (c.toNat % 16)]
  else [c]

/-- A string between quotes. -/
def quoted (s : String) : List Char :=
  '"' :: s.toList.flatMap escape ++ ['"']

/-- An integer in decimal digits. -/
def integerText (n : Int) : List Char :=
  if n < 0 then '-' :: Nat.toDigits 10 n.natAbs else Nat.toDigits 10 n.natAbs

/-- A number; floating-point ones in the layout. -/
def Number.text (layout : Layout) : Number → List Char
  | .integer n => integerText n
  | .float x => layout.text x

/-- Texts with a separator between each two. -/
def separated (separator : List Char) : List (List Char) → List Char
  | [] => []
  | [text] => text
  | text :: rest => text ++ separator ++ separated separator rest

mutual

/-- The text without blanks, members in their own order. -/
def compact (layout : Layout) : Json → List Char
  | null => "null".toList
  | bool true => "true".toList
  | bool false => "false".toList
  | number n => n.text layout
  | string s => quoted s
  | array items => '[' :: separated [','] (compactItems layout items) ++ [']']
  | object members => '{' :: separated [','] (compactMembers layout members) ++ ['}']

/-- The text of every item. -/
def compactItems (layout : Layout) : List Json → List (List Char)
  | [] => []
  | v :: rest => compact layout v :: compactItems layout rest

/-- The text of every member. -/
def compactMembers (layout : Layout) : List (String × Json) → List (List Char)
  | [] => []
  | (k, v) :: rest => (quoted k ++ ':' :: compact layout v) :: compactMembers layout rest

end

/-- A line break and the blanks before the first character of a line. -/
def newline (level : Nat) : List Char :=
  '\n' :: List.replicate (2 * level) ' '

/-- The texts of what a bracket holds, each on a line of its own one level further in. -/
def block (level : Nat) (opening closing : Char) : List (List Char) → List Char
  | [] => [opening, closing]
  | texts =>
    opening :: newline (level + 1) ++ separated (',' :: newline (level + 1)) texts
      ++ newline level ++ [closing]

mutual

/-- The indented text, members in their own order, whose later lines start at a level. -/
def prettyAt (level : Nat) : Json → List Char
  | array items => block level '[' ']' (prettyItems (level + 1) items)
  | object members => block level '{' '}' (prettyMembers (level + 1) members)
  | null => "null".toList
  | bool true => "true".toList
  | bool false => "false".toList
  | number n => n.text .json
  | string s => quoted s

/-- The indented text of every item. -/
def prettyItems (level : Nat) : List Json → List (List Char)
  | [] => []
  | v :: rest => prettyAt level v :: prettyItems level rest

/-- The indented text of every member. -/
def prettyMembers (level : Nat) : List (String × Json) → List (List Char)
  | [] => []
  | (k, v) :: rest => (quoted k ++ ':' :: ' ' :: prettyAt level v) :: prettyMembers level rest

end

/-- The indented text of a value. -/
def pretty (value : Json) : String :=
  String.ofList (prettyAt 0 value)

/-- The text of a value without blanks. -/
def render (value : Json) : String :=
  String.ofList (compact .json value)

/-- The order of keys by the text they are written as, quotes included. -/
def quotedBefore (a b : String) : Bool :=
  String.ofList (quoted a) < String.ofList (quoted b)

/-- The canonical text of a value. -/
def canonical (value : Json) : String :=
  String.ofList (compact .canonical (value.sorted quotedBefore))

end Json

end PlatformBridge
