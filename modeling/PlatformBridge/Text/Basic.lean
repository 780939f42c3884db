/-!
# Texts

What the rest of the project asks of texts as lists of characters: which characters are blank, where
a text is cut at separators, and how many bytes it takes. Blanks are the characters of the Unicode
property `White_Space`, so a text may be blank without a space in it, and every limit on the length
of a text is a limit on its bytes in UTF-8.

## Main definitions

* `Text.isBlankChar`: Whether a character is blank.
* `Text.isBlank`: Whether a text has no other character.
* `Text.trim`: A text without blanks at either end.
* `Text.split`: The parts of a text between separators.
* `Text.byteLength`: The number of bytes of a text in UTF-8.
-/

namespace PlatformBridge

namespace Text

/-- Whether a character has the property `White_Space`. -/
def isBlankChar (c : Char) : Bool :=
  let n := c.toNat
  (0x09 ≤ n && n ≤ 0x0D) || n = 0x20 || n = 0x85 || n = 0xA0 || n = 0x1680
    || (0x2000 ≤ n && n ≤ 0x200A) || n = 0x2028 || n = 0x2029 || n = 0x202F || n = 0x205F
    || n = 0x3000

/-- Whether a text holds no character but blanks. -/
def isBlank (text : String) : Bool := text.toList.all isBlankChar

/-- A text without blanks at either end. -/
def trim (text : List Char) : List Char :=
  ((text.dropWhile isBlankChar).reverse.dropWhile isBlankChar).reverse

/-- The parts of a text between the characters of a class; one more than there are of those. -/
def split (isSeparator : Char → Bool) : List Char → List (List Char)
  | [] => [[]]
  | c :: rest =>
    if isSeparator c then [] :: split isSeparator rest
    else match split isSeparator rest with
      | [] => [[c]]
      | part :: parts => (c :: part) :: parts

/-- The number of bytes of a text in UTF-8. -/
def byteLength (text : List Char) : Nat := text.foldr (fun c n => c.utf8Size + n) 0

end Text

end PlatformBridge
