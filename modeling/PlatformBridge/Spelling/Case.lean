/-!
# Letter Case

File names and the members of generated code are spelled from contract names. A name is cut into
words at every character that is no ASCII letter or digit, and for snake case also where a capital
letter begins a new word: after a small letter or digit, or as the last capital before a small
letter. The words are then joined again in the case that is wanted.

## Main definitions

* `Spelling.words`: The words of a name, cut at separators and where a rule says.
* `Spelling.snakeCase`, `Spelling.pascalCase`, `Spelling.lowerCamelCase`: The three spellings.
-/

namespace PlatformBridge

namespace Spelling

/-- Puts a word before others, unless it is empty. -/
def pushWord (word : List Char) (words : List (List Char)) : List (List Char) :=
  if word.isEmpty then words else word :: words

/-- Puts a character before the word that begins a text, given as that word and the words after it.
    `cuts c word` says that a word ends between the two. -/
def addChar (cuts : Char → List Char → Bool) (c : Char) (text : List Char × List (List Char)) :
    List Char × List (List Char) :=
  if !c.isAlphanum then ([], pushWord text.1 text.2)
  else if cuts c text.1 then ([c], pushWord text.1 text.2)
  else (c :: text.1, text.2)

/-- The words of a text, none of them empty. -/
def words (cuts : Char → List Char → Bool) (text : List Char) : List (List Char) :=
  let (word, rest) := text.foldr (addChar cuts) ([], [])
  pushWord word rest

/-- Whether a capital at the start of `word` begins a new word after the character `c`. -/
def cutsBeforeCapital (c : Char) : List Char → Bool
  | [] => false
  | first :: rest =>
    first.isUpper && (c.isLower || c.isDigit || (c.isUpper && rest.head?.any Char.isLower))

/-- Words with an underscore between each two. -/
def joinUnderscore : List (List Char) → List Char
  | [] => []
  | [word] => word
  | word :: rest => word ++ '_' :: joinUnderscore rest

/-- The word with a capital first letter. -/
def capitalize : List Char → List Char
  | [] => []
  | c :: rest => c.toUpper :: rest

/-- The word with a small first letter. -/
def uncapitalize : List Char → List Char
  | [] => []
  | c :: rest => c.toLower :: rest

/-- The words of a text in small letters, joined by underscores. -/
def snakeChars (text : List Char) : List Char :=
  joinUnderscore ((words cutsBeforeCapital text).map (·.map Char.toLower))

/-- The runs of letters and digits of a text, each with a capital first letter. -/
def pascalChars (text : List Char) : List Char :=
  (words (fun _ _ => false) text).flatMap capitalize

/-- A name in `snake_case`. -/
def snakeCase (name : String) : String :=
  String.ofList (snakeChars name.toList)

/-- A name in `PascalCase`. -/
def pascalCase (name : String) : String :=
  String.ofList (pascalChars name.toList)

/-- A name in `lowerCamelCase`. -/
def lowerCamelCase (name : String) : String :=
  String.ofList (uncapitalize (pascalChars name.toList))

end Spelling

end PlatformBridge
