import PlatformBridge.Toml.Value

/-!
# TOML Text

Reads a settings file. It is a sequence of lines, each blank, a header or a key with a value;
strings come in four forms, and arrays and inline tables may go on over several lines. Every reader
takes the rest of the text and gives what it read with the text after it.

## Main definitions

* `Toml.readString?`: The four forms of strings.
* `Toml.readKeys?`: A dotted key.
* `Toml.readValue?`: A value.
* `Toml.parse?`: The table of a whole file.
-/

namespace PlatformBridge

namespace Toml

/-- What a reader gives: what it read, and the text after it. -/
abbrev Rest (α : Type) := Option (α × List Char)

/-- Whether a character may stand in a string or comment: no control character but the tab. -/
def isPlain (c : Char) : Bool :=
  c = '\t' || (0x20 ≤ c.toNat && c.toNat ≠ 0x7F)

/-- A blank inside a line. -/
def isSpace (c : Char) : Bool := c = ' ' || c = '\t'

/-- The text after a line break at its start. -/
def newline? : List Char → Option (List Char)
  | '\n' :: rest => some rest
  | '\r' :: '\n' :: rest => some rest
  | _ => none

/-- The text after blanks and a comment. -/
def skipComment (text : List Char) : List Char :=
  match text.dropWhile isSpace with
  | '#' :: rest => rest.dropWhile isPlain
  | rest => rest

/-- The text after blanks, line breaks and comments. -/
def skipLines : Nat → List Char → List Char
  | 0, text => text
  | fuel + 1, text =>
    match newline? (skipComment text) with
    | some rest => skipLines fuel rest
    | none => skipComment text

/-- The text after everything between two items of a list. -/
def skipBetween (text : List Char) : List Char := skipLines text.length text

/-- The value of hexadecimal digits. -/
def hexNumber? (digits : List Char) : Option Nat :=
  digits.foldl (fun n c => n.bind fun n =>
    if c.isDigit then some (16 * n + (c.toNat - '0'.toNat))
    else if 'a' ≤ c && c ≤ 'f' then some (16 * n + (c.toNat - 'a'.toNat + 10))
    else if 'A' ≤ c && c ≤ 'F' then some (16 * n + (c.toNat - 'A'.toNat + 10))
    else none) (some 0)

/-- The character of an escape with a number of hexadecimal digits. -/
def readCode? (count : Nat) (text : List Char) : Rest Char :=
  if text.length < count then none
  else (hexNumber? (text.take count)).bind fun code =>
    if code.isValidChar then some (Char.ofNat code, text.drop count) else none

/-- The character of an escape, after its backslash. -/
def readEscape? : List Char → Rest Char
  | 'b' :: rest => some ('\x08', rest)
  | 't' :: rest => some ('\t', rest)
  | 'n' :: rest => some ('\n', rest)
  | 'f' :: rest => some ('\x0c', rest)
  | 'r' :: rest => some ('\r', rest)
  | 'e' :: rest => some ('\x1b', rest)
  | '"' :: rest => some ('"', rest)
  | '\\' :: rest => some ('\\', rest)
  | 'x' :: rest => readCode? 2 rest
  | 'u' :: rest => readCode? 4 rest
  | 'U' :: rest => readCode? 8 rest
  | _ => none

/-- The rest of a string on one line, after its quote, in reverse onto `acc`. -/
def readLine? (quote : Char) (acc : List Char) : Nat → List Char → Rest String
  | fuel + 1, c :: rest =>
    if c = quote then some (String.ofList acc.reverse, rest)
    else if c = '\\' && quote = '"' then
      match readEscape? rest with
      | some (e, rest) => readLine? quote (e :: acc) fuel rest
      | none => none
    else if isPlain c then readLine? quote (c :: acc) fuel rest
    else none
  | _, _ => none

/-- The text after a backslash that ends a line, with the blanks and line breaks that follow. -/
def lineContinuation? (text : List Char) : Option (List Char) :=
  (newline? (text.dropWhile isSpace)).map fun rest =>
    rest.dropWhile fun c => isSpace c || c = '\n' || c = '\r'

/-- The rest of a string over several lines, after its quotes, in reverse onto `acc`. Two quotes
    more than the three that end it belong to it. -/
def readLines? (quote : Char) (acc : List Char) : Nat → List Char → Rest String
  | fuel + 1, c :: rest =>
    if c = quote then
      let quotes := 1 + (rest.takeWhile (· = quote)).length
      if quotes < 3 then readLines? quote (quote :: acc) fuel rest
      else if 5 < quotes then none
      else
        some (String.ofList (List.replicate (quotes - 3) quote ++ acc).reverse,
          rest.drop (quotes - 1))
    else if c = '\\' && quote = '"' then
      match lineContinuation? rest, readEscape? rest with
      | some rest, _ => readLines? quote acc fuel rest
      | none, some (e, rest) => readLines? quote (e :: acc) fuel rest
      | none, none => none
    else
      match newline? (c :: rest) with
      | some rest => readLines? quote ('\n' :: acc) fuel rest
      | none => if isPlain c then readLines? quote (c :: acc) fuel rest else none
  | _, _ => none

/-- A string that starts with a quote. -/
def readString? (quote : Char) (text : List Char) : Rest String :=
  match text with
  | a :: b :: c :: rest =>
    if a = quote && b = quote && c = quote then
      let rest := (newline? rest).getD rest
      readLines? quote [] rest.length rest
    else if a = quote then readLine? quote [] text.length (b :: c :: rest)
    else none
  | a :: rest => if a = quote then readLine? quote [] text.length rest else none
  | [] => none

/-- A character of a key without quotes. -/
def isBare (c : Char) : Bool := c.isAlphanum || c = '_' || c = '-'

/-- One part of a key. -/
def readKey? (text : List Char) : Rest String :=
  match text with
  | '"' :: rest => readLine? '"' [] text.length rest
  | '\'' :: rest => readLine? '\'' [] text.length rest
  | _ =>
    let bare := text.takeWhile isBare
    if bare.isEmpty then none else some (String.ofList bare, text.dropWhile isBare)

/-- The parts of a dotted key after the first, with blanks around the dots. -/
def readMoreKeys? : Nat → List Char → Rest (List String)
  | 0, _ => none
  | fuel + 1, text =>
    match text.dropWhile isSpace with
    | '.' :: rest =>
      (readKey? (rest.dropWhile isSpace)).bind fun (key, rest) =>
        (readMoreKeys? fuel rest).map fun (keys, rest) => (key :: keys, rest)
    | rest => some ([], rest)

/-- A dotted key: the keys before the last, and the last. -/
def readKeys? (text : List Char) : Rest (List String × String) :=
  (readKey? (text.dropWhile isSpace)).bind fun (key, rest) =>
    (readMoreKeys? (rest.length + 1) rest).map fun (keys, rest) =>
      let all := key :: keys
      ((all.dropLast, all.getLast?.getD key), rest)

/-- Digits, perhaps with underscores between them. -/
def isDigits (isDigit : Char → Bool) (text : List Char) : Bool :=
  match text with
  | [] => false
  | [c] => isDigit c
  | c :: '_' :: rest => isDigit c && isDigits isDigit rest
  | c :: rest => isDigit c && isDigits isDigit rest

/-- A decimal integer without sign: digits that start with zero only if they are zero. -/
def isDecimal (text : List Char) : Bool :=
  isDigits Char.isDigit text && (text.head? ≠ some '0' || text.length = 1)

/-- The text without a sign. -/
def dropSign : List Char → List Char
  | '+' :: rest => rest
  | '-' :: rest => rest
  | rest => rest

/-- An integer or a floating-point number. -/
def isNumber (text : List Char) : Bool :=
  match text with
  | '0' :: 'x' :: rest =>
    isDigits (fun c => c.isDigit || ('a' ≤ c && c ≤ 'f') || ('A' ≤ c && c ≤ 'F')) rest
  | '0' :: 'o' :: rest => isDigits (fun c => '0' ≤ c && c ≤ '7') rest
  | '0' :: 'b' :: rest => isDigits (fun c => c = '0' || c = '1') rest
  | _ =>
    let body := dropSign text
    let whole := body.takeWhile fun c => c.isDigit || c = '_'
    let afterWhole := body.drop whole.length
    let (fractionOk, afterFraction) := match afterWhole with
      | '.' :: rest =>
        let fraction := rest.takeWhile fun c => c.isDigit || c = '_'
        (isDigits Char.isDigit fraction, rest.drop fraction.length)
      | rest => (true, rest)
    let exponentOk := match afterFraction with
      | [] => true
      | c :: rest => (c = 'e' || c = 'E') && isDigits Char.isDigit (dropSign rest)
    body = "inf".toList || body = "nan".toList || (isDecimal whole && fractionOk && exponentOk)

/-- The number of two digits at the start of a text. -/
def twoDigits? : List Char → Rest Nat
  | a :: b :: rest =>
    if a.isDigit && b.isDigit then
      some (10 * (a.toNat - '0'.toNat) + (b.toNat - '0'.toNat), rest)
    else none
  | _ => none

/-- The text after a time of day. -/
def afterTime? (text : List Char) : Option (List Char) := do
  let (hour, rest) ← twoDigits? text
  let rest ← match rest with
    | ':' :: rest => some rest
    | _ => none
  let (minute, rest) ← twoDigits? rest
  let (second, rest) ← match rest with
    | ':' :: rest => twoDigits? rest
    | rest => some (0, rest)
  let fraction := match rest with
    | '.' :: rest => rest.takeWhile Char.isDigit
    | _ => []
  let rest ← match rest with
    | '.' :: rest => if fraction.isEmpty then none else some (rest.drop fraction.length)
    | rest => some rest
  if hour < 24 && minute < 60 && second ≤ 60 then some rest else none

/-- The number of days of a month. -/
def daysOfMonth (year month : Nat) : Nat :=
  if month = 2 then
    if year % 4 = 0 && (year % 100 ≠ 0 || year % 400 = 0) then 29 else 28
  else if month = 4 || month = 6 || month = 9 || month = 11 then 30
  else 31

/-- The text after a date. -/
def afterDate? (text : List Char) : Option (List Char) := do
  let (century, rest) ← twoDigits? text
  let (year, rest) ← twoDigits? rest
  let rest ← match rest with
    | '-' :: rest => some rest
    | _ => none
  let (month, rest) ← twoDigits? rest
  let rest ← match rest with
    | '-' :: rest => some rest
    | _ => none
  let (day, rest) ← twoDigits? rest
  if 1 ≤ month && month ≤ 12 && 1 ≤ day && day ≤ daysOfMonth (100 * century + year) month then
    some rest
  else none

/-- Whether a text is nothing, or the offset of a time from universal time. -/
def isOffset : List Char → Bool
  | [] => true
  | ['z'] | ['Z'] => true
  | sign :: rest =>
    (sign = '+' || sign = '-') &&
      match twoDigits? rest with
      | some (hour, ':' :: rest) =>
        match twoDigits? rest with
        | some (minute, []) => hour < 24 && minute < 60
        | _ => false
      | _ => false

/-- A date, a time of day, or both with an offset perhaps. -/
def isDateTime (text : List Char) : Bool :=
  match afterDate? text with
  | some [] => true
  | some (c :: rest) =>
    (c = 'T' || c = 't' || c = ' ') && (afterTime? rest).any isOffset
  | none => afterTime? text = some []

/-- A character of a number, date or time. -/
def isScalarChar (c : Char) : Bool :=
  c.isAlphanum || c = '_' || c = '-' || c = '+' || c = '.' || c = ':'

/-- A literal, number, date or time. A date may go on with a time after a blank. -/
def readScalar? (text : List Char) : Rest Toml :=
  let word := text.takeWhile isScalarChar
  let rest := text.dropWhile isScalarChar
  let long := match rest with
    | ' ' :: more =>
      let time := more.takeWhile isScalarChar
      if afterDate? word = some [] && !time.isEmpty && time.head?.any Char.isDigit then
        some (word ++ ' ' :: time, more.drop time.length)
      else none
    | _ => none
  if word = "true".toList then some (.bool true, rest)
  else if word = "false".toList then some (.bool false, rest)
  else
    match long with
    | some (word, rest) => if isDateTime word then some (.scalar, rest) else none
    | none => if isNumber word || isDateTime word then some (.scalar, rest) else none

mutual

/-- A value. -/
def readValue? : Nat → List Char → Rest Toml
  | 0, _ => none
  | _, [] => none
  | fuel + 1, c :: rest =>
    if c = '"' || c = '\'' then (readString? c (c :: rest)).map fun (s, rest) => (.string s, rest)
    else if c = '[' then readItems? fuel [] (skipBetween rest)
    else if c = '{' then readMembers? fuel [] (skipBetween rest)
    else readScalar? (c :: rest)

/-- The items of an array after the first ones, which are given in reverse. -/
def readItems? : Nat → List Toml → List Char → Rest Toml
  | 0, _, _ => none
  | fuel + 1, items, text =>
    match text with
    | ']' :: rest => some (.array items.reverse, rest)
    | _ =>
      match readValue? fuel text with
      | none => none
      | some (v, rest) =>
        match skipBetween rest with
        | ',' :: rest => readItems? fuel (v :: items) (skipBetween rest)
        | ']' :: rest => some (.array (v :: items).reverse, rest)
        | _ => none

/-- The members of an inline table after the first ones. -/
def readMembers? : Nat → Members → List Char → Rest Toml
  | 0, _, _ => none
  | fuel + 1, members, text =>
    match text with
    | '}' :: rest => some (.table (Node.membersToToml members), rest)
    | _ =>
      match readKeys? text with
      | some ((path, key), '=' :: rest) =>
        match readValue? fuel (rest.dropWhile isSpace) with
        | none => none
        | some (v, rest) =>
          match Node.assign? path key v .header members with
          | none => none
          | some (_, members) =>
            match skipBetween rest with
            | ',' :: rest => readMembers? fuel members (skipBetween rest)
            | '}' :: rest => some (.table (Node.membersToToml members), rest)
            | _ => none
      | _ => none

end

/-- The text of the next line, when nothing but blanks and a comment is left on this one. -/
def endLine? (text : List Char) : Option (List Char) :=
  match skipComment text with
  | [] => some []
  | rest => newline? rest

/-- The lines of a file, under the header `header`. -/
def readLinesOf? : Nat → List String → Members → List Char → Option Members
  | 0, _, _, _ => none
  | fuel + 1, header, root, text =>
    match text.dropWhile isSpace with
    | [] => some root
    | '[' :: '[' :: rest =>
      match readKeys? rest with
      | some ((path, key), ']' :: ']' :: rest) =>
        match Node.openElement? path key root, endLine? rest with
        | some root, some rest => readLinesOf? fuel (path ++ [key]) root rest
        | _, _ => none
      | _ => none
    | '[' :: rest =>
      match readKeys? rest with
      | some ((path, key), ']' :: rest) =>
        match Node.openTable? path key root, endLine? rest with
        | some root, some rest => readLinesOf? fuel (path ++ [key]) root rest
        | _, _ => none
      | _ => none
    | rest =>
      match endLine? rest with
      | some rest => readLinesOf? fuel header root rest
      | none =>
        match readKeys? rest with
        | some ((path, key), '=' :: rest) =>
          match readValue? rest.length (rest.dropWhile isSpace) with
          | some (v, rest) =>
            match Node.inTable? header (Node.assign? path key v) root, endLine? rest with
            | some root, some rest => readLinesOf? fuel header root rest
            | _, _ => none
          | none => none
        | _ => none

/-- The table of a whole file, which may start with a byte order mark. -/
def parse? (text : String) : Option (List (String × Toml)) :=
  let chars := match text.toList with
    | '\uFEFF' :: rest => rest
    | chars => chars
  (readLinesOf? (chars.length + 1) [] [] chars).map Node.membersToToml

end Toml

end PlatformBridge
