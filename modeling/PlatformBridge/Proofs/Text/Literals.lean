import PlatformBridge.Proofs.Text.Letters

/-!
# Literals of Texts

Generated code is read as a compiler starts to read it: comments are skipped,
and what is between two quotes is a literal, unless the quote in it comes
after a backslash. Which literals are asked for is said by a mark, the code
in front of them, in which blanks do not count. What a literal stands for is
up to the language; both languages end a literal at the same place. So the
rules of a language are a parameter, and what is proved here is used for Dart
and for the native language alike.

A text is read from its end. If all that is behind a literal is known to be
read as some names, then with the literal in front it is read as one name
more, just if the literal stands for this name. A name that is written
without care may end its literal too early, and what comes then is anything;
but even then the first literal is wrong already, so nothing has to be known
of the rest. That is what `Spells` asks for when a name is not allowed: not
that its literal is read as some other name, but that no start of the text
behind its quote denotes the name.

Whether a text is code, a comment or a literal at some place depends on all
that stands before. `Passes`, `Opens` and `Closes` cut this dependence. Each
is said of a piece of text and for every place that it may be met at, so the
pieces of a file are looked at one by one. A file is made of lines, and the
second half of the module says the same of lines: those without a literal are
passed, whether they are code, a comment, or a comment that quotes a name.

## Main definitions

* `LiteralRules`: The literals of a language.
* `LiteralRules.scan`, `LiteralRules.literals`: The literals of a text after
  a mark.
* `LiteralRules.Passes`, `LiteralRules.Opens`, `LiteralRules.Closes`: Code
  without literals, code in front of one, and a literal that ends at its own
  quote.
* `LiteralRules.inLines`, `LiteralRules.PassesLine`: Texts by their lines.
* `LiteralRules.IsQuotable`: A name that can stand in a comment.
* `LiteralRules.Spells`: How a name is written between quotes.
* `LiteralRules.Reads`: A text whose literals stand for names, just if the
  names allow it.

## Theorems

* `LiteralRules.scan_code`, `LiteralRules.scan_comment`: What is read while
  code or a comment goes on.
* `LiteralRules.passes_code`, `LiteralRules.passes_comment`: Code and
  comments are passed.
* `LiteralRules.opens_code`, `LiteralRules.Passes.opens`: Code in front of a
  literal.
* `LiteralRules.closes_of_forall`: Literals without quotes and backslashes.
* `LiteralRules.isPrefix_of_scan_literal`: The first literal is a start of
  the text.
* `LiteralRules.passes_literal`: Literals that are not asked for.
* `LiteralRules.passesLine_code`, `LiteralRules.passesLine_comment`,
  `LiteralRules.passesLine_quoting`: Lines without literals.
* `LiteralRules.passesLine_doc`, `LiteralRules.passesLine_note`: The two
  kinds of comments that generated code has.
* `LiteralRules.Reads.passes`, `LiteralRules.Reads.literal`,
  `LiteralRules.Reads.flatMap`: Reading longer texts.
* `LiteralRules.Reads.literals_eq_iff`: The literals of a text that is read so.
-/

namespace PlatformBridge

open Text

/-- The literals of a language: their quote, the characters that end a comment, and what is denoted
    by the characters between the quotes, if anything. -/
structure LiteralRules where
  quote : Char
  endsComment : Char → Bool
  denote? : List Char → Option (List Char)

namespace LiteralRules

/-- Where in a text a character is, with the code since the last literal, and with what is already
    there of a literal. -/
inductive Place where
  | code (before : List Char)
  | slash (before : List Char)
  | comment (before : List Char)
  | literal (before raw : List Char)
  | escape (before raw : List Char)

/-- Code without its blanks. -/
def kept (code : List Char) : List Char := code.filter fun c => !c.isWhitespace

variable (x : LiteralRules) (mark : List Char)

/-- The place after a character of code. -/
def afterCode (before : List Char) (c : Char) : Place :=
  if c = x.quote then .literal before []
  else if c = '/' then .slash before
  else .code (before ++ kept [c])

/-- The literals after a mark, as they are written, from a place on. -/
def scan : Place → List Char → List (List Char)
  | _, [] => []
  | .code before, c :: rest => scan (x.afterCode before c) rest
  | .slash before, c :: rest =>
    scan (if c = '/' then .comment before else x.afterCode (before ++ ['/']) c) rest
  | .comment before, c :: rest =>
    scan (if x.endsComment c then .code before else .comment before) rest
  | .literal before raw, c :: rest =>
    if c = x.quote then
      if mark.isSuffixOf before then raw :: scan (.code []) rest else scan (.code []) rest
    else if c = '\\' then scan (.escape before (raw ++ [c])) rest
    else scan (.literal before (raw ++ [c])) rest
  | .escape before raw, c :: rest => scan (.literal before (raw ++ [c])) rest

/-- What the literals of a text after a mark denote. -/
def literals (text : String) : List (Option String) :=
  (x.scan mark (.code []) text.toList).map fun raw => (x.denote? raw).map String.ofList

/-- A character that starts no literal and no comment. -/
def isCode (c : Char) : Bool := !(c = x.quote || c = '/')

section Code

/-- Code without literals: what comes after it is read as if it were not there. -/
def Passes (code : List Char) : Prop :=
  ∀ before, ∃ after, ∀ rest,
    x.scan mark (.code before) (code ++ rest) = x.scan mark (.code after) rest

/-- Code in front of a literal, which is asked for or not. -/
def Opens (marked : Bool) (code : List Char) : Prop :=
  ∀ before, ∃ after, mark.isSuffixOf after = marked ∧ ∀ rest,
    x.scan mark (.code before) (code ++ x.quote :: rest) = x.scan mark (.literal after []) rest

/-- A literal that ends where it was meant to end. -/
def Closes (written : List Char) : Prop :=
  ∀ after raw rest, x.scan mark (.literal after raw) (written ++ x.quote :: rest)
    = if mark.isSuffixOf after then (raw ++ written) :: x.scan mark (.code []) rest
      else x.scan mark (.code []) rest

variable {x mark}

/-- What starts a literal or a comment is told by the character alone. -/
theorem isCode_iff (c : Char) : x.isCode c = true ↔ c ≠ x.quote ∧ c ≠ '/' := by
  simp [isCode]

/-- While nothing but code comes, all that changes is the code that a mark is looked for in. -/
theorem scan_code {code : List Char} (h : ∀ c ∈ code, x.isCode c = true)
    (before rest : List Char) : x.scan mark (.code before) (code ++ rest)
      = x.scan mark (.code (before ++ kept code)) rest := by
  induction code generalizing before with
  | nil => rw [kept, List.filter_nil, List.append_nil, List.nil_append]
  | cons c code ih =>
      rw [List.forall_mem_cons, isCode_iff] at h
      rw [List.cons_append, scan, afterCode, if_neg h.1.1, if_neg h.1.2, ih h.2, List.append_assoc]
      rw [kept, kept, kept, ← List.filter_append, List.singleton_append]

-- A literal in a comment is none, and blanks after a mark do not count.
example : (LiteralRules.mk '"' (· = '\n') some).scan "f(".toList (.code [])
    "// f(\"a\")\nf( \"b\")".toList = ["b".toList] := by
  cbv

namespace Passes

theorem nil : x.Passes mark [] := fun before => ⟨before, fun _ => rfl⟩

theorem append {code more : List Char} (h : x.Passes mark code) (hmore : x.Passes mark more) :
    x.Passes mark (code ++ more) := by
  intro before
  rcases h before with ⟨after, hafter⟩
  rcases hmore after with ⟨last, hlast⟩
  exact ⟨last, fun rest => by rw [List.append_assoc, hafter, hlast]⟩

theorem flatMap {ι : Type} {text : ι → List Char} {parts : List ι}
    (h : ∀ part ∈ parts, x.Passes mark (text part)) : x.Passes mark (parts.flatMap text) := by
  induction parts with
  | nil => exact nil
  | cons part parts ih =>
      rw [List.forall_mem_cons] at h
      rw [List.flatMap_cons]
      exact h.1.append (ih h.2)

theorem opens {code more : List Char} {marked : Bool} (h : x.Passes mark code)
    (hmore : x.Opens mark marked more) : x.Opens mark marked (code ++ more) := by
  intro before
  rcases h before with ⟨after, hafter⟩
  rcases hmore after with ⟨last, hmark, hlast⟩
  exact ⟨last, hmark, fun rest => by rw [List.append_assoc, hafter, hlast]⟩

end Passes

theorem passes_code {code : List Char} (h : ∀ c ∈ code, x.isCode c = true) :
    x.Passes mark code := fun before => ⟨_, scan_code h before⟩

/-- Code that is written out is looked through once. -/
theorem passes_fixed {code : List Char} (h : code.all x.isCode = true) : x.Passes mark code :=
  passes_code (List.all_eq_true.mp h)

theorem scan_comment {text : List Char} (h : ∀ c ∈ text, x.endsComment c = false)
    (before rest : List Char) : x.scan mark (.comment before) (text ++ rest)
      = x.scan mark (.comment before) rest := by
  induction text with
  | nil => rfl
  | cons c text ih =>
      rw [List.forall_mem_cons] at h
      rw [List.cons_append, scan, h.1, if_neg Bool.false_ne_true, ih h.2]

/-- A comment ends with its line. -/
theorem passes_comment {text : List Char} (hquote : x.quote ≠ '/')
    (hend : x.endsComment '\n' = true) (h : ∀ c ∈ text, x.endsComment c = false) :
    x.Passes mark ('/' :: '/' :: (text ++ ['\n'])) := by
  intro before
  refine ⟨before, fun rest => ?_⟩
  rw [List.cons_append, List.cons_append, scan, afterCode, if_neg hquote.symm, if_pos rfl, scan,
    if_pos rfl, List.append_assoc, scan_comment h, List.singleton_append, scan, if_pos hend]

/-- Code opens a literal, and the code at its end says which. -/
theorem opens_code {marked : Bool} {code : List Char} (h : code.all x.isCode = true)
    (hmark : ∀ before, mark.isSuffixOf (before ++ kept code) = marked) :
    x.Opens mark marked code := by
  intro before
  refine ⟨before ++ kept code, hmark before, fun rest => ?_⟩
  rw [scan_code (List.all_eq_true.mp h), scan, afterCode, if_pos rfl]

theorem isSuffixOf_append (before code : List Char) (h : mark <:+ code) :
    mark.isSuffixOf (before ++ code) = true :=
  List.isSuffixOf_iff_suffix.mpr (h.trans (List.suffix_append before code))

theorem not_isSuffixOf_append (before code : List Char) (h : ¬ mark <:+ code)
    (h' : ¬ code <:+ mark) : mark.isSuffixOf (before ++ code) = false := by
  cases hmark : mark.isSuffixOf (before ++ code) with
  | false => rfl
  | true =>
      have hsuffix := List.isSuffixOf_iff_suffix.mp hmark
      rcases List.suffix_or_suffix_of_suffix hsuffix (List.suffix_append before code) with hs | hs
      · exact absurd hs h
      · exact absurd hs h'

/-- A literal without quotes and backslashes in it ends at its own quote. -/
theorem closes_of_forall {written : List Char} (h : ∀ c ∈ written, c ≠ x.quote ∧ c ≠ '\\') :
    x.Closes mark written := by
  induction written with
  | nil =>
      intro after raw rest
      rw [List.nil_append, scan, if_pos rfl, List.append_nil]
  | cons c written ih =>
      intro after raw rest
      rw [List.forall_mem_cons] at h
      rw [List.cons_append, scan, if_neg h.1.1, if_neg h.1.2, ih h.2, List.append_assoc]
      rfl

-- A literal that is asked for is a start of the text behind its quote.
theorem isPrefix_of_scan_literal {after text raw : List Char} {others : List (List Char)}
    (hmark : mark.isSuffixOf after = true)
    (h : x.scan mark (.literal after []) text = raw :: others) : raw <+: text := by
  -- Both inside and behind a backslash, what has been read so far comes first.
  suffices hsofar : ∀ text sofar, (x.scan mark (.literal after sofar) text = raw :: others →
      raw <+: sofar ++ text) ∧ (x.scan mark (.escape after sofar) text = raw :: others →
      raw <+: sofar ++ text) from (hsofar text []).1 h
  intro text
  induction text with
  | nil => exact fun sofar => ⟨nofun, nofun⟩
  | cons c rest ih =>
      intro sofar
      have hstep : sofar ++ c :: rest = (sofar ++ [c]) ++ rest := by simp
      refine ⟨fun hscan => ?_, fun hscan => ?_⟩
      · rw [scan, hmark, if_pos rfl] at hscan
        split at hscan
        · rw [List.cons.injEq] at hscan
          exact hscan.1 ▸ List.prefix_append sofar _
        · split at hscan
          · exact hstep ▸ (ih _).2 hscan
          · exact hstep ▸ (ih _).1 hscan
      · rw [scan] at hscan
        exact hstep ▸ (ih _).1 hscan

/-- A literal that is not asked for is passed. -/
theorem passes_literal {code written : List Char} (hopen : x.Opens mark false code)
    (hclose : x.Closes mark written) :
    x.Passes mark (code ++ x.quote :: (written ++ [x.quote])) := by
  intro before
  rcases hopen before with ⟨after, hmark, hafter⟩
  refine ⟨[], fun rest => ?_⟩
  rw [List.append_assoc, List.cons_append, hafter, List.append_assoc, List.singleton_append,
    hclose, hmark, if_neg Bool.false_ne_true]

end Code

section Lines

/-- The lines of a text one after the other, each with its line break. -/
def inLines (lines : List String) : List Char := lines.flatMap fun line => line.toList ++ ['\n']

theorem inLines_append (lines more : List String) :
    inLines (lines ++ more) = inLines lines ++ inLines more := List.flatMap_append

theorem inLines_cons (line : String) (lines : List String) :
    inLines (line :: lines) = line.toList ++ '\n' :: inLines lines := by
  rw [inLines, List.flatMap_cons, List.append_assoc]
  rfl

theorem inLines_flatMap {ι : Type} (lines : ι → List String) (parts : List ι) :
    inLines (parts.flatMap lines) = parts.flatMap fun part => inLines (lines part) :=
  List.flatMap_assoc

/-- A line without literals. -/
def PassesLine (line : String) : Prop := x.Passes mark (line.toList ++ ['\n'])

variable {x mark}

theorem passes_inLines {lines : List String} (h : ∀ line ∈ lines, x.PassesLine mark line) :
    x.Passes mark (inLines lines) := .flatMap h

theorem passesLine_code {line : String} (hbreak : x.isCode '\n' = true)
    (h : All x.isCode line) : x.PassesLine mark line :=
  (passes_code h).append (passes_code (List.forall_mem_singleton.mpr hbreak))

/-- A comment on a line of its own. -/
theorem passesLine_comment {indent text : String} (hquote : x.quote ≠ '/')
    (hend : x.endsComment '\n' = true) (hindent : All x.isCode indent)
    (htext : All (fun c => !x.endsComment c) text) :
    x.PassesLine mark (indent ++ "//" ++ text) := by
  have hcomment : (indent ++ "//" ++ text).toList ++ ['\n']
      = indent.toList ++ '/' :: '/' :: (text.toList ++ ['\n']) := by simp
  rw [PassesLine, hcomment]
  refine (passes_code hindent).append (passes_comment hquote hend fun c hc => ?_)
  simpa using htext c hc

/-- A comment that quotes a name. -/
theorem passesLine_quoting {opening indent start name closing : String} (hquote : x.quote ≠ '/')
    (hend : x.endsComment '\n' = true) (hopening : opening = indent ++ "//" ++ start)
    (hindent : All x.isCode indent) (hstart : All (fun c => !x.endsComment c) start)
    (hname : All (fun c => !x.endsComment c) name)
    (hclosing : All (fun c => !x.endsComment c) closing) :
    x.PassesLine mark (opening ++ name ++ closing) := by
  have hline : opening ++ name ++ closing = indent ++ "//" ++ (start ++ name ++ closing) := by
    rw [hopening]
    simp only [String.append_assoc]
  rw [hline]
  exact passesLine_comment hquote hend hindent
    (all_append.mpr ⟨all_append.mpr ⟨hstart, hname⟩, hclosing⟩)

/-- The rules of a language whose quote and comments are those of plain texts. -/
class IsUsual (x : LiteralRules) : Prop where
  quote : isPlain x.quote = false
  quote_ne : x.quote ≠ '/'
  isCode_break : x.isCode '\n' = true
  endsComment_break : x.endsComment '\n' = true
  holdsPlain : HoldsPlain fun c => !x.endsComment c

/-- A name that can be quoted in a comment without ending it. -/
abbrev IsQuotable (x : LiteralRules) (name : String) : Prop := All (fun c => !x.endsComment c) name

variable [x.IsUsual]

theorem holdsPlain_isCode : HoldsPlain x.isCode := fun c h =>
  (isCode_iff c).mpr ⟨ne_of_isPlain h IsUsual.quote, ne_of_isPlain h (by decide)⟩

theorem passesLine_plain {line : String} (h : All isPlain line) : x.PassesLine mark line :=
  passesLine_code IsUsual.isCode_break (holdsPlain_isCode.all h)

theorem passesLine_fixed {text : List Char} (h : text.all x.isCode = true) :
    x.PassesLine mark (String.ofList text) :=
  passesLine_code IsUsual.isCode_break (all_fixed h)

/-- A comment that quotes a name. -/
theorem passesLine_doc {opening name closing : String} (indent start : String)
    (hname : x.IsQuotable name) (hopening : opening = indent ++ "//" ++ start := by simp)
    (hindent : All x.isCode indent := by exact all_fixed rfl)
    (hstart : x.IsQuotable start := by exact all_fixed rfl)
    (hclosing : x.IsQuotable closing := by exact all_fixed rfl) :
    x.PassesLine mark (opening ++ name ++ closing) :=
  passesLine_quoting IsUsual.quote_ne IsUsual.endsComment_break hopening hindent hstart hname
    hclosing

/-- A comment without a name. -/
theorem passesLine_note {line : String} (indent text : String)
    (hline : line = indent ++ "//" ++ text := by simp)
    (hindent : All x.isCode indent := by exact all_fixed rfl)
    (htext : x.IsQuotable text := by exact all_fixed rfl) : x.PassesLine mark line :=
  hline ▸ passesLine_comment IsUsual.quote_ne IsUsual.endsComment_break hindent htext

end Lines

section Reads

variable (allowed : List Char → Prop)

/-- The literals of a text after a mark denote some names, just if all of these are allowed. -/
def Reads (text : List Char) (names : List (List Char)) : Prop :=
  ∀ before, (x.scan mark (.code before) text).map x.denote? = names.map some
    ↔ ∀ name ∈ names, allowed name

/-- How a name is written between quotes: if it is allowed, then as a literal that ends at its own
    quote and denotes it, and if it is not, then there is no way in which the literal that begins
    there denotes it. -/
structure Spells (written name : List Char) : Prop where
  closes : allowed name → x.Closes mark written
  denotes : allowed name → x.denote? written = some name
  allowed : ∀ after rest raw others,
    x.scan mark (.literal after []) (written ++ x.quote :: rest) = raw :: others →
      mark.isSuffixOf after = true → x.denote? raw = some name → allowed name

variable {x mark allowed}

namespace Reads

theorem nil : x.Reads mark allowed [] [] := by
  intro before
  rw [scan]
  simp

/-- Code without literals is read as nothing. -/
theorem passes {code text : List Char} {names : List (List Char)} (hcode : x.Passes mark code)
    (h : x.Reads mark allowed text names) : x.Reads mark allowed (code ++ text) names := by
  intro before
  rcases hcode before with ⟨after, hafter⟩
  rw [hafter]
  exact h after

theorem of_passes {code : List Char} (hcode : x.Passes mark code) :
    x.Reads mark allowed code [] := by
  have h : x.Reads mark allowed (code ++ []) [] := nil.passes hcode
  rwa [List.append_nil] at h

/-- With a literal in front a text is read as one name more. -/
theorem literal {code written name text : List Char} {names : List (List Char)}
    (hopen : x.Opens mark true code) (hspell : x.Spells mark allowed written name)
    (h : x.Reads mark allowed text names) :
    x.Reads mark allowed (code ++ x.quote :: (written ++ x.quote :: text)) (name :: names) := by
  intro before
  rcases hopen before with ⟨after, hmark, hafter⟩
  rw [hafter, List.forall_mem_cons, ← h []]
  have hclosed : allowed name → x.scan mark (.literal after []) (written ++ x.quote :: text)
      = written :: x.scan mark (.code []) text := by
    intro hname
    rw [hspell.closes hname, hmark, if_pos rfl, List.nil_append]
  constructor
  · intro heq
    cases hscan : x.scan mark (.literal after []) (written ++ x.quote :: text) with
    | nil =>
        rw [hscan] at heq
        cases heq
    | cons raw others =>
        rw [hscan, List.map_cons, List.map_cons, List.cons.injEq] at heq
        -- The first literal denotes the name, so the name is allowed and the literal its own.
        have hname := hspell.allowed after text raw others hscan hmark heq.1
        rw [hclosed hname, List.cons.injEq] at hscan
        exact ⟨hname, by rw [hscan.2]; exact heq.2⟩
  · rintro ⟨hname, hrest⟩
    rw [hclosed hname, List.map_cons, List.map_cons, hspell.denotes hname, hrest]

/-- Parts that are each read as some names, whatever comes after them, are together read as all of
    their names. -/
theorem flatMap {ι : Type} {text : ι → List Char} {names : ι → List (List Char)} {parts : List ι}
    {rest : List Char} {others : List (List Char)}
    (hparts : ∀ part ∈ parts, ∀ rest others, x.Reads mark allowed rest others →
      x.Reads mark allowed (text part ++ rest) (names part ++ others))
    (h : x.Reads mark allowed rest others) :
    x.Reads mark allowed (parts.flatMap text ++ rest) (parts.flatMap names ++ others) := by
  induction parts with
  | nil => exact h
  | cons part parts ih =>
      rw [List.forall_mem_cons] at hparts
      rw [List.flatMap_cons, List.flatMap_cons, List.append_assoc, List.append_assoc]
      exact hparts.1 _ _ (ih hparts.2)

/-- What the literals of a text are, if the text is read as some names. -/
theorem literals_eq_iff {text : String} {names : List String}
    (h : x.Reads mark allowed text.toList (names.map (·.toList))) :
    x.literals mark text = names.map some ↔ ∀ name ∈ names, allowed name.toList := by
  have hinj : Function.Injective (Option.map String.ofList) :=
    Option.map_injective fun a b hab => String.ofList_inj.mp hab
  have hliterals : x.literals mark text
      = ((x.scan mark (.code []) text.toList).map x.denote?).map (Option.map String.ofList) := by
    rw [literals, List.map_map]
    rfl
  have hnames : names.map some
      = ((names.map (·.toList)).map some).map (Option.map String.ofList) := by
    simp [Function.comp_def]
  rw [hliterals, hnames, (List.map_injective_iff.mpr hinj).eq_iff, h [], List.forall_mem_map]

end Reads

end Reads

end LiteralRules

end PlatformBridge
