import PlatformBridge.Proofs.Dart.Encoding
import PlatformBridge.Proofs.Dart.Names
import PlatformBridge.Proofs.Text.Literals

/-!
# Calls of the Shared Library

The generated classes call some functions of the shared library by their
names. Which ones some code calls is read off its characters: a name is called
where it stands right in front of a parenthesis, outside of all literals, and
not behind the dot of some other name. Reading goes from one character to the
next, so code is read in parts, and what matters of a part is what it calls
and where it leaves the reader.

A class that has a member with the name of such a function calls its member
instead. Which functions are called in the code of a class therefore decides
which names its members may not have, and this is read off the code that is
written, rather than off the functions that write it.

Code is put together from expressions: something comes in front of one, and
something behind it. `IsExpression` leaves open where the reader is at the end
of an expression, as a name may still be read on, and asks of what comes next
that it ends the name without a call. This is `Separates` and `Closes`, for
code between two expressions and behind one. With `Opens` for the code in
front, the laws below compose these as the code is composed, and the fixed
pieces of code are decided by running through them.

Conversions are expressions: whatever comes behind one does not belong to it.
A conversion calls one function for each layer of its type, or none, and which
one depends on the type alone. `decoders` and `encoders` list these functions
by recursion on the type, as the conversions are written.

## Main definitions

* `Dart.bridgeFunctions`: The functions.
* `Dart.Place`, `Dart.calledFrom`, `Dart.calledIn`: The reader, and the
  functions that some lines call.
* `Dart.Runs`: What a part of some code calls, and where it leaves the reader.
* `Dart.IsExpression`, `Dart.Opens`, `Dart.Separates`, `Dart.Closes`:
  Expressions, and the code in front of, between and behind them.
* `Dart.LinesCall`: What some lines call.
* `BridgeType.decoders`, `BridgeType.encoders`: The functions that the
  conversions of a type call.

## Theorems

* `Dart.Runs.append`: Code is read in parts.
* `Dart.runs_word`, `Dart.runs_separator`, `Dart.runs_parenthesis`,
  `Dart.runs_member`, `Dart.runs_quiet`, `Dart.runs_literal`: What parts of
  code call.
* `Dart.IsExpression.between`, `Dart.IsExpression.then`: Code around an
  expression.
* `Dart.isExpression_word`, `Dart.isExpression_literal`,
  `Dart.isExpression_intercalate`: Kinds of expressions.
* `Dart.LinesCall.append`, `Dart.LinesCall.flatMap`: Lines after lines.
* `Dart.typeIdentifier_not_mem_bridgeFunctions`: Classes have other names.
* `BridgeType.isExpression_dartDecode`, `BridgeType.isExpression_dartEncode`:
  Conversions.
-/

namespace PlatformBridge

namespace Dart

/-- The functions of the shared library that the generated classes call. -/
def bridgeFunctions : List String :=
  ["callEnvelope", "unwrapReply", "encodeNullable", "decodeNullable", "decodeList", "decodeMap"]

-- No parameter of a method may have one of these names.
example : methodLocals = "result" :: bridgeFunctions := rfl

/-- A character of a name, or a dot in front of the name of a member. -/
def isWordChar (c : Char) : Bool := c.isAlphanum || c = '_' || c = '$' || c = '.'

section Reading

/-- Where the reader of some code is: behind some characters of names, or none; inside a literal; or
    behind a backslash in one. -/
inductive Place where
  | code (word : List Char)
  | literal
  | escape
  deriving DecidableEq, Repr

namespace Place

/-- In front of something new. -/
def fresh : Place := code []

/-- Where a character leads. -/
def next : Place → Char → Place
  | code word, c => if c = '\'' then literal else if isWordChar c then code (word ++ [c]) else fresh
  | literal, c => if c = '\\' then escape else if c = '\'' then fresh else literal
  | escape, _ => literal

/-- The function that a character is the call of. -/
def call? : Place → Char → Option String
  | code word, c =>
    if c = '(' && bridgeFunctions.contains (String.ofList word) then some (String.ofList word)
    else none
  | _, _ => none

end Place

/-- The functions that some code calls, one for each call, in their order. -/
def calledFrom : Place → List Char → List String
  | _, [] => []
  | place, c :: rest => (place.call? c).toList ++ calledFrom (place.next c) rest

/-- The functions that some lines call. -/
def calledIn (lines : List String) : List String :=
  calledFrom .fresh (LiteralRules.inLines lines)

-- A name in a literal is not called, and neither is a member of that name.
example : calledIn ["decodeMap(of.decodeList('unwrapReply('), (v0) => v0)"] = ["decodeMap"] := by
  decide

/-- Some code that is read from one place to another, and what it calls. -/
structure Runs (place : Place) (code : List Char) (functions : List String) (last : Place) :
    Prop where
  called : calledFrom place code = functions
  ends : code.foldl Place.next place = last

instance (place last : Place) (code : List Char) (functions : List String) :
    Decidable (Runs place code functions last) :=
  decidable_of_iff (calledFrom place code = functions ∧ code.foldl Place.next place = last)
    ⟨fun h => ⟨h.1, h.2⟩, fun h => ⟨h.called, h.ends⟩⟩

variable {place middle last : Place} {code more : List Char} {functions others : List String}

theorem Runs.nil : Runs place [] [] place := ⟨rfl, rfl⟩

/-- Code is read in parts. -/
theorem Runs.append (h : Runs place code functions middle) (hmore : Runs middle more others last) :
    Runs place (code ++ more) (functions ++ others) last := by
  refine ⟨?_, by rw [List.foldl_append, h.ends, hmore.ends]⟩
  rw [← h.called, ← hmore.called, ← h.ends]
  clear h hmore
  induction code generalizing place with
  | nil => rfl
  | cons c rest ih =>
      rw [List.cons_append, calledFrom, ih, calledFrom, List.append_assoc, List.foldl_cons]

theorem Runs.cons {c : Char} (hcall : place.call? c = none)
    (h : Runs (place.next c) code functions last) : Runs place (c :: code) functions last := by
  refine ⟨?_, by rw [List.foldl_cons, h.ends]⟩
  rw [calledFrom, hcall, h.called]
  rfl

variable (word : List Char)

/-- Only a parenthesis makes a call. -/
theorem call?_of_ne {c : Char} (h : c ≠ '(') : (Place.code word).call? c = none := by
  rw [Place.call?, decide_eq_false h, Bool.false_and, if_neg Bool.false_ne_true]

/-- A name is read on. -/
theorem runs_word (text : List Char) (h : ∀ c ∈ text, isWordChar c = true) :
    Runs (.code word) text [] (.code (word ++ text)) := by
  induction text generalizing word with
  | nil => rw [List.append_nil]; exact .nil
  | cons c rest ih =>
      rw [List.forall_mem_cons] at h
      have hnext : (Place.code word).next c = .code (word ++ [c]) := by
        rw [Place.next, if_neg (Text.ne_of_class h.1 (by decide)), if_pos h.1]
      have hrest := ih (word ++ [c]) h.2
      rw [List.append_assoc, List.singleton_append] at hrest
      exact .cons (call?_of_ne word (Text.ne_of_class h.1 (by decide))) (hnext ▸ hrest)

/-- A character that ends a name without calling it. -/
def isSeparator (c : Char) : Bool := !isWordChar c && c ≠ '\'' && c ≠ '('

/-- What ends a name without calling it leaves the reader in front of something new. -/
theorem runs_separator (c : Char) (hc : isSeparator c = true)
    (h : Runs .fresh code functions last) : Runs (.code word) (c :: code) functions last := by
  rw [isSeparator, Bool.and_eq_true, Bool.and_eq_true, Bool.not_eq_true', decide_eq_true_eq,
    decide_eq_true_eq] at hc
  have hnext : (Place.code word).next c = .fresh := by
    rw [Place.next, if_neg hc.1.2, hc.1.1, if_neg Bool.false_ne_true]
  exact .cons (call?_of_ne word hc.2) (hnext ▸ h)

/-- A parenthesis behind another name calls none of the functions. -/
theorem runs_parenthesis (h : String.ofList word ∉ bridgeFunctions) :
    Runs (.code word) ['('] [] .fresh := by
  have hcontains : bridgeFunctions.contains (String.ofList word) = false :=
    Bool.eq_false_iff.mpr fun hmem => h (List.contains_iff_mem.mp hmem)
  have hcall : (Place.code word).call? '(' = none := by
    rw [Place.call?, hcontains, Bool.and_false, if_neg Bool.false_ne_true]
  exact .cons hcall .nil

/-- A member of something is none of the functions. -/
theorem runs_member (member : List Char) (hmember : ∀ c ∈ member, isWordChar c = true)
    (h : Runs .fresh code functions last) :
    Runs (.code word) ('.' :: (member ++ '(' :: code)) functions last := by
  have hdot : ∀ f ∈ bridgeFunctions, '.' ∉ f.toList := by decide
  have hother : String.ofList (word ++ '.' :: member) ∉ bridgeFunctions := by
    intro hmem
    refine hdot _ hmem ?_
    rw [String.toList_ofList]
    exact List.mem_append_right _ List.mem_cons_self
  have hword := runs_word word ('.' :: member)
    (List.forall_mem_cons.mpr ⟨by decide, hmember⟩)
  exact hword.append ((runs_parenthesis _ hother).append h)

/-- A character that neither makes a call nor starts a literal. -/
def isQuiet (c : Char) : Bool := c ≠ '(' && c ≠ '\''

/-- Code without parentheses and literals calls nothing. -/
theorem runs_quiet (text : List Char) (h : ∀ c ∈ text, isQuiet c = true) :
    ∃ word', Runs (.code word) text [] (.code word') := by
  induction text generalizing word with
  | nil => exact ⟨word, .nil⟩
  | cons c rest ih =>
      rw [List.forall_mem_cons, isQuiet, Bool.and_eq_true, decide_eq_true_eq,
        decide_eq_true_eq] at h
      have hcall := call?_of_ne word h.1.1
      cases hc : isWordChar c with
      | true =>
          rcases ih (word ++ [c]) h.2 with ⟨word', hrest⟩
          refine ⟨word', .cons hcall ?_⟩
          rw [Place.next, if_neg h.1.2, hc, if_pos rfl]
          exact hrest
      | false =>
          rcases ih [] h.2 with ⟨word', hrest⟩
          refine ⟨word', .cons hcall ?_⟩
          rw [Place.next, if_neg h.1.2, hc, if_neg Bool.false_ne_true]
          exact hrest

-- Inside a literal a backslash stands in front of whatever could end it.
theorem runs_escape (text : List Char) :
    Runs .literal (text.flatMap escape ++ ['\'']) [] .fresh := by
  induction text with
  | nil => exact .cons rfl .nil
  | cons c rest ih =>
      rw [List.flatMap_cons, escape, List.append_assoc]
      split
      · have hescaped : Runs .escape (c :: (rest.flatMap escape ++ ['\''])) [] .fresh :=
          .cons rfl ih
        exact Runs.cons rfl hescaped
      · rename_i hc
        simp only [Bool.or_eq_true, decide_eq_true_eq, not_or] at hc
        refine .cons rfl ?_
        rw [Place.next, if_neg hc.1.2, if_neg hc.1.1]
        exact ih

/-- A literal calls nothing. -/
theorem runs_literal (text : String) : Runs (.code word) (literal text).toList [] .fresh := by
  rw [literal, String.toList_ofList, List.cons_append]
  exact .cons (call?_of_ne word (by decide)) (runs_escape text.toList)

end Reading

section Expressions

/-- Code behind which something new starts, as long as no name is read on. -/
def IsExpression (code : String) (functions : List String) : Prop :=
  ∃ word, Runs .fresh code.toList functions (.code word)

/-- Code in front of an expression. -/
def Opens (code : String) (functions : List String) : Prop :=
  Runs .fresh code.toList functions .fresh

/-- Code between two expressions. -/
def Separates (code : String) : Prop := ∀ word, Runs (.code word) code.toList [] .fresh

/-- Code behind an expression. -/
def Closes (code : String) : Prop :=
  ∀ word, ∃ word', Runs (.code word) code.toList [] (.code word')

variable {opening separator closing value : String} {functions others : List String}

theorem Opens.isExpression (h : Opens opening functions) : IsExpression opening functions :=
  ⟨[], h⟩

theorem Separates.closes (h : Separates separator) : Closes separator := fun word => ⟨[], h word⟩

theorem Opens.append (h : Opens opening functions) (hmore : Opens value others) :
    Opens (opening ++ value) (functions ++ others) := by
  rw [Opens, String.toList_append]
  exact Runs.append h hmore

/-- An expression is read in front of the next one. -/
theorem IsExpression.opens (hvalue : IsExpression value functions)
    (hseparator : Separates separator) : Opens (value ++ separator) functions := by
  rcases hvalue with ⟨word, hvalue⟩
  rw [Opens, String.toList_append, ← List.append_nil functions]
  exact hvalue.append (hseparator word)

/-- Code in front of an expression, the expression, and what separates it from the next are read as
    one. -/
theorem Opens.then (h : Opens opening functions) (hvalue : IsExpression value others)
    (hseparator : Separates separator) :
    Opens (opening ++ value ++ separator) (functions ++ others) := by
  rw [String.append_assoc]
  exact h.append (hvalue.opens hseparator)

/-- Code around an expression makes it another. -/
theorem IsExpression.between (hvalue : IsExpression value others) (h : Opens opening functions)
    (hclosing : Closes closing) :
    IsExpression (opening ++ value ++ closing) (functions ++ others) := by
  rcases hvalue with ⟨word, hvalue⟩
  rcases hclosing word with ⟨word', hclosing⟩
  refine ⟨word', ?_⟩
  rw [String.toList_append, String.toList_append, ← List.append_nil (functions ++ others)]
  exact (Runs.append h hvalue).append hclosing

/-- An expression with code behind it is an expression. -/
theorem IsExpression.then (hvalue : IsExpression value functions) (hclosing : Closes closing) :
    IsExpression (value ++ closing) functions := by
  have hempty : Opens "" [] := .nil
  have hbetween := hvalue.between hempty hclosing
  rwa [String.empty_append] at hbetween

instance : Decidable (Opens opening functions) :=
  inferInstanceAs (Decidable (Runs .fresh opening.toList functions .fresh))

-- Code that starts with what ends a name.
theorem separates_fixed {c : Char} {rest : List Char} (hc : isSeparator c = true)
    (h : Runs .fresh rest [] .fresh) : Separates (String.ofList (c :: rest)) := by
  intro word
  rw [String.toList_ofList]
  exact runs_separator word c hc h

-- Code that starts with a call of a member.
theorem separates_member (member : List Char) {rest : List Char}
    (hmember : member.all isWordChar = true) (h : Runs .fresh rest [] .fresh) :
    Separates (String.ofList ('.' :: (member ++ '(' :: rest))) := by
  intro word
  rw [String.toList_ofList]
  exact runs_member word member (List.all_eq_true.mp hmember) h

/-- A name is an expression. -/
theorem isExpression_word (h : Text.All isWordChar value) : IsExpression value [] :=
  ⟨value.toList, runs_word [] value.toList h⟩

/-- So is code without parentheses and literals. -/
theorem isExpression_quiet (h : Text.All isQuiet value) : IsExpression value [] :=
  runs_quiet [] value.toList h

/-- And so is a literal, whatever is written in it. -/
theorem isExpression_literal (text : String) : IsExpression (literal text) [] :=
  ⟨[], runs_literal [] text⟩

/-- Expressions with commas between them. -/
theorem isExpression_intercalate {ι : Type} (text : ι → String) (called : ι → List String)
    (items : List ι) (h : ∀ i ∈ items, IsExpression (text i) (called i)) :
    IsExpression (", ".intercalate (items.map text)) (items.flatMap called) := by
  induction items with
  | nil => exact ⟨[], .nil⟩
  | cons i rest ih =>
      rw [List.forall_mem_cons] at h
      cases rest with
      | nil => simpa using h.1
      | cons next others =>
          have hrest := ih h.2
          rw [List.map_cons] at hrest ⊢
          rw [List.map_cons, String.intercalate_cons_cons, List.flatMap_cons]
          have hcomma : Separates ", " := separates_fixed (by decide) (by decide)
          have hempty : Closes "" := fun word => ⟨word, .nil⟩
          have hall := hrest.between (h.1.opens hcomma) hempty
          rwa [String.append_empty] at hall

/-- Some lines, each of which is an expression as far as calls go. -/
def LinesCall (lines functions : List String) : Prop :=
  Runs .fresh (LiteralRules.inLines lines) functions .fresh

instance (lines functions : List String) : Decidable (LinesCall lines functions) :=
  inferInstanceAs (Decidable (Runs .fresh (LiteralRules.inLines lines) functions .fresh))

namespace LinesCall

variable {line : String} {lines more : List String}

theorem nil : LinesCall [] [] := Runs.nil

theorem cons (hline : IsExpression line functions) (h : LinesCall lines others) :
    LinesCall (line :: lines) (functions ++ others) := by
  rcases hline with ⟨word, hline⟩
  rw [LinesCall, LiteralRules.inLines_cons]
  exact hline.append (runs_separator word _ (by decide) h)

theorem singleton (hline : IsExpression line functions) : LinesCall [line] functions := by
  rw [← List.append_nil functions]
  exact cons hline nil

theorem append (h : LinesCall lines functions) (hmore : LinesCall more others) :
    LinesCall (lines ++ more) (functions ++ others) := by
  rw [LinesCall, LiteralRules.inLines_append]
  exact Runs.append h hmore

theorem flatMap {ι : Type} {code : ι → List String} {called : ι → List String} {items : List ι}
    (h : ∀ i ∈ items, LinesCall (code i) (called i)) :
    LinesCall (items.flatMap code) (items.flatMap called) := by
  induction items with
  | nil => exact nil
  | cons i rest ih =>
      rw [List.forall_mem_cons] at h
      exact append h.1 (ih h.2)

theorem map {ι : Type} {code : ι → String} {called : ι → List String} {items : List ι}
    (h : ∀ i ∈ items, IsExpression (code i) (called i)) :
    LinesCall (items.map code) (items.flatMap called) := by
  rw [List.map_eq_flatMap]
  exact flatMap fun i hi => singleton (h i hi)

/-- Lines without parentheses and literals call nothing. -/
theorem quiet (h : ∀ line ∈ lines, Text.All isQuiet line) : LinesCall lines [] := by
  induction lines with
  | nil => exact nil
  | cons line rest ih =>
      rw [List.forall_mem_cons] at h
      exact cons (isExpression_quiet h.1) (ih h.2)

end LinesCall

end Expressions

section Names

theorem isWordChar_of_isAlphanum {c : Char} (h : c.isAlphanum = true) : isWordChar c = true := by
  simp only [isWordChar, h, Bool.true_or]

theorem isQuiet_of_isWordChar {c : Char} (h : isWordChar c = true) : isQuiet c = true := by
  rw [isQuiet, decide_eq_true (Text.ne_of_class h (by decide)),
    decide_eq_true (Text.ne_of_class h (by decide))]
  rfl

theorem isWord_repr (n : Nat) : Text.All isWordChar n.repr :=
  (Text.isAlphanum_repr n).imp fun _ => isWordChar_of_isAlphanum

theorem isWord_dartVariable (depth : Nat) : Text.All isWordChar (BridgeType.dartVariable depth) :=
  Text.all_append.mpr ⟨Text.all_fixed rfl, isWord_repr depth⟩

theorem isWord_typeIdentifier (name : TypeName) : Text.All isWordChar (typeIdentifier name) :=
  fun c hc => isWordChar_of_isAlphanum ((Spelling.isPascal_pascalCase _).alphanum c hc)

/-- The name of a member or parameter can be read as a name. -/
theorem IsMemberName.isWord {taken : List String} {name : String} (h : IsMemberName taken name) :
    Text.All isWordChar name := by
  rcases h.spelled with ⟨_, ⟨c, rest, rfl, hlower, hrest⟩, hname⟩
  have hword : ∀ d ∈ c :: rest, isWordChar d = true := List.forall_mem_cons.mpr
    ⟨isWordChar_of_isAlphanum (Text.isAlphanum_of_isLower c hlower),
      fun d hd => isWordChar_of_isAlphanum (hrest d hd)⟩
  rcases hname with hname | hname
  · exact fun d hd => hword d (hname ▸ hd)
  · intro d hd
    rw [hname, List.mem_append, List.mem_singleton] at hd
    rcases hd with hd | rfl
    · exact hword d hd
    · decide

/-- The name of a getter can be read as a name. -/
theorem IsGetterName.isWord {name : String} (h : IsGetterName name) :
    Text.All isWordChar name := by
  rcases h with ⟨rest, hname, hrest⟩
  rw [Text.All, hname, List.forall_mem_cons, List.forall_mem_cons]
  exact ⟨by decide, by decide, fun c hc => isWordChar_of_isAlphanum (hrest c hc)⟩

/-- No class is called like one of the functions, since these start with small letters. -/
theorem typeIdentifier_not_mem_bridgeFunctions (name : TypeName) :
    typeIdentifier name ∉ bridgeFunctions := by
  have hlower : ∀ f ∈ bridgeFunctions, f.toList.head?.any Char.isLower = true := by decide
  intro hmem
  have hhead := (Spelling.isPascal_pascalCase name.simple).head
  have hfirst := hlower _ hmem
  rw [typeIdentifier] at hfirst
  cases hc : (Spelling.pascalCase name.simple).toList.head? with
  | none =>
      rw [hc] at hfirst
      cases hfirst
  | some c =>
      rw [hc, Option.any_some, hhead c hc] at hfirst
      cases hfirst

end Names

end Dart

namespace BridgeType

open Dart

/-- The functions that the conversion of a wire value to a value of the type calls. -/
def decoders : BridgeType → List String
  | nullable inner => "decodeNullable" :: inner.decoders
  | list element => "decodeList" :: element.decoders
  | map value => "decodeMap" :: value.decoders
  | _ => []

/-- The functions that the conversion of a value of the type to its wire form calls. Parts are
    converted where they are, unless they may be absent. -/
def encoders : BridgeType → List String
  | nullable inner => if inner.named? = none then [] else "encodeNullable" :: inner.encoders
  | list element => element.encoders
  | map value => value.encoders
  | _ => []

/-- A value without data types in it is its own wire form, and nothing is called for it. -/
theorem encoders_of_named?_eq_none (type : BridgeType) (h : type.named? = none) :
    type.encoders = [] := by
  induction type with
  | primitive p | data name | enum name => rfl
  | nullable inner ih => exact if_pos h
  | list inner ih | map inner ih => exact ih h

theorem isQuiet_inDart (type : BridgeType) : Text.All isQuiet type.inDart := by
  have hclass : ∀ name, Text.All isQuiet (typeIdentifier name) := fun name =>
    (isWord_typeIdentifier name).imp fun _ => isQuiet_of_isWordChar
  induction type with
  | primitive p => cases p <;> exact Text.all_fixed rfl
  | nullable inner ih =>
      change Text.All isQuiet (inner.inDart ++ "?")
      exact Text.all_append.mpr ⟨ih, Text.all_fixed rfl⟩
  | list element ih =>
      change Text.All isQuiet ("List<" ++ element.inDart ++ ">")
      exact Text.all_append.mpr ⟨Text.all_append.mpr ⟨Text.all_fixed rfl, ih⟩, Text.all_fixed rfl⟩
  | map value ih =>
      change Text.All isQuiet ("Map<String, " ++ value.inDart ++ ">")
      exact Text.all_append.mpr ⟨Text.all_append.mpr ⟨Text.all_fixed rfl, ih⟩, Text.all_fixed rfl⟩
  | data name | enum name => exact hclass name

section Conversions

variable {value : String}

theorem isExpression_dartVariable (depth : Nat) : IsExpression (dartVariable depth) [] :=
  isExpression_word (isWord_dartVariable depth)

-- The first parts of all conversions that call a function, up to what is converted in turn.
theorem opens_parts {functions : List String} (opening : String)
    (hopening : Opens opening functions) (hvalue : IsExpression value []) (depth : Nat) :
    Opens (opening ++ value ++ ", (" ++ dartVariable depth ++ ") => ") functions := by
  have hcomma : Separates ", (" := separates_fixed (by decide) (by decide)
  have harrow : Separates ") => " := separates_fixed (by decide) (by decide)
  have hall := (hopening.then hvalue hcomma).then (isExpression_dartVariable depth) harrow
  rwa [List.append_nil, List.append_nil] at hall

theorem closes_parenthesis : Closes ")" :=
  (separates_fixed (by decide) (by decide)).closes

-- Behind a class comes its constructor or, for an enumeration, a function of its own.
theorem isExpression_member (name : TypeName) (member : String) (hmember : Separates member)
    (hvalue : IsExpression value []) :
    IsExpression (typeIdentifier name ++ member ++ value ++ ")") [] := by
  have hclass := (isExpression_word (isWord_typeIdentifier name)).opens hmember
  exact hvalue.between hclass closes_parenthesis

-- A conversion of parts, with the function that it calls in front.
theorem isExpression_parts {functions others : List String} {part : String} (opening : String)
    (hopening : Opens opening functions) (hvalue : IsExpression value []) (depth : Nat)
    (hpart : IsExpression part others) :
    IsExpression (opening ++ value ++ ", (" ++ dartVariable depth ++ ") => " ++ part ++ ")")
      (functions ++ others) :=
  hpart.between (opens_parts opening hopening hvalue depth) closes_parenthesis

/-- The conversion of a wire value calls a function for each layer. -/
theorem isExpression_dartDecode (type : BridgeType) (depth : Nat) (hvalue : IsExpression value []) :
    IsExpression (type.dartDecode value depth) type.decoders := by
  induction type generalizing value depth with
  | primitive p =>
      have hopening : Opens "(" [] := by decide
      have hcast : ∀ closing, Separates closing → IsExpression ("(" ++ value ++ closing) [] :=
        fun closing hclosing => hvalue.between hopening hclosing.closes
      -- The types of the contract are read by three casts, and a value that is cast calls nothing.
      cases p with
      | bool =>
          exact hcast " as bool)" (separates_fixed (by decide) (by decide))
      | u8 | i8 | i16 | i32 | i64 =>
          exact hcast " as num).toInt()" (separates_fixed (by decide) (by decide))
      | f32 | f64 =>
          exact hcast " as num).toDouble()" (separates_fixed (by decide) (by decide))
      | char | string =>
          exact hcast " as String)" (separates_fixed (by decide) (by decide))
  | nullable inner ih =>
      have hopening : Opens "decodeNullable(" ["decodeNullable"] := by decide
      have hall := isExpression_parts _ hopening hvalue depth
        (ih (depth + 1) (isExpression_dartVariable depth))
      exact hall
  | list inner ih =>
      have hopening : Opens "decodeList(" ["decodeList"] := by decide
      have hall := isExpression_parts _ hopening hvalue depth
        (ih (depth + 1) (isExpression_dartVariable depth))
      exact hall
  | map inner ih =>
      have hopening : Opens "decodeMap(" ["decodeMap"] := by decide
      have hall := isExpression_parts _ hopening hvalue depth
        (ih (depth + 1) (isExpression_dartVariable depth))
      exact hall
  | data name =>
      have hall := isExpression_member name ".fromJson("
        (separates_member "fromJson".toList (by decide) .nil) hvalue
      exact hall
  | enum name =>
      have hall := isExpression_member name ".fromWire("
        (separates_member "fromWire".toList (by decide) .nil) hvalue
      exact hall

/-- The functions that the converter of a layer calls. -/
def layerEncoders : Layer → List String
  | .nullable => ["encodeNullable"]
  | _ => []

/-- The converter of a layer calls its functions and those of what is inside. -/
theorem isExpression_converter (layer : Layer) (depth : Nat) {part : String}
    {functions : List String} (hvalue : IsExpression value [])
    (hpart : IsExpression part functions) :
    IsExpression (layer.converter value depth part) (layerEncoders layer ++ functions) := by
  have hmap : Separates ".map((" :=
    separates_member "map".toList (by decide) (by decide)
  have harrow : Separates ") => " := separates_fixed (by decide) (by decide)
  cases layer with
  | nullable =>
      have hopening : Opens "encodeNullable(" ["encodeNullable"] := by decide
      have hall := isExpression_parts _ hopening hvalue depth hpart
      exact hall
  | list =>
      have hclosing : Closes ").toList()" :=
        (separates_fixed (by decide) (by decide)).closes
      have hopening := (hvalue.opens hmap).then (isExpression_dartVariable depth) harrow
      exact hpart.between hopening hclosing
  | map =>
      have hcomma : Separates ", " :=
        separates_fixed (by decide) (by decide)
      have hentry : Separates ") => MapEntry(" :=
        separates_fixed (by decide) (by decide)
      have hclosing : Closes "))" :=
        (separates_fixed (by decide) (by decide)).closes
      have hkey : IsExpression ("k" ++ toString depth) [] :=
        isExpression_word (Text.all_append.mpr ⟨Text.all_fixed rfl, isWord_repr depth⟩)
      have hopening := (((hvalue.opens hmap).then hkey hcomma).then
        (isExpression_dartVariable depth) hentry).then hkey hcomma
      have hall := hpart.between hopening hclosing
      -- The text is the same, but for how its fixed parts are cut.
      have htext : value ++ ".map((" ++ ("k" ++ toString depth) ++ ", " ++ dartVariable depth
          ++ ") => MapEntry(" ++ ("k" ++ toString depth) ++ ", " ++ part ++ "))"
          = Layer.map.converter value depth part := by
        have hbound : ".map((k" = ".map((" ++ "k" := by decide
        have hkept : ") => MapEntry(k" = ") => MapEntry(" ++ "k" := by decide
        unfold Layer.converter
        simp only [hbound, hkept, String.append_assoc]
      rw [← htext]
      exact hall

/-- The conversion of a value to its wire form calls a function for each layer of absent values, if
    there is something to convert inside. -/
theorem isExpression_dartEncode (type : BridgeType) (depth : Nat) (hvalue : IsExpression value []) :
    IsExpression (type.dartEncode value depth) type.encoders := by
  by_cases hnamed : type.named? = none
  · rw [type.dartEncode_of_named?_eq_none value depth hnamed,
      type.encoders_of_named?_eq_none hnamed]
    exact hvalue
  -- A type with a name in it is converted layer by layer, and only a layer that may be absent calls
  -- a function.
  · induction type generalizing value depth with
    | primitive p => exact absurd rfl hnamed
    | nullable inner ih =>
        have hall := isExpression_converter .nullable depth hvalue
          (ih (depth + 1) (isExpression_dartVariable depth) hnamed)
        rw [← dartEncode_around .nullable inner value depth hnamed] at hall
        have hinner : inner.named? ≠ none := hnamed
        rw [encoders, if_neg hinner]
        exact hall
    | list inner ih =>
        have hall := isExpression_converter .list depth hvalue
          (ih (depth + 1) (isExpression_dartVariable depth) hnamed)
        rw [← dartEncode_around .list inner value depth hnamed] at hall
        exact hall
    | map inner ih =>
        have hall := isExpression_converter .map depth hvalue
          (ih (depth + 1) (isExpression_dartVariable depth) hnamed)
        rw [← dartEncode_around .map inner value depth hnamed] at hall
        exact hall
    | data name =>
        have hclosing : Separates ".toJson()" :=
          separates_member "toJson".toList (by decide) (by decide)
        exact hvalue.then hclosing.closes
    | enum name =>
        have hword : Text.All isWordChar ".wireName" := Text.all_fixed rfl
        have hclosing : Closes ".wireName" := fun word => ⟨_, runs_word word _ hword⟩
        exact hvalue.then hclosing

end Conversions

end BridgeType

end PlatformBridge
