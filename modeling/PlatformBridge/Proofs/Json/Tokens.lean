import Mathlib.Data.List.Basic
import PlatformBridge.Json.Tree

/-!
# Documents from Their Tokens

A document is read off its tokens by a machine with a stack. The machine never
looks back: whatever the stack holds, it consumes the tokens of a document and
puts the document where the stack says. So the tokens that are written for a
document are the tokens of that document and no other, at any depth.

The stack is what makes the induction go through. Stated for the empty stack,
the result would say nothing about the parts of a document, which are read
while an array or an object is under way. `IsBuilt` is the statement for any
stack and any tokens that follow. Arrays and objects are then inductions over
what is left of them, with what was collected so far on the top of the stack,
in reverse.

Documents are nested in lists, so `byParts` is the induction that is used:
the hypothesis for an array is about each of its items.

## Main definitions

* `Json.Tree.tokens`: The tokens of a document.
* `Json.Tree.IsBuilt`: The tokens of a document put it where the stack says.

## Theorems

* `Json.Tree.byParts`: Induction over a document from its parts.
* `Json.Tree.run?_item`, `Json.Tree.run?_afterItem`,
  `Json.Tree.run?_afterMember`: Where a bracket opens and closes.
* `Json.Tree.run?_itemTokens`, `Json.Tree.run?_memberTokens`: What a bracket
  holds is collected.
* `Json.Tree.run?_tokens`: The tokens of a document put it where it belongs.
* `Json.Tree.ofTokens?_tokens`: A document is read off its tokens.
-/

namespace PlatformBridge

namespace Json

namespace Tree

mutual

/-- The tokens of a document. -/
def tokens : Tree → List Token
  | null => [.null]
  | bool b => [.bool b]
  | number n => [.number n]
  | string s => [.string s]
  | array items => .leftBracket :: [Token.comma].intercalate (itemTokens items) ++ [.rightBracket]
  | object members =>
    .leftBrace :: [Token.comma].intercalate (memberTokens members) ++ [.rightBrace]

/-- The tokens of every item. -/
def itemTokens : List Tree → List (List Token)
  | [] => []
  | t :: rest => tokens t :: itemTokens rest

/-- The tokens of every member. -/
def memberTokens : List (Option String × Tree) → List (List Token)
  | [] => []
  | (key, t) :: rest => (.string key :: .colon :: tokens t) :: memberTokens rest

end

/-- Induction over a document from its parts. -/
@[elab_as_elim]
theorem byParts {motive : Tree → Prop} (null : motive null) (bool : ∀ b, motive (bool b))
    (number : ∀ n, motive (number n)) (string : ∀ s, motive (string s))
    (array : ∀ items, (∀ t ∈ items, motive t) → motive (array items))
    (object : ∀ members, (∀ m ∈ members, motive m.2) → motive (object members)) :
    ∀ t, motive t
  | .null => null
  | .bool b => bool b
  | .number n => number n
  | .string s => string s
  | .array items => array items fun t _ => byParts null bool number string array object t
  | .object members => object members fun m _ => byParts null bool number string array object m.2
termination_by t => sizeOf t
decreasing_by
  · have hlt := List.sizeOf_lt_of_mem ‹t ∈ items›
    simp only [Tree.array.sizeOf_spec]
    omega
  · have hlt := List.sizeOf_lt_of_mem ‹m ∈ members›
    have hvalue : sizeOf m = 1 + sizeOf m.1 + sizeOf m.2 := by
      cases m
      rfl
    simp only [Tree.object.sizeOf_spec]
    omega

/-- The tokens of a document, whatever follows, put it where the stack says. -/
def IsBuilt (t : Tree) : Prop :=
  ∀ stack rest, (Builder.value stack).run? (t.tokens ++ rest) = (Builder.place t stack).run? rest

/-- No document starts with a closing bracket, so the first item of an array is read as any other.
    -/
theorem run?_item (t : Tree) (stack : List Frame) (rest : List Token) :
    (Builder.item stack).run? (t.tokens ++ rest)
      = (Builder.value (.array [] :: stack)).run? (t.tokens ++ rest) := by
  cases t <;> rfl

theorem exists_itemTokens_eq (first : Tree) (items : List Tree) :
    ∃ more, [Token.comma].intercalate (itemTokens (first :: items)) = first.tokens ++ more := by
  cases items with
  | nil => exact ⟨[], by rw [itemTokens, itemTokens, List.intercalate_singleton, List.append_nil]⟩
  | cons next items =>
      rw [itemTokens, itemTokens, List.intercalate_cons_cons, List.append_assoc]
      exact ⟨_, rfl⟩

/-- A closing bracket ends the collection, and the item before it was the last. -/
theorem run?_afterItem (t : Tree) (found : List Tree) (stack : List Frame) (rest : List Token) :
    (Builder.place t (.array found :: stack)).run? (.rightBracket :: rest)
      = (Builder.place (.array (found.reverse ++ [t])) stack).run? rest := by
  rw [← List.reverse_cons]
  rfl

/-- The same for a closing brace and the member before it. -/
theorem run?_afterMember (key : Option String) (t : Tree) (found : List (Option String × Tree))
    (stack : List Frame) (rest : List Token) :
    (Builder.place t (.member found key :: stack)).run? (.rightBrace :: rest)
      = (Builder.place (.object (found.reverse ++ [(key, t)])) stack).run? rest := by
  rw [← List.reverse_cons]
  rfl

/-- What the brackets of an array hold is collected item by item. -/
theorem run?_itemTokens (stack : List Frame) (rest : List Token) (items : List Tree) :
    ∀ first found, first.IsBuilt → (∀ t ∈ items, t.IsBuilt) →
      (Builder.value (.array found :: stack)).run?
          ([Token.comma].intercalate (itemTokens (first :: items)) ++ .rightBracket :: rest)
        = (Builder.place (.array (found.reverse ++ first :: items)) stack).run? rest := by
  induction items with
  | nil =>
      intro first found hfirst _
      rw [itemTokens, itemTokens, List.intercalate_singleton, hfirst, run?_afterItem]
  | cons next items ih =>
      intro first found hfirst hitems
      have hrest := ih next (first :: found) (hitems next List.mem_cons_self)
        fun t ht => hitems t (List.mem_cons_of_mem next ht)
      rw [List.reverse_cons, List.append_assoc, List.singleton_append] at hrest
      rw [itemTokens, itemTokens, List.intercalate_cons_cons, ← itemTokens, List.append_assoc,
        List.append_assoc, hfirst, ← hrest]
      rfl

/-- What the braces of an object hold is collected member by member. -/
theorem run?_memberTokens (stack : List Frame) (rest : List Token)
    (members : List (Option String × Tree)) :
    ∀ key first found mayClose, first.IsBuilt → (∀ m ∈ members, m.2.IsBuilt) →
      (Builder.nextKey found mayClose stack).run?
          ([Token.comma].intercalate (memberTokens ((key, first) :: members))
            ++ .rightBrace :: rest)
        = (Builder.place (.object (found.reverse ++ (key, first) :: members)) stack).run? rest := by
  induction members with
  | nil =>
      intro key first found mayClose hfirst _
      rw [memberTokens, memberTokens, List.intercalate_singleton, ← run?_afterMember, ← hfirst]
      rfl
  | cons next members ih =>
      intro key first found mayClose hfirst hmembers
      have hrest := ih next.1 next.2 ((key, first) :: found) false
        (hmembers next List.mem_cons_self) fun m hm => hmembers m (List.mem_cons_of_mem next hm)
      rw [List.reverse_cons, List.append_assoc, List.singleton_append] at hrest
      have hvalue := hfirst (.member found key :: stack) (.comma ::
        ([Token.comma].intercalate (memberTokens ((next.1, next.2) :: members))
          ++ .rightBrace :: rest))
      rw [memberTokens, memberTokens, List.intercalate_cons_cons, ← memberTokens, List.append_assoc,
        List.append_assoc, ← hrest]
      exact hvalue

/-- The tokens of a document put it where the stack says. -/
theorem run?_tokens (t : Tree) : t.IsBuilt := by
  induction t using byParts with
  | null =>
      intro stack rest
      rfl
  | bool b =>
      intro stack rest
      rfl
  | number n =>
      intro stack rest
      rfl
  | string s =>
      intro stack rest
      rfl
  -- The tokens of the items are scanned one item after the other, with a comma or the closing
  -- bracket behind each.
  | array items ih =>
      intro stack rest
      cases items with
      | nil => rfl
      | cons first items =>
          have hitems := run?_itemTokens stack rest items first []
            (ih first List.mem_cons_self) fun t ht => ih t (List.mem_cons_of_mem first ht)
          rcases exists_itemTokens_eq first items with ⟨more, hmore⟩
          rw [hmore, List.append_assoc, ← run?_item, List.reverse_nil, List.nil_append] at hitems
          rw [tokens, hmore, List.append_assoc, List.cons_append, List.append_assoc, ← hitems]
          rfl
  | object members ih =>
      intro stack rest
      cases members with
      | nil => rfl
      | cons first members =>
          have hmembers := run?_memberTokens stack rest members first.1 first.2 [] true
            (ih first List.mem_cons_self) fun m hm => ih m (List.mem_cons_of_mem first hm)
          rw [List.reverse_nil, List.nil_append] at hmembers
          rw [tokens, List.append_assoc, List.cons_append, ← hmembers]
          rfl

/-- A document is read off its tokens. -/
theorem ofTokens?_tokens (t : Tree) : ofTokens? t.tokens = some t := by
  have h := run?_tokens t [] []
  rw [List.append_nil] at h
  rw [ofTokens?, h]
  rfl

end Tree

end Json

end PlatformBridge
