import PlatformBridge.Proofs.Json.Scanning
import PlatformBridge.Proofs.Json.Tokens
import PlatformBridge.Proofs.Wire.Members
import PlatformBridge.Proofs.Wire.Parts

/-!
# Values as Documents

The document that is written for a value. It holds what the value holds, in
the same order. Reading it as a plain value gives the members of objects back
in the order of their keys, which is the one thing that is lost, provided that
keys are distinct, that the numbers in it are legible, and that it does not
nest too deep.

A document is what is in a text before anything is made of it: members as
they come, with keys that may be repeated, and numerals that have not been
read as numbers. Values are made of documents, and domain types are made of
documents too, without a value in between. So there are two things to be
proved of a text, which document is in it and what is made of this document,
and this module is where the first ends and the second begins.

How deep a value nests decides alone whether its document can be read, so the
limit of the reader is met here as a number, and nothing after this counts
brackets again. The lemmas about depth are stated as bounds and not as
equations, because the limit is a bound, and a bound on an array is a bound on
each of its items.

## Main definitions

* `Json.toTree`: The document that is written for a value.
* `Json.depth`: How deep a value nests.
* `Json.IsDocument`: A value that can be written and read.

## Theorems

* `Json.itemTrees_eq_map`, `Json.memberTrees_eq_map`,
  `Json.sortedItems_eq_map`, `Json.sortedMembers_eq_map`: Recursion over
  parts is a map over them.
* `Json.depth_array_le_iff`, `Json.depth_object_le_iff`: Depth by parts.
* `Json.itemsToJson?_map`, `Json.membersToJson?_map`: Parts that are read.
* `Json.toJson?_toTree`: A document is read as its value, members sorted, if
  it nests little enough.
-/

namespace PlatformBridge

namespace Json

mutual

/-- The document that is written for a value. -/
def toTree (layout : Layout) : Json → Tree
  | null => .null
  | bool b => .bool b
  | number n => .number (Token.numeralOf layout n)
  | string s => .string (some s)
  | array items => .array (itemTrees layout items)
  | object members => .object (memberTrees layout members)

/-- The document of every item. -/
def itemTrees (layout : Layout) : List Json → List Tree
  | [] => []
  | v :: rest => toTree layout v :: itemTrees layout rest

/-- The document of every member. -/
def memberTrees (layout : Layout) : List (String × Json) → List (Option String × Tree)
  | [] => []
  | (k, v) :: rest => (some k, toTree layout v) :: memberTrees layout rest

end

mutual

/-- How many arrays and objects a value nests. -/
def depth : Json → Nat
  | array items => itemsDepth items + 1
  | object members => membersDepth members + 1
  | null | bool _ | number _ | string _ => 0

/-- The depth of the deepest item. -/
def itemsDepth : List Json → Nat
  | [] => 0
  | v :: rest => max (depth v) (itemsDepth rest)

/-- The depth of the deepest member. -/
def membersDepth : List (String × Json) → Nat
  | [] => 0
  | (_, v) :: rest => max (depth v) (membersDepth rest)

end

/-- A value that can be written and read: the keys of every object in it are distinct, and its
    numbers are legible. -/
inductive IsDocument (layout : Layout) : Json → Prop where
  | null : IsDocument layout null
  | bool (b : Bool) : IsDocument layout (bool b)
  | number (n : Number) (h : Token.IsLegible layout n) : IsDocument layout (number n)
  | string (s : String) : IsDocument layout (string s)
  | array (items : List Json) (h : ∀ v ∈ items, IsDocument layout v) :
      IsDocument layout (array items)
  | object (members : List (String × Json)) (distinct : (members.map (·.1)).Nodup)
      (h : ∀ m ∈ members, IsDocument layout m.2) : IsDocument layout (object members)

theorem itemTrees_eq_map (layout : Layout) (items : List Json) :
    itemTrees layout items = items.map (toTree layout) := by
  induction items with
  | nil => rfl
  | cons v rest ih => exact congrArg (v.toTree layout :: ·) ih

theorem memberTrees_eq_map (layout : Layout) (members : List (String × Json)) :
    memberTrees layout members = members.map fun m => (some m.1, m.2.toTree layout) := by
  induction members with
  | nil => rfl
  | cons m rest ih => exact congrArg ((some m.1, m.2.toTree layout) :: ·) ih

theorem sortedItems_eq_map (before : String → String → Bool) (items : List Json) :
    sortedItems before items = items.map (sorted before) := by
  induction items with
  | nil => rfl
  | cons v rest ih => exact congrArg (v.sorted before :: ·) ih

theorem sortedMembers_eq_map (before : String → String → Bool) (members : List (String × Json)) :
    sortedMembers before members = members.map fun m => (m.1, m.2.sorted before) := by
  induction members with
  | nil => rfl
  | cons m rest ih => exact congrArg ((m.1, m.2.sorted before) :: ·) ih

/-- An array nests one level more than its items. -/
theorem depth_array_le_iff (items : List Json) (n : Nat) :
    (array items).depth ≤ n + 1 ↔ ∀ v ∈ items, v.depth ≤ n := by
  change itemsDepth items + 1 ≤ n + 1 ↔ _
  rw [Nat.add_le_add_iff_right]
  induction items with
  | nil => simp only [itemsDepth, Nat.zero_le, List.not_mem_nil, false_implies, implies_true]
  | cons v rest ih => rw [itemsDepth, Nat.max_le, ih, List.forall_mem_cons]

/-- An object nests one level more than the values of its members. -/
theorem depth_object_le_iff (members : List (String × Json)) (n : Nat) :
    (object members).depth ≤ n + 1 ↔ ∀ m ∈ members, m.2.depth ≤ n := by
  change membersDepth members + 1 ≤ n + 1 ↔ _
  rw [Nat.add_le_add_iff_right]
  induction members with
  | nil => simp only [membersDepth, Nat.zero_le, List.not_mem_nil, false_implies, implies_true]
  | cons m rest ih => rw [membersDepth, Nat.max_le, ih, List.forall_mem_cons]

theorem not_depth_array_le_zero (items : List Json) : ¬ (array items).depth ≤ 0 :=
  Nat.not_succ_le_zero _

theorem not_depth_object_le_zero (members : List (String × Json)) :
    ¬ (object members).depth ≤ 0 :=
  Nat.not_succ_le_zero _

section Reading

variable (layout : Layout) (n : Nat)

/-- Every item is read, or one of them nests too deep. -/
theorem itemsToJson?_map (items : List Json)
    (h : ∀ v ∈ items, (v.toTree layout).toJson? n
      = if v.depth ≤ n then some (v.sorted keyBefore) else none) :
    Tree.itemsToJson? n (items.map (toTree layout))
      = if ∀ v ∈ items, v.depth ≤ n then some (items.map (sorted keyBefore)) else none := by
  induction items with
  | nil => rfl
  | cons v rest ih =>
      have hrest := ih fun w hw => h w (List.mem_cons_of_mem v hw)
      simp only [List.map_cons, Tree.itemsToJson?, h v List.mem_cons_self, hrest,
        List.forall_mem_cons]
      by_cases hv : v.depth ≤ n
      · by_cases hothers : ∀ w ∈ rest, w.depth ≤ n
        · simp only [hv, true_and, if_pos hothers, if_true]
        · simp only [hv, true_and, if_neg hothers, if_true]
      · simp only [hv, false_and, if_false]

/-- Every member is read and put in its place, or one of them nests too deep. -/
theorem membersToJson?_map (members : List (String × Json))
    (h : ∀ m ∈ members, (m.2.toTree layout).toJson? n
      = if m.2.depth ≤ n then some (m.2.sorted keyBefore) else none) :
    Tree.membersToJson? n (members.map fun m => (some m.1, m.2.toTree layout))
      = if ∀ m ∈ members, m.2.depth ≤ n
        then some (members.map fun m => (m.1, m.2.sorted keyBefore)) else none := by
  induction members with
  | nil => rfl
  | cons m rest ih =>
      have hrest := ih fun w hw => h w (List.mem_cons_of_mem m hw)
      simp only [List.map_cons, Tree.membersToJson?, h m List.mem_cons_self, hrest,
        List.forall_mem_cons]
      by_cases hm : m.2.depth ≤ n
      · by_cases hothers : ∀ w ∈ rest, w.2.depth ≤ n
        · simp only [hm, true_and, if_pos hothers, if_true]
        · simp only [hm, true_and, if_neg hothers, if_true]
      · simp only [hm, false_and, if_false]

end Reading

/-- A document is read as its value with the members sorted, if it nests little enough, and is
    refused otherwise. -/
theorem toJson?_toTree (layout : Layout) (v : Json) (h : v.IsDocument layout) :
    ∀ n, (v.toTree layout).toJson? n
      = if v.depth ≤ n then some (v.sorted keyBefore) else none := by
  induction h with
  | null => intro n; rfl
  | bool b => intro n; rfl
  | string s => intro n; rfl
  | number x hx =>
      intro n
      rw [toTree, Tree.toJson?, hx.means, depth, sorted, if_pos (Nat.zero_le n), Option.map_some]
  -- A level is used up for the items, and they are all converted within what is left.
  | array items _ ih =>
      intro n
      rw [toTree, itemTrees_eq_map]
      cases n with
      | zero =>
          rw [if_neg (not_depth_array_le_zero items)]
          rfl
      | succ n =>
          rw [Tree.toJson?, itemsToJson?_map layout n items fun v hv => ih v hv n]
          simp only [depth_array_le_iff, sorted, sortedItems_eq_map, apply_ite (Option.map array),
            Option.map_some, Option.map_none]
  | object members _ _ ih =>
      intro n
      rw [toTree, memberTrees_eq_map]
      cases n with
      | zero =>
          rw [if_neg (not_depth_object_le_zero members)]
          rfl
      | succ n =>
          rw [Tree.toJson?, membersToJson?_map layout n members fun m hm => ih m hm n]
          simp only [depth_object_le_iff, sorted, sortedMembers_eq_map,
            apply_ite (Option.map ofMembers), Option.map_some, Option.map_none]
          rfl

end Json

end PlatformBridge
