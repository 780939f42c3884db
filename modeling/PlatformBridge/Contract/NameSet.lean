/-!
# Sets of Names

Names in order, each once. The order belongs to the type: two sets with the same names are equal,
and a set that is written as a list is the one that is read from it.

## Main definitions

* `insertName`, `sortNames`: Names sorted, each once.
* `NameSet`, `NameSet.ofList`: A set of names, and that of some names in any order.

## Theorems

* `mem_sortNames`: Sorting neither adds nor loses a name.
* `pairwise_sortNames`: The names are then in strict order.
* `NameSet.ofList_toList`: The names of a set are a list of it.
-/

namespace PlatformBridge

/-- Puts a name in its place among sorted names, once. -/
def insertName (name : String) : List String → List String
  | [] => [name]
  | n :: rest =>
    if name = n then n :: rest
    else if name < n then name :: n :: rest
    else n :: insertName name rest

/-- Names sorted, each once. -/
def sortNames (names : List String) : List String :=
  names.foldl (fun sorted name => insertName name sorted) []

/-- Inserting adds the name and nothing else. -/
theorem mem_insertName {name x : String} {l : List String} :
    x ∈ insertName name l ↔ x = name ∨ x ∈ l := by
  induction l with
  | nil => simp [insertName]
  | cons n rest ih => simp only [insertName]; grind

/-- Inserting keeps names in strict order. -/
theorem pairwise_insertName (name : String) {l : List String} (h : l.Pairwise (· < ·)) :
    (insertName name l).Pairwise (· < ·) := by
  induction l with
  | nil => simp [insertName]
  | cons n rest ih =>
    obtain ⟨hn, hrest⟩ := List.pairwise_cons.1 h
    simp only [insertName]
    split
    · exact h
    · rename_i hne
      split
      · rename_i hlt
        refine List.pairwise_cons.2 ⟨fun x hx => ?_, h⟩
        rcases List.mem_cons.1 hx with rfl | hx
        · exact hlt
        · exact String.lt_trans hlt (hn x hx)
      · rename_i hnlt
        refine List.pairwise_cons.2 ⟨fun x hx => ?_, ih hrest⟩
        rcases mem_insertName.1 hx with rfl | hx
        · exact String.not_le.1 fun hle => hne (String.le_antisymm hle (String.not_lt.1 hnlt))
        · exact hn x hx

/-- A name behind all others goes to the end. -/
theorem insertName_of_lt {name : String} {l : List String} (h : ∀ x ∈ l, x < name) :
    insertName name l = l ++ [name] := by
  induction l with
  | nil => rfl
  | cons n rest ih =>
    have hn : n < name := h n List.mem_cons_self
    have hne : name ≠ n := fun e => String.lt_irrefl n (e ▸ hn)
    rw [insertName, if_neg hne, if_neg (String.lt_asymm hn),
      ih fun x hx => h x (List.mem_cons_of_mem _ hx), List.cons_append]

/-- Inserting names one after the other adds them and nothing else. -/
theorem mem_foldl_insertName {x : String} (names : List String) (sorted : List String) :
    x ∈ names.foldl (fun sorted name => insertName name sorted) sorted ↔
      x ∈ names ∨ x ∈ sorted := by
  induction names generalizing sorted with
  | nil => simp
  | cons n rest ih => rw [List.foldl_cons, ih, mem_insertName, List.mem_cons]; grind

/-- Inserting names one after the other keeps the strict order. -/
theorem pairwise_foldl_insertName (names : List String) {sorted : List String}
    (h : sorted.Pairwise (· < ·)) :
    (names.foldl (fun sorted name => insertName name sorted) sorted).Pairwise (· < ·) := by
  induction names generalizing sorted with
  | nil => exact h
  | cons n rest ih => exact ih (pairwise_insertName n h)

/-- Names in strict order are inserted at the end, one after the other. -/
theorem foldl_insertName_of_pairwise (names : List String) (sorted : List String)
    (h : (sorted ++ names).Pairwise (· < ·)) :
    names.foldl (fun sorted name => insertName name sorted) sorted = sorted ++ names := by
  induction names generalizing sorted with
  | nil => simp
  | cons n rest ih =>
    have hlt : ∀ x ∈ sorted, x < n := fun x hx =>
      (List.pairwise_append.1 h).2.2 x hx n List.mem_cons_self
    rw [List.foldl_cons, insertName_of_lt hlt, ih (sorted ++ [n]) (by simpa using h)]
    simp

/-- Sorting neither adds nor loses a name. -/
theorem mem_sortNames {x : String} {names : List String} : x ∈ sortNames names ↔ x ∈ names := by
  simp [sortNames, mem_foldl_insertName]

/-- Sorted names are in strict order. -/
theorem pairwise_sortNames (names : List String) : (sortNames names).Pairwise (· < ·) :=
  pairwise_foldl_insertName names .nil

/-- Names in strict order are sorted already. -/
theorem sortNames_of_pairwise {names : List String} (h : names.Pairwise (· < ·)) :
    sortNames names = names :=
  foldl_insertName_of_pairwise names [] h

/-- A set of names. -/
structure NameSet where
  /-- The names in order. -/
  toList : List String
  ordered : toList.Pairwise (· < ·)
  deriving DecidableEq, Repr

instance : Inhabited NameSet := ⟨⟨[], .nil⟩⟩

namespace NameSet

/-- The set of some names. -/
def ofList (names : List String) : NameSet := ⟨sortNames names, pairwise_sortNames names⟩

/-- The names of a set are a list of it. -/
theorem ofList_toList (s : NameSet) : ofList s.toList = s := by
  simp [ofList, sortNames_of_pairwise s.ordered]

end NameSet

end PlatformBridge
