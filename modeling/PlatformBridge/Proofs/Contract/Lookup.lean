import Mathlib.Data.List.Nodup
import PlatformBridge.Contract.Basic

/-!
# Lookups in a Contract

What a contract finds under a name. A lookup returns the first thing of a
name, so what it finds is always in the contract, but the converse needs the
names to be distinct. A composite and an enumeration are what a name can be
found as, and the fields of a composite are gathered along the bases of it,
each of which is found as a composite in turn.

The contract is asked for composites and for enumerations by functions of their
own, which match on what is found under the name. The two equivalences turn
them into the one lookup of data types. Whatever is proved about names is about
`dataType?` after that.

The chain of bases is computed with a fuel, and with the names that it has met.
`chain_succ` and `chain_eq_nil` are its two equations, so later modules need
not look at its definition.

## Main definitions

* `Contract.enumeration?`: The members of a name that is defined as an
  enumeration.

## Theorems

* `find?_key_of_nodup`: With distinct keys, a thing is found under its own.
* `length_filter_not_mem_cons_lt`: A key that is met leaves fewer that were
  not.
* `Contract.mem_of_dataType?_eq_some`: What is found under a name is in the
  contract.
* `Contract.composite?_eq_some_iff`, `Contract.enumeration?_eq_some_iff`: A
  name by what it is.
* `Contract.fieldsWithInherited_of_composite?_eq_none`: Names that are no
  composites have no fields.
* `Contract.chain_succ`, `Contract.chain_eq_nil`: A chain of bases by its
  first link.
* `Contract.composite?_of_mem_chain`: Every link of a chain of bases is a
  composite.
* `Contract.exists_composite?_of_mem_fieldsWithInherited`: An inherited field
  is a field.
-/

namespace PlatformBridge

/-- With distinct keys, a thing is found under its own. -/
theorem find?_key_of_nodup {α : Type} (key : α → String) (xs : List α) (h : (xs.map key).Nodup)
    (x : α) (hx : x ∈ xs) : xs.find? (fun y => key y = key x) = some x := by
  induction xs with
  | nil => exact absurd hx List.not_mem_nil
  | cons y rest ih =>
      rw [List.map_cons, List.nodup_cons] at h
      rw [List.find?_cons]
      rcases List.mem_cons.mp hx with rfl | hrest
      · simp only [decide_true]
      · -- The key of `x` occurs further on, so the first one has another.
        have hne : key y ≠ key x := by
          intro heq
          exact h.1 (heq ▸ List.mem_map_of_mem hrest)
        simp only [hne, decide_false]
        exact ih h.2 hrest

/-- Of the things whose keys were not met before, there is one less when such a key is met. -/
theorem length_filter_not_mem_cons_lt {α : Type} (key : α → String) (xs : List α)
    (met : List String) (x : α) (hx : x ∈ xs) (hmet : key x ∉ met) :
    (xs.filter fun y => key y ∉ key x :: met).length < (xs.filter fun y => key y ∉ met).length := by
  have hsplit : (xs.filter fun y => key y ∉ key x :: met)
      = (xs.filter fun y => key y ∉ met).filter fun y => key y ≠ key x := by
    rw [List.filter_filter]
    refine List.filter_congr fun y _ => ?_
    simp only [List.mem_cons, not_or, ne_eq, Bool.decide_and]
  rw [hsplit, List.length_filter_lt_length_iff_exists]
  exact ⟨x, List.mem_filter.mpr ⟨hx, decide_eq_true hmet⟩, by simp⟩

namespace Contract

/-- The members of a name that is defined as an enumeration. -/
def enumeration? (c : Contract) (name : TypeName) : Option (List String) :=
  match c.dataType? name with
  | some ⟨_, .enumeration members⟩ => some members
  | _ => none

/-- What is found under a name is in the contract. -/
theorem mem_of_dataType?_eq_some (c : Contract) (name : TypeName) (d : DataType)
    (h : c.dataType? name = some d) : d ∈ c.dataTypes ∧ d.name = name := by
  refine ⟨List.mem_of_find?_eq_some h, ?_⟩
  have hname := List.find?_some h
  simp only [decide_eq_true_eq] at hname
  exact hname

/-- A name is a composite if the data type found under it is one. -/
theorem composite?_eq_some_iff (c : Contract) (name : TypeName) (fields : List Field)
    (base : Option TypeName) :
    c.composite? name = some (fields, base)
      ↔ c.dataType? name = some ⟨name, .composite fields base⟩ := by
  unfold composite?
  cases h : c.dataType? name with
  | none => simp only [reduceCtorEq]
  | some d =>
      have hname := (c.mem_of_dataType?_eq_some name d h).2
      rcases d with ⟨n, shape⟩
      cases shape with
      | composite fields' base' =>
          simp only at hname
          subst hname
          simp only [Option.some.injEq, Prod.mk.injEq, DataType.mk.injEq, true_and,
            DataShape.composite.injEq]
      | enumeration members =>
          simp only [reduceCtorEq, Option.some.injEq, DataType.mk.injEq, and_false]

/-- A name is an enumeration if the data type found under it is one. -/
theorem enumeration?_eq_some_iff (c : Contract) (name : TypeName) (members : List String) :
    c.enumeration? name = some members
      ↔ c.dataType? name = some ⟨name, .enumeration members⟩ := by
  unfold enumeration?
  cases h : c.dataType? name with
  | none => simp only [reduceCtorEq]
  | some d =>
      have hname := (c.mem_of_dataType?_eq_some name d h).2
      rcases d with ⟨n, shape⟩
      cases shape with
      | composite fields base =>
          simp only [reduceCtorEq, Option.some.injEq, DataType.mk.injEq, and_false]
      | enumeration members' =>
          simp only at hname
          subst hname
          simp only [Option.some.injEq, DataType.mk.injEq, true_and, DataShape.enumeration.injEq]

/-- A composite is one of the data types. -/
theorem mem_of_composite?_eq_some (c : Contract) (name : TypeName) (fields : List Field)
    (base : Option TypeName) (h : c.composite? name = some (fields, base)) :
    ⟨name, .composite fields base⟩ ∈ c.dataTypes :=
  (c.mem_of_dataType?_eq_some name _ ((c.composite?_eq_some_iff name fields base).mp h)).1

/-- A name that is no composite has no fields. -/
theorem fieldsWithInherited_of_composite?_eq_none (c : Contract) (name : TypeName)
    (h : c.composite? name = none) : c.fieldsWithInherited name = [] := by
  simp only [fieldsWithInherited, chain, List.contains_nil, Bool.false_eq_true, if_false, h,
    List.reverse_nil, List.flatMap_nil]

/-- A walk goes on at the base of a composite. -/
theorem chain_succ (c : Contract) (fuel : Nat) (seen : List TypeName) (name : TypeName)
    (hnew : name ∉ seen) (fields : List Field) (base : Option TypeName)
    (h : c.composite? name = some (fields, base)) :
    c.chain (fuel + 1) seen name
      = (name, fields) :: base.toList.flatMap (c.chain fuel (name :: seen)) := by
  rw [chain, if_neg fun hseen => hnew (List.contains_iff_mem.mp hseen)]
  cases base with
  | none => simp only [h, Option.toList_none, List.flatMap_nil]
  | some base => simp only [h, Option.toList_some, List.flatMap_singleton]

/-- A walk ends at a name that was met, or that is no composite. -/
theorem chain_eq_nil (c : Contract) (fuel : Nat) (seen : List TypeName) (name : TypeName)
    (h : name ∈ seen ∨ c.composite? name = none) : c.chain fuel seen name = [] := by
  cases fuel with
  | zero => rfl
  | succ fuel =>
      rw [chain]
      rcases h with hseen | hnone
      · rw [if_pos (List.contains_iff_mem.mpr hseen)]
      · simp only [hnone, ite_self]

/-- Every link of a chain of bases is a composite with its own fields. -/
theorem composite?_of_mem_chain (c : Contract) (fuel : Nat) (seen : List TypeName)
    (name : TypeName) (link : TypeName × List Field) (h : link ∈ c.chain fuel seen name) :
    ∃ base, c.composite? link.1 = some (link.2, base) := by
  induction fuel generalizing seen name with
  | zero => exact absurd h List.not_mem_nil
  | succ fuel ih =>
      rw [chain] at h
      -- A chain ends at a name that was seen, or that is no composite, without a link.
      by_cases hseen : seen.contains name = true
      · rw [if_pos hseen] at h
        exact absurd h List.not_mem_nil
      · rw [if_neg hseen] at h
        rcases hfind : c.composite? name with _ | ⟨fields, base⟩
        · simp only [hfind] at h
          exact absurd h List.not_mem_nil
        · cases base with
          | none =>
              simp only [hfind, List.mem_singleton] at h
              subst h
              exact ⟨none, hfind⟩
          | some base =>
              simp only [hfind, List.mem_cons] at h
              rcases h with rfl | hrest
              · exact ⟨some base, hfind⟩
              · exact ih (name :: seen) base hrest

/-- A field of a composite, inherited or not, is declared by a composite. -/
theorem exists_composite?_of_mem_fieldsWithInherited (c : Contract) (name : TypeName) (f : Field)
    (hf : f ∈ c.fieldsWithInherited name) :
    ∃ owner fields base, c.composite? owner = some (fields, base) ∧ f ∈ fields := by
  unfold fieldsWithInherited at hf
  rcases List.mem_flatMap.mp hf with ⟨link, hlink, hmem⟩
  rcases c.composite?_of_mem_chain _ _ _ link (List.mem_reverse.mp hlink) with ⟨base, hbase⟩
  exact ⟨link.1, link.2, base, hbase, hmem⟩

end Contract

end PlatformBridge
