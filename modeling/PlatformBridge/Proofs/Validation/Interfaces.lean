import PlatformBridge.Proofs.Validation.Verdict

/-!
# Interfaces of a Type

The interfaces of a type are those that it lists, those that these list, and so
on. The code walks through them with a stack of pending names and a list of
names it has seen, so that cycles and diamonds do no harm; names that are not
declared, or not as interfaces, lead nowhere. Here it is shown that the walk
meets exactly what can be reached.

That the walk meets nothing else follows it step by step. That it misses nothing
is a property of its result: whatever was pending is in it or was seen before,
and so is whatever an interface in it lists. When nothing was seen before, the
result is closed, and so contains all that can be reached. A property of the
result is used here because the stack changes from step to step in a way that
what is found so far does not tell.

The one thing that could spoil this is fuel running out. A name costs one unit
when it is taken from the stack, and the names that an interface adds are paid
for by the interface no longer being unseen.

## Main definitions

* `Library.interface?`: The interface of a name.
* `Library.Reaches`: The interfaces that can be reached from a name.
* `Library.Inherits`: The interfaces of a type.
* `Library.unseenNames`: How many names the types that were not seen list.
* `Library.Settled`: A name needs no further visit.
* `Library.Closes`: Nothing that is pending or listed needs a further visit.
* `Library.Contributes`: The types whose members a service offers.

## Theorems

* `Library.reaches_of_mem_interfacesFrom`: The walk only meets what can be
  reached.
* `Library.unseenNames_cons_add_le`: An interface pays for the names it lists.
* `Library.Closes.seen_cons`, `Library.Closes.none_cons`,
  `Library.Closes.some_cons`: A step.
* `Library.closes_interfacesFrom`: What the walk meets is closed, given enough
  fuel.
* `Library.Closes.mem_of_reaches`: What is closed misses nothing.
* `Library.mem_allInterfaces_iff`: The walk meets exactly what can be reached.
* `Library.mem_offeringTypes_iff`: The code looks at the types that contribute.
-/

namespace PlatformBridge

namespace Library

variable (a : Library)

/-- The interface of a name. -/
def interface? (name : TypeName) : Option DeclaredType :=
  (a.type? name).filter fun t => t.kind = .interface

/-- An interface can be reached from a name: it is the one of that name, or can be reached from a
    name that this one lists. -/
inductive Reaches : TypeName → DeclaredType → Prop where
  | self (name : TypeName) (i : DeclaredType) (hi : a.interface? name = some i) : Reaches name i
  | step (name next : TypeName) (i j : DeclaredType) (hi : a.interface? name = some i)
      (hnext : next ∈ i.interfaces) (hj : Reaches next j) : Reaches name j

/-- An interface can be reached from one that a type lists. -/
def Inherits (t i : DeclaredType) : Prop := ∃ name ∈ t.interfaces, a.Reaches name i

/-- How many names a type lists, unless it was seen. -/
def unseenOf (seen : List TypeName) (t : DeclaredType) : Nat :=
  if t.name ∈ seen then 0 else t.interfaces.length

/-- How many names the types that were not seen list. -/
def unseenNames (types : List DeclaredType) (seen : List TypeName) : Nat :=
  types.foldr (fun t rest => unseenOf seen t + rest) 0

/-- A name was seen before, or its interface is among those found. -/
def Settled (seen : List TypeName) (found : List DeclaredType) (name : TypeName) : Prop :=
  name ∈ seen ∨ ∀ i, a.interface? name = some i → i ∈ found

/-- A list of interfaces is closed: pending names and the names that interfaces in it list are
    settled. -/
structure Closes (seen pending : List TypeName) (found : List DeclaredType) : Prop where
  pending : ∀ name ∈ pending, a.Settled seen found name
  found : ∀ i ∈ found, ∀ name ∈ i.interfaces, a.Settled seen found name

/-- The interface of a name is a type of the library that has the name. -/
theorem mem_of_interface?_eq_some (name : TypeName) (t : DeclaredType)
    (h : a.interface? name = some t) : t ∈ a.types ∧ t.name = name ∧ t.kind = .interface := by
  rcases Option.filter_eq_some_iff.mp h with ⟨ht, hkind⟩
  rcases a.mem_of_type?_eq_some name t ht with ⟨hmem, hname⟩
  exact ⟨hmem, hname, of_decide_eq_true hkind⟩

theorem interfacesFrom_nil (fuel : Nat) (seen : List TypeName) :
    a.interfacesFrom fuel seen [] = [] := by
  cases fuel <;> rfl

/-- A step of the walk: the next name is passed over, leads nowhere, or brings in what its interface
    lists. -/
theorem interfacesFrom_cons (fuel : Nat) (seen : List TypeName) (name : TypeName)
    (pending : List TypeName) :
    a.interfacesFrom (fuel + 1) seen (name :: pending)
      = if name ∈ seen then a.interfacesFrom fuel seen pending
        else match a.interface? name with
          | some t => t :: a.interfacesFrom fuel (name :: seen) (t.interfaces ++ pending)
          | none => a.interfacesFrom fuel (name :: seen) pending := by
  rw [interfacesFrom, interface?]
  simp only [List.contains_iff_mem]
  by_cases hseen : name ∈ seen
  · rw [if_pos hseen, if_pos hseen]
  · rw [if_neg hseen, if_neg hseen]
    cases a.type? name with
    | none => rfl
    | some t =>
        by_cases hkind : t.kind = .interface
        · simp only [hkind, if_true, Option.filter_some, decide_true]
        · simp only [hkind, if_false, Option.filter_some, decide_false, Bool.false_eq_true]

/-- The walk only meets what can be reached from a pending name. -/
theorem reaches_of_mem_interfacesFrom (fuel : Nat) (i : DeclaredType) :
    ∀ seen pending, i ∈ a.interfacesFrom fuel seen pending →
      ∃ name ∈ pending, a.Reaches name i := by
  induction fuel with
  | zero =>
      intro seen pending h
      exact absurd h List.not_mem_nil
  | succ fuel ih =>
      intro seen pending h
      cases pending with
      | nil =>
          rw [interfacesFrom_nil] at h
          exact absurd h List.not_mem_nil
      | cons name pending =>
          -- What is met after the first name can be reached from a name that was pending with it.
          have hlater : ∀ seen', i ∈ a.interfacesFrom fuel seen' pending →
              ∃ n ∈ name :: pending, a.Reaches n i := by
            intro seen' hmem
            rcases ih seen' pending hmem with ⟨n, hn, hreach⟩
            exact ⟨n, List.mem_cons_of_mem name hn, hreach⟩
          rw [interfacesFrom_cons] at h
          by_cases hseen : name ∈ seen
          · rw [if_pos hseen] at h
            exact hlater seen h
          · rw [if_neg hseen] at h
            cases ht : a.interface? name with
            | none =>
                simp only [ht] at h
                exact hlater _ h
            | some t =>
                simp only [ht, List.mem_cons] at h
                rcases h with rfl | h
                · exact ⟨name, List.mem_cons_self, .self name i ht⟩
                · rcases ih _ _ h with ⟨n, hn, hreach⟩
                  rcases List.mem_append.mp hn with hn | hn
                  · exact ⟨name, List.mem_cons_self, .step name n t i ht hn hreach⟩
                  · exact ⟨n, List.mem_cons_of_mem name hn, hreach⟩

/-- Where nothing was seen, the names that are still to come are those in all lists of interfaces.
    -/
theorem unseenNames_nil (types : List DeclaredType) :
    unseenNames types [] = (types.flatMap (·.interfaces)).length := by
  induction types with
  | nil => rfl
  | cons t rest ih =>
      rw [List.flatMap_cons, List.length_append, ← ih]
      rfl

theorem unseenOf_cons_le (seen : List TypeName) (name : TypeName) (t : DeclaredType) :
    unseenOf (name :: seen) t ≤ unseenOf seen t := by
  unfold unseenOf
  by_cases ht : t.name ∈ seen
  · rw [if_pos (List.mem_cons_of_mem name ht)]
    exact Nat.zero_le _
  · rw [if_neg ht]
    by_cases hname : t.name ∈ name :: seen
    · rw [if_pos hname]
      exact Nat.zero_le _
    · exact Nat.le_of_eq (if_neg hname)

theorem unseenNames_cons_le (types : List DeclaredType) (seen : List TypeName) (name : TypeName) :
    unseenNames types (name :: seen) ≤ unseenNames types seen := by
  induction types with
  | nil => exact Nat.le_refl 0
  | cons t rest ih => exact Nat.add_le_add (unseenOf_cons_le seen name t) ih

/-- Marking a type as seen pays for the names that it lists. -/
theorem unseenNames_cons_add_le (types : List DeclaredType) (seen : List TypeName)
    (t : DeclaredType) (ht : t ∈ types) (hseen : t.name ∉ seen) :
    unseenNames types (t.name :: seen) + t.interfaces.length ≤ unseenNames types seen := by
  have hnow : unseenOf (t.name :: seen) t = 0 := if_pos List.mem_cons_self
  have hbefore : unseenOf seen t = t.interfaces.length := if_neg hseen
  induction types with
  | nil => exact absurd ht List.not_mem_nil
  | cons u rest ih =>
      -- The summand of `t` drops, and no other one grows.
      have hfirst := unseenOf_cons_le seen t.name u
      have hrest := unseenNames_cons_le rest seen t.name
      unfold unseenNames at ih hrest ⊢
      rw [List.foldr_cons, List.foldr_cons]
      rcases List.mem_cons.mp ht with rfl | ht
      · omega
      · have hlater := ih ht
        omega

variable {a} in
/-- A visit settles the name that is visited. -/
theorem Settled.of_cons {seen : List TypeName} {found : List DeclaredType} {name n : TypeName}
    (hname : ∀ i, a.interface? name = some i → i ∈ found) (h : a.Settled (name :: seen) found n) :
    a.Settled seen found n := by
  rcases h with hmem | hfound
  · rcases List.mem_cons.mp hmem with rfl | hmem
    · exact Or.inr hname
    · exact Or.inl hmem
  · exact Or.inr hfound

variable {a} in
theorem Settled.cons {seen : List TypeName} {found : List DeclaredType} {n : TypeName}
    (t : DeclaredType) (h : a.Settled seen found n) : a.Settled seen (t :: found) n := by
  rcases h with hmem | hfound
  · exact Or.inl hmem
  · exact Or.inr fun i hi => List.mem_cons_of_mem t (hfound i hi)

namespace Closes

variable {a} {seen pending : List TypeName} {found : List DeclaredType} {name : TypeName}

theorem nil (seen : List TypeName) : a.Closes seen [] [] :=
  ⟨fun _ h => absurd h List.not_mem_nil, fun _ h => absurd h List.not_mem_nil⟩

/-- A name that was seen is taken from the pending ones for nothing. -/
theorem seen_cons (hseen : name ∈ seen) (h : a.Closes seen pending found) :
    a.Closes seen (name :: pending) found := by
  refine ⟨fun n hn => ?_, h.found⟩
  rcases List.mem_cons.mp hn with rfl | hn
  · exact Or.inl hseen
  · exact h.pending n hn

/-- A name that leads nowhere is settled by any list. -/
theorem none_cons (hnone : a.interface? name = none)
    (h : a.Closes (name :: seen) pending found) : a.Closes seen (name :: pending) found := by
  have hname : ∀ i, a.interface? name = some i → i ∈ found := by
    intro i hi
    rw [hnone] at hi
    cases hi
  refine ⟨fun n hn => ?_, fun i hi n hn => (h.found i hi n hn).of_cons hname⟩
  rcases List.mem_cons.mp hn with rfl | hn
  · exact Or.inr hname
  · exact (h.pending n hn).of_cons hname

/-- An interface that is met settles its name, and the names that it lists come to be pending. -/
theorem some_cons {t : DeclaredType} (ht : a.interface? name = some t)
    (h : a.Closes (name :: seen) (t.interfaces ++ pending) found) :
    a.Closes seen (name :: pending) (t :: found) := by
  have hname : ∀ i, a.interface? name = some i → i ∈ t :: found := by
    intro i hi
    rw [ht] at hi
    cases hi
    exact List.mem_cons_self
  have hsettled : ∀ n ∈ t.interfaces ++ pending, a.Settled seen (t :: found) n :=
    fun n hn => ((h.pending n hn).cons t).of_cons hname
  constructor
  · intro n hn
    rcases List.mem_cons.mp hn with rfl | hn
    · exact Or.inr hname
    · exact hsettled n (List.mem_append_right _ hn)
  · intro i hi n hn
    rcases List.mem_cons.mp hi with rfl | hi
    · exact hsettled n (List.mem_append_left _ hn)
    · exact ((h.found i hi n hn).cons t).of_cons hname

end Closes

/-- What the walk meets is closed, if the fuel is enough for the pending names and all those still
    to come. -/
theorem closes_interfacesFrom (fuel : Nat) :
    ∀ seen pending, pending.length + unseenNames a.types seen ≤ fuel →
      a.Closes seen pending (a.interfacesFrom fuel seen pending) := by
  induction fuel with
  | zero =>
      intro seen pending hfuel
      have hnil : pending = [] := List.eq_nil_of_length_eq_zero (by omega)
      subst hnil
      exact .nil seen
  | succ fuel ih =>
      intro seen pending hfuel
      cases pending with
      | nil =>
          rw [interfacesFrom_nil]
          exact .nil seen
      | cons name pending =>
          rw [List.length_cons] at hfuel
          rw [interfacesFrom_cons]
          by_cases hseen : name ∈ seen
          · rw [if_pos hseen]
            exact .seen_cons hseen (ih seen pending (by omega))
          · rw [if_neg hseen]
            cases ht : a.interface? name with
            | none =>
                have hless := unseenNames_cons_le a.types seen name
                exact .none_cons ht (ih (name :: seen) pending (by omega))
            | some t =>
                -- The fuel that the names of the interface need is what it no longer counts for.
                rcases a.mem_of_interface?_eq_some name t ht with ⟨hmem, rfl, _⟩
                have hless := unseenNames_cons_add_le a.types seen t hmem hseen
                have hlength : (t.interfaces ++ pending).length
                    = t.interfaces.length + pending.length := List.length_append
                exact .some_cons ht (ih (t.name :: seen) (t.interfaces ++ pending) (by omega))

variable {a} in
/-- A closed list of interfaces has all that can be reached from a name that it settles. -/
theorem Closes.mem_of_reaches {pending : List TypeName} {found : List DeclaredType}
    (hclosed : a.Closes [] pending found) (name : TypeName) (i : DeclaredType)
    (hname : a.Settled [] found name) (h : a.Reaches name i) : i ∈ found := by
  -- Nothing was seen before, so a settled name has its interface among those found.
  have hin : ∀ n j, a.Settled [] found n → a.interface? n = some j → j ∈ found := by
    intro n j hn hj
    rcases hn with hmem | hfound
    · exact absurd hmem List.not_mem_nil
    · exact hfound j hj
  induction h with
  | self name i hi => exact hin name i hname hi
  | step name next i j hi hnext _ ih => exact ih (hclosed.found i (hin name i hname hi) next hnext)

/-- The walk meets exactly what can be reached. -/
theorem mem_allInterfaces_iff (t i : DeclaredType) :
    i ∈ a.allInterfaces t ↔ a.Inherits t i := by
  unfold allInterfaces
  constructor
  · exact a.reaches_of_mem_interfacesFrom _ i [] t.interfaces
  · rintro ⟨name, hname, hreach⟩
    have hall := unseenNames_nil a.types
    have hclosed := a.closes_interfacesFrom _ [] t.interfaces
      (show _ ≤ t.interfaces.length + (a.types.flatMap (·.interfaces)).length + 1 by omega)
    exact hclosed.mem_of_reaches name i (hclosed.pending name hname) hreach

/-- The members of a type are offered by the service of another: the types are the same, or the
    first is a marked interface of the second. -/
def Contributes (t u : DeclaredType) : Prop := u = t ∨ (a.Inherits t u ∧ u.isService = true)

/-- The types that a service looks at are those that contribute to it. -/
theorem mem_offeringTypes_iff (t u : DeclaredType) :
    u ∈ a.offeringTypes t ↔ a.Contributes t u := by
  unfold offeringTypes Contributes
  rw [List.mem_cons, List.mem_filter, mem_allInterfaces_iff]

end Library

end PlatformBridge
