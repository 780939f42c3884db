import PlatformBridge.Proofs.Validation.Interfaces

/-!
# Recognition of Services

A type is a service if it is marked, or if a marked interface can be reached
from it. So the walk through the interfaces of a type decides what a service is,
and it has to come to an end in every library, whatever its interfaces list:
each other, themselves, names of classes, or names of nothing.

Which interfaces the walk meets is known already. Here it is about the walk
itself. It ends, after no more names than there are in all lists of interfaces.
It meets them depth first: an interface is followed at once by those that it
leads to, before the next one in the same list. This is said without a stack, by
a recursion over lists of names, in which an interface is passed over where it
was listed before. The names that the walk has seen and the interfaces that were
listed differ by the names that lead nowhere, which is all that relates the two.

`Walks` is the walk as a relation, with the number of names that it takes. The
function of the code has a fuel instead, and is shown once to follow a walk;
everything after that is about walks, where nothing can run out.

## Main definitions

* `Library.Walks`: The walk comes to its end after a number of names.
* `Library.DepthFirst`: The interfaces of some names, each followed by those
  that it leads to.
* `Library.Marks`: The interfaces that were listed are those whose names were
  seen.
* `Library.IsRecognized`: The types that are services.

## Theorems

* `Library.walks_interfacesFrom`: The walk comes to its end, given enough fuel.
* `Library.Marks.astray`, `Library.Marks.meets`: What a step adds to the names
  and to the interfaces.
* `Library.exists_depthFirst_of_walks`: A walk meets the interfaces of its first
  names depth first, and goes on with the rest.
* `Library.DepthFirst.unique`, `Library.DepthFirst.nodup_and_disjoint`: There is
  one such list, and it has each interface once.
* `Library.exists_walks_allInterfaces`: The walk of a type ends within a bound.
* `Library.depthFirst_allInterfaces_iff`: It is the list of the interfaces of a
  type.
* `Library.offersService_iff`: The code recognizes services by these interfaces.
* `Library.recognition_of_validate`: The walk and the services, for every
  library that is validated.
-/

namespace PlatformBridge

namespace Library

variable (a : Library)

/-- The walk takes a number of names from the pending ones until none is left, and meets some
    interfaces on the way. -/
inductive Walks : Nat → List TypeName → List TypeName → List DeclaredType → Prop where
  | done (seen : List TypeName) : Walks 0 seen [] []
  | again (count : Nat) (seen pending : List TypeName) (name : TypeName)
      (found : List DeclaredType) (hseen : name ∈ seen) (h : Walks count seen pending found) :
      Walks (count + 1) seen (name :: pending) found
  | astray (count : Nat) (seen pending : List TypeName) (name : TypeName)
      (found : List DeclaredType) (hseen : name ∉ seen) (hnone : a.interface? name = none)
      (h : Walks count (name :: seen) pending found) :
      Walks (count + 1) seen (name :: pending) found
  | meets (count : Nat) (seen pending : List TypeName) (name : TypeName) (i : DeclaredType)
      (found : List DeclaredType) (hseen : name ∉ seen) (hi : a.interface? name = some i)
      (h : Walks count (name :: seen) (i.interfaces ++ pending) found) :
      Walks (count + 1) seen (name :: pending) (i :: found)

/-- The interfaces of some names, in their order, without those listed before. Each is followed at
    once by the interfaces of the names that it lists itself. -/
inductive DepthFirst : List DeclaredType → List TypeName → List DeclaredType → Prop where
  | nil (before : List DeclaredType) : DepthFirst before [] []
  | pass (before : List DeclaredType) (name : TypeName) (rest : List TypeName)
      (found : List DeclaredType) (hbefore : ∀ i, a.interface? name = some i → i ∈ before)
      (h : DepthFirst before rest found) : DepthFirst before (name :: rest) found
  | visit (before : List DeclaredType) (name : TypeName) (rest : List TypeName) (i : DeclaredType)
      (inner later : List DeclaredType) (hi : a.interface? name = some i) (hnew : i ∉ before)
      (hinner : DepthFirst (i :: before) i.interfaces inner)
      (hlater : DepthFirst (inner ++ i :: before) rest later) :
      DepthFirst before (name :: rest) (i :: inner ++ later)

/-- The interfaces that were listed are those whose names were seen. -/
def Marks (seen : List TypeName) (before : List DeclaredType) : Prop :=
  ∀ name i, a.interface? name = some i → (name ∈ seen ↔ i ∈ before)

/-- A type is a service: it is no enumeration, and is marked or inherits from a marked interface. -/
def IsRecognized (t : DeclaredType) : Prop :=
  t.kind ≠ .enum ∧ (t.isService = true ∨ ∃ i, a.Inherits t i ∧ i.isService = true)

/-- The walk comes to its end, if the fuel is enough for the pending names and all those still to
    come. -/
theorem walks_interfacesFrom (fuel : Nat) :
    ∀ seen pending, pending.length + unseenNames a.types seen ≤ fuel →
      ∃ count ≤ pending.length + unseenNames a.types seen,
        a.Walks count seen pending (a.interfacesFrom fuel seen pending) := by
  induction fuel with
  | zero =>
      intro seen pending hfuel
      have hnil : pending = [] := List.eq_nil_of_length_eq_zero (by omega)
      subst hnil
      exact ⟨0, Nat.zero_le _, .done seen⟩
  | succ fuel ih =>
      intro seen pending hfuel
      cases pending with
      | nil =>
          rw [interfacesFrom_nil]
          exact ⟨0, Nat.zero_le _, .done seen⟩
      | cons name pending =>
          rw [List.length_cons] at hfuel ⊢
          rw [interfacesFrom_cons]
          by_cases hseen : name ∈ seen
          · rw [if_pos hseen]
            rcases ih seen pending (by omega) with ⟨count, hcount, h⟩
            exact ⟨count + 1, by omega, .again count seen pending name _ hseen h⟩
          · rw [if_neg hseen]
            cases hi : a.interface? name with
            | none =>
                have hless := unseenNames_cons_le a.types seen name
                rcases ih (name :: seen) pending (by omega) with ⟨count, hcount, h⟩
                exact ⟨count + 1, by omega, .astray count seen pending name _ hseen hi h⟩
            | some i =>
                -- The names that the interface adds are those that it no longer counts for.
                rcases a.mem_of_interface?_eq_some name i hi with ⟨hmem, rfl, _⟩
                have hless := unseenNames_cons_add_le a.types seen i hmem hseen
                have hlength : (i.interfaces ++ pending).length
                    = i.interfaces.length + pending.length := List.length_append
                rcases ih (i.name :: seen) (i.interfaces ++ pending) (by omega) with
                  ⟨count, hcount, h⟩
                exact ⟨count + 1, by omega, .meets count seen pending i.name i _ hseen hi h⟩

variable {a} in
/-- A name that leads nowhere is seen, and nothing is listed. -/
theorem Marks.astray {seen : List TypeName} {before : List DeclaredType} {name : TypeName}
    (hnone : a.interface? name = none) (h : a.Marks seen before) :
    a.Marks (name :: seen) before := by
  intro n i hi
  have hne : n ≠ name := by
    rintro rfl
    rw [hnone] at hi
    cases hi
  rw [List.mem_cons, or_iff_right hne]
  exact h n i hi

variable {a} in
/-- An interface is listed when its name is seen. -/
theorem Marks.meets {seen : List TypeName} {before : List DeclaredType} {name : TypeName}
    {i : DeclaredType} (hi : a.interface? name = some i) (h : a.Marks seen before) :
    a.Marks (name :: seen) (i :: before) := by
  intro n j hj
  rw [List.mem_cons, List.mem_cons, h n j hj]
  -- An interface has one name, and a name has one interface.
  refine or_congr_left ⟨?_, ?_⟩
  · rintro rfl
    rw [hi, Option.some.injEq] at hj
    exact hj.symm
  · rintro rfl
    exact (a.mem_of_interface?_eq_some n j hj).2.1.symm.trans
      (a.mem_of_interface?_eq_some name j hi).2.1

variable {a} in
/-- Only which interfaces were listed matters, not their order. -/
theorem Marks.congr {seen : List TypeName} {before before' : List DeclaredType}
    (hsame : ∀ i, i ∈ before ↔ i ∈ before') (h : a.Marks seen before) : a.Marks seen before' :=
  fun name i hi => (h name i hi).trans (hsame i)

/-- A walk meets the interfaces of its first names depth first, and then goes on with the rest. The
    induction is on the names that are still to be taken, for the walk returns twice to names that
    were pending: after those that an interface lists, and after the first names. -/
theorem exists_depthFirst_of_walks (count : Nat) :
    ∀ seen before first rest found, a.Walks count seen (first ++ rest) found →
      a.Marks seen before → ∃ inner later seen' count', count' ≤ count
        ∧ found = inner ++ later ∧ a.DepthFirst before first inner
        ∧ a.Marks seen' (inner ++ before) ∧ a.Walks count' seen' rest later := by
  induction count using Nat.strongRecOn with
  | _ count ih =>
      intro seen before first rest found h hmarks
      cases first with
      | nil => exact ⟨[], found, seen, count, Nat.le_refl _, rfl, .nil before, hmarks, h⟩
      | cons name first =>
          rw [List.cons_append] at h
          cases h with
          | again count _ _ _ _ hseen h =>
              rcases ih count (Nat.lt_succ_self _) seen before first rest found h hmarks with
                ⟨inner, later, seen', count', hle, hfound, hinner, hmarks', hlater⟩
              refine ⟨inner, later, seen', count', by omega, hfound, ?_, hmarks', hlater⟩
              exact .pass before name first inner (fun i hi => (hmarks name i hi).mp hseen) hinner
          | astray count _ _ _ _ _ hnone h =>
              rcases ih count (Nat.lt_succ_self _) (name :: seen) before first rest found h
                (hmarks.astray hnone) with
                ⟨inner, later, seen', count', hle, hfound, hinner, hmarks', hlater⟩
              refine ⟨inner, later, seen', count', by omega, hfound, ?_, hmarks', hlater⟩
              refine .pass before name first inner (fun i hi => ?_) hinner
              rw [hnone] at hi
              cases hi
          | meets count _ _ _ i found hseen hi h =>
              -- First the names that the interface lists, then the other first names.
              rcases ih count (Nat.lt_succ_self _) (name :: seen) (i :: before) i.interfaces
                (first ++ rest) found h (hmarks.meets hi) with
                ⟨inner, found', seen₁, count₁, hle₁, rfl, hinner, hmarks₁, h₁⟩
              rcases ih count₁ (by omega) seen₁ (inner ++ i :: before) first rest found' h₁ hmarks₁
                with ⟨inner', later, seen', count', hle, rfl, hinner', hmarks', hlater⟩
              refine ⟨i :: inner ++ inner', later, seen', count', by omega, ?_, ?_, ?_, hlater⟩
              · rw [List.cons_append, List.cons_append, List.append_assoc]
              · exact .visit before name first i inner inner' hi
                  (fun hmem => hseen ((hmarks name i hi).mpr hmem)) hinner hinner'
              · refine hmarks'.congr fun j => ?_
                simp only [List.mem_append, List.mem_cons]
                tauto

namespace DepthFirst

variable {a}

/-- There is one list of the interfaces of some names, depth first. -/
theorem unique {before : List DeclaredType} {names : List TypeName} {found : List DeclaredType}
    (h : a.DepthFirst before names found) :
    ∀ found', a.DepthFirst before names found' → found' = found := by
  induction h with
  | nil before =>
      intro found' h'
      cases h'
      rfl
  | pass before name rest found hbefore _ ih =>
      intro found' h'
      cases h' with
      | pass _ _ _ _ _ h' => exact ih found' h'
      | visit _ _ _ i _ _ hi hnew _ _ => exact absurd (hbefore i hi) hnew
  | visit before name rest i inner later hi hnew _ _ ihinner ihlater =>
      intro found' h'
      cases h' with
      | pass _ _ _ _ hbefore _ => exact absurd (hbefore i hi) hnew
      | visit _ _ _ i' inner' later' hi' _ hinner' hlater' =>
          have heq : i' = i := Option.some.inj (hi'.symm.trans hi)
          subst heq
          have hin := ihinner inner' hinner'
          subst hin
          rw [ihlater later' hlater']

/-- It has each interface once, and none that was listed before. -/
theorem nodup_and_disjoint {before : List DeclaredType} {names : List TypeName}
    {found : List DeclaredType} (h : a.DepthFirst before names found) :
    found.Nodup ∧ ∀ i ∈ found, i ∉ before := by
  induction h with
  | nil before => exact ⟨List.nodup_nil, fun i hi => absurd hi List.not_mem_nil⟩
  | pass before name rest found _ _ ih => exact ih
  | visit before name rest i inner later hi hnew _ _ ihinner ihlater =>
      rcases ihinner with ⟨hinner, hinnernew⟩
      rcases ihlater with ⟨hlater, hlaternew⟩
      simp only [List.mem_append, List.mem_cons, not_or] at hinnernew hlaternew
      constructor
      · rw [List.cons_append, List.nodup_cons, List.mem_append, not_or]
        refine ⟨⟨fun hmem => (hinnernew i hmem).1 rfl, fun hmem => (hlaternew i hmem).2.1 rfl⟩, ?_⟩
        exact List.nodup_append.mpr ⟨hinner, hlater, fun j hj k hk heq =>
          (hlaternew k hk).1 (heq ▸ hj)⟩
      · intro j hj
        rcases List.mem_cons.mp (List.cons_append ▸ hj) with rfl | hj
        · exact hnew
        · rcases List.mem_append.mp hj with hj | hj
          · exact (hinnernew j hj).2
          · exact (hlaternew j hj).2.2

end DepthFirst

section Interfaces

variable (t : DeclaredType)

/-- The walk through the interfaces of a type ends after no more names than there are in its own
    list and in those of all types. -/
theorem exists_walks_allInterfaces :
    ∃ count ≤ t.interfaces.length + (a.types.flatMap (·.interfaces)).length,
      a.Walks count [] t.interfaces (a.allInterfaces t) := by
  rw [← unseenNames_nil]
  refine a.walks_interfacesFrom _ [] t.interfaces ?_
  rw [unseenNames_nil]
  exact Nat.le_succ _

/-- The interfaces of a type are listed depth first. -/
theorem depthFirst_allInterfaces_iff (found : List DeclaredType) :
    a.DepthFirst [] t.interfaces found ↔ a.allInterfaces t = found := by
  rcases a.exists_walks_allInterfaces t with ⟨count, _, hwalks⟩
  rw [← List.append_nil t.interfaces] at hwalks
  have hmarks : a.Marks [] [] := fun name i _ => iff_of_false List.not_mem_nil List.not_mem_nil
  rcases a.exists_depthFirst_of_walks count [] [] t.interfaces [] _ hwalks hmarks with
    ⟨inner, later, seen, count', _, hfound, hinner, _, hlater⟩
  -- Nothing is pending behind the names of the type.
  cases hlater
  rw [List.append_nil] at hfound
  rw [hfound]
  constructor
  · exact fun h => hinner.unique found h ▸ rfl
  · rintro rfl
    exact hinner

/-- Interfaces that a type inherits are told apart by their names. -/
theorem eq_of_inherits_of_name_eq {i j : DeclaredType} (hi : a.Inherits t i) (hj : a.Inherits t j)
    (hname : i.name = j.name) : i = j := by
  have hfound : ∀ name k, a.Reaches name k → a.interface? k.name = some k := by
    intro name k h
    induction h with
    | self name k hk => rw [(a.mem_of_interface?_eq_some name k hk).2.1, hk]
    | step _ _ _ _ _ _ _ ih => exact ih
  rcases hi with ⟨name, _, hreach⟩
  rcases hj with ⟨name', _, hreach'⟩
  have heq := hfound name i hreach
  rw [hname, hfound name' j hreach', Option.some.injEq] at heq
  exact heq.symm

/-- The interfaces of a type have different names, so each is listed once. -/
theorem nodup_allInterfaces : ((a.allInterfaces t).map (·.name)).Nodup := by
  have hdepth := (a.depthFirst_allInterfaces_iff t _).mpr rfl
  refine List.Nodup.map_on (fun i hi j hj hname => ?_) hdepth.nodup_and_disjoint.1
  rw [mem_allInterfaces_iff] at hi hj
  exact a.eq_of_inherits_of_name_eq t hi hj hname

/-- A type is offered as a service if it is recognized as one. -/
theorem offersService_iff : a.offersService t = true ↔ a.IsRecognized t := by
  unfold offersService IsRecognized
  rw [Bool.and_eq_true, decide_eq_true_eq, Bool.or_eq_true, List.any_eq_true]
  simp only [mem_allInterfaces_iff]

instance : Decidable (a.IsRecognized t) := decidable_of_iff _ (a.offersService_iff t)

end Interfaces

/-- In a library that is validated, the walk through the interfaces of any type comes to its end. It
    lists exactly the interfaces that can be reached from the type, each once and depth first, and
    the services are the types that are recognized by these interfaces, in the order in which they
    are declared. -/
theorem recognition_of_validate (verdict : Verdict) (h : a.validate = .ok verdict) :
    (∀ t, (∃ count ≤ t.interfaces.length + (a.types.flatMap (·.interfaces)).length,
          a.Walks count [] t.interfaces (a.allInterfaces t))
        ∧ (∀ i, i ∈ a.allInterfaces t ↔ a.Inherits t i)
        ∧ ((a.allInterfaces t).map (·.name)).Nodup
        ∧ ∀ found, a.DepthFirst [] t.interfaces found ↔ a.allInterfaces t = found)
      ∧ verdict.contract.services.map (·.name)
        = (a.types.filter fun t => a.IsRecognized t).map (·.name) := by
  rcases (a.validate_eq_ok_iff verdict).mp h with ⟨_, rfl⟩
  refine ⟨fun t => ⟨a.exists_walks_allInterfaces t, a.mem_allInterfaces_iff t,
    a.nodup_allInterfaces t, a.depthFirst_allInterfaces_iff t⟩, ?_⟩
  have hsame : a.types.filter a.offersService = a.types.filter fun t => a.IsRecognized t := by
    refine List.filter_congr fun t _ => ?_
    rw [Bool.eq_iff_iff, offersService_iff, decide_eq_true_eq]
  rw [← hsame]
  simp only [review, List.map_map]
  rfl

/-- An interface of a vehicle. -/
def vehicleInterface (name : TypeName) (interfaces : List TypeName) (isService : Bool) :
    DeclaredType :=
  { (default : DeclaredType) with name, kind := .interface, interfaces, isService }

/-- An interface that is not marked, and leads to one that is. -/
def driveInterface : DeclaredType := vehicleInterface "Acme.IDrive" ["Acme.IMove"] false

/-- A marked interface. It lists the one that leads to it, and a class. -/
def moveInterface : DeclaredType :=
  vehicleInterface "Acme.IMove" ["Acme.IDrive", "Acme.Car"] true

/-- An interface that leads to the others on two ways, but is on no way itself. -/
def steerInterface : DeclaredType :=
  vehicleInterface "Acme.ISteer" ["Acme.IMove", "Acme.IDrive"] false

/-- A class with some of the interfaces, and a name that is not declared. -/
def carClass : DeclaredType :=
  { (default : DeclaredType) with
    name := "Acme.Car", interfaces := ["Acme.IDrive", "Acme.IGone", "Acme.ISteer"] }

/-- An enumeration that lists a marked interface. -/
def gearEnum : DeclaredType :=
  { (default : DeclaredType) with name := "Acme.Gear", kind := .enum, interfaces := ["Acme.IMove"] }

/-- A library in which interfaces list each other. -/
def carLibrary : Library :=
  ⟨"Acme", [gearEnum, carClass, steerInterface, driveInterface, moveInterface]⟩

/-- The two interfaces that list each other are met once each, and the enumeration is no service. -/
theorem recognition_of_carLibrary :
    carLibrary.validate = .ok carLibrary.review
      ∧ carLibrary.DepthFirst [] carClass.interfaces [driveInterface, moveInterface, steerInterface]
      ∧ carLibrary.review.contract.services.map (·.name)
        = ["Acme.Car", "Acme.ISteer", "Acme.IDrive", "Acme.IMove"] := by
  have h : carLibrary.validate = .ok carLibrary.review := by
    rw [validate_eq_ok_iff]
    exact ⟨by decide +kernel, rfl⟩
  rcases recognition_of_validate carLibrary _ h with ⟨hwalk, hservices⟩
  exact ⟨h, ((hwalk carClass).2.2.2 _).mpr rfl, hservices.trans (by decide +kernel)⟩

end Library

end PlatformBridge
