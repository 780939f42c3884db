import PlatformBridge.Proofs.Validation.Composition

/-!
# What Validation Looks At

Validation looks types up by their names, and it only looks up names that are
mentioned somewhere: in a reference to a type, as a base, or in a list of
interfaces. So two libraries that have the same types under these names are
treated alike. It does not matter where in a library a type stands, or which
types there are besides.

This is used in two ways. Two libraries that differ in order only agree on all
names. A library and the same library with one type more agree on all names but
the new one. Both cases are `AgreeOn`, with a condition on names as a parameter,
and each part of validation is shown to give the same in both libraries for
whatever mentions such names only.

The one place where the size of the library comes in is the fuel of the walk
through interfaces. As long as it is enough on both sides, the walks are the
same, step by step.

## Main definitions

* `DeclaredType.mentions`: The names that a type mentions.
* `Library.AgreeOn`: Two libraries have the same types under some names, and
  these lead to no other names.

## Theorems

* `names_of_answer`: What an answer mentions is mentioned by the return type.
* `Library.AgreeOn.bridgeType`, `Library.AgreeOn.disagrees`,
  `Library.AgreeOn.dataTypeOf`: Types, bases and data types.
* `Library.AgreeOn.operationOf`, `Library.AgreeOn.eventOf`: Operations and
  events.
* `Library.interfacesFrom_congr`, `Library.AgreeOn.allInterfaces`: The walk
  through interfaces.
* `Library.AgreeOn.offersService`, `Library.AgreeOn.serviceOf`: Services.
-/

namespace PlatformBridge

mutual

/-- The names in a type expression. -/
def TypeExpr.names : TypeExpr → List TypeName
  | .named name => [name]
  | .array element => element.names
  | .generic definition arguments => definition :: TypeExpr.namesAll arguments

/-- The names in some type expressions. -/
def TypeExpr.namesAll : List TypeExpr → List TypeName
  | [] => []
  | e :: rest => e.names ++ TypeExpr.namesAll rest

end

theorem TypeExpr.namesAll_eq_flatMap (es : List TypeExpr) :
    namesAll es = es.flatMap names := by
  induction es with
  | nil => rfl
  | cons e rest ih => rw [namesAll, ih, List.flatMap_cons]

/-- The names in the signature of a method. -/
def DeclaredMethod.mentions (m : DeclaredMethod) : List TypeName :=
  m.parameters.flatMap (·.type.names) ++ m.returns.names

/-- The names that a type mentions: its base, its interfaces, and the names in its members. -/
def DeclaredType.mentions (t : DeclaredType) : List TypeName :=
  t.base.toList ++ t.interfaces ++ t.methods.flatMap (·.mentions) ++ t.fields.flatMap (·.type.names)
    ++ t.events.flatMap (·.handler.names)

/-- The type of the value in an answer. -/
def ReturnKind.answer? : ReturnKind → Option TypeExpr
  | .nothing | .task => none
  | .taskOf e | .value e => some e

/-- The type of an answer is all of the return type, or its argument. -/
theorem names_of_answer {returns value : TypeExpr} {kind : ReturnKind}
    (hkind : ReturnKind.of returns = kind) (h : kind.answer? = some value) :
    ∀ n ∈ value.names, n ∈ returns.names := by
  subst hkind
  unfold ReturnKind.of at h
  split at h
  · cases h
  · cases h
  · cases h
    exact fun n hn => List.mem_cons_of_mem _ (List.mem_append_left _ hn)
  · cases h
    exact fun n hn => hn

namespace DeclaredType

variable {t : DeclaredType} {n : TypeName}

-- Where a mentioned name may stand.
theorem mentions_of_base (h : t.base = some n) : n ∈ t.mentions := by
  simp only [mentions, h, Option.toList_some, List.mem_append, List.mem_singleton, true_or]

theorem mentions_of_interface (h : n ∈ t.interfaces) : n ∈ t.mentions := by
  simp only [mentions, List.mem_append, h, or_true, true_or]

theorem mentions_of_method {m : DeclaredMethod} (hm : m ∈ t.methods) (h : n ∈ m.mentions) :
    n ∈ t.mentions := by
  have hmem : n ∈ t.methods.flatMap (·.mentions) := List.mem_flatMap.mpr ⟨m, hm, h⟩
  simp only [mentions, List.mem_append, hmem, or_true, true_or]

theorem mentions_of_field {f : DeclaredField} (hf : f ∈ t.fields) (h : n ∈ f.type.names) :
    n ∈ t.mentions := by
  have hmem : n ∈ t.fields.flatMap (·.type.names) := List.mem_flatMap.mpr ⟨f, hf, h⟩
  simp only [mentions, List.mem_append, hmem, or_true, true_or]

theorem mentions_of_event {e : DeclaredEvent} (he : e ∈ t.events) (h : n ∈ e.handler.names) :
    n ∈ t.mentions := by
  have hmem : n ∈ t.events.flatMap (·.handler.names) := List.mem_flatMap.mpr ⟨e, he, h⟩
  simp only [mentions, List.mem_append, hmem, or_true]

end DeclaredType

namespace Library

/-- Two walks meet the same interfaces, if the fuel of both is enough and if they do not differ in
    the interfaces of the names that they come by, or in which of these names were seen. -/
theorem interfacesFrom_congr {a b : Library} (P : TypeName → Prop)
    (hsame : ∀ n, P n → a.interface? n = b.interface? n)
    (hclosed : ∀ n i, P n → a.interface? n = some i → ∀ m ∈ i.interfaces, P m) (fuel : Nat) :
    ∀ fuel' seen seen' pending, (∀ n ∈ pending, P n) → (∀ n, P n → (n ∈ seen ↔ n ∈ seen')) →
      pending.length + unseenNames a.types seen ≤ fuel →
      pending.length + unseenNames b.types seen' ≤ fuel' →
      a.interfacesFrom fuel seen pending = b.interfacesFrom fuel' seen' pending := by
  induction fuel with
  | zero =>
      intro fuel' seen seen' pending _ _ hfuel _
      have hnil : pending = [] := List.eq_nil_of_length_eq_zero (by omega)
      subst hnil
      rw [interfacesFrom_nil, interfacesFrom_nil]
  | succ fuel ih =>
      intro fuel' seen seen' pending hpending hseen hfuel hfuel'
      cases pending with
      | nil => rw [interfacesFrom_nil, interfacesFrom_nil]
      | cons name pending =>
          rw [List.length_cons] at hfuel hfuel'
          rcases Nat.exists_eq_succ_of_ne_zero (show fuel' ≠ 0 by omega) with ⟨fuel', rfl⟩
          rw [List.forall_mem_cons] at hpending
          have hname := hseen name hpending.1
          have hseen' : ∀ n, P n → (n ∈ name :: seen ↔ n ∈ name :: seen') := by
            intro n hn
            rw [List.mem_cons, List.mem_cons, hseen n hn]
          rw [interfacesFrom_cons, interfacesFrom_cons, ← hsame name hpending.1]
          by_cases hmet : name ∈ seen
          · rw [if_pos hmet, if_pos (hname.mp hmet)]
            exact ih fuel' seen seen' pending hpending.2 hseen (by omega) (by omega)
          · have hmet' : name ∉ seen' := fun hmem => hmet (hname.mpr hmem)
            rw [if_neg hmet, if_neg hmet']
            cases ht : a.interface? name with
            | none =>
                have hless := unseenNames_cons_le a.types seen name
                have hless' := unseenNames_cons_le b.types seen' name
                exact ih fuel' (name :: seen) (name :: seen') pending hpending.2 hseen' (by omega)
                  (by omega)
            | some t =>
                -- In both libraries the interface pays for the names that it lists.
                have ht' : b.interface? name = some t := by rw [← hsame name hpending.1, ht]
                have hmem' := (b.mem_of_interface?_eq_some name t ht').1
                rcases a.mem_of_interface?_eq_some name t ht with ⟨hmem, rfl, _⟩
                have hless := unseenNames_cons_add_le a.types seen t hmem hmet
                have hless' := unseenNames_cons_add_le b.types seen' t hmem' hmet'
                have hlength : (t.interfaces ++ pending).length
                    = t.interfaces.length + pending.length := List.length_append
                have hlisted : ∀ n ∈ t.interfaces ++ pending, P n := fun n hn =>
                  (List.mem_append.mp hn).elim (hclosed t.name t hpending.1 ht n) (hpending.2 n)
                simp only
                rw [ih fuel' (t.name :: seen) (t.name :: seen') (t.interfaces ++ pending) hlisted
                  hseen' (by omega) (by omega)]

/-- Two libraries have the same types under some names, and these types mention no other names. -/
structure AgreeOn (a b : Library) (P : TypeName → Prop) : Prop where
  types : ∀ name, P name → a.type? name = b.type? name
  mentions : ∀ name t, P name → a.type? name = some t → ∀ n ∈ t.mentions, P n

namespace AgreeOn

variable {a b : Library} {P : TypeName → Prop} (h : AgreeOn a b P)

include h

theorem namedType (name : TypeName) (hname : P name) : a.namedType name = b.namedType name := by
  unfold Library.namedType
  rw [h.types name hname]

/-- A type crosses in both libraries, as the same. -/
theorem bridgeType (e : TypeExpr) (he : ∀ n ∈ e.names, P n) : a.bridgeType e = b.bridgeType e := by
  induction e using TypeExpr.byParts with
  | named name =>
      rw [Library.bridgeType, Library.bridgeType]
      exact h.namedType name (he name List.mem_cons_self)
  | array element ih =>
      rw [Library.bridgeType, Library.bridgeType, ih he]
  | generic definition arguments ih =>
      rw [Library.bridgeType, Library.bridgeType, bridgeTypes_eq_map, bridgeTypes_eq_map]
      refine congrArg (genericType definition arguments) (List.map_congr_left fun e hmem => ?_)
      refine ih e hmem fun n hn => he n (List.mem_cons_of_mem definition ?_)
      rw [TypeExpr.namesAll_eq_flatMap]
      exact List.mem_flatMap.mpr ⟨e, hmem, hn⟩

theorem isMarkedData (name : TypeName) (hname : P name) :
    a.isMarkedData name = b.isMarkedData name := by
  unfold Library.isMarkedData
  rw [h.types name hname]

/-- A type does not agree with a base in both libraries, or in none. -/
theorem disagrees (base : TypeName) (t : DeclaredType) (ht : ∀ n ∈ t.mentions, P n) :
    a.disagrees base t = b.disagrees base t := by
  unfold Library.disagrees
  by_cases hbase : t.declaredBase? = some base
  · have hmention := DeclaredType.mentions_of_base (Option.filter_eq_some_iff.mp hbase).1
    rw [h.isMarkedData base (ht base hmention)]
  · simp only [hbase, decide_false, Bool.false_and]

/-- A marked type defines the same in both libraries. -/
theorem dataTypeOf (t : DeclaredType) (ht : ∀ n ∈ t.mentions, P n) :
    a.dataTypeOf t = b.dataTypeOf t := by
  have hfields : (t.fields.map fun f => (f.name, a.bridgeType f.type))
      = t.fields.map fun f => (f.name, b.bridgeType f.type) := by
    refine List.map_congr_left fun f hf => ?_
    rw [h.bridgeType f.type fun n hn => ht n (DeclaredType.mentions_of_field hf hn)]
  have hbase : t.declaredBase?.filter a.isMarkedData = t.declaredBase?.filter b.isMarkedData := by
    cases hdeclared : t.declaredBase? with
    | none => rfl
    | some base =>
        have hbase := (Option.filter_eq_some_iff.mp hdeclared).1
        rw [Option.filter_some, Option.filter_some,
          h.isMarkedData base (ht base (DeclaredType.mentions_of_base hbase))]
  unfold Library.dataTypeOf
  simp only
  rw [hfields, hbase]

theorem checkParameter (p : DeclaredParameter) (hp : ∀ n ∈ p.type.names, P n) :
    a.checkParameter p = b.checkParameter p := by
  unfold Library.checkParameter
  rw [h.bridgeType p.type hp]

theorem checkReturn (returns : TypeExpr) (hreturns : ∀ n ∈ returns.names, P n) :
    a.checkReturn returns = b.checkReturn returns := by
  unfold Library.checkReturn
  cases hkind : ReturnKind.of returns with
  | nothing => rfl
  | task => rfl
  | taskOf inner =>
      simp only
      rw [h.bridgeType inner fun n hn => hreturns n (names_of_answer hkind rfl n hn)]
  | value value =>
      simp only
      rw [h.bridgeType value fun n hn => hreturns n (names_of_answer hkind rfl n hn)]

/-- A method makes the same operation in both libraries, or is refused alike. -/
theorem operationOf (service : TypeName) (c : Offer) (hc : ∀ n ∈ c.method.mentions, P n) :
    a.operationOf service c = b.operationOf service c := by
  have hparameters : c.method.callParameters.map a.checkParameter
      = c.method.callParameters.map b.checkParameter := by
    refine List.map_congr_left fun p hp => h.checkParameter p fun n hn => hc n ?_
    have hmem : p ∈ c.method.parameters := by
      unfold DeclaredMethod.callParameters at hp
      split at hp
      · exact List.mem_of_mem_drop hp
      · exact hp
    exact List.mem_append_left _ (List.mem_flatMap.mpr ⟨p, hmem, hn⟩)
  have hreturns : a.checkReturn c.method.returns = b.checkReturn c.method.returns :=
    h.checkReturn _ fun n hn => hc n (List.mem_append_right _ hn)
  unfold Library.operationOf
  simp only
  rw [hparameters, hreturns]

/-- So does an event. -/
theorem eventOf (service : TypeName) (declaring : DeclaredType) (e : DeclaredEvent)
    (he : ∀ n ∈ e.handler.names, P n) :
    a.eventOf service declaring e = b.eventOf service declaring e := by
  unfold Library.eventOf
  simp only
  split
  · rfl
  · rename_i payload hhandler
    have hpayload : ∀ n ∈ payload.names, P n := fun n hn => he n
      (hhandler ▸ List.mem_cons_of_mem _ (List.mem_append_left _ hn))
    rw [h.bridgeType payload hpayload]
  · rfl

section Types

variable (t : DeclaredType) (ht : ∀ n ∈ t.mentions, P n)

include ht

/-- A type has the same interfaces in both libraries. -/
theorem allInterfaces : a.allInterfaces t = b.allInterfaces t := by
  have ha := unseenNames_nil a.types
  have hb := unseenNames_nil b.types
  have hsame : ∀ n, P n → a.interface? n = b.interface? n := by
    intro n hn
    unfold interface?
    rw [h.types n hn]
  have hclosed : ∀ n i, P n → a.interface? n = some i → ∀ m ∈ i.interfaces, P m :=
    fun n i hn hi m hm => h.mentions n i hn (Option.filter_eq_some_iff.mp hi).1 m
      (DeclaredType.mentions_of_interface hm)
  unfold Library.allInterfaces
  exact interfacesFrom_congr P hsame hclosed _ _ [] [] t.interfaces
    (fun n hn => ht n (DeclaredType.mentions_of_interface hn)) (fun _ _ => Iff.rfl) (by omega)
    (by omega)

theorem offeringTypes : a.offeringTypes t = b.offeringTypes t := by
  unfold Library.offeringTypes
  rw [h.allInterfaces t ht]

/-- A type is a service in both libraries, or in none. -/
theorem offersService : a.offersService t = b.offersService t := by
  unfold Library.offersService
  rw [h.allInterfaces t ht]

/-- The types that a service looks at mention no other names, either. -/
theorem mentions_of_mem_offeringTypes (u : DeclaredType) (hu : u ∈ a.offeringTypes t) :
    ∀ n ∈ u.mentions, P n := by
  rcases (a.mem_offeringTypes_iff t u).mp hu with rfl | ⟨⟨name, hname, hreach⟩, -⟩
  · exact ht
  · have hfound := ht name (DeclaredType.mentions_of_interface hname)
    clear hname hu
    induction hreach with
    | self name i hi => exact h.mentions name i hfound (Option.filter_eq_some_iff.mp hi).1
    | step name next i j hi hnext _ ih =>
        exact ih (h.mentions name i hfound (Option.filter_eq_some_iff.mp hi).1 next
          (DeclaredType.mentions_of_interface hnext))

/-- A type has the same service in both libraries, with the same findings. -/
theorem serviceOf : a.serviceOf t = b.serviceOf t := by
  have hoperations : (soleOffers (offers (a.offeringTypes t))).map (a.operationOf t.name)
      = (soleOffers (offers (a.offeringTypes t))).map (b.operationOf t.name) := by
    refine List.map_congr_left fun c hc => h.operationOf t.name c fun n hn => ?_
    rcases of_mem_offers _ c ((mem_soleOffers_iff _ c).mp hc).1 with ⟨hdeclaring, hmethod, _⟩
    exact h.mentions_of_mem_offeringTypes t ht _ hdeclaring n
      (DeclaredType.mentions_of_method hmethod hn)
  have hevents : (distinctEvents (a.offeringTypes t)).map (fun d => a.eventOf t.name d.1 d.2)
      = (distinctEvents (a.offeringTypes t)).map (fun d => b.eventOf t.name d.1 d.2) := by
    refine List.map_congr_left fun d hd => h.eventOf t.name d.1 d.2 fun n hn => ?_
    rcases of_mem_distinctEvents _ d hd with ⟨hdeclaring, hevent⟩
    exact h.mentions_of_mem_offeringTypes t ht _ hdeclaring n
      (DeclaredType.mentions_of_event hevent hn)
  unfold Library.serviceOf
  rw [← h.offeringTypes t ht]
  unfold soleOffers at hoperations
  simp only
  rw [hoperations, hevents]

end Types

end AgreeOn

end Library

end PlatformBridge
