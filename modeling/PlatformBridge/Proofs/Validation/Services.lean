import PlatformBridge.Proofs.Validation.Types

/-!
# What a Service Holds

An operation is built from a method that was chosen and whose name no other
chosen method has, an event from the first declaration of its name. Building
fails with a finding or takes everything over: all parameters, the answer and
the name. What a service and its findings consist of follows from this by
membership, as for a verdict.

Building is a chain of checks, each of which may end it. The lemmas about single
checks say what passed, and `operationOf_eq_ok_iff` puts them together in both
directions, so that no proof after this follows the chain again. What fails is
described by its kind and by what it is about; the text of a finding is the
code's own matter.

The service that a method is built for leaves its mark on the id only. It is
said here, since it is what makes findings of two services equal.

## Main definitions

* `Library.soleOffers`: The offers whose name no other offer has.

## Theorems

* `Library.checkParameter_eq_ok_iff`, `Library.exists_of_checkReturn_eq_ok`: The
  checks of a method.
* `Library.operationOf_eq_ok_iff`, `Library.eventOf_eq_ok`: What operations and
  events are made of.
* `Offer.of_refusal?_eq_some`, `Library.of_operationOf_eq_error`,
  `Library.of_eventOf_eq_error`: A method or event that is not taken is told
  with what it is.
* `Library.operationOf_eq_map`, `Library.eventOf_eq_map`: What another service
  makes of a method or event.
* `Library.mem_operations_iff`, `Library.mem_events_iff`,
  `Library.mem_findings_iff`: What is in a service.
* `Library.mem_dataTypes_serviceOf_iff`: The data types of a service are those
  in its types.
* `Library.admits_of_mem_types_serviceOf`: The types of a service are allowed.
-/

namespace PlatformBridge

/-- A method that cannot be offered is told with its signature. -/
theorem Offer.of_refusal?_eq_some (c : Offer) (d : Finding) (h : c.refusal? = some d) :
    ∃ detail, d = .of .explicitInterfaceOperation c.subject detail [] []
      ∨ d = .of .nonPublicOperation c.subject detail [] [] := by
  unfold Offer.refusal? at h
  split at h
  · cases h
    exact ⟨_, Or.inl rfl⟩
  · split at h
    · cases h
      exact ⟨_, Or.inr rfl⟩
    · cases h

namespace Library

open Results

variable (a : Library)

/-- A parameter is taken if it is passed by value and its type can cross. -/
theorem checkParameter_eq_ok_iff (p : DeclaredParameter) (q : Parameter) :
    a.checkParameter p = .ok q
      ↔ p.mode = .value ∧ a.bridgeType p.type = .ok q.type ∧ q = ⟨p.name, q.type, .value⟩ := by
  unfold checkParameter
  cases hmode : p.mode with
  | value =>
      simp only [Passing.keyword?, true_and]
      cases a.bridgeType p.type with
      | error causes => simp only [reduceCtorEq, false_and]
      | ok type =>
          simp only [Except.ok.injEq]
          constructor
          · rintro rfl
            exact ⟨rfl, rfl⟩
          · rintro ⟨rfl, hq⟩
            exact hq.symm
  | ref => simp only [Passing.keyword?, reduceCtorEq, false_and]
  | out => simp only [Passing.keyword?, reduceCtorEq, false_and]

/-- What an operation answers with is a type that can cross. -/
theorem exists_of_checkReturn_eq_ok (returns : TypeExpr) (shape : ReplyMode)
    (h : a.checkReturn returns = .ok shape) (t : BridgeType) (ht : shape.value? = some t) :
    ∃ e, a.bridgeType e = .ok t := by
  unfold checkReturn at h
  cases hkind : ReturnKind.of returns with
  | nothing =>
      simp only [hkind] at h
      cases h
      cases ht
  | task =>
      simp only [hkind] at h
      cases h
      cases ht
  | taskOf value =>
      simp only [hkind] at h
      rcases map_eq_ok.mp h with ⟨u, hu, rfl⟩
      cases ht
      exact ⟨value, hu⟩
  | value value =>
      simp only [hkind] at h
      rcases map_eq_ok.mp h with ⟨u, hu, rfl⟩
      cases ht
      exact ⟨value, hu⟩

/-- An operation is built if the method has no type parameters and all of its parameters and what it
    returns can cross; it then has all of them. -/
theorem operationOf_eq_ok_iff (service : TypeName) (c : Offer) (o : Operation) :
    a.operationOf service c = .ok o
      ↔ c.method.genericArity = 0
        ∧ ∃ (P : DeclaredParameter → Parameter) (shape : ReplyMode),
          (∀ p ∈ c.method.callParameters, a.checkParameter p = .ok (P p))
          ∧ a.checkReturn c.method.returns = .ok shape
          ∧ o = {
            name := c.method.name
            id := MemberId.of service c.method.name
            parameters := c.method.callParameters.map P
            returns := shape
            isStatic := c.method.isStatic
            canonicalSignature := c.method.canonicalSignature
            formalSignature := c.method.formalSignature } := by
  unfold operationOf
  by_cases hgeneric : 0 < c.method.genericArity
  · have hne : c.method.genericArity ≠ 0 := by omega
    simp only [hgeneric, if_true, reduceCtorEq, hne, false_and]
  · have hzero : c.method.genericArity = 0 := by omega
    simp only [hgeneric, if_false]
    constructor
    · intro h
      split at h
      · rename_i shape hreturns hwrong
        -- Nothing is wrong with a parameter, so each of them has been taken over.
        have hok := exists_of_filterMap_error_eq_nil _ (fun _ => rfl) (fun _ => rfl)
          a.checkParameter _ hwrong
        choose! P hP using hok
        cases h
        refine ⟨hzero, P, shape, hP, hreturns, ?_⟩
        rw [filterMap_toOption_of_ok a.checkParameter P _ hP]
      · cases h
    · rintro ⟨_, P, shape, hP, hreturns, rfl⟩
      rw [filterMap_error_of_ok _ (fun _ => rfl) a.checkParameter P _ hP,
        filterMap_toOption_of_ok a.checkParameter P _ hP, hreturns]

/-- A method that is refused is told with its signature. -/
theorem of_operationOf_eq_error (service : TypeName) (c : Offer) (e : Finding)
    (h : a.operationOf service c = .error e) :
    ∃ detail causes, e = .of .invalidOperationSignature c.subject detail [] causes := by
  unfold operationOf at h
  by_cases hgeneric : 0 < c.method.genericArity
  · simp only [hgeneric, if_true] at h
    cases h
    exact ⟨_, _, rfl⟩
  · simp only [hgeneric, if_false] at h
    split at h
    · cases h
    · cases h
      exact ⟨_, _, rfl⟩

/-- An event is built if its handler carries nothing, or something that can cross. -/
theorem eventOf_eq_ok (service : TypeName) (declaring : DeclaredType) (e : DeclaredEvent)
    (ev : Event) (h : a.eventOf service declaring e = .ok ev) :
    ev.name = e.name ∧ ev.id = MemberId.of service e.name
      ∧ ∀ t, ev.payload = some t → ∃ x, a.bridgeType x = .ok t := by
  unfold eventOf at h
  simp only at h
  split at h
  · cases h
    refine ⟨rfl, rfl, fun t ht => ?_⟩
    cases ht
  · rename_i payload hhandler
    split at h
    · rename_i type htype
      cases h
      refine ⟨rfl, rfl, fun t ht => ?_⟩
      cases ht
      exact ⟨payload, htype⟩
    · cases h
  · cases h

/-- For another service, a method makes the operation with another id or is refused alike. -/
theorem operationOf_eq_map (service service' : TypeName) (c : Offer) :
    a.operationOf service' c
      = (a.operationOf service c).map fun o =>
        { o with id := MemberId.of service' c.method.name } := by
  unfold operationOf
  simp only
  split
  · rfl
  · split <;> rfl

/-- So does an event. -/
theorem eventOf_eq_map (service service' : TypeName) (declaring : DeclaredType)
    (e : DeclaredEvent) :
    a.eventOf service' declaring e
      = (a.eventOf service declaring e).map fun ev =>
        { ev with id := MemberId.of service' e.name } := by
  unfold eventOf
  simp only
  split
  · rfl
  · split <;> rfl
  · rfl

/-- An event that is refused is told with the type that declares it. -/
theorem of_eventOf_eq_error (service : TypeName) (declaring : DeclaredType) (e : DeclaredEvent)
    (d : Finding) (h : a.eventOf service declaring e = .error d) :
    ∃ detail causes, d = .of .unsupportedEventShape (declaring.name ++ "." ++ e.name) detail []
      causes := by
  unfold eventOf at h
  simp only at h
  split at h
  · cases h
  · split at h
    · cases h
    · cases h
      exact ⟨_, _, rfl⟩
  · cases h
    exact ⟨_, _, rfl⟩

/-- The offers whose name no other offer has. -/
def soleOffers (chosen : List Offer) : List Offer :=
  chosen.filter fun c =>
    !(nameClashes (chosen.map (·.method))).any (·.name = c.method.canonicalSignature)

/-- The names that operations and events mention are those in their types. -/
theorem mem_mentioned_iff (operations : List Operation) (events : List Event) (name : TypeName) :
    name ∈ (mentioned operations events).toList
      ↔ ∃ u ∈ operations.flatMap (·.types) ++ events.flatMap (·.types), u.named? = some name := by
  unfold mentioned NameSet.ofList
  rw [mem_sortNames, List.mem_append]
  simp only [List.mem_append, or_and_right, exists_or]
  -- Operations and events are searched alike, and neither loses a name on the way.
  refine or_congr ?_ ?_
  · simp only [Operation.types, List.mem_flatMap, List.mem_append, List.mem_filterMap, List.mem_map,
      Option.mem_toList, Option.bind_eq_some_iff]
    grind
  · simp only [Event.types, List.mem_flatMap, List.mem_filterMap, Option.mem_toList,
      Option.bind_eq_some_iff]
    grind

section Members

variable (t : DeclaredType)

/-- The operations of a service are built from the chosen methods that share no name. -/
theorem mem_operations_iff (o : Operation) :
    o ∈ (a.serviceOf t).1.operations
      ↔ ∃ c ∈ soleOffers (offers (a.offeringTypes t)), a.operationOf t.name c = .ok o := by
  unfold serviceOf
  simp only [mem_filterMap_toOption, List.mem_map]
  rfl

/-- The events of a service are built from the first declarations of their names. -/
theorem mem_events_iff (ev : Event) :
    ev ∈ (a.serviceOf t).1.events
      ↔ ∃ e ∈ distinctEvents (a.offeringTypes t), a.eventOf t.name e.1 e.2 = .ok ev := by
  unfold serviceOf
  simp only [mem_filterMap_toOption, List.mem_map]

/-- The findings of a service are about methods that cannot be offered, about names that several
    methods share, and about what could not be built. -/
theorem mem_findings_iff (d : Finding) :
    d ∈ (a.serviceOf t).2
      ↔ (∃ c ∈ markedMethods (a.offeringTypes t), c.refusal? = some d)
        ∨ (∃ clash ∈ nameClashes ((offers (a.offeringTypes t)).map (·.method)),
            clashFinding t.name (offers (a.offeringTypes t)) clash = d)
        ∨ (∃ c ∈ soleOffers (offers (a.offeringTypes t)), a.operationOf t.name c = .error d)
        ∨ ∃ e ∈ distinctEvents (a.offeringTypes t), a.eventOf t.name e.1 e.2 = .error d := by
  unfold serviceOf
  simp only [List.mem_append, or_assoc]
  rw [mem_filterMap_error _ _ (fun _ => rfl) (fun _ => rfl),
    mem_filterMap_error _ _ (fun _ => rfl) (fun _ => rfl)]
  simp only [List.mem_filterMap, List.mem_map]
  rfl

/-- The data types of a service are those that its types mention. -/
theorem mem_dataTypes_serviceOf_iff (name : TypeName) :
    name ∈ (a.serviceOf t).1.dataTypes.toList
      ↔ ∃ u ∈ (a.serviceOf t).1.types, u.named? = some name :=
  mem_mentioned_iff _ _ name

theorem admits_of_mem_types_operation (service : TypeName) (c : Offer) (o : Operation)
    (h : a.operationOf service c = .ok o) (u : BridgeType) (hu : u ∈ o.types) : a.Admits u := by
  rcases (a.operationOf_eq_ok_iff service c o).mp h with ⟨_, P, shape, hP, hreturns, rfl⟩
  rcases List.mem_append.mp hu with hparameter | hreturn
  · rcases List.mem_map.mp hparameter with ⟨q, hq, rfl⟩
    rcases List.mem_map.mp hq with ⟨p, hp, rfl⟩
    have hcross := ((a.checkParameter_eq_ok_iff p (P p)).mp (hP p hp)).2.1
    exact a.admits_of_bridgeType_eq_ok p.type _ hcross
  · rcases a.exists_of_checkReturn_eq_ok _ shape hreturns u (Option.mem_toList.mp hreturn) with
      ⟨e, he⟩
    exact a.admits_of_bridgeType_eq_ok e u he

/-- The types of a service are allowed. -/
theorem admits_of_mem_types_serviceOf (u : BridgeType) (hu : u ∈ (a.serviceOf t).1.types) :
    a.Admits u := by
  rcases List.mem_append.mp hu with hoperation | hevent
  · rcases List.mem_flatMap.mp hoperation with ⟨o, ho, hmem⟩
    rcases (a.mem_operations_iff t o).mp ho with ⟨c, _, hbuilt⟩
    exact a.admits_of_mem_types_operation t.name c o hbuilt u hmem
  · rcases List.mem_flatMap.mp hevent with ⟨ev, hev, hmem⟩
    rcases (a.mem_events_iff t ev).mp hev with ⟨e, _, hbuilt⟩
    rcases (a.eventOf_eq_ok t.name e.1 e.2 ev hbuilt).2.2 u (Option.mem_toList.mp hmem) with
      ⟨x, hx⟩
    exact a.admits_of_bridgeType_eq_ok x u hx

end Members

end Library

end PlatformBridge
