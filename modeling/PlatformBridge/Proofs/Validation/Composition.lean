import PlatformBridge.Proofs.Validation.Closure
import PlatformBridge.Proofs.Validation.Operations

/-!
# Composition of Interfaces

A service offers what its type declares and what the marked interfaces of that
type declare, and whatever these interfaces offer as services of their own
should be there, too. It is there by its formal signature, or an event by its
name: in a verdict without errors each of them has its counterpart. What the
counterpart looks like is another matter. Of all declarations of one signature
the first one counts, and the signature says nothing about what a method
returns; of all events of one name the first one counts, and the name says
nothing about the payload. So the counterpart looks as it should if the
declarations that go into one agree, and this is not checked anywhere.

The statement therefore has two parts. That there is a counterpart, and which
declaration it is made of, holds of every verdict without errors. That it looks
like what the interface offers is equivalent to the agreement of two
declarations, which are given by the library alone.

That a service looks at all types its interfaces look at is transitivity of
inheritance. That the first declaration counts is an induction over the choice
of methods, from any list of methods chosen before.

## Main definitions

* `Operation.Alike`, `Event.Alike`: What the other side sees of operations and
  events is the same.
* `Library.offersOf`, `Library.eventsOf`: The declarations that go into one
  operation or event.
* `Library.MethodsAlike`, `Library.EventsAlike`: Two declarations agree.

## Theorems

* `Library.Inherits.trans`: Interfaces of interfaces are interfaces.
* `Library.mem_offeringTypes_of_inherits`: A service looks at what its marked
  interfaces look at.
* `Library.mem_offers_of_head?`, `Library.mem_distinctEvents_of_head?`: The
  first declaration counts.
* `Library.exists_operation_of_clean`, `Library.exists_event_of_clean`: Without
  errors, what is chosen is built.
* `Library.alike_iff_methodsAlike`, `Library.alike_iff_eventsAlike`: What two
  declarations give looks the same exactly if they agree.
* `Library.exists_counterpart`, `Library.exists_event_counterpart`: The
  counterpart of an operation, and of an event.
* `Library.counterparts_of_validate`: The counterparts of what an interface
  offers.
* `Library.exists_not_alike`: A counterpart with another answer, and one with
  another payload.
-/

namespace PlatformBridge

/-- Operations have the same name, the same types of parameters, and answer in the same way. -/
def Operation.Alike (o o' : Operation) : Prop :=
  o.name = o'.name ∧ o.parameters.map (·.type) = o'.parameters.map (·.type)
    ∧ o.returns = o'.returns

instance (o o' : Operation) : Decidable (o.Alike o') :=
  inferInstanceAs (Decidable (_ ∧ _ ∧ _))

/-- Events have the same name and the same payload. -/
def Event.Alike (e e' : Event) : Prop := e.name = e'.name ∧ e.payload = e'.payload

instance (e e' : Event) : Decidable (e.Alike e') :=
  inferInstanceAs (Decidable (_ ∧ _))

namespace Library

open Results

variable (a : Library)

/-- Methods have the same name and, on the bridge, the same parameters and the same answer. -/
def MethodsAlike (m n : DeclaredMethod) : Prop :=
  m.name = n.name
    ∧ m.callParameters.map (fun p => a.bridgeType p.type)
      = n.callParameters.map (fun p => a.bridgeType p.type)
    ∧ a.checkReturn m.returns = a.checkReturn n.returns

/-- Events of types make the same event of a service, or none. -/
def EventsAlike (d d' : DeclaredType × DeclaredEvent) : Prop :=
  ∀ service, (a.eventOf service d.1 d.2).toOption = (a.eventOf service d'.1 d'.2).toOption

/-- The methods of a formal signature that a service can offer, in the order in which its types are
    looked at. -/
def offersOf (t : DeclaredType) (signature : String) : List Offer :=
  (markedMethods (a.offeringTypes t)).filter fun c =>
    c.refusal?.isNone && c.method.formalSignature = signature

/-- The events of some types. -/
def declaredEvents (sources : List DeclaredType) : List (DeclaredType × DeclaredEvent) :=
  sources.flatMap fun t => t.events.map fun e => (t, e)

/-- The events of a name that a service can offer, in the order in which its types are looked at. -/
def eventsOf (t : DeclaredType) (name : String) : List (DeclaredType × DeclaredEvent) :=
  (declaredEvents (a.offeringTypes t)).filter (·.2.name = name)

/-- What can be reached from a name that an interface lists can be reached from wherever the
    interface can be reached. -/
theorem Reaches.trans {name next : TypeName} {i j : DeclaredType} (h : a.Reaches name i)
    (hnext : next ∈ i.interfaces) (hj : a.Reaches next j) : a.Reaches name j := by
  induction h with
  | self name i hi => exact .step name next i j hi hnext hj
  | step name next' i k hi hnext' _ ih => exact .step name next' i j hi hnext' (ih hnext)

/-- The interfaces of an interface of a type are interfaces of the type. -/
theorem Inherits.trans {t i j : DeclaredType} (h : a.Inherits t i) (h' : a.Inherits i j) :
    a.Inherits t j := by
  rcases h with ⟨name, hname, hreach⟩
  rcases h' with ⟨next, hnext, hreach'⟩
  exact ⟨name, hname, hreach.trans a hnext hreach'⟩

theorem Reaches.mem_types {name : TypeName} {i : DeclaredType} (h : a.Reaches name i) :
    i ∈ a.types ∧ i.kind = .interface := by
  induction h with
  | self name i hi =>
      rcases a.mem_of_interface?_eq_some name i hi with ⟨hmem, _, hkind⟩
      exact ⟨hmem, hkind⟩
  | step name next i j _ _ _ ih => exact ih

/-- A service looks at all types that a marked interface of its type looks at. -/
theorem mem_offeringTypes_of_inherits {t i : DeclaredType} (h : a.Inherits t i)
    (hmark : i.isService = true) {u : DeclaredType} (hu : u ∈ a.offeringTypes i) :
    u ∈ a.offeringTypes t := by
  rw [mem_offeringTypes_iff] at hu ⊢
  rcases hu with rfl | ⟨hinherits, hmark'⟩
  · exact Or.inr ⟨h, hmark⟩
  · exact Or.inr ⟨h.trans a hinherits, hmark'⟩

/-- Only what can be offered is chosen. -/
theorem refusal?_of_mem_chooseOffers (rest : List Offer) :
    ∀ chosen, (∀ c ∈ chosen, c.refusal? = none) →
      ∀ c ∈ chooseOffers chosen rest, c.refusal? = none := by
  induction rest with
  | nil => exact fun chosen h => h
  | cons x rest ih =>
      intro chosen h
      rw [chooseOffers]
      split
      · exact ih chosen h
      · rename_i hx
        rw [Offer.not_passedOver_iff] at hx
        exact ih (chosen ++ [x])
          (List.forall_mem_append.mpr ⟨h, List.forall_mem_singleton.mpr hx.1⟩)

/-- As long as nothing of a signature is chosen, the next offer of it will be. -/
theorem mem_chooseOffers_of_find? (signature : String) (c : Offer) (rest : List Offer)
    (hfirst : rest.find? (fun c => c.refusal?.isNone && c.method.formalSignature = signature)
      = some c) :
    ∀ chosen, (∀ e ∈ chosen, e.method.formalSignature ≠ signature) →
      c ∈ chooseOffers chosen rest := by
  induction rest with
  | nil => cases hfirst
  | cons x rest ih =>
      intro chosen hnone
      rw [chooseOffers]
      rw [List.find?_cons] at hfirst
      split at hfirst
      · -- This is the offer, and nothing that was chosen stands for it.
        rename_i hx
        cases hfirst
        rw [Bool.and_eq_true, Option.isNone_iff_eq_none, decide_eq_true_eq] at hx
        have hnew : ¬ (c.refusal?.isSome || c.implementsOneOf chosen) = true := by
          rw [Offer.not_passedOver_iff, Offer.implementsOneOf_iff]
          refine ⟨hx.1, ?_⟩
          rintro ⟨e, he, _, hsame⟩
          exact hnone e he (hsame.trans hx.2)
        rw [if_neg hnew]
        exact mem_chooseOffers_of_mem rest c _ (List.mem_append_right chosen List.mem_cons_self)
      · rename_i hx
        split
        · exact ih hfirst chosen hnone
        · -- What is chosen now is of another signature.
          rename_i hchoose
          rw [Offer.not_passedOver_iff] at hchoose
          rw [hchoose.1, Option.isNone_none, Bool.true_and, decide_eq_false_iff_not] at hx
          exact ih hfirst (chosen ++ [x])
            (List.forall_mem_append.mpr ⟨hnone, List.forall_mem_singleton.mpr hx⟩)

/-- Of the methods of a signature that a service can offer the first one is offered. -/
theorem mem_offers_of_head? (t : DeclaredType) (signature : String) (c : Offer)
    (h : (a.offersOf t signature).head? = some c) : c ∈ offers (a.offeringTypes t) := by
  rw [offersOf, List.head?_filter] at h
  exact mem_chooseOffers_of_find? signature c _ h [] (List.forall_mem_nil _)

/-- Of the events of each name that a service can offer the first one is offered. -/
theorem mem_distinctEvents_iff (sources : List DeclaredType) (d : DeclaredType × DeclaredEvent) :
    d ∈ distinctEvents sources
      ↔ (declaredEvents sources).find? (fun e => e.2.name = d.2.name) = some d := by
  have hmet : ∀ (kept : List (DeclaredType × DeclaredEvent)) (e : DeclaredType × DeclaredEvent),
      kept.any (·.2.name = e.2.name) = true ↔ ∃ k ∈ kept, k.2.name = e.2.name := by
    intro kept e
    simp only [List.any_eq_true, decide_eq_true_eq]
  rcases exists_foldl_first_eq (·.2.name) (fun kept e => kept.any (·.2.name = e.2.name)) hmet
    (declaredEvents sources) [] with ⟨added, heq, _, _, hadded⟩
  have hevents : distinctEvents sources = added := heq
  rw [hevents, hadded]
  simp only [List.not_mem_nil, false_implies, implies_true, true_and]

/-- An event that is offered is an event of a type that was looked at. -/
theorem of_mem_distinctEvents (sources : List DeclaredType) (d : DeclaredType × DeclaredEvent)
    (hd : d ∈ distinctEvents sources) : d.1 ∈ sources ∧ d.2 ∈ d.1.events := by
  have hdeclared := List.mem_of_find?_eq_some ((mem_distinctEvents_iff sources d).mp hd)
  rcases List.mem_flatMap.mp hdeclared with ⟨u, hu, hevent⟩
  rcases List.mem_map.mp hevent with ⟨e, he, rfl⟩
  exact ⟨hu, he⟩

/-- Of the events of a name that a service can offer the first one is offered. -/
theorem mem_distinctEvents_of_head? (t : DeclaredType) (name : String)
    (d : DeclaredType × DeclaredEvent) (h : (a.eventsOf t name).head? = some d) :
    d ∈ distinctEvents (a.offeringTypes t) := by
  have hname : d.2.name = name :=
    of_decide_eq_true (List.mem_filter.mp (List.mem_of_mem_head? h)).2
  rw [eventsOf, List.head?_filter, ← hname] at h
  exact (mem_distinctEvents_iff _ d).mpr h

section Clean

variable (t : DeclaredType) (hclean : ∀ d ∈ (a.serviceOf t).2, d.isError = false)

include hclean

/-- Without errors, every method that is chosen is an operation. -/
theorem exists_operation_of_clean (c : Offer) (hc : c ∈ offers (a.offeringTypes t)) :
    ∃ o ∈ (a.serviceOf t).1.operations, a.operationOf t.name c = .ok o := by
  have hsole : c ∈ soleOffers (offers (a.offeringTypes t)) := by
    refine (mem_soleOffers_iff _ c).mpr ⟨hc, fun hclash => ?_⟩
    -- A name of several methods would be an error.
    have hany := (any_nameClashes_iff _ _).mpr hclash
    rcases List.any_eq_true.mp hany with ⟨clash, hmem, _⟩
    cases hclean _ ((a.mem_findings_iff t _).mpr (Or.inr (Or.inl ⟨clash, hmem, rfl⟩)))
  cases hbuilt : a.operationOf t.name c with
  | ok o => exact ⟨o, (a.mem_operations_iff t o).mpr ⟨c, hsole, hbuilt⟩, rfl⟩
  | error d =>
      have hmem := (a.mem_findings_iff t d).mpr (Or.inr (Or.inr (Or.inl ⟨c, hsole, hbuilt⟩)))
      rcases a.of_operationOf_eq_error t.name c d hbuilt with ⟨detail, causes, rfl⟩
      cases hclean _ hmem

/-- Without errors, every event that is kept is an event of the service. -/
theorem exists_event_of_clean (d : DeclaredType × DeclaredEvent)
    (hd : d ∈ distinctEvents (a.offeringTypes t)) :
    ∃ e ∈ (a.serviceOf t).1.events, a.eventOf t.name d.1 d.2 = .ok e := by
  cases hbuilt : a.eventOf t.name d.1 d.2 with
  | ok e => exact ⟨e, (a.mem_events_iff t e).mpr ⟨d, hd, hbuilt⟩, rfl⟩
  | error f =>
      have hmem := (a.mem_findings_iff t f).mpr (Or.inr (Or.inr (Or.inr ⟨d, hd, hbuilt⟩)))
      rcases a.of_eventOf_eq_error t.name d.1 d.2 f hbuilt with ⟨detail, causes, rfl⟩
      cases hclean _ hmem

end Clean

/-- Operations look alike exactly if the methods that they are made of agree. -/
theorem alike_iff_methodsAlike (service service' : TypeName) (c c' : Offer) (o o' : Operation)
    (ho : a.operationOf service c = .ok o) (ho' : a.operationOf service' c' = .ok o') :
    o.Alike o' ↔ a.MethodsAlike c.method c'.method := by
  rcases (a.operationOf_eq_ok_iff service c o).mp ho with ⟨_, P, shape, hP, hreturns, rfl⟩
  rcases (a.operationOf_eq_ok_iff service' c' o').mp ho' with ⟨_, P', shape', hP', hreturns', rfl⟩
  have htypes : ∀ (m : DeclaredMethod) (Q : DeclaredParameter → Parameter),
      (∀ p ∈ m.callParameters, a.checkParameter p = .ok (Q p)) →
      m.callParameters.map (fun p => a.bridgeType p.type)
        = ((m.callParameters.map Q).map (·.type)).map Except.ok := by
    intro m Q hQ
    rw [List.map_map, List.map_map]
    refine List.map_congr_left fun p hp => ?_
    exact ((a.checkParameter_eq_ok_iff p (Q p)).mp (hQ p hp)).2.1
  unfold Operation.Alike MethodsAlike
  rw [htypes c.method P hP, htypes c'.method P' hP', hreturns, hreturns', Except.ok.injEq]
  have hinjective : Function.Injective (List.map (Except.ok : BridgeType → Resolved)) :=
    List.map_injective_iff.mpr fun _ _ => Except.ok.inj
  rw [hinjective.eq_iff]

/-- Events look alike exactly if the events that they are made of agree. -/
theorem alike_iff_eventsAlike (service service' : TypeName)
    (d d' : DeclaredType × DeclaredEvent) (hname : d.2.name = d'.2.name) (e e' : Event)
    (he : a.eventOf service d.1 d.2 = .ok e) (he' : a.eventOf service' d'.1 d'.2 = .ok e') :
    e.Alike e' ↔ a.EventsAlike d d' := by
  have hnames : e.name = e'.name := by
    rw [(a.eventOf_eq_ok service d.1 d.2 e he).1, (a.eventOf_eq_ok service' d'.1 d'.2 e' he').1,
      hname]
  -- For one service the events have the same id, so what is left of them is the payload.
  have hmade : ∀ name, ((a.eventOf name d.1 d.2).toOption = (a.eventOf name d'.1 d'.2).toOption
      ↔ e.payload = e'.payload) := by
    intro name
    rw [a.eventOf_eq_map service name, a.eventOf_eq_map service' name, he, he']
    simp only [Except.map, Except.toOption, Option.some.injEq, Event.mk.injEq, hnames, hname,
      true_and]
  unfold Event.Alike EventsAlike
  rw [forall_congr' hmade, forall_const, and_iff_right hnames]

/-- The operation of an interface has its counterpart in the service of a type that has the
    interface. -/
theorem exists_counterpart (t i : DeclaredType) (hinherits : a.Inherits t i)
    (hmark : i.isService = true) (hclean : ∀ d ∈ (a.serviceOf t).2, d.isError = false)
    (o : Operation) (ho : o ∈ (a.serviceOf i).1.operations) :
    ∃ c d o', (a.offersOf t o.formalSignature).head? = some c
      ∧ a.operationOf t.name c = .ok o' ∧ o' ∈ (a.serviceOf t).1.operations
      ∧ d ∈ a.offersOf t o.formalSignature ∧ a.operationOf i.name d = .ok o
      ∧ (o'.Alike o ↔ a.MethodsAlike c.method d.method) := by
  rcases (a.mem_operations_iff i o).mp ho with ⟨d, hd, hbuilt⟩
  have hchosen := ((mem_soleOffers_iff _ d).mp hd).1
  have hoffer := refusal?_of_mem_chooseOffers _ [] (List.forall_mem_nil _) d hchosen
  have hsignature : o.formalSignature = d.method.formalSignature := by
    rcases (a.operationOf_eq_ok_iff i.name d o).mp hbuilt with ⟨_, P, shape, _, _, rfl⟩
    rfl
  -- The method that the operation was made of is one that the service can offer.
  have hmem : d ∈ a.offersOf t o.formalSignature := by
    rcases of_mem_offers _ d hchosen with ⟨hdeclaring, hmethod⟩
    refine List.mem_filter.mpr ⟨(mem_markedMethods_iff _ d).mpr
      ⟨a.mem_offeringTypes_of_inherits hinherits hmark hdeclaring, hmethod⟩, ?_⟩
    rw [hoffer, Option.isNone_none, Bool.true_and]
    exact decide_eq_true hsignature.symm
  have hc := List.head?_eq_some_head (List.ne_nil_of_mem hmem)
  rcases a.exists_operation_of_clean t hclean _ (a.mem_offers_of_head? t _ _ hc) with
    ⟨o', ho', hbuilt'⟩
  exact ⟨_, d, o', hc, hbuilt', ho', hmem, hbuilt,
    a.alike_iff_methodsAlike t.name i.name _ d o' o hbuilt' hbuilt⟩

/-- So has an event of the interface. -/
theorem exists_event_counterpart (t i : DeclaredType) (hinherits : a.Inherits t i)
    (hmark : i.isService = true) (hclean : ∀ d ∈ (a.serviceOf t).2, d.isError = false)
    (e : Event) (he : e ∈ (a.serviceOf i).1.events) :
    ∃ c d e', (a.eventsOf t e.name).head? = some c
      ∧ a.eventOf t.name c.1 c.2 = .ok e' ∧ e' ∈ (a.serviceOf t).1.events
      ∧ d ∈ a.eventsOf t e.name ∧ a.eventOf i.name d.1 d.2 = .ok e
      ∧ (e'.Alike e ↔ a.EventsAlike c d) := by
  rcases (a.mem_events_iff i e).mp he with ⟨d, hd, hbuilt⟩
  have hname : e.name = d.2.name := (a.eventOf_eq_ok i.name d.1 d.2 e hbuilt).1
  have hmem : d ∈ a.eventsOf t e.name := by
    rcases of_mem_distinctEvents _ d hd with ⟨hdeclaring, hevent⟩
    refine List.mem_filter.mpr ⟨List.mem_flatMap.mpr ⟨d.1, ?_, List.mem_map_of_mem hevent⟩,
      decide_eq_true hname.symm⟩
    exact a.mem_offeringTypes_of_inherits hinherits hmark hdeclaring
  have hc := List.head?_eq_some_head (List.ne_nil_of_mem hmem)
  have hcname := of_decide_eq_true (List.mem_filter.mp (List.mem_of_mem_head? hc)).2
  rcases a.exists_event_of_clean t hclean _ (a.mem_distinctEvents_of_head? t _ _ hc) with
    ⟨e', he', hbuilt'⟩
  exact ⟨_, d, e', hc, hbuilt', he', hmem, hbuilt,
    a.alike_iff_eventsAlike t.name i.name _ d (hcname.trans hname) e' e hbuilt' hbuilt⟩

/-- In a verdict without errors the operations and events that a marked interface offers as a
    service have counterparts in every service of a type with this interface, operations of the same
    formal signature and events of the same name. A counterpart is made of the first declaration of
    the signature or name that the service can offer, and looks alike exactly if this declaration
    agrees with the one that the interface offers. -/
theorem counterparts_of_validate (verdict : Verdict) (h : a.validate = .ok verdict)
    (hclean : verdict.report.hasErrors = false) (s : Service)
    (hs : s ∈ verdict.contract.services) :
    ∃ t, a.type? s.name = some t ∧ ∀ i, a.Inherits t i → i.isService = true →
      ∃ s' ∈ verdict.contract.services, s'.name = i.name
        ∧ (∀ o ∈ s'.operations, ∃ c d o', (a.offersOf t o.formalSignature).head? = some c
          ∧ a.operationOf s.name c = .ok o' ∧ o' ∈ s.operations
          ∧ d ∈ a.offersOf t o.formalSignature ∧ a.operationOf s'.name d = .ok o
          ∧ (o'.Alike o ↔ a.MethodsAlike c.method d.method))
        ∧ ∀ e ∈ s'.events, ∃ c d e', (a.eventsOf t e.name).head? = some c
          ∧ a.eventOf s.name c.1 c.2 = .ok e' ∧ e' ∈ s.events
          ∧ d ∈ a.eventsOf t e.name ∧ a.eventOf s'.name d.1 d.2 = .ok e
          ∧ (e'.Alike e ↔ a.EventsAlike c d) := by
  rcases (a.validate_eq_ok_iff verdict).mp h with ⟨hdefect, rfl⟩
  have ha := a.hasDistinctNames_of_defect?_eq_none hdefect
  rcases (a.mem_services_iff s).mp hs with ⟨t, ht, hservice, rfl⟩
  have hfindings : ∀ d ∈ (a.serviceOf t).2, d.isError = false := fun d hd =>
    (Report.hasErrors_eq_false_iff _).mp hclean d
      ((a.mem_report_iff d).mpr (Or.inr (Or.inr ⟨t, ht, hservice, hd⟩)))
  refine ⟨t, (a.type?_eq_some_iff ha _ t).mpr ⟨ht, rfl⟩, fun i hinherits hmark => ?_⟩
  have hi : i ∈ a.types ∧ i.kind = .interface := by
    rcases hinherits with ⟨name, _, hreach⟩
    exact hreach.mem_types
  -- A marked interface offers a service of its own, so there is one to compare with.
  have hoffers : a.offersService i = true := by
    simp only [offersService, hi.2, hmark, Bool.true_or, Bool.and_true, ne_eq, reduceCtorEq,
      not_false_eq_true, decide_true]
  refine ⟨(a.serviceOf i).1, (a.mem_services_iff _).mpr ⟨i, hi.1, hoffers, rfl⟩, rfl, ?_, ?_⟩
  · exact a.exists_counterpart t i hinherits hmark hfindings
  · exact a.exists_event_counterpart t i hinherits hmark hfindings

/-- Every method of the greeter that can be offered is a declaration of the same one. -/
theorem method_of_mem_offersOf_greeterClass (signature : String) (d : Offer)
    (hd : d ∈ greeterLibrary.offersOf greeterClass signature) : d.method = greetMethod := by
  have hmarked : markedMethods (greeterLibrary.offeringTypes greeterClass)
      = [⟨greeterClass, greetMethod⟩, ⟨greeterClass, resetMethod⟩,
        ⟨greeterInterface, greetMethod⟩] := rfl
  have hhidden : (Offer.refusal? ⟨greeterClass, resetMethod⟩).isNone = false := rfl
  rw [offersOf, hmarked, List.mem_filter] at hd
  simp only [List.mem_cons, List.not_mem_nil, or_false] at hd
  rcases hd with ⟨rfl | rfl | rfl, hoffer⟩
  · rfl
  · rw [hhidden] at hoffer
    cases hoffer
  · rfl

/-- The greeting of the interface has its counterpart in the class, and the declarations agree. -/
theorem counterparts_of_greeterLibrary :
    greeterLibrary.validate = .ok greeterLibrary.review
      ∧ greeterLibrary.review.report.hasErrors = false
      ∧ ∃ s ∈ greeterLibrary.review.contract.services, s.name = "Acme.Greeter"
        ∧ ∃ s' ∈ greeterLibrary.review.contract.services, s'.name = "Acme.IGreeter"
          ∧ ∀ o ∈ s'.operations, ∃ o' ∈ s.operations, o'.Alike o := by
  have h : greeterLibrary.validate = .ok greeterLibrary.review := by
    rw [validate_eq_ok_iff]
    exact ⟨by decide +kernel, rfl⟩
  have hclean : greeterLibrary.review.report.hasErrors = false := by decide +kernel
  have hs : (greeterLibrary.serviceOf greeterClass).1
      ∈ greeterLibrary.review.contract.services := by
    rw [mem_services_iff]
    exact ⟨greeterClass, List.mem_cons_of_mem _ List.mem_cons_self, by decide +kernel, rfl⟩
  rcases counterparts_of_validate greeterLibrary _ h hclean _ hs with ⟨t, ht, hall⟩
  have hfind : greeterLibrary.type? "Acme.Greeter" = some greeterClass := rfl
  have heq : some greeterClass = some t := hfind.symm.trans ht
  cases heq
  have hinherits : greeterLibrary.Inherits greeterClass greeterInterface :=
    ⟨"Acme.IGreeter", List.mem_cons_self, .self _ _ rfl⟩
  rcases hall greeterInterface hinherits rfl with ⟨s', hs', hname, hoperations, _⟩
  refine ⟨h, hclean, _, hs, rfl, s', hs', hname, fun o ho => ?_⟩
  rcases hoperations o ho with ⟨c, d, o', hc, _, ho', hd, _, halike⟩
  refine ⟨o', ho', halike.mpr ?_⟩
  -- Both declarations are the one method that the library has.
  rw [method_of_mem_offersOf_greeterClass _ c (List.mem_of_mem_head? hc),
    method_of_mem_offersOf_greeterClass _ d hd]
  exact ⟨rfl, rfl, rfl⟩

/-- An interface with a method `Now` and an event `Ticked`. -/
def clockInterface (name : TypeName) (returns handler : TypeExpr) : DeclaredType :=
  { (default : DeclaredType) with
    name, kind := .interface, isService := true
    methods := [{ (default : DeclaredMethod) with name := "Now", isOperation := true, returns }]
    events := [⟨"Ticked", handler⟩] }

/-- An interface that returns a number. -/
def clock : DeclaredType :=
  clockInterface "Acme.IClock" (.named "System.Int32") (.named "System.EventHandler")

/-- An interface that returns a text and whose event has a payload. -/
def calendar : DeclaredType :=
  clockInterface "Acme.ICalendar" (.named "System.String")
    (.generic "System.EventHandler\x601" [.named "System.Int32"])

/-- A class with both interfaces. -/
def watch : DeclaredType :=
  { (default : DeclaredType) with
    name := "Acme.Watch", interfaces := ["Acme.IClock", "Acme.ICalendar"] }

/-- The library of the three. -/
def watchLibrary : Library := ⟨"Acme", [clock, calendar, watch]⟩

/-- A verdict without errors in which an operation and an event of a marked interface have no
    counterpart that looks alike in the service of a class with this interface. -/
theorem exists_not_alike :
    watchLibrary.validate = .ok watchLibrary.review
      ∧ watchLibrary.review.report.hasErrors = false
      ∧ watchLibrary.Inherits watch calendar ∧ calendar.isService = true
      ∧ ∃ s ∈ watchLibrary.review.contract.services, s.name = watch.name
        ∧ ∃ s' ∈ watchLibrary.review.contract.services, s'.name = calendar.name
          ∧ (∃ o ∈ s'.operations, ∀ o' ∈ s.operations, ¬ o'.Alike o)
          ∧ ∃ e ∈ s'.events, ∀ e' ∈ s.events, ¬ e'.Alike e := by
  have h : watchLibrary.validate = .ok watchLibrary.review := by
    rw [validate_eq_ok_iff]
    exact ⟨by decide +kernel, rfl⟩
  have hinherits : watchLibrary.Inherits watch calendar :=
    ⟨"Acme.ICalendar", List.mem_cons_of_mem _ List.mem_cons_self, .self _ _ rfl⟩
  exact ⟨h, by decide +kernel, hinherits, rfl, by decide +kernel⟩

end Library

end PlatformBridge
