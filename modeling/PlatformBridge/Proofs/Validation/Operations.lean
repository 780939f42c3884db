import PlatformBridge.Proofs.Validation.Clashes
import PlatformBridge.Proofs.Validation.Interfaces
import PlatformBridge.Proofs.Validation.Services

/-!
# Marked Methods and Operations

What becomes of a method that is marked as an operation. It may be refused for
what it is; it may repeat the signature of a method chosen before; it may share
its name with other chosen methods; it may have a type that cannot cross; or it
becomes an operation. In all cases but the last a finding tells so, except where
a method is left out because it repeats another one, and then what becomes of
the other one is what becomes of it. No marked method is lost without a trace,
in whatever order types and interfaces are declared.

The account is therefore kept by signature and not by method. A method that is
left out has a chosen one of its signature, and the chosen one is built or told
about under this signature.

The other half is that what is kept does not clash. Of the chosen methods only
those are built whose name no other chosen method has, so the names of
operations are distinct.

## Main definitions

* `DeclaredMethod.IsHidden`: A method is marked, but cannot be offered.

## Theorems

* `Offer.implementsOneOf_iff`, `Offer.not_passedOver_iff`: When a method is left
  out.
* `Library.exists_mem_chooseOffers`: What is not chosen repeats something that
  is.
* `Library.nodup_soleOffers`, `Library.nodup_operations`: The names of
  operations are distinct.
* `Library.refusal?_of_isHidden`, `Library.refusal?_of_not_isHidden`: Hidden
  methods are told about, and no others.
* `Library.accounted_of_mem_markedMethods`: A marked method is refused, built,
  or told about.
* `Library.operations_of_validate`: Both halves, for every service of a verdict.
-/

namespace PlatformBridge

open Results

/-- A method that implements an interface explicitly, or is not public outside an interface. -/
def DeclaredMethod.IsHidden (m : DeclaredMethod) (declaring : DeclaredType) : Prop :=
  m.explicitInterface ≠ none ∨ (m.access ≠ .everyone ∧ declaring.kind ≠ .interface)

/-- A method implements one of some others if another type declares one of the same signature. -/
theorem Offer.implementsOneOf_iff (c : Offer) (earlier : List Offer) :
    c.implementsOneOf earlier = true ↔ ∃ e ∈ earlier, e.declaring.name ≠ c.declaring.name
      ∧ e.method.formalSignature = c.method.formalSignature := by
  simp only [implementsOneOf, List.any_eq_true, Bool.and_eq_true, decide_eq_true_eq]

/-- A method is chosen if it is not refused and implements none of those chosen before. -/
theorem Offer.not_passedOver_iff (c : Offer) (chosen : List Offer) :
    ¬ (c.refusal?.isSome || c.implementsOneOf chosen) = true
      ↔ c.refusal? = none ∧ ¬ c.implementsOneOf chosen = true := by
  rw [Bool.or_eq_true, not_or, Option.isSome_iff_ne_none, ne_eq, not_not]

namespace Library

variable (a : Library)

theorem mem_chooseOffers_of_mem (rest : List Offer) (c : Offer) :
    ∀ chosen, c ∈ chosen → c ∈ chooseOffers chosen rest := by
  induction rest with
  | nil =>
      intro chosen hc
      exact hc
  | cons e rest ih =>
      intro chosen hc
      rw [chooseOffers]
      split
      · exact ih chosen hc
      · exact ih (chosen ++ [e]) (List.mem_append_left [e] hc)

/-- What can be offered is chosen, or repeats the signature of something that is. -/
theorem exists_mem_chooseOffers (rest : List Offer) (c : Offer) (hoffer : c.refusal? = none) :
    ∀ chosen, c ∈ rest → ∃ e ∈ chooseOffers chosen rest,
      e.method.formalSignature = c.method.formalSignature := by
  induction rest with
  | nil =>
      intro chosen hc
      exact absurd hc List.not_mem_nil
  | cons x rest ih =>
      intro chosen hc
      rw [chooseOffers]
      rcases List.mem_cons.mp hc with rfl | hc
      · -- The offer is looked at now: it is chosen, or implements one that is chosen already.
        rw [hoffer, Option.isSome_none, Bool.false_or]
        by_cases himplements : c.implementsOneOf chosen = true
        · rw [if_pos himplements]
          rcases (c.implementsOneOf_iff chosen).mp himplements with ⟨e, he, _, hsame⟩
          exact ⟨e, mem_chooseOffers_of_mem rest e chosen he, hsame⟩
        · rw [if_neg himplements]
          exact ⟨c, mem_chooseOffers_of_mem rest c _ (List.mem_append_right chosen
            List.mem_cons_self), rfl⟩
      · split
        · exact ih chosen hc
        · exact ih (chosen ++ [x]) hc

theorem mem_of_mem_chooseOffers (rest : List Offer) (c : Offer) :
    ∀ chosen, c ∈ chooseOffers chosen rest → c ∈ chosen ∨ c ∈ rest := by
  induction rest with
  | nil =>
      intro chosen hc
      exact Or.inl hc
  | cons x rest ih =>
      intro chosen hc
      rw [chooseOffers] at hc
      split at hc
      · rcases ih chosen hc with hmem | hmem
        · exact Or.inl hmem
        · exact Or.inr (List.mem_cons_of_mem x hmem)
      · rcases ih (chosen ++ [x]) hc with hmem | hmem
        · rcases List.mem_append.mp hmem with hmem | hmem
          · exact Or.inl hmem
          · rw [List.mem_singleton.mp hmem]
            exact Or.inr List.mem_cons_self
        · exact Or.inr (List.mem_cons_of_mem x hmem)

/-- The marked methods of some types are the methods of these types that are marked. -/
theorem mem_markedMethods_iff (sources : List DeclaredType) (c : Offer) :
    c ∈ markedMethods sources
      ↔ c.declaring ∈ sources ∧ c.method ∈ c.declaring.methods ∧ c.method.isOperation = true := by
  unfold markedMethods
  rw [List.mem_flatMap]
  constructor
  · rintro ⟨t, ht, hmem⟩
    rcases List.mem_map.mp hmem with ⟨m, hm, rfl⟩
    rw [List.mem_filter] at hm
    exact ⟨ht, hm⟩
  · rintro ⟨hdeclaring, hmethod⟩
    exact ⟨c.declaring, hdeclaring, List.mem_map.mpr ⟨c.method, List.mem_filter.mpr hmethod, rfl⟩⟩

/-- An offer is a marked method of a type that was looked at. -/
theorem of_mem_offers (sources : List DeclaredType) (c : Offer) (hc : c ∈ offers sources) :
    c.declaring ∈ sources ∧ c.method ∈ c.declaring.methods ∧ c.method.isOperation = true :=
  (mem_markedMethods_iff sources c).mp
    ((mem_of_mem_chooseOffers _ c [] hc).resolve_left List.not_mem_nil)

theorem mem_soleOffers_iff (chosen : List Offer) (c : Offer) :
    c ∈ soleOffers chosen ↔ c ∈ chosen
      ∧ ¬ 1 < ((chosen.map (·.method)).filter (·.name = c.method.name)).length := by
  unfold soleOffers
  rw [List.mem_filter, Bool.not_eq_true', ← Bool.not_eq_true, DeclaredMethod.canonicalSignature,
    any_nameClashes_iff]

/-- No two of the offers that are built have one name. -/
theorem nodup_soleOffers (chosen : List Offer) :
    ((soleOffers chosen).map (·.method.name)).Nodup := by
  rw [List.nodup_iff_count_le_one]
  intro name
  by_cases hname : name ∈ (soleOffers chosen).map (·.method.name)
  · rcases List.mem_map.mp hname with ⟨c, hc, rfl⟩
    have hfew := ((mem_soleOffers_iff chosen c).mp hc).2
    -- The offers of a name are counted among all that were chosen.
    have hsub : List.Sublist ((soleOffers chosen).map (·.method.name))
        ((chosen.map (·.method)).map (·.name)) := by
      rw [List.map_map]
      exact List.filter_sublist.map _
    have hcount := hsub.count_le c.method.name
    have hall : ((chosen.map (·.method)).map (·.name)).count c.method.name
        = ((chosen.map (·.method)).filter (·.name = c.method.name)).length := by
      rw [List.count_eq_countP, List.countP_map, List.countP_eq_length_filter]
      rfl
    omega
  · rw [List.count_eq_zero.mpr hname]
    exact Nat.zero_le 1

/-- The names of operations are distinct. -/
theorem nodup_operations (t : DeclaredType) :
    ((a.serviceOf t).1.operations.map (·.name)).Nodup := by
  have hname : ∀ c o, a.operationOf t.name c = .ok o → o.name = c.method.name := by
    intro c o h
    rcases (a.operationOf_eq_ok_iff t.name c o).mp h with ⟨_, P, shape, _, _, rfl⟩
    rfl
  have hsub := map_filterMap_toOption_sublist (a.operationOf t.name) (·.name) (·.method.name)
    hname (soleOffers (offers (a.offeringTypes t)))
  exact List.Sublist.nodup hsub (nodup_soleOffers _)

/-- A hidden method is told about by its name. -/
theorem refusal?_of_isHidden (c : Offer) (h : c.method.IsHidden c.declaring) :
    ∃ d, c.refusal? = some d ∧ d.subject = c.subject
      ∧ (d.kind = .explicitInterfaceOperation ∨ d.kind = .nonPublicOperation) := by
  unfold Offer.refusal?
  cases hexplicit : c.method.explicitInterface with
  | some interface => exact ⟨_, rfl, rfl, Or.inl rfl⟩
  | none =>
      rcases h with h | ⟨haccess, hkind⟩
      · exact absurd hexplicit h
      · simp only [ne_eq, hkind, haccess, not_false_eq_true, decide_true, Bool.and_self, if_true]
        exact ⟨_, rfl, rfl, Or.inr rfl⟩

/-- Any other method can be offered. -/
theorem refusal?_of_not_isHidden (c : Offer) (h : ¬ c.method.IsHidden c.declaring) :
    c.refusal? = none := by
  unfold DeclaredMethod.IsHidden at h
  push Not at h
  unfold Offer.refusal?
  rw [h.1]
  by_cases haccess : c.method.access = .everyone
  · simp only [haccess, ne_eq, not_true_eq_false, decide_false, Bool.and_false, Bool.false_eq_true,
      if_false]
  · simp only [h.2 haccess, ne_eq, not_true_eq_false, decide_false, Bool.false_and,
      Bool.false_eq_true, if_false]

/-- A marked method that can be offered is an operation, or is told about by its signature. -/
theorem accounted_of_mem_markedMethods (t : DeclaredType) (c : Offer)
    (hc : c ∈ markedMethods (a.offeringTypes t)) (hoffer : c.refusal? = none) :
    (∃ o ∈ (a.serviceOf t).1.operations, o.formalSignature = c.method.formalSignature)
      ∨ (∃ d ∈ (a.serviceOf t).2, d.kind = .duplicateOperationName
        ∧ c.method.formalSignature ∈ d.related)
      ∨ ∃ d ∈ (a.serviceOf t).2, d.kind = .invalidOperationSignature
        ∧ ∃ u ∈ a.offeringTypes t, d.subject = u.name ++ "." ++ c.method.formalSignature := by
  -- From here on it is about the offer that was chosen in place of this one.
  rcases exists_mem_chooseOffers _ c hoffer [] hc with ⟨e, he, hsame⟩
  rw [← hsame]
  by_cases hclash : 1 < (((offers (a.offeringTypes t)).map (·.method)).filter
      (·.name = e.method.name)).length
  · -- The clash has the signatures of all chosen methods of the name.
    right
    left
    refine ⟨clashFinding t.name (offers (a.offeringTypes t)) ⟨e.method.name,
      (((offers (a.offeringTypes t)).map (·.method)).filter (·.name = e.method.name)).map
        (·.formalSignature)⟩, ?_, rfl, ?_⟩
    · refine (a.mem_findings_iff t _).mpr (Or.inr (Or.inl ⟨_, ?_, rfl⟩))
      exact (mem_nameClashes_iff _ _).mpr ⟨rfl, by rw [List.length_map]; exact hclash⟩
    · refine List.mem_map_of_mem (List.mem_filter.mpr ⟨List.mem_map_of_mem he, ?_⟩)
      exact decide_eq_true rfl
  · have hsole : e ∈ soleOffers (offers (a.offeringTypes t)) :=
      (mem_soleOffers_iff _ e).mpr ⟨he, hclash⟩
    cases hbuilt : a.operationOf t.name e with
    | ok o =>
        left
        refine ⟨o, (a.mem_operations_iff t o).mpr ⟨e, hsole, hbuilt⟩, ?_⟩
        rcases (a.operationOf_eq_ok_iff t.name e o).mp hbuilt with ⟨_, P, shape, _, _, rfl⟩
        rfl
    | error d =>
        right
        right
        refine ⟨d, (a.mem_findings_iff t d).mpr (Or.inr (Or.inr (Or.inl ⟨e, hsole, hbuilt⟩))), ?_⟩
        rcases a.of_operationOf_eq_error t.name e d hbuilt with ⟨detail, causes, rfl⟩
        -- The finding names the type that declares the chosen offer, which contributes, too.
        exact ⟨rfl, e.declaring, (of_mem_offers _ e he).1, rfl⟩

/-- The names of the operations of a service are distinct, and every marked method of the type of
    the service or of a marked interface of that type is accounted for. One that is hidden is told
    about. Of any other the service has an operation with its signature, or its signature is among
    those that share a name, or is told to be invalid for a type of the service. -/
theorem operations_of_validate (verdict : Verdict) (h : a.validate = .ok verdict) (s : Service)
    (hs : s ∈ verdict.contract.services) :
    (s.operations.map (·.name)).Nodup
      ∧ ∃ t, a.type? s.name = some t ∧ ∀ u, a.Contributes t u →
        ∀ m ∈ u.methods, m.isOperation = true →
          (m.IsHidden u → ∃ d ∈ verdict.report,
            (d.kind = .explicitInterfaceOperation ∨ d.kind = .nonPublicOperation)
            ∧ d.subject = u.name ++ "." ++ m.formalSignature)
          ∧ (¬ m.IsHidden u →
            (∃ o ∈ s.operations, o.formalSignature = m.formalSignature)
            ∨ (∃ d ∈ verdict.report, d.kind = .duplicateOperationName
              ∧ m.formalSignature ∈ d.related)
            ∨ ∃ d ∈ verdict.report, d.kind = .invalidOperationSignature
              ∧ ∃ w, a.Contributes t w
                ∧ d.subject = w.name ++ "." ++ m.formalSignature) := by
  rcases (a.validate_eq_ok_iff verdict).mp h with ⟨hdefect, rfl⟩
  have ha := a.hasDistinctNames_of_defect?_eq_none hdefect
  rcases (a.mem_services_iff s).mp hs with ⟨t, ht, hservice, rfl⟩
  -- Whatever is found about the service has gone into the report.
  have htold : ∀ d ∈ (a.serviceOf t).2, d ∈ a.review.report := fun d hd =>
    (a.mem_report_iff d).mpr (Or.inr (Or.inr ⟨t, ht, hservice, hd⟩))
  refine ⟨a.nodup_operations t, t, (a.type?_eq_some_iff ha _ t).mpr ⟨ht, rfl⟩, ?_⟩
  intro u hu m hm hmark
  have hmarked : ⟨u, m⟩ ∈ markedMethods (a.offeringTypes t) :=
    (mem_markedMethods_iff _ _).mpr ⟨(a.mem_offeringTypes_iff t u).mpr hu, hm, hmark⟩
  constructor
  · intro hhidden
    rcases refusal?_of_isHidden ⟨u, m⟩ hhidden with ⟨d, hd, hsubject, hkind⟩
    have hmem := (a.mem_findings_iff t d).mpr (Or.inl ⟨_, hmarked, hd⟩)
    exact ⟨d, htold d hmem, hkind, hsubject⟩
  · intro hhidden
    rcases a.accounted_of_mem_markedMethods t _ hmarked (refusal?_of_not_isHidden _ hhidden) with
      hbuilt | ⟨d, hd, hkind, hrelated⟩ | ⟨d, hd, hkind, w, hw, hsubject⟩
    · exact Or.inl hbuilt
    · exact Or.inr (Or.inl ⟨d, htold d hd, hkind, hrelated⟩)
    · exact Or.inr (Or.inr ⟨d, htold d hd, hkind, w, (a.mem_offeringTypes_iff t w).mp hw, hsubject⟩)

/-- A marked method of an interface. -/
def greetMethod : DeclaredMethod :=
  { (default : DeclaredMethod) with
    name := "Greet", isOperation := true
    parameters := [⟨"name", .named "System.String", .value⟩]
    returns := .named "System.String" }

/-- A marked method of a class that is not public. -/
def resetMethod : DeclaredMethod :=
  { (default : DeclaredMethod) with
    name := "Reset", access := .assembly, isOperation := true, returns := .named "System.Void" }

/-- An interface that is marked as a service. -/
def greeterInterface : DeclaredType :=
  { (default : DeclaredType) with
    name := "Acme.IGreeter", kind := .interface, isService := true, methods := [greetMethod] }

/-- A class that implements the interface and has a method of its own. -/
def greeterClass : DeclaredType :=
  { (default : DeclaredType) with
    name := "Acme.Greeter", interfaces := ["Acme.IGreeter"]
    methods := [greetMethod, resetMethod] }

/-- A library with an interface and a class. -/
def greeterLibrary : Library := ⟨"Acme", [greeterInterface, greeterClass]⟩

/-- The greeting becomes an operation of the class, and the method that is not public is told about.
    -/
theorem operations_of_greeterLibrary :
    greeterLibrary.validate = .ok greeterLibrary.review
      ∧ (greeterLibrary.serviceOf greeterClass).1 ∈ greeterLibrary.review.contract.services
      ∧ ((greeterLibrary.serviceOf greeterClass).1.operations.map (·.name)).Nodup
      ∧ ∃ d ∈ greeterLibrary.review.report,
        (d.kind = .explicitInterfaceOperation ∨ d.kind = .nonPublicOperation)
        ∧ d.subject = greeterClass.name ++ "." ++ resetMethod.formalSignature := by
  have h : greeterLibrary.validate = .ok greeterLibrary.review := by
    rw [validate_eq_ok_iff]
    exact ⟨by decide +kernel, rfl⟩
  have hs : (greeterLibrary.serviceOf greeterClass).1
      ∈ greeterLibrary.review.contract.services := by
    rw [mem_services_iff]
    exact ⟨greeterClass, List.mem_cons_of_mem _ List.mem_cons_self, by decide +kernel, rfl⟩
  rcases operations_of_validate greeterLibrary _ h _ hs with ⟨hnodup, t, ht, hall⟩
  have hfind : greeterLibrary.type? "Acme.Greeter" = some greeterClass := rfl
  have heq : some greeterClass = some t := hfind.symm.trans ht
  cases heq
  have hhidden : resetMethod.IsHidden greeterClass := Or.inr ⟨by decide, by decide⟩
  exact ⟨h, hs, hnodup, (hall greeterClass (Or.inl rfl) resetMethod
    (List.mem_cons_of_mem _ List.mem_cons_self) rfl).1 hhidden⟩

end Library

end PlatformBridge
