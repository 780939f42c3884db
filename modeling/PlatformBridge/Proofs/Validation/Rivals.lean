import PlatformBridge.Proofs.Validation.Composition
import PlatformBridge.Proofs.Validation.Recognition

/-!
# Methods without Rivals

Methods of one name collide. A method that is the only one of its name among
those that a service can offer should therefore become an operation, unless a
type in it cannot cross. There are two ways in which it does not.

A service looks at its own type first and then at the marked interfaces of that
type, each once. If the type is a marked interface that inherits itself, it is
among these interfaces, too, and is looked at twice. Its methods then collide
with themselves.

A method is left out if another type has put forward one of the same formal
signature. Such a method is taken for the declaration that this one implements,
but only the text of the signature is compared, and a text does not tell where a
name ends. So a method may be left out for one of another name.

Nothing else gets in the way. Of all methods of a signature the service offers
those of the first type that has one, which counts the offers of a name exactly.
The count is what the rest follows from: no offer of the name means no
operation, one means an operation or a refusal, and two mean a collision.

## Main definitions

* `DeclaredType.offerable`: The methods of a name that a type can offer.
* `Library.IsUnrivaled`: The only method of a name.
* `Library.IsCountedTwice`: A type that is looked at twice.
* `Library.IsFirst`: A method whose type is the first to offer one of its
  signature.

## Theorems

* `Library.filter_chooseOffers`, `Library.filter_offers_eq`: The offers of a
  signature.
* `Library.count_offeringTypes_eq_one`, `Library.count_offeringTypes_eq_two`:
  How often a type is looked at.
* `Library.IsUnrivaled.exists_head`: The signature of the only method has a
  first offer.
* `Library.filter_offers_of_isUnrivaled`: The offers of a name with one method.
* `Library.isFirst_of_mem_offers`, `Library.isFirst_of_declaring_eq`: When the
  type of the method is the first.
* `Library.of_operation_of_isUnrivaled`, `Library.built_of_isUnrivaled`,
  `Library.collides_of_isUnrivaled`: What becomes of it, by the count.
* `Library.unrivaled_of_validate`: What becomes of the only method of a name.
* `Library.exists_collides_with_itself`: A method that collides with itself.
-/

namespace PlatformBridge

instance (m : DeclaredMethod) (declaring : DeclaredType) : Decidable (m.IsHidden declaring) :=
  inferInstanceAs (Decidable (_ ∨ _))

/-- The methods of a name that a type can offer. -/
def DeclaredType.offerable (u : DeclaredType) (name : String) : List DeclaredMethod :=
  u.methods.filter fun m => m.name = name ∧ m.isOperation = true ∧ ¬ m.IsHidden u

namespace Library

variable (a : Library)

/-- Of all methods that a service can offer, one has a name and no other has it. -/
structure IsUnrivaled (t : DeclaredType) (name : String) (c : Offer) : Prop where
  contributes : a.Contributes t c.declaring
  own : c.declaring.offerable name = [c.method]
  others : ∀ u, a.Contributes t u → u ≠ c.declaring → u.offerable name = []

/-- A type is looked at twice for its own service: it is a marked interface that inherits itself. -/
def IsCountedTwice (t u : DeclaredType) : Prop :=
  u = t ∧ t.isService = true ∧ a.Inherits t t

/-- No type that is looked at before the type of a method offers one of the same signature. -/
def IsFirst (t : DeclaredType) (c : Offer) : Prop :=
  ∃ e, (a.offersOf t c.method.formalSignature).head? = some e ∧ e.declaring = c.declaring

theorem refusal?_eq_none_iff (c : Offer) : c.refusal? = none ↔ ¬ c.method.IsHidden c.declaring := by
  constructor
  · intro h hhidden
    rcases refusal?_of_isHidden c hhidden with ⟨d, hd, _⟩
    rw [h] at hd
    cases hd
  · exact refusal?_of_not_isHidden c

/-- Of the methods of a signature those of one type are chosen, if what was chosen of it before is
    of this type, or nothing was and the type is the first to offer one. -/
theorem filter_chooseOffers (signature : String) (owner : TypeName) (rest : List Offer) :
    ∀ chosen : List Offer,
      (∀ e ∈ chosen, e.method.formalSignature = signature → e.declaring.name = owner) →
      ((∃ e ∈ chosen, e.method.formalSignature = signature)
        ∨ ∀ e, rest.find? (fun c => c.refusal?.isNone && c.method.formalSignature = signature)
          = some e → e.declaring.name = owner) →
      (chooseOffers chosen rest).filter (·.method.formalSignature = signature)
        = chosen.filter (·.method.formalSignature = signature)
          ++ rest.filter fun c => (c.refusal?.isNone && c.method.formalSignature = signature)
            && c.declaring.name = owner := by
  induction rest with
  | nil =>
      intro chosen _ _
      rw [chooseOffers, List.filter_nil, List.append_nil]
  | cons x rest ih =>
      intro chosen hchosen hfirst
      rw [chooseOffers]
      by_cases hx : (x.refusal?.isNone && x.method.formalSignature = signature) = true
      · have hcounts := hx
        rw [Bool.and_eq_true, Option.isNone_iff_eq_none, decide_eq_true_eq] at hcounts
        rcases hcounts with ⟨hoffer, hsignature⟩
        rw [hoffer, Option.isSome_none, Bool.false_or, List.filter_cons]
        simp only [hx, Bool.true_and]
        by_cases howner : x.declaring.name = owner
        · -- Nothing of the signature is from another type, so this one is chosen.
          have hnew : ¬ x.implementsOneOf chosen = true := by
            rw [Offer.implementsOneOf_iff]
            rintro ⟨e, he, hother, hsame⟩
            exact hother ((hchosen e he (hsame.trans hsignature)).trans howner.symm)
          rw [if_neg hnew, if_pos (decide_eq_true howner), ih]
          · simp only [List.filter_append, List.filter_cons, List.filter_nil, hsignature,
              decide_true, if_true, List.append_assoc, List.singleton_append]
          · exact List.forall_mem_append.mpr
              ⟨hchosen, List.forall_mem_singleton.mpr fun _ => howner⟩
          · exact Or.inl ⟨x, List.mem_append_right chosen List.mem_cons_self, hsignature⟩
        · -- It implements one of the owner, which is there already.
          have hthere : ∃ e ∈ chosen, e.method.formalSignature = signature := by
            refine hfirst.resolve_right fun hfind => howner (hfind x ?_)
            rw [List.find?_cons, hx]
          rcases hthere with ⟨e, he, hsig⟩
          have hold : x.implementsOneOf chosen = true :=
            (x.implementsOneOf_iff chosen).mpr
              ⟨e, he, fun heq => howner (heq.symm.trans (hchosen e he hsig)),
                hsig.trans hsignature.symm⟩
          rw [if_pos hold, decide_eq_false howner, if_neg Bool.false_ne_true]
          exact ih chosen hchosen (Or.inl ⟨e, he, hsig⟩)
      · -- What is not of the signature, or is refused, is not counted on either side.
        rw [Bool.not_eq_true] at hx
        rw [List.filter_cons, hx, Bool.false_and, if_neg Bool.false_ne_true]
        rw [List.find?_cons, hx] at hfirst
        split
        · exact ih chosen hchosen hfirst
        · rename_i hchoose
          rw [Offer.not_passedOver_iff] at hchoose
          rw [hchoose.1, Option.isNone_none, Bool.true_and, decide_eq_false_iff_not] at hx
          rw [ih]
          · simp only [List.filter_append, List.filter_cons, List.filter_nil, hx, decide_false,
              Bool.false_eq_true, if_false, List.append_nil]
          · exact List.forall_mem_append.mpr
              ⟨hchosen, List.forall_mem_singleton.mpr fun hsig => absurd hsig hx⟩
          · refine hfirst.imp_left ?_
            rintro ⟨e, he, hsig⟩
            exact ⟨e, List.mem_append_left _ he, hsig⟩

/-- Of the methods of a signature a service offers those of the first type that has one. -/
theorem filter_offers_eq (t : DeclaredType) (signature : String) (e : Offer)
    (he : (a.offersOf t signature).head? = some e) :
    (offers (a.offeringTypes t)).filter (·.method.formalSignature = signature)
      = (a.offersOf t signature).filter (·.declaring.name = e.declaring.name) := by
  have hfirst := he
  rw [offersOf, List.head?_filter] at hfirst
  rw [offers, filter_chooseOffers signature e.declaring.name _ []
    (fun d hd => absurd hd List.not_mem_nil) (Or.inr fun d hd => ?_)]
  · rw [List.filter_nil, List.nil_append, offersOf, List.filter_filter]
    exact List.filter_congr fun d _ => Bool.and_comm _ _
  · rw [hfirst, Option.some.injEq] at hd
    rw [hd]

section Types

variable (t : DeclaredType)

/-- How often the name of a type is met: once for the type of the service, and once for an
    interface. -/
theorem count_offeringTypes (name : TypeName) :
    ((a.offeringTypes t).map (·.name)).count name
      = (if name ∈ ((a.allInterfaces t).filter (·.isService)).map (·.name) then 1 else 0)
        + if t.name = name then 1 else 0 := by
  have hnodup : (((a.allInterfaces t).filter (·.isService)).map (·.name)).Nodup :=
    (a.nodup_allInterfaces t).sublist (List.filter_sublist.map _)
  rw [offeringTypes, List.map_cons, List.count_cons, hnodup.count]
  simp only [beq_iff_eq]

variable (ha : a.HasDistinctNames) (ht : t ∈ a.types)

include ha ht

/-- Types that contribute are types of the library, so their names tell them apart. -/
theorem eq_of_contributes_of_name_eq {u w : DeclaredType} (hu : a.Contributes t u)
    (hw : a.Contributes t w) (hname : u.name = w.name) : u = w := by
  have hmem : ∀ x, a.Contributes t x → x ∈ a.types := by
    rintro x (rfl | ⟨⟨_, _, hreach⟩, _⟩)
    · exact ht
    · exact hreach.mem_types.1
  exact List.inj_on_of_nodup_map ha (hmem u hu) (hmem w hw) hname

/-- A type that contributes has a name among those of the marked interfaces just if it is one of
    them. -/
theorem mem_interfaces_iff_of_contributes {u : DeclaredType} (hu : a.Contributes t u) :
    u.name ∈ ((a.allInterfaces t).filter (·.isService)).map (·.name)
      ↔ a.Inherits t u ∧ u.isService = true := by
  rw [List.mem_map]
  constructor
  · rintro ⟨w, hw, hname⟩
    rw [List.mem_filter, mem_allInterfaces_iff] at hw
    rw [a.eq_of_contributes_of_name_eq t ha ht hu (Or.inr hw) hname.symm]
    exact hw
  · intro h
    exact ⟨u, List.mem_filter.mpr ⟨(a.mem_allInterfaces_iff t u).mpr h.1, h.2⟩, rfl⟩

/-- A marked interface that inherits itself is looked at twice. -/
theorem count_offeringTypes_eq_two {u : DeclaredType} (htwice : a.IsCountedTwice t u) :
    ((a.offeringTypes t).map (·.name)).count u.name = 2 := by
  rcases htwice with ⟨rfl, hservice, hself⟩
  rw [count_offeringTypes, if_pos rfl,
    if_pos ((a.mem_interfaces_iff_of_contributes u ha ht (Or.inl rfl)).mpr ⟨hself, hservice⟩)]

/-- Every other type is looked at once. -/
theorem count_offeringTypes_eq_one {u : DeclaredType} (hu : a.Contributes t u)
    (honce : ¬ a.IsCountedTwice t u) : ((a.offeringTypes t).map (·.name)).count u.name = 1 := by
  rw [count_offeringTypes]
  have hiff := a.mem_interfaces_iff_of_contributes t ha ht hu
  by_cases hname : t.name = u.name
  · have hut : u = t := a.eq_of_contributes_of_name_eq t ha ht hu (Or.inl rfl) hname.symm
    subst hut
    rw [if_pos rfl, if_neg fun h => honce ⟨rfl, (hiff.mp h).2, (hiff.mp h).1⟩]
  · -- It is not the type of the service, so it is an interface.
    have hinherits := hu.resolve_left fun h => hname (h ▸ rfl)
    rw [if_neg hname, if_pos (hiff.mpr hinherits)]

end Types

section Unrivaled

variable {t : DeclaredType} {name : String} {c : Offer}

/-- A method that can be offered under the name is the one. -/
theorem IsUnrivaled.eq_of_mem {a : Library} (hc : a.IsUnrivaled t name c) (x : Offer)
    (hx : x ∈ markedMethods (a.offeringTypes t)) (hoffer : x.refusal? = none)
    (hname : x.method.name = name) : x = c := by
  rcases (mem_markedMethods_iff _ x).mp hx with ⟨hdeclaring, hmethod, hmark⟩
  have hmem : x.method ∈ x.declaring.offerable name := by
    rw [DeclaredType.offerable, List.mem_filter, decide_eq_true_eq]
    exact ⟨hmethod, hname, hmark, (refusal?_eq_none_iff x).mp hoffer⟩
  by_cases hsame : x.declaring = c.declaring
  · rw [hsame, hc.own, List.mem_singleton] at hmem
    cases x
    cases c
    rw [Offer.mk.injEq]
    exact ⟨hsame, hmem⟩
  · rw [hc.others _ ((a.mem_offeringTypes_iff t _).mp hdeclaring) hsame] at hmem
    exact absurd hmem List.not_mem_nil

/-- The one can be offered. -/
theorem IsUnrivaled.offered {a : Library} (hc : a.IsUnrivaled t name c) :
    c ∈ markedMethods (a.offeringTypes t) ∧ c.refusal? = none ∧ c.method.name = name := by
  have hmem : c.method ∈ c.declaring.offerable name := by
    rw [hc.own]
    exact List.mem_cons_self
  rw [DeclaredType.offerable, List.mem_filter, decide_eq_true_eq] at hmem
  rcases hmem with ⟨hmethod, hname, hmark, hhidden⟩
  exact ⟨(mem_markedMethods_iff _ c).mpr
    ⟨(a.mem_offeringTypes_iff t _).mpr hc.contributes, hmethod, hmark⟩,
    (refusal?_eq_none_iff c).mpr hhidden, hname⟩

/-- So the methods of its signature have a first one. -/
theorem IsUnrivaled.exists_head {a : Library} (hc : a.IsUnrivaled t name c) :
    c ∈ a.offersOf t c.method.formalSignature
      ∧ ∃ e, (a.offersOf t c.method.formalSignature).head? = some e := by
  rcases hc.offered with ⟨hmarked, hoffer, _⟩
  have hmem : c ∈ a.offersOf t c.method.formalSignature := by
    rw [offersOf, List.mem_filter, hoffer]
    exact ⟨hmarked, decide_eq_true rfl⟩
  refine ⟨hmem, ?_⟩
  rw [← Option.isSome_iff_exists, List.isSome_head?]
  simpa using List.ne_nil_of_mem hmem

/-- What is chosen under the name is the one. -/
theorem IsUnrivaled.eq_of_mem_offers {a : Library} (hc : a.IsUnrivaled t name c) (x : Offer)
    (hx : x ∈ offers (a.offeringTypes t)) (hname : x.method.name = name) : x = c :=
  hc.eq_of_mem x ((mem_of_mem_chooseOffers _ x [] hx).resolve_left List.not_mem_nil)
    (refusal?_of_mem_chooseOffers _ [] (List.forall_mem_nil _) x hx) hname

variable (ha : a.HasDistinctNames) (ht : t ∈ a.types) (hc : a.IsUnrivaled t name c)

include ha ht hc

/-- The one is met as often as its type is looked at. -/
theorem filter_markedMethods_of_isUnrivaled :
    (markedMethods (a.offeringTypes t)).filter
        (fun x => x.refusal?.isNone && x.method.name = name)
      = List.replicate (((a.offeringTypes t).map (·.name)).count c.declaring.name) c := by
  have hall : ∀ u ∈ a.offeringTypes t,
      ((u.methods.filter (·.isOperation)).map (Offer.mk u)).filter
          (fun x => x.refusal?.isNone && x.method.name = name)
        = if u.name = c.declaring.name then [c] else [] := by
    intro u hu
    rw [mem_offeringTypes_iff] at hu
    have hofferable : ((u.methods.filter (·.isOperation)).map (Offer.mk u)).filter
        (fun x => x.refusal?.isNone && x.method.name = name)
          = (u.offerable name).map (Offer.mk u) := by
      rw [List.filter_map, List.filter_filter, DeclaredType.offerable]
      refine congrArg _ (List.filter_congr fun m _ => ?_)
      rw [Bool.eq_iff_iff, decide_eq_true_eq]
      simp only [Function.comp_apply, Bool.and_eq_true, Option.isNone_iff_eq_none,
        refusal?_eq_none_iff, decide_eq_true_eq]
      tauto
    rw [hofferable]
    by_cases hsame : u.name = c.declaring.name
    · have heq := a.eq_of_contributes_of_name_eq t ha ht hu hc.contributes hsame
      rw [if_pos hsame, heq, hc.own]
      rfl
    · rw [if_neg hsame, hc.others u hu fun h => hsame (h ▸ rfl)]
      rfl
  -- One type after the other.
  unfold markedMethods
  rw [List.filter_flatMap]
  generalize a.offeringTypes t = sources at hall
  induction sources with
  | nil => rfl
  | cons u rest ih =>
      rw [List.forall_mem_cons] at hall
      rw [List.flatMap_cons, hall.1, ih hall.2, List.map_cons, List.count_cons]
      by_cases hsame : u.name = c.declaring.name
      · rw [if_pos hsame, if_pos (beq_iff_eq.mpr hsame), List.replicate_succ, List.singleton_append]
      · rw [if_neg hsame, if_neg (fun h => hsame (beq_iff_eq.mp h)), List.nil_append,
          Nat.add_zero]

/-- The offers of the name are the one, as often as its type is looked at, if the type is the first
    to offer a method of this signature. -/
theorem filter_offers_of_isUnrivaled (hfirst : a.IsFirst t c) :
    (offers (a.offeringTypes t)).filter (·.method.name = name)
      = List.replicate (((a.offeringTypes t).map (·.name)).count c.declaring.name) c := by
  rcases hfirst with ⟨e, he, hdeclaring⟩
  rw [← filter_markedMethods_of_isUnrivaled a ha ht hc]
  -- Whatever has the name is the one, and so has its signature and its type.
  calc (offers (a.offeringTypes t)).filter (·.method.name = name)
      = ((offers (a.offeringTypes t)).filter
          (·.method.formalSignature = c.method.formalSignature)).filter (·.method.name = name) := by
        rw [List.filter_filter]
        refine List.filter_congr fun x hx => ?_
        by_cases hname : x.method.name = name
        · rw [hc.eq_of_mem_offers x hx hname, decide_eq_true rfl, Bool.and_true]
        · rw [decide_eq_false hname, Bool.false_and]
    _ = (markedMethods (a.offeringTypes t)).filter
          (fun x => x.refusal?.isNone && x.method.name = name) := by
        rw [a.filter_offers_eq t _ e he, hdeclaring, offersOf, List.filter_filter,
          List.filter_filter]
        refine List.filter_congr fun x hx => ?_
        by_cases hname : x.method.name = name
        · cases hoffer : x.refusal? with
          | none =>
              rw [hc.eq_of_mem x hx hoffer hname]
              simp only [decide_true, Option.isNone_none, Bool.and_true, Bool.true_and]
          | some d =>
              simp only [Option.isNone_some, Bool.false_and, Bool.and_false]
        · simp only [hname, decide_false, Bool.false_and, Bool.and_false]

/-- Its type is the first to offer a method of this signature if the one is offered. -/
theorem isFirst_of_mem_offers (hmem : c ∈ offers (a.offeringTypes t)) : a.IsFirst t c := by
  rcases hc.exists_head with ⟨_, e, he⟩
  have hin : c ∈ (a.offersOf t c.method.formalSignature).filter
      (·.declaring.name = e.declaring.name) := by
    rw [← a.filter_offers_eq t _ e he, List.mem_filter]
    exact ⟨hmem, decide_eq_true rfl⟩
  have hname : c.declaring.name = e.declaring.name :=
    of_decide_eq_true (List.mem_filter.mp hin).2
  -- The first one is of a type that contributes, too.
  have he' : e ∈ markedMethods (a.offeringTypes t) :=
    (List.mem_filter.mp (List.mem_of_mem_head? he)).1
  have hcontributes := (a.mem_offeringTypes_iff t _).mp ((mem_markedMethods_iff _ e).mp he').1
  exact ⟨e, he, a.eq_of_contributes_of_name_eq t ha ht hcontributes hc.contributes hname.symm⟩

omit ha ht in
/-- The type of the service is looked at first of all. -/
theorem isFirst_of_declaring_eq (hown : c.declaring = t) : a.IsFirst t c := by
  rcases hc.offered with ⟨_, hoffer, _⟩
  rcases hc.exists_head with ⟨_, e, he⟩
  refine ⟨e, he, ?_⟩
  rw [offersOf, List.head?_filter, markedMethods, offeringTypes, List.flatMap_cons,
    List.find?_append] at he
  have hmethod : c.method ∈ t.methods.filter (·.isOperation) := by
    have hmem : c.method ∈ c.declaring.offerable name := hc.own ▸ List.mem_cons_self
    rw [DeclaredType.offerable, List.mem_filter, decide_eq_true_eq, hown] at hmem
    exact List.mem_filter.mpr ⟨hmem.1, hmem.2.2.1⟩
  -- There is one among its own methods.
  cases hfind : ((t.methods.filter (·.isOperation)).map (Offer.mk t)).find? fun x =>
      x.refusal?.isNone && x.method.formalSignature = c.method.formalSignature with
  | none =>
      have hno := List.find?_eq_none.mp hfind c
        (List.mem_map.mpr ⟨c.method, hmethod, by rw [← hown]⟩)
      rw [hoffer] at hno
      exact absurd (decide_eq_true rfl) hno
  | some d =>
      rw [hfind, Option.some_or, Option.some.injEq] at he
      subst he
      rcases List.mem_map.mp (List.mem_of_find?_eq_some hfind) with ⟨m, _, rfl⟩
      exact hown.symm

/-- If the service has an operation of the name, the type of the one is the first to offer a method
    of its signature, and is looked at once. -/
theorem of_operation_of_isUnrivaled (o : Operation) (ho : o ∈ (a.serviceOf t).1.operations)
    (hname : o.name = name) : ¬ a.IsCountedTwice t c.declaring ∧ a.IsFirst t c := by
  rcases (a.mem_operations_iff t o).mp ho with ⟨x, hx, hbuilt⟩
  rcases (mem_soleOffers_iff _ x).mp hx with ⟨hmem, hsole⟩
  have hxname : x.method.name = name := by
    rcases (a.operationOf_eq_ok_iff t.name x o).mp hbuilt with ⟨_, P, shape, _, _, rfl⟩
    exact hname
  have hxc : x = c := hc.eq_of_mem_offers x hmem hxname
  subst hxc
  have hfirst := a.isFirst_of_mem_offers ha ht hc hmem
  refine ⟨fun htwice => hsole ?_, hfirst⟩
  have hoffers := a.filter_offers_of_isUnrivaled ha ht hc hfirst
  rw [a.count_offeringTypes_eq_two t ha ht htwice] at hoffers
  rw [List.filter_map, List.length_map, hxname]
  exact Nat.lt_of_lt_of_eq (Nat.lt_succ_self 1) (congrArg List.length hoffers).symm

/-- If the type of the one is the first to offer a method of its signature and is looked at once,
    the one is built, as an operation or as the finding that refuses it. -/
theorem built_of_isUnrivaled (honce : ¬ a.IsCountedTwice t c.declaring) (hfirst : a.IsFirst t c) :
    (∃ o ∈ (a.serviceOf t).1.operations, o.name = name)
      ∨ ∃ d ∈ (a.serviceOf t).2, d.kind = .invalidOperationSignature ∧ d.subject = c.subject := by
  have hoffers := a.filter_offers_of_isUnrivaled ha ht hc hfirst
  rw [a.count_offeringTypes_eq_one t ha ht hc.contributes honce, List.replicate_one] at hoffers
  rcases hc.offered with ⟨_, _, hname⟩
  have hmem : c ∈ offers (a.offeringTypes t) := by
    have hin : c ∈ (offers (a.offeringTypes t)).filter (·.method.name = name) :=
      hoffers ▸ List.mem_cons_self
    exact (List.mem_filter.mp hin).1
  -- It is the only offer of its name, so it does not clash.
  have hsole : c ∈ soleOffers (offers (a.offeringTypes t)) := by
    refine (mem_soleOffers_iff _ c).mpr ⟨hmem, fun hclash => ?_⟩
    rw [List.filter_map, List.length_map, hname] at hclash
    exact absurd (Nat.lt_of_lt_of_eq hclash (congrArg List.length hoffers)) (Nat.lt_irrefl 1)
  cases hbuilt : a.operationOf t.name c with
  | ok o =>
      refine Or.inl ⟨o, (a.mem_operations_iff t o).mpr ⟨c, hsole, hbuilt⟩, ?_⟩
      rcases (a.operationOf_eq_ok_iff t.name c o).mp hbuilt with ⟨_, P, shape, _, _, rfl⟩
      exact hname
  | error d =>
      refine Or.inr ⟨d, (a.mem_findings_iff t d).mpr (Or.inr (Or.inr (Or.inl ⟨c, hsole, hbuilt⟩))),
        ?_⟩
      rcases a.of_operationOf_eq_error t.name c d hbuilt with ⟨detail, causes, rfl⟩
      exact ⟨rfl, rfl⟩

/-- If the type of the one is looked at twice, the one collides with itself. -/
theorem collides_of_isUnrivaled (htwice : a.IsCountedTwice t c.declaring) :
    ∃ d ∈ (a.serviceOf t).2, d.kind = .duplicateOperationName
      ∧ d.related = [c.method.formalSignature, c.method.formalSignature] := by
  have hoffers := a.filter_offers_of_isUnrivaled ha ht hc
    (a.isFirst_of_declaring_eq hc htwice.1)
  rw [a.count_offeringTypes_eq_two t ha ht htwice] at hoffers
  refine ⟨clashFinding t.name (offers (a.offeringTypes t))
    ⟨name, [c.method.formalSignature, c.method.formalSignature]⟩,
    (a.mem_findings_iff t _).mpr (Or.inr (Or.inl ⟨_, ?_, rfl⟩)), rfl, rfl⟩
  refine (mem_nameClashes_iff _ _).mpr ⟨?_, Nat.lt_succ_self 1⟩
  rw [List.filter_map, List.map_map]
  exact (congrArg (List.map fun x : Offer => x.method.formalSignature) hoffers).symm

end Unrivaled

/-- The only method of a name becomes an operation of the service or is told to be invalid, if its
    type is looked at once and is the first to offer a method of its formal signature. Otherwise
    there is no operation of the name, and if the type is looked at twice, the method is told to
    share its name with itself. -/
theorem unrivaled_of_validate (verdict : Verdict) (h : a.validate = .ok verdict) (s : Service)
    (hs : s ∈ verdict.contract.services) :
    ∃ t, a.type? s.name = some t ∧ ∀ name c, a.IsUnrivaled t name c →
      (¬ a.IsCountedTwice t c.declaring → a.IsFirst t c →
        (∃ o ∈ s.operations, o.name = name)
        ∨ ∃ d ∈ verdict.report, d.kind = .invalidOperationSignature
          ∧ d.subject = c.declaring.name ++ "." ++ c.method.formalSignature)
      ∧ ((∃ o ∈ s.operations, o.name = name) →
        ¬ a.IsCountedTwice t c.declaring ∧ a.IsFirst t c)
      ∧ (a.IsCountedTwice t c.declaring →
        ∃ d ∈ verdict.report, d.kind = .duplicateOperationName
          ∧ d.related = [c.method.formalSignature, c.method.formalSignature]) := by
  rcases (a.validate_eq_ok_iff verdict).mp h with ⟨hdefect, rfl⟩
  have ha := a.hasDistinctNames_of_defect?_eq_none hdefect
  rcases (a.mem_services_iff s).mp hs with ⟨t, ht, hservice, rfl⟩
  have htold : ∀ d ∈ (a.serviceOf t).2, d ∈ a.review.report := fun d hd =>
    (a.mem_report_iff d).mpr (Or.inr (Or.inr ⟨t, ht, hservice, hd⟩))
  refine ⟨t, (a.type?_eq_some_iff ha _ t).mpr ⟨ht, rfl⟩, fun name c hc => ⟨?_, ?_, ?_⟩⟩
  · intro honce hfirst
    refine (a.built_of_isUnrivaled ha ht hc honce hfirst).imp_right ?_
    rintro ⟨d, hd, hkind, hsubject⟩
    exact ⟨d, htold d hd, hkind, hsubject⟩
  · rintro ⟨o, ho, hname⟩
    exact a.of_operation_of_isUnrivaled ha ht hc o ho hname
  · intro htwice
    rcases a.collides_of_isUnrivaled ha ht hc htwice with ⟨d, hd, hkind, hrelated⟩
    exact ⟨d, htold d hd, hkind, hrelated⟩

/-- A marked method without parameters. -/
def plainMethod (name : String) (genericArity : Nat) : DeclaredMethod :=
  { (default : DeclaredMethod) with
    name, genericArity, isOperation := true, returns := .named "System.Void" }

/-- A marked interface with one method. -/
def valveInterface (interfaces : List TypeName) : DeclaredType :=
  { (default : DeclaredType) with
    name := "Acme.IValve", kind := .interface, isService := true, interfaces
    methods := [plainMethod "Open" 0] }

/-- A class with a method that has a type parameter, and with the method of the interface. -/
def pumpClass : DeclaredType :=
  { (default : DeclaredType) with
    name := "Acme.Pump", interfaces := ["Acme.IValve"], methods := [plainMethod "Run" 1] }

/-- A library with a class and its interface. -/
def pumpLibrary : Library := ⟨"Acme", [valveInterface [], pumpClass]⟩

/-- The method of the interface becomes an operation, and the one with a type parameter is told to
    be invalid. -/
theorem unrivaled_of_pumpLibrary :
    pumpLibrary.validate = .ok pumpLibrary.review
      ∧ (∃ o ∈ (pumpLibrary.serviceOf pumpClass).1.operations, o.name = "Open")
      ∧ ∃ d ∈ pumpLibrary.review.report, d.kind = .invalidOperationSignature
        ∧ d.subject = "Acme.Pump.Run\x601()" := by
  have h : pumpLibrary.validate = .ok pumpLibrary.review := by
    rw [validate_eq_ok_iff]
    exact ⟨by decide +kernel, rfl⟩
  have hs : (pumpLibrary.serviceOf pumpClass).1 ∈ pumpLibrary.review.contract.services := by
    rw [mem_services_iff]
    exact ⟨pumpClass, List.mem_cons_of_mem _ List.mem_cons_self, by decide +kernel, rfl⟩
  have hclosure : pumpLibrary.allInterfaces pumpClass = [valveInterface []] := rfl
  have hcontributes : ∀ u, pumpLibrary.Contributes pumpClass u
      ↔ u = pumpClass ∨ u = valveInterface [] := by
    intro u
    rw [← mem_offeringTypes_iff, offeringTypes, hclosure]
    exact List.mem_cons.trans (or_congr_right List.mem_singleton)
  have honce : ∀ u, ¬ pumpLibrary.IsCountedTwice pumpClass u := by
    rintro u ⟨_, hservice, _⟩
    cases hservice
  rcases unrivaled_of_validate pumpLibrary _ h _ hs with ⟨t, ht, hall⟩
  have hfind : pumpLibrary.type? "Acme.Pump" = some pumpClass := rfl
  have heq : some pumpClass = some t := hfind.symm.trans ht
  cases heq
  -- Each of the two methods is the only one of its name.
  have hopen : pumpLibrary.IsUnrivaled pumpClass "Open" ⟨valveInterface [], plainMethod "Open" 0⟩ :=
    ⟨(hcontributes _).mpr (Or.inr rfl), rfl, fun u hu hne =>
      ((hcontributes u).mp hu).elim (fun heq => heq ▸ rfl) fun heq => absurd heq hne⟩
  have hrun : pumpLibrary.IsUnrivaled pumpClass "Run" ⟨pumpClass, plainMethod "Run" 1⟩ :=
    ⟨Or.inl rfl, rfl, fun u hu hne =>
      ((hcontributes u).mp hu).elim (fun heq => absurd heq hne) fun heq => heq ▸ rfl⟩
  have hoperation := (hall "Open" _ hopen).1 (honce _) ⟨_, rfl, rfl⟩
  have hrefused := (hall "Run" _ hrun).1 (honce _) ⟨_, rfl, rfl⟩
  refine ⟨h, hoperation.resolve_right ?_, hrefused.resolve_left ?_⟩
  · decide +kernel
  · decide +kernel

/-- A library with an interface that lists itself. -/
def loopLibrary : Library := ⟨"Acme", [valveInterface ["Acme.IValve"]]⟩

/-- A service whose only method collides with itself: it becomes no operation, and is not told to be
    invalid. -/
theorem exists_collides_with_itself :
    loopLibrary.validate = .ok loopLibrary.review
      ∧ ∃ s ∈ loopLibrary.review.contract.services, ∃ t, loopLibrary.type? s.name = some t
        ∧ loopLibrary.IsUnrivaled t "Open" ⟨t, plainMethod "Open" 0⟩
        ∧ ¬ (∃ o ∈ s.operations, o.name = "Open")
        ∧ ¬ ∃ d ∈ loopLibrary.review.report, d.kind = .invalidOperationSignature := by
  have h : loopLibrary.validate = .ok loopLibrary.review := by
    rw [validate_eq_ok_iff]
    exact ⟨by decide +kernel, rfl⟩
  have hs : (loopLibrary.serviceOf (valveInterface ["Acme.IValve"])).1
      ∈ loopLibrary.review.contract.services := by
    rw [mem_services_iff]
    exact ⟨_, List.mem_cons_self, by decide +kernel, rfl⟩
  have hsole : loopLibrary.IsUnrivaled (valveInterface ["Acme.IValve"]) "Open"
      ⟨valveInterface ["Acme.IValve"], plainMethod "Open" 0⟩ := by
    refine ⟨Or.inl rfl, rfl, fun u hu hne => ?_⟩
    -- The interface is the only type there is.
    rcases hu with heq | ⟨⟨_, _, hreach⟩, _⟩
    · exact absurd heq hne
    · exact absurd (List.mem_singleton.mp hreach.mem_types.1) hne
  exact ⟨h, _, hs, _, rfl, hsole, by decide +kernel, by decide +kernel⟩

end Library

end PlatformBridge
