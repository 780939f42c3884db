import Mathlib.Data.List.Perm.Basic
import PlatformBridge.Proofs.Validation.Reordering

/-!
# Another Type with the Same Interface

Services that share an interface share its members, and what is wrong with these
members is found again for each of the services. A report keeps equal findings
once, so it depends on what a finding says how often it is told. Nearly all
findings about members say which type declares them, and are equal for all
services. A name that several methods share is different: if one type declares
them all, the finding is about this type, and otherwise about the service, and
then each service has a finding of its own.

Here a class is appended to a library that does nothing but implement one marked
interface. The report of the library stays as it was, and what is added to it is
one finding for each name of the second kind: the clash is told again for the
class, although the class declares nothing. The class has to have a new name,
one that nothing else in the library mentions, for what a name stands for could
change otherwise. The interface must not inherit itself; its members would be
counted twice for its own service, and once for that of the class.

Three things are put together. Nothing that was found before changes, since the
new name is looked up nowhere. What is found about the class is what is found
about the interface, with another owner where a finding has the service for its
owner. And a finding of the class is new in the report exactly if the class is
its owner, because findings about shared names are told apart by owner and name.

## Main definitions

* `DeclaredType.inheritor`: A class that implements an interface and has no
  members.
* `Library.append`: A library with one more type.
* `Library.IsFresh`: A name that can be given to a new type.
* `Finding.ofClash`: The finding about a name that several methods share.
* `Library.declaringNames`: The types that declare the methods of a name.
* `Library.spreadClashes`: The shared names whose methods several types declare.

## Theorems

* `Finding.ofClash_inj`: Findings about shared names are told apart by owner and
  name.
* `Library.agreeOn_append`: The types of a library are not affected by one with
  a new name.
* `Library.report_append`: What a new type adds to the report.
* `Library.allInterfaces_inheritor`: The class inherits what its interface does.
* `Library.exists_findings_inheritor`: The findings about both differ in the
  owners of shared names.
* `Library.clashFinding_notMem_report_iff`: Which findings about shared names
  are new.
* `Library.inheritor_of_validate`: The report gets one finding for each shared
  name that is spread.
* `Library.exists_report_append_ne`: A class that makes a difference.
-/

namespace PlatformBridge

open Results

/-- A class that implements an interface and has no members. -/
def DeclaredType.inheritor (name : TypeName) (i : DeclaredType) : DeclaredType :=
  { name, kind := .classType, base := none, interfaces := [i.name], isService := false
    isData := false, methods := [], fields := [], events := [], members := [] }

/-- The finding about a name that several methods share, for the type it is reported against. -/
def Finding.ofClash (owner : TypeName) (c : NameClash) : Finding :=
  .of .duplicateOperationName (MemberId.of owner c.name)
    (toString c.formal.length ++ " operations share the name `" ++ c.name
      ++ "`; Dart does not support overloading") c.formal []

theorem MemberId.of_left_injective (service service' : TypeName) (member : String)
    (h : MemberId.of service member = MemberId.of service' member) : service = service' := by
  unfold MemberId.of at h
  exact String.toList_inj.mp (List.append_cancel_right (String.ofList_inj.mp h))

/-- The name is read off the detail, which starts alike if there are as many signatures. The subject
    would not do, since the names of types and methods may have dots. -/
theorem Finding.ofClash_inj (owner owner' : TypeName) (c c' : NameClash)
    (h : Finding.ofClash owner c = .ofClash owner' c') : owner = owner' ∧ c = c' := by
  have hformal : c.formal = c'.formal := congrArg Finding.related h
  have hdetail := congrArg Finding.detail h
  have hsubject := congrArg Finding.subject h
  simp only [Finding.ofClash, Finding.of] at hdetail hsubject
  rw [hformal, String.append_left_inj, String.append_right_inj] at hdetail
  constructor
  · rw [hdetail] at hsubject
    exact MemberId.of_left_injective owner owner' c'.name hsubject
  · cases c
    cases c'
    rw [NameClash.mk.injEq]
    exact ⟨hdetail, hformal⟩

namespace Report

/-- Findings that are in a report add nothing. -/
theorem addAllUnique_of_subset (r : Report) (found : List Finding) (h : ∀ d ∈ found, d ∈ r) :
    r.addAllUnique found = r := by
  rcases r.exists_addAllUnique_eq found with ⟨added, heq, _, _, hadded⟩
  have hnil : added = [] := List.eq_nil_iff_forall_not_mem.mpr fun d hd =>
    ((hadded d).mp hd).2 (h d ((hadded d).mp hd).1)
  rw [heq, hnil, List.append_nil]

/-- Of distinct findings a report gets those that are new, in their order. -/
theorem addAllUnique_of_nodup (r : Report) (found : List Finding) (hnodup : found.Nodup) :
    r.addAllUnique found = r ++ found.filter (fun d => d ∉ r) := by
  rcases r.exists_addAllUnique_eq found with ⟨added, heq, hsub, hdistinct, hadded⟩
  have hperm : added.Perm (found.filter fun d => d ∉ r) := by
    refine (List.perm_ext_iff_of_nodup hdistinct (hnodup.filter _)).mpr fun d => ?_
    rw [hadded, List.mem_filter, decide_eq_true_eq]
  rw [heq, (hnodup.perm_iff_eq_of_sublist hsub List.filter_sublist).mp hperm]

end Report

namespace Library

/-- A library with one more type. -/
def append (a : Library) (t : DeclaredType) : Library := { a with types := a.types ++ [t] }

theorem append_types (a : Library) (t : DeclaredType) : (a.append t).types = a.types ++ [t] := rfl

/-- A name that can be given to a new type: it is not blank, and no type has or mentions it. -/
structure IsFresh (a : Library) (name : TypeName) : Prop where
  shown : Text.isBlank name = false
  undeclared : ∀ t ∈ a.types, t.name ≠ name
  unmentioned : ∀ t ∈ a.types, name ∉ t.mentions

/-- The types that declare the offers of a name. -/
def declaringNames (offers : List Offer) (name : String) : List TypeName :=
  sortNames ((offers.filter (·.method.canonicalSignature = name)).map (·.declaring.name))

/-- The names that methods of a type share. -/
def sharedNames (a : Library) (t : DeclaredType) : List NameClash :=
  nameClashes ((offers (a.offeringTypes t)).map (·.method))

/-- The shared names whose methods several types declare. -/
def spreadClashes (a : Library) (t : DeclaredType) : List NameClash :=
  (a.sharedNames t).filter fun c =>
    1 < (declaringNames (offers (a.offeringTypes t)) c.name).length

section Owners

variable (service service' : TypeName) (offers : List Offer) (c : NameClash)

/-- What is found about a shared name, by the owner that it is reported against. -/
theorem clashFinding_eq :
    clashFinding service offers c = .ofClash (clashOwner service offers c.name) c := rfl

/-- The owner depends on how many types declare the methods of the name. -/
theorem clashOwner_eq (name : String) :
    clashOwner service offers name
      = match declaringNames offers name with
        | [single] => single
        | _ => service := rfl

/-- If several types declare the methods of a name, it is up to the service. -/
theorem clashOwner_of_spread (name : String) (h : 1 < (declaringNames offers name).length) :
    clashOwner service offers name = service := by
  rw [clashOwner_eq]
  split
  · rename_i single hsingle
    rw [hsingle, List.length_singleton] at h
    omega
  · rfl

/-- If one type declares them, it is not. -/
theorem clashOwner_of_not_spread (name : String) (hsome : declaringNames offers name ≠ [])
    (h : ¬ 1 < (declaringNames offers name).length) :
    clashOwner service offers name = clashOwner service' offers name := by
  rw [clashOwner_eq, clashOwner_eq]
  cases hnames : declaringNames offers name with
  | nil => exact absurd hnames hsome
  | cons single rest =>
      rw [hnames, List.length_cons] at h
      have hrest : rest = [] := List.eq_nil_of_length_eq_zero (by omega)
      subst hrest
      rfl

/-- The owner of a name is the service or a type that declares one of the methods. -/
theorem clashOwner_mem (name : String) :
    clashOwner service offers name = service
      ∨ ∃ o ∈ offers, o.declaring.name = clashOwner service offers name := by
  rw [clashOwner_eq]
  split
  · rename_i single hsingle
    have hmem : single ∈ declaringNames offers name := hsingle ▸ List.mem_singleton_self single
    rcases List.mem_map.mp (mem_sortNames.mp hmem) with ⟨o, ho, hname⟩
    exact Or.inr ⟨o, (List.mem_filter.mp ho).1, hname⟩
  · exact Or.inl rfl

end Owners

-- A shared name is the name of an offer.
theorem declaringNames_ne_nil (offers : List Offer) (c : NameClash)
    (hc : c ∈ nameClashes (offers.map (·.method))) : declaringNames offers c.name ≠ [] := by
  rcases (mem_nameClashes_iff _ c).mp hc with ⟨hformal, hmany⟩
  rw [hformal, List.length_map] at hmany
  rcases List.exists_mem_of_length_pos (Nat.lt_trans Nat.zero_lt_one hmany) with ⟨m, hm⟩
  rw [List.mem_filter] at hm
  rcases List.mem_map.mp hm.1 with ⟨o, ho, rfl⟩
  have hmem : o.declaring.name ∈ declaringNames offers c.name :=
    mem_sortNames.mpr (List.mem_map.mpr ⟨o, List.mem_filter.mpr ⟨ho, hm.2⟩, rfl⟩)
  exact List.ne_nil_of_mem hmem

variable (a : Library)

section Appending

variable (t : DeclaredType) (hfresh : a.IsFresh t.name)

include hfresh

/-- The types of a library are not affected by one with a new name. -/
theorem agreeOn_append : AgreeOn a (a.append t) (· ≠ t.name) := by
  constructor
  · intro name hname
    have hlast : decide (t.name = name) = false := decide_eq_false fun h => hname h.symm
    unfold append type?
    rw [List.reverse_append, List.reverse_singleton, List.singleton_append, List.find?_cons, hlast]
  · rintro name u _ hu n hn rfl
    exact hfresh.unmentioned u (a.mem_of_type?_eq_some name u hu).1 hn

theorem defect?_append (ht : t.hasBlankMember = false) (ha : a.defect? = none) :
    (a.append t).defect? = none := by
  rw [defect?_eq_none_iff] at ha ⊢
  refine ⟨?_, fun u hu => ?_⟩
  · unfold HasDistinctNames append
    rw [List.map_append, List.nodup_append]
    refine ⟨ha.1, List.nodup_singleton _, fun name hname name' hname' heq => ?_⟩
    rcases List.mem_map.mp hname with ⟨u, hu, rfl⟩
    rw [List.map_singleton, List.mem_singleton] at hname'
    exact hfresh.undeclared u hu (heq.trans hname')
  · rcases List.mem_append.mp hu with hu | hu
    · exact ha.2 u hu
    · rw [List.mem_singleton.mp hu]
      exact ⟨hfresh.shown, ht⟩

theorem ne_of_mentions (u : DeclaredType) (hu : u ∈ a.types) : ∀ n ∈ u.mentions, n ≠ t.name :=
  fun _ hn heq => hfresh.unmentioned u hu (heq ▸ hn)

/-- Whether a type agrees with a base is not affected by the new type. -/
theorem disagrees_append (base : TypeName) (u : DeclaredType) (hu : u ∈ a.types) :
    (a.append t).disagrees base u = a.disagrees base u :=
  ((a.agreeOn_append t hfresh).disagrees base u (a.ne_of_mentions t hfresh u hu)).symm

section Bases

variable (hbase : t.declaredBase? = none)

include hbase

/-- A new type without a base adds no base that is disputed. -/
theorem disputedBases_append : (a.append t).disputedBases = a.disputedBases := by
  have hmet : ∀ u ∈ a.types,
      (u.declaredBase?.filter fun base => (a.append t).disagrees base u)
        = u.declaredBase?.filter fun base => a.disagrees base u :=
    fun u hu => congrArg (u.declaredBase?.filter ·)
      (funext fun base => a.disagrees_append t hfresh base u hu)
  unfold disputedBases
  rw [append_types, List.filterMap_append, List.filterMap_congr hmet]
  simp only [hbase, List.filterMap_cons, List.filterMap_nil, Option.filter_none, List.append_nil]

theorem inheritanceFinding_append (base : TypeName) (hne : base ≠ t.name) :
    (a.append t).inheritanceFinding base = a.inheritanceFinding base := by
  have hlast : (a.append t).disagrees base t = false := by
    unfold disagrees
    simp only [hbase, reduceCtorEq, decide_false, Bool.false_and]
  have hsubtypes : (a.append t).types.filter ((a.append t).disagrees base)
      = a.types.filter (a.disagrees base) := by
    rw [append_types, List.filter_append, List.filter_singleton, hlast, cond_false, List.append_nil,
      List.filter_congr (a.disagrees_append t hfresh base)]
  unfold inheritanceFinding
  simp only
  rw [hsubtypes, (a.agreeOn_append t hfresh).isMarkedData base hne]

theorem inheritanceFindings_append :
    (a.append t).inheritanceFindings = a.inheritanceFindings := by
  unfold inheritanceFindings
  rw [a.disputedBases_append t hfresh hbase]
  refine List.map_congr_left fun base hdisputed => ?_
  -- A base that is disputed is that of a type in the library, so it is not the new name.
  rcases (a.mem_disputedBases_iff base).mp hdisputed with ⟨u, hu, hdisagrees⟩
  have hmention := DeclaredType.mentions_of_base
    (Option.filter_eq_some_iff.mp (declaredBase?_of_disagrees hdisagrees)).1
  exact a.inheritanceFinding_append t hfresh hbase base
    (a.ne_of_mentions t hfresh u hu base hmention)

end Bases

theorem refusedTypes_append (hdata : t.isData = false) :
    (a.append t).refusedTypes = a.refusedTypes := by
  have hdefine : (a.types.filter (·.isData)).map (a.append t).dataTypeOf
      = (a.types.filter (·.isData)).map a.dataTypeOf :=
    List.map_congr_left fun u hu => ((a.agreeOn_append t hfresh).dataTypeOf u
      (a.ne_of_mentions t hfresh u (List.mem_filter.mp hu).1)).symm
  unfold refusedTypes
  rw [append_types, List.filter_append, List.filter_singleton, hdata, cond_false, List.append_nil,
    hdefine]

/-- What is found about the service of the new type comes behind what was found before. -/
theorem serviceFindings_append (hother : t.name ∉ t.mentions)
    (hoffers : a.offersService t = true) :
    (a.append t).serviceFindings = a.serviceFindings ++ (a.serviceOf t).2 := by
  have h := a.agreeOn_append t hfresh
  have hmentions : ∀ n ∈ t.mentions, n ≠ t.name := fun _ hn heq => hother (heq ▸ hn)
  have hsame : a.types.filter (a.append t).offersService = a.types.filter a.offersService :=
    List.filter_congr fun u hu => (h.offersService u (a.ne_of_mentions t hfresh u hu)).symm
  have hfound : ∀ u ∈ a.types.filter a.offersService,
      ((a.append t).serviceOf u).2 = (a.serviceOf u).2 := by
    intro u hu
    rw [h.serviceOf u (a.ne_of_mentions t hfresh u (List.mem_filter.mp hu).1)]
  unfold serviceFindings
  rw [append_types, List.filter_append, List.filter_singleton, ← h.offersService t hmentions,
    hoffers, hsame, List.flatMap_append, List.flatMap_congr hfound, cond_true,
    List.flatMap_singleton, h.serviceOf t hmentions]

/-- If a new type is not marked as data and has no base, it adds to the report what is found about
    its service. -/
theorem report_append (hbase : t.declaredBase? = none) (hdata : t.isData = false)
    (hother : t.name ∉ t.mentions) (hoffers : a.offersService t = true) :
    (a.append t).review.report = a.review.report.addAllUnique (a.serviceOf t).2 := by
  rw [report_review_eq, report_review_eq, a.inheritanceFindings_append t hfresh hbase,
    a.refusedTypes_append t hfresh hdata, a.serviceFindings_append t hfresh hother hoffers]
  exact List.foldl_append

end Appending

section Inheriting

variable (i : DeclaredType) (name : TypeName)

/-- A class that implements an interface inherits it with what it inherits, if it does not inherit
    itself. -/
theorem allInterfaces_inheritor (hi : a.interface? i.name = some i) (hself : ¬ a.Inherits i i) :
    a.allInterfaces (.inheritor name i) = i :: a.allInterfaces i := by
  -- Once the interface is met, the walks differ in having seen it. They do not come by it again.
  have hclosed : ∀ n j, ¬ a.Reaches n i → a.interface? n = some j → ∀ m ∈ j.interfaces,
      ¬ a.Reaches m i :=
    fun n j hn hj m hm hreach => hn (.step n m j i hj hm hreach)
  have hseen : ∀ n, ¬ a.Reaches n i → (n ∈ [i.name] ↔ n ∈ []) := by
    intro n hn
    rw [List.mem_singleton]
    refine iff_of_false ?_ List.not_mem_nil
    rintro rfl
    exact hn (.self i.name i hi)
  have hall := unseenNames_nil a.types
  have hless := unseenNames_cons_add_le a.types [] i (a.mem_of_interface?_eq_some _ _ hi).1
    List.not_mem_nil
  unfold allInterfaces
  have hwalk := interfacesFrom_congr (fun n => ¬ a.Reaches n i) (fun _ _ => rfl) hclosed
    ([i.name].length + (a.types.flatMap (·.interfaces)).length)
    (i.interfaces.length + (a.types.flatMap (·.interfaces)).length + 1) [i.name] []
    i.interfaces (fun n hn hreach => hself ⟨n, hn, hreach⟩) hseen
    (by rw [List.length_singleton]; omega) (by omega)
  rw [← hwalk]
  change a.interfacesFrom (_ + 1) [] [i.name] = _
  rw [interfacesFrom_cons, if_neg List.not_mem_nil, hi]
  exact congrArg (fun pending => i :: a.interfacesFrom _ [i.name] pending) (List.append_nil _)

variable (hi : a.interface? i.name = some i) (hservice : i.isService = true)
variable (hself : ¬ a.Inherits i i)

include hi hservice hself

/-- The class looks at itself, and then at what its interface looks at. -/
theorem offeringTypes_inheritor :
    a.offeringTypes (.inheritor name i) = .inheritor name i :: a.offeringTypes i := by
  unfold offeringTypes
  rw [a.allInterfaces_inheritor i name hi hself, List.filter_cons, if_pos hservice]

theorem offersService_inheritor : a.offersService (.inheritor name i) = true := by
  unfold offersService
  rw [a.allInterfaces_inheritor i name hi hself, List.any_cons, hservice]
  rfl

/-- What is found about a class that implements an interface is what is found about the interface.
    Only names that several methods share may have another owner. -/
theorem exists_findings_inheritor :
    ∃ before after,
      (a.serviceOf i).2
        = before
          ++ (a.sharedNames i).map (clashFinding i.name (offers (a.offeringTypes i))) ++ after
      ∧ (a.serviceOf (.inheritor name i)).2
        = before
          ++ (a.sharedNames i).map (clashFinding name (offers (a.offeringTypes i))) ++ after := by
  have hmarked : markedMethods (.inheritor name i :: a.offeringTypes i)
      = markedMethods (a.offeringTypes i) := rfl
  have hevents : distinctEvents (.inheritor name i :: a.offeringTypes i)
      = distinctEvents (a.offeringTypes i) := rfl
  unfold serviceOf sharedNames offers
  simp only [a.offeringTypes_inheritor i name hi hservice hself, hevents, hmarked,
    List.append_assoc]
  refine ⟨_, _, rfl, ?_⟩
  refine congrArg₂ _ rfl (congrArg₂ _ rfl (congrArg₂ _ ?_ ?_))
  · exact filterMap_error_of_map _ (fun _ => rfl) _ _ _ (a.operationOf_eq_map i.name name) _
  · exact filterMap_error_of_map _ (fun _ => rfl) _ _ _
      (fun d : DeclaredType × DeclaredEvent => a.eventOf_eq_map i.name name d.1 d.2) _

end Inheriting

/-- The offers of a service are declared by types of the library. -/
theorem declaring_mem_types (t : DeclaredType) (ht : t ∈ a.types) (o : Offer)
    (ho : o ∈ offers (a.offeringTypes t)) : o.declaring ∈ a.types := by
  rcases (a.mem_offeringTypes_iff t o.declaring).mp (of_mem_offers _ o ho).1 with
    heq | ⟨⟨_, _, hreach⟩, _⟩
  · exact heq ▸ ht
  · exact hreach.mem_types.1

/-- A finding about a shared name is about one of a service. -/
theorem exists_clash_of_ofClash_mem (owner : TypeName) (c : NameClash)
    (h : .ofClash owner c ∈ a.review.report) :
    ∃ t ∈ a.types, clashOwner t.name (offers (a.offeringTypes t)) c.name = owner := by
  rcases (a.mem_report_iff _).mp h with hbases | ⟨t, _, _, hdata⟩ | ⟨t, ht, _, hfound⟩
  · rcases List.mem_map.mp hbases with ⟨base, _, hbase⟩
    have hkind := a.isAboutServices_inheritanceFinding base
    rw [hbase] at hkind
    cases hkind
  · rcases a.of_dataTypeOf_eq_error t _ hdata with ⟨detail, causes, heq⟩
    cases heq
  · rcases (a.mem_findings_iff t _).mp hfound with ⟨o, _, hrefusal⟩ | ⟨c', _, hclash⟩
      | ⟨o, _, hbuilt⟩ | ⟨e, _, hbuilt⟩
    · rcases o.of_refusal?_eq_some _ hrefusal with ⟨detail, heq | heq⟩
      · cases heq
      · cases heq
    · rcases Finding.ofClash_inj _ _ _ _ hclash with ⟨howner, rfl⟩
      exact ⟨t, ht, howner⟩
    · rcases a.of_operationOf_eq_error t.name o _ hbuilt with ⟨detail, causes, heq⟩
      cases heq
    · rcases a.of_eventOf_eq_error t.name e.1 e.2 _ hbuilt with ⟨detail, causes, heq⟩
      cases heq

/-- It is reported against a type of the library. -/
theorem exists_owner_of_ofClash_mem (owner : TypeName) (c : NameClash)
    (h : .ofClash owner c ∈ a.review.report) : ∃ t ∈ a.types, t.name = owner := by
  rcases a.exists_clash_of_ofClash_mem owner c h with ⟨t, ht, howner⟩
  rcases clashOwner_mem t.name (offers (a.offeringTypes t)) c.name with hname | ⟨o, ho, hname⟩
  · exact ⟨t, ht, hname.symm.trans howner⟩
  · exact ⟨o.declaring, a.declaring_mem_types t ht o ho, hname.trans howner⟩

section Inheritor

variable (i : DeclaredType) (hi : i ∈ a.types) (hkind : i.kind = .interface)
variable (hservice : i.isService = true) (name : TypeName) (hfresh : a.IsFresh name)

include hi hkind hservice

/-- What is found about a marked interface is in the report. -/
theorem mem_report_of_mem_findings (d : Finding) (hd : d ∈ (a.serviceOf i).2) :
    d ∈ a.review.report := by
  have hoffers : a.offersService i = true := by
    unfold offersService
    rw [hkind, hservice]
    rfl
  exact (a.mem_report_iff d).mpr (Or.inr (Or.inr ⟨i, hi, hoffers, hd⟩))

include hfresh

/-- A shared name of the interface adds a finding if its methods are declared by several types. -/
theorem clashFinding_notMem_report_iff (c : NameClash) (hc : c ∈ a.sharedNames i) :
    clashFinding name (offers (a.offeringTypes i)) c ∉ a.review.report
      ↔ 1 < (declaringNames (offers (a.offeringTypes i)) c.name).length := by
  constructor
  · intro hnew
    by_contra hspread
    -- The finding about the interface is the same, and it has been made.
    have howner := clashOwner_of_not_spread name i.name _ c.name
      (declaringNames_ne_nil _ c hc) hspread
    refine hnew ?_
    rw [clashFinding_eq, howner]
    exact a.mem_report_of_mem_findings i hi hkind hservice _
      ((a.mem_findings_iff i _).mpr (Or.inr (Or.inl ⟨c, hc, rfl⟩)))
  · intro hspread hold
    rw [clashFinding_eq, clashOwner_of_spread name _ c.name hspread] at hold
    rcases a.exists_owner_of_ofClash_mem name c hold with ⟨t, ht, hname⟩
    exact hfresh.undeclared t ht hname

/-- The new findings about shared names are those about names that are spread. -/
theorem filter_clashFinding :
    ((a.sharedNames i).map (clashFinding name (offers (a.offeringTypes i)))).filter
      (fun d => d ∉ a.review.report) = (a.spreadClashes i).map (Finding.ofClash name) := by
  have hfilter : (a.sharedNames i).filter
      ((fun d => decide (d ∉ a.review.report)) ∘ clashFinding name (offers (a.offeringTypes i)))
        = a.spreadClashes i :=
    List.filter_congr fun c hc => decide_eq_decide.mpr
      (a.clashFinding_notMem_report_iff i hi hkind hservice name hfresh c hc)
  rw [List.filter_map, hfilter]
  refine List.map_congr_left fun c hc => ?_
  rw [clashFinding_eq,
    clashOwner_of_spread name _ c.name (of_decide_eq_true (List.mem_filter.mp hc).2)]

/-- The report gets one finding for each shared name that is spread. -/
theorem report_append_inheritor (ha : a.HasDistinctNames) (hself : ¬ a.Inherits i i) :
    (a.append (.inheritor name i)).review.report
      = a.review.report ++ (a.spreadClashes i).map (Finding.ofClash name) := by
  have hfound : a.interface? i.name = some i :=
    Option.filter_eq_some_iff.mpr ⟨(a.type?_eq_some_iff ha _ i).mpr ⟨hi, rfl⟩, decide_eq_true hkind⟩
  have hnew : name ∉ (DeclaredType.inheritor name i).mentions := fun hmem =>
    hfresh.undeclared i hi (List.mem_singleton.mp hmem).symm
  rcases a.exists_findings_inheritor i name hfound hservice hself with ⟨before, after, hold, hall⟩
  have htold := a.mem_report_of_mem_findings i hi hkind hservice
  rw [hold] at htold
  -- Findings about different names are different, so each of the new ones is added.
  have hclashes : ((a.sharedNames i).map (clashFinding name (offers (a.offeringTypes i)))).Nodup :=
    (nodup_nameClashes _).map fun c c' h => (Finding.ofClash_inj _ _ _ _ h).2
  -- What is found about the class goes into the report in three parts, and only the second adds to
  -- it.
  calc (a.append (.inheritor name i)).review.report
      = a.review.report.addAllUnique (a.serviceOf (.inheritor name i)).2 :=
        a.report_append _ hfresh rfl rfl hnew
          (a.offersService_inheritor i name hfound hservice hself)
    _ = ((a.review.report.addAllUnique before).addAllUnique
          ((a.sharedNames i).map (clashFinding name (offers (a.offeringTypes i))))).addAllUnique
          after := by
        rw [hall, Report.addAllUnique, List.foldl_append, List.foldl_append]
        rfl
    _ = (a.review.report ++ (a.spreadClashes i).map (Finding.ofClash name)).addAllUnique after := by
        rw [Report.addAllUnique_of_subset _ before fun d hd => htold d
          (List.mem_append_left _ (List.mem_append_left _ hd)),
          Report.addAllUnique_of_nodup _ _ hclashes,
          a.filter_clashFinding i hi hkind hservice name hfresh]
    _ = a.review.report ++ (a.spreadClashes i).map (Finding.ofClash name) :=
        Report.addAllUnique_of_subset _ after fun d hd =>
          List.mem_append_left _ (htold d (List.mem_append_right _ hd))

end Inheritor

/-- Appending a class that does nothing but implement a marked interface leaves the report as it
    was, followed by one finding for each name that methods of the interface and of the marked
    interfaces it inherits share, if several types declare these methods. So it changes nothing if
    names are shared within interfaces only. The class has a new name, and the interface does not
    inherit itself. -/
theorem inheritor_of_validate (verdict : Verdict) (h : a.validate = .ok verdict) (i : DeclaredType)
    (hi : i ∈ a.types) (hkind : i.kind = .interface) (hservice : i.isService = true)
    (hself : ¬ a.Inherits i i) (name : TypeName) (hfresh : a.IsFresh name) :
    ∃ verdict', (a.append (.inheritor name i)).validate = .ok verdict'
      ∧ verdict'.report = verdict.report ++ (a.spreadClashes i).map (Finding.ofClash name) := by
  rcases (a.validate_eq_ok_iff verdict).mp h with ⟨hdefect, rfl⟩
  have hdefect' := a.defect?_append (.inheritor name i) hfresh rfl hdefect
  exact ⟨_, ((a.append (.inheritor name i)).validate_eq_ok_iff _).mpr ⟨hdefect', rfl⟩,
    a.report_append_inheritor i hi hkind hservice name hfresh
      (a.hasDistinctNames_of_defect?_eq_none hdefect) hself⟩

/-- An interface with a method of a name. -/
def runInterface (name : TypeName) (interfaces : List TypeName) (parameter : TypeName) :
    DeclaredType :=
  { (default : DeclaredType) with
    name, kind := .interface, interfaces, isService := true
    methods := [{ (default : DeclaredMethod) with
      name := "Run", isOperation := true, parameters := [⟨"x", .named parameter, .value⟩]
      returns := .named "System.Void" }] }

/-- An interface that inherits a method with the name of its own. -/
def runnerInterface : DeclaredType := runInterface "Acme.IRunner" ["Acme.ITask"] "System.Int32"

/-- A library with two interfaces that have methods of one name. -/
def runnerLibrary : Library :=
  ⟨"Acme", [runnerInterface, runInterface "Acme.ITask" [] "System.String"]⟩

theorem validate_runnerLibrary : runnerLibrary.validate = .ok runnerLibrary.review :=
  (validate_eq_ok_iff _ _).mpr ⟨by decide +kernel, rfl⟩

theorem isFresh_runnerLibrary : runnerLibrary.IsFresh "Acme.Runner" :=
  ⟨by decide +kernel, by decide +kernel, by decide +kernel⟩

/-- The name is shared by the methods of two interfaces, so it is told for the class as well. -/
theorem inheritor_of_runnerLibrary :
    runnerLibrary.validate = .ok runnerLibrary.review
      ∧ ¬ runnerLibrary.Inherits runnerInterface runnerInterface
      ∧ runnerLibrary.IsFresh "Acme.Runner"
      ∧ runnerLibrary.spreadClashes runnerInterface
        = [⟨"Run", ["Run(System.Int32)", "Run(System.String)"]⟩]
      ∧ ∃ verdict,
        (runnerLibrary.append (.inheritor "Acme.Runner" runnerInterface)).validate = .ok verdict
          ∧ verdict.report = runnerLibrary.review.report
            ++ (runnerLibrary.spreadClashes runnerInterface).map
              (Finding.ofClash "Acme.Runner") := by
  have hself : ¬ runnerLibrary.Inherits runnerInterface runnerInterface := by
    rw [← mem_allInterfaces_iff]
    intro hmem
    have hnames : runnerInterface.name
        ∉ (runnerLibrary.allInterfaces runnerInterface).map (·.name) := by decide +kernel
    exact hnames (List.mem_map_of_mem hmem)
  exact ⟨validate_runnerLibrary, hself, isFresh_runnerLibrary, by decide +kernel,
    runnerLibrary.inheritor_of_validate _ validate_runnerLibrary _ List.mem_cons_self rfl rfl hself
      "Acme.Runner" isFresh_runnerLibrary⟩

/-- The report does not stay as it was: a finding about the class is added to the one about the
    interface. -/
theorem exists_report_append_ne :
    ∃ i ∈ runnerLibrary.types, i.kind = .interface ∧ i.isService = true
      ∧ runnerLibrary.IsFresh "Acme.Runner"
      ∧ ∃ verdict verdict', runnerLibrary.validate = .ok verdict
        ∧ (runnerLibrary.append (.inheritor "Acme.Runner" i)).validate = .ok verdict'
        ∧ verdict.report.map (·.subject) = ["Acme.IRunner.Run"]
        ∧ verdict'.report.map (·.subject) = ["Acme.IRunner.Run", "Acme.Runner.Run"] := by
  have happend : (runnerLibrary.append (.inheritor "Acme.Runner" runnerInterface)).validate
      = .ok (runnerLibrary.append (.inheritor "Acme.Runner" runnerInterface)).review :=
    (validate_eq_ok_iff _ _).mpr ⟨by decide +kernel, rfl⟩
  exact ⟨runnerInterface, List.mem_cons_self, rfl, rfl, isFresh_runnerLibrary, _, _,
    validate_runnerLibrary, happend, by decide +kernel, by decide +kernel⟩

end Library

end PlatformBridge
