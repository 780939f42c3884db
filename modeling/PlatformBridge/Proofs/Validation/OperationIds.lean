import Mathlib.Data.List.TakeWhile
import PlatformBridge.Proofs.Validation.Operations

/-!
# Ids of Operations

An operation is called by its id, which is put together from the name of its
service and its own. Names of types are distinct, and so are the names of the
operations of a service, so an id stands for one operation if it can be taken
apart again. The last dot is where it is taken apart, and this is right for
names of operations without dots. Validation does not look for dots in the names
of methods. One such name is enough for an id to be taken apart in the wrong
place, and then two services may have operations of one id.

`IdsIdentify` is the promise for a whole contract: ids are taken apart as they
were put together, they are found, and no two operations have one. The first of
these implies the other two, which is why a condition on names alone is
equivalent to all three.

## Main definitions

* `Contract.IdsIdentify`: Ids are taken apart as they were put together, and are
  found, and distinct.

## Theorems

* `MemberId.split?_of_eq_some_iff`: An id is taken apart rightly if the member
  has no dot.
* `Contract.operation?_eq_some_of_unique`: An id that stands for one operation
  finds it.
* `Library.nodup_services`: The names of services are distinct.
* `Library.eq_of_id_eq`, `Library.idsIdentify_of_splits`: Ids that are taken
  apart rightly identify operations.
* `Library.idsIdentify_iff`: Ids stand for operations if no operation has a dot
  in its name.
* `Library.exists_not_idsIdentify`: Two services with an operation of one id.
-/

namespace PlatformBridge

namespace MemberId

/-- Nothing after the last character of a class belongs to the class. -/
theorem not_of_mem_afterLast (p : Char → Bool) (text : List Char) (c : Char)
    (h : c ∈ afterLast p text) : p c = false := by
  unfold afterLast at h
  have hnot := List.mem_takeWhile_imp (p := fun c => !p c) (List.mem_reverse.mp h)
  simpa using hnot

/-- What follows a character of a class, with none of them in it, follows the last of them. -/
theorem afterLast_append_cons (p : Char → Bool) (before after : List Char) (c : Char)
    (hc : p c = true) (hafter : ∀ x ∈ after, p x = false) :
    afterLast p (before ++ c :: after) = after := by
  unfold afterLast
  have hreverse : (before ++ c :: after).reverse = after.reverse ++ c :: before.reverse := by
    simp only [List.reverse_append, List.reverse_cons, List.append_assoc, List.singleton_append]
  have hall : ∀ x ∈ after.reverse, (!p x) = true := by
    intro x hx
    rw [hafter x (List.mem_reverse.mp hx)]
    rfl
  rw [hreverse, List.takeWhile_append_of_pos hall, List.takeWhile_cons, hc]
  simp

/-- An id is taken apart as it was put together if there is no dot in the name of the member. -/
theorem split?_of_eq_some_iff (service : TypeName) (member : String) :
    split? (of service member) = some (service, member) ↔ separator ∉ member.toList := by
  have htext : (of service member).toList = service.toList ++ separator :: member.toList :=
    String.toList_ofList
  constructor
  -- What is read behind the last dot has no dot, so it is not the name of the member.
  · intro h hdot
    unfold split? at h
    simp only at h
    split at h
    · simp only [Option.some.injEq, Prod.mk.injEq] at h
      rw [← h.2, String.toList_ofList] at hdot
      have hnot := not_of_mem_afterLast _ _ _ hdot
      simp at hnot
    · cases h
  · intro hdot
    have hmember : afterLast (· = separator) (of service member).toList = member.toList := by
      rw [htext]
      refine afterLast_append_cons _ _ _ _ (decide_eq_true rfl) fun x hx => ?_
      exact decide_eq_false fun heq => hdot (heq ▸ hx)
    -- What is in front of the last dot is found by counting, so the lengths have to fit.
    have hlength : (of service member).length
        = service.toList.length + (member.toList.length + 1) := by
      rw [← String.length_toList, htext, List.length_append, List.length_cons]
    unfold split?
    simp only [hmember]
    rw [if_pos (by omega), htext, hlength]
    have htake : service.toList.length + (member.toList.length + 1) - member.toList.length - 1
        = service.toList.length := by omega
    rw [htake, List.take_left', String.ofList_toList, String.ofList_toList]
    rfl

end MemberId

namespace Contract

variable (c : Contract)

/-- Every id of an operation is taken apart into the names of its service and its own, finds both,
    and is that of no other operation. -/
structure IdsIdentify : Prop where
  splits : ∀ s ∈ c.services, ∀ o ∈ s.operations, MemberId.split? o.id = some (s.name, o.name)
  finds : ∀ s ∈ c.services, ∀ o ∈ s.operations, c.operation? o.id = some (s, o)
  distinct : (c.services.flatMap fun s => s.operations.map (·.id)).Nodup

/-- An id that stands for one operation finds it. -/
theorem operation?_eq_some_of_unique (s : Service) (hs : s ∈ c.services) (o : Operation)
    (ho : o ∈ s.operations)
    (hunique : ∀ s' ∈ c.services, ∀ o' ∈ s'.operations, o'.id = o.id → s' = s ∧ o' = o) :
    c.operation? o.id = some (s, o) := by
  cases hfound : c.operation? o.id with
  | none =>
      have hnone := List.findSome?_eq_none_iff.mp hfound s hs
      rw [Option.map_eq_none_iff, List.find?_eq_none] at hnone
      exact absurd (decide_eq_true rfl) (hnone o ho)
  | some found =>
      rcases List.exists_of_findSome?_eq_some hfound with ⟨s', hs', hmap⟩
      rcases Option.map_eq_some_iff.mp hmap with ⟨o', hfind, rfl⟩
      have hid : o'.id = o.id := by simpa using List.find?_some hfind
      rcases hunique s' hs' o' (List.mem_of_find?_eq_some hfind) hid with ⟨rfl, rfl⟩
      rfl

end Contract

namespace Library

variable (a : Library)

/-- The names of services are distinct. -/
theorem nodup_services (ha : a.HasDistinctNames) :
    (a.review.contract.services.map (·.name)).Nodup := by
  have hnames : a.review.contract.services.map (·.name)
      = (a.types.filter a.offersService).map (·.name) := by
    simp only [review, List.map_map]
    rfl
  rw [hnames]
  exact ha.sublist (List.filter_sublist.map _)

/-- An id is put together from the names of the service and the operation. -/
theorem id_of_mem_operations (s : Service) (hs : s ∈ a.review.contract.services) (o : Operation)
    (ho : o ∈ s.operations) : o.id = MemberId.of s.name o.name := by
  rcases (a.mem_services_iff s).mp hs with ⟨t, _, _, rfl⟩
  rcases (a.mem_operations_iff t o).mp ho with ⟨c, _, hbuilt⟩
  rcases (a.operationOf_eq_ok_iff t.name c o).mp hbuilt with ⟨_, P, shape, _, _, rfl⟩
  rfl

/-- If ids are taken apart rightly, no two operations have one id. -/
theorem eq_of_id_eq (ha : a.HasDistinctNames)
    (hsplits : ∀ s ∈ a.review.contract.services, ∀ o ∈ s.operations,
      MemberId.split? o.id = some (s.name, o.name))
    (s s' : Service) (hs : s ∈ a.review.contract.services)
    (hs' : s' ∈ a.review.contract.services) (o o' : Operation) (ho : o ∈ s.operations)
    (ho' : o' ∈ s'.operations) (hid : o'.id = o.id) : s' = s ∧ o' = o := by
  have hparts : some (s'.name, o'.name) = some (s.name, o.name) := by
    rw [← hsplits s hs o ho, ← hsplits s' hs' o' ho', hid]
  rw [Option.some.injEq, Prod.mk.injEq] at hparts
  have hservice : s' = s := List.inj_on_of_nodup_map (a.nodup_services ha) hs' hs hparts.1
  subst hservice
  rcases (a.mem_services_iff s').mp hs with ⟨t, _, _, rfl⟩
  exact ⟨rfl, List.inj_on_of_nodup_map (a.nodup_operations t) ho' ho hparts.2⟩

/-- If ids are taken apart rightly, they identify operations. -/
theorem idsIdentify_of_splits (ha : a.HasDistinctNames)
    (hsplits : ∀ s ∈ a.review.contract.services, ∀ o ∈ s.operations,
      MemberId.split? o.id = some (s.name, o.name)) : a.review.contract.IdsIdentify := by
  refine ⟨hsplits, fun s hs o ho => ?_, List.nodup_flatMap.mpr ⟨fun s hs => ?_, ?_⟩⟩
  · refine Contract.operation?_eq_some_of_unique _ s hs o ho fun s' hs' o' ho' hid => ?_
    exact a.eq_of_id_eq ha hsplits s s' hs hs' o o' ho ho' hid
  · -- Within a service, ids are as distinct as names.
    have hnames : (s.operations.map (·.name)).Nodup := by
      rcases (a.mem_services_iff s).mp hs with ⟨t, _, _, rfl⟩
      exact a.nodup_operations t
    refine List.Nodup.map_on (fun o ho o' ho' hid => ?_) (List.Nodup.of_map _ hnames)
    exact (a.eq_of_id_eq ha hsplits s s hs hs o' o ho' ho hid).2
  · -- An id of two services would make them one.
    refine List.Pairwise.imp_of_mem ?_ (List.Nodup.of_map _ (a.nodup_services ha))
    intro s s' hs hs' hne id hid hid'
    rcases List.mem_map.mp hid with ⟨o, ho, rfl⟩
    rcases List.mem_map.mp hid' with ⟨o', ho', heq⟩
    exact hne (a.eq_of_id_eq ha hsplits s s' hs hs' o o' ho ho' heq).1.symm

/-- The ids of the operations of a library identify them exactly if no operation has a dot in its
    name. -/
theorem idsIdentify_iff (verdict : Verdict) (h : a.validate = .ok verdict) :
    verdict.contract.IdsIdentify
      ↔ ∀ s ∈ verdict.contract.services, ∀ o ∈ s.operations,
        MemberId.separator ∉ o.name.toList := by
  rcases (a.validate_eq_ok_iff verdict).mp h with ⟨hdefect, rfl⟩
  have ha := a.hasDistinctNames_of_defect?_eq_none hdefect
  have hsplit : ∀ s ∈ a.review.contract.services, ∀ o ∈ s.operations,
      (MemberId.split? o.id = some (s.name, o.name) ↔ MemberId.separator ∉ o.name.toList) := by
    intro s hs o ho
    rw [a.id_of_mem_operations s hs o ho]
    exact MemberId.split?_of_eq_some_iff s.name o.name
  constructor
  · exact fun hids s hs o ho => (hsplit s hs o ho).mp (hids.splits s hs o ho)
  · intro hdots
    exact a.idsIdentify_of_splits ha fun s hs o ho => (hsplit s hs o ho).mpr (hdots s hs o ho)

/-- A service with one operation. -/
def serviceType (name : TypeName) (operation : String) : DeclaredType :=
  { (default : DeclaredType) with
    name, isService := true
    methods := [{ (default : DeclaredMethod) with
      name := operation, isOperation := true, returns := .named "System.Void" }] }

/-- A library with two services, one of which has the name of a namespace of the other. -/
def nestedLibrary : Library := ⟨"Acme", [serviceType "S.A" "B", serviceType "S" "B"]⟩

/-- A dot in the name of a service does no harm. -/
theorem idsIdentify_of_nestedLibrary :
    nestedLibrary.validate = .ok nestedLibrary.review
      ∧ nestedLibrary.review.contract.services.length = 2
      ∧ nestedLibrary.review.contract.IdsIdentify := by
  have h : nestedLibrary.validate = .ok nestedLibrary.review := by
    rw [validate_eq_ok_iff]
    exact ⟨by decide +kernel, rfl⟩
  exact ⟨h, by decide +kernel, (nestedLibrary.idsIdentify_iff _ h).mpr (by decide +kernel)⟩

/-- The same, but the second operation has a dot in its name. -/
def dottedLibrary : Library := ⟨"Acme", [serviceType "S.A" "B", serviceType "S" "A.B"]⟩

/-- A clean library in which two operations have one id: it is taken apart into the names of the
    first, and finds the first, though the second has it as well. -/
theorem exists_not_idsIdentify :
    dottedLibrary.validate = .ok dottedLibrary.review
      ∧ dottedLibrary.review.report.hasErrors = false
      ∧ (∃ s ∈ dottedLibrary.review.contract.services, ∃ o ∈ s.operations,
        s.name = "S" ∧ o.name = "A.B"
        ∧ MemberId.split? o.id = some ("S.A", "B")
        ∧ dottedLibrary.review.contract.operation? o.id ≠ some (s, o))
      ∧ ¬ (dottedLibrary.review.contract.services.flatMap fun s =>
        s.operations.map (·.id)).Nodup := by
  have h : dottedLibrary.validate = .ok dottedLibrary.review := by
    rw [validate_eq_ok_iff]
    exact ⟨by decide +kernel, rfl⟩
  exact ⟨h, by decide +kernel, by decide +kernel, by decide +kernel⟩

end Library

end PlatformBridge
