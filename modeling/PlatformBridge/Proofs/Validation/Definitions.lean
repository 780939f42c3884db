import PlatformBridge.Proofs.Validation.Reordering

/-!
# Whole Definitions

A marked type is either defined with all that it declares, or refused with a
finding that says why. The code leaves out each field that cannot cross and
refuses the type afterwards if anything was found in the way, so a field could
get lost if something could fail to cross without a reason. It cannot, and then
nothing is left out of what is defined.

`Defines` says what it is to be defined whole, without reference to how a
definition is made. The contract of a library is related by it, type for type,
to the marked types that the report does not refuse. Saying this as a relation
between two lists covers the order and the number of definitions at the same
time: none is missing, none is there twice, and none is made up.

A report is one list of findings about everything. So it has to be said when a
finding refuses a type, and shown that no finding about a base or a service can
be mistaken for one. This is by the kinds of findings.

## Main definitions

* `Library.IsField`: A field of a definition is that of a declaration.
* `Library.Defines`: A definition holds all that a type declares.
* `Finding.refuses`: A finding refuses the type of a name.
* `Library.obstaclesTo`: What is in the way of a type.

## Theorems

* `forall₂_filter_filterMap`: What is made of some elements of a list, element
  for element.
* `Library.defines_of_dataTypeOf_eq_ok`: A type that is taken over is defined
  whole.
* `Library.causes_of_dataTypeOf_eq_error`: A refusal tells what is in the way of
  each field.
* `Library.exists_of_refuses`, `Library.dataTypeOf_of_refuses`: What refuses a
  type in a report is what the type is refused with.
* `Library.any_refuses_iff`: A marked type is refused in the report if it is not
  taken over.
* `Library.countP_refuses_le_one`: No type is refused twice.
* `Library.definitions_of_validate`: Marked types are defined whole or refused.
-/

namespace PlatformBridge

open Results

/-- What is made of some elements of a list stands in the order of these. -/
theorem forall₂_filter_filterMap {α β : Type} {R : α → β → Prop} (p : α → Bool)
    (f : α → Option β) (xs : List α)
    (h : ∀ x ∈ xs, p x = true ∧ (∃ y, f x = some y ∧ R x y) ∨ p x = false ∧ f x = none) :
    List.Forall₂ R (xs.filter p) (xs.filterMap f) := by
  induction xs with
  | nil => exact .nil
  | cons x rest ih =>
      have hrest := ih fun y hy => h y (List.mem_cons_of_mem x hy)
      rcases h x List.mem_cons_self with ⟨hp, y, hy, hR⟩ | ⟨hp, hnone⟩
      · rw [List.filter_cons_of_pos hp, List.filterMap_cons_some hy]
        exact .cons hR hrest
      · rw [List.filter_cons_of_neg (Bool.eq_false_iff.mp hp), List.filterMap_cons_none hnone]
        exact hrest

/-- Whether a finding refuses the type of a name. -/
def Finding.refuses (d : Finding) (name : TypeName) : Bool :=
  d.kind = .unsupportedDataType && d.subject = name

/-- What refuses the type of a name is of one kind and about this name. -/
theorem Finding.refuses_iff (d : Finding) (name : TypeName) :
    d.refuses name = true ↔ d.kind = .unsupportedDataType ∧ d.subject = name := by
  unfold refuses
  rw [Bool.and_eq_true, decide_eq_true_eq, decide_eq_true_eq]

namespace Library

variable (a : Library)

/-- A field of a definition has the name of a declared one, and is what the type of that is on the
    bridge. -/
structure IsField (f : DeclaredField) (g : Field) : Prop where
  name : g.name = f.name
  type : a.bridgeType f.type = .ok g.type

/-- A definition holds all that a type declares, and the base of it if that is marked. -/
inductive Defines : DeclaredType → DataType → Prop where
  | enumeration (t : DeclaredType) (hkind : t.kind = .enum) (hmembers : t.members ≠ []) :
      Defines t ⟨t.name, .enumeration t.members⟩
  | composite (t : DeclaredType) (hkind : t.kind = .classType ∨ t.kind = .struct)
      (fields : List Field) (hfields : List.Forall₂ a.IsField t.fields fields) :
      Defines t ⟨t.name, .composite fields (t.declaredBase?.filter a.isMarkedData)⟩

/-- What is in the way of a type. -/
def obstaclesTo (e : TypeExpr) : List Obstacle :=
  match a.bridgeType e with
  | .ok _ => []
  | .error causes => causes

/-- A type that is taken over is defined whole. -/
theorem defines_of_dataTypeOf_eq_ok (t : DeclaredType) (d : DataType)
    (h : a.dataTypeOf t = .ok d) : a.Defines t d := by
  rcases a.of_dataTypeOf_eq_ok t d h with ⟨hkind, hmembers, rfl⟩ | ⟨hkind, U, hU, rfl⟩
  · exact .enumeration t hkind hmembers
  · refine .composite t hkind _ ?_
    rw [List.forall₂_map_right_iff, List.forall₂_same]
    exact fun f hf => ⟨rfl, hU f hf⟩

theorem subject_of_dataTypeOf_eq_error (t : DeclaredType) (d : Finding)
    (h : a.dataTypeOf t = .error d) : d.subject = t.name := by
  rcases a.of_dataTypeOf_eq_error t d h with ⟨detail, causes, rfl⟩
  rfl

/-- The refusal of a class or structure tells what is in the way of each field, one field after the
    other, and this is something. -/
theorem causes_of_dataTypeOf_eq_error (t : DeclaredType)
    (hkind : t.kind = .classType ∨ t.kind = .struct) (d : Finding)
    (h : a.dataTypeOf t = .error d) :
    d.causes = t.fields.flatMap (fun f => a.obstaclesTo f.type) ∧ d.causes ≠ [] := by
  have hobstacles : (t.fields.map fun f => (f.name, a.bridgeType f.type)).flatMap fieldObstacles
      = t.fields.flatMap fun f => a.obstaclesTo f.type := by
    rw [List.flatMap_map]
    refine congrArg (fun obstacles => t.fields.flatMap obstacles) (funext fun f => ?_)
    unfold obstaclesTo
    cases a.bridgeType f.type <;> rfl
  rw [a.dataTypeOf_composite_eq t hkind _ rfl, hobstacles] at h
  by_cases hnone : t.fields.flatMap (fun f => a.obstaclesTo f.type) = []
  · rw [hnone, List.isEmpty_nil, if_pos rfl] at h
    cases h
  · rw [if_neg fun hempty => hnone (List.isEmpty_iff.mp hempty)] at h
    cases h
    exact ⟨rfl, hnone⟩

theorem refuses_inheritanceFinding (base name : TypeName) :
    (a.inheritanceFinding base).refuses name = false := by
  rcases a.of_inheritanceFinding base with ⟨kind, detail, hkind, heq⟩
  rw [heq]
  rcases hkind with rfl | rfl <;> rfl

theorem refuses_of_mem_findings (t : DeclaredType) (d : Finding) (h : d ∈ (a.serviceOf t).2)
    (name : TypeName) : d.refuses name = false := by
  have hkind := a.isAboutServices_of_mem_findings t d h
  refine Bool.eq_false_iff.mpr fun hrefuses => ?_
  rw [((d.refuses_iff name).mp hrefuses).1] at hkind
  cases hkind

/-- What refuses a type is what a marked type of that name is refused with. -/
theorem exists_of_refuses (d : Finding) (hd : d ∈ a.review.report) (name : TypeName)
    (h : d.refuses name = true) : ∃ t ∈ a.types, t.name = name ∧ a.dataTypeOf t = .error d := by
  rcases (a.mem_report_iff d).mp hd with hbase | ⟨t, ht, _, hdef⟩ | ⟨t, _, _, hservice⟩
  · rcases List.mem_map.mp hbase with ⟨base, _, rfl⟩
    rw [refuses_inheritanceFinding] at h
    cases h
  · refine ⟨t, ht, ?_, hdef⟩
    rw [← ((d.refuses_iff name).mp h).2, a.subject_of_dataTypeOf_eq_error t d hdef]
  · rw [a.refuses_of_mem_findings t d hservice] at h
    cases h

/-- A marked type is refused in the report with what it is refused with. -/
theorem dataTypeOf_of_refuses (ha : a.HasDistinctNames) (t : DeclaredType) (ht : t ∈ a.types)
    (d : Finding) (hd : d ∈ a.review.report) (h : d.refuses t.name = true) :
    a.dataTypeOf t = .error d := by
  rcases a.exists_of_refuses d hd t.name h with ⟨u, hu, hname, hdef⟩
  exact List.inj_on_of_nodup_map ha hu ht hname ▸ hdef

/-- A marked type is refused in the report if it is not taken over. -/
theorem any_refuses_iff (ha : a.HasDistinctNames) (t : DeclaredType) (ht : t ∈ a.types)
    (hmark : t.isData = true) :
    a.review.report.any (·.refuses t.name) = true ↔ ∃ d, a.dataTypeOf t = .error d := by
  rw [List.any_eq_true]
  constructor
  · rintro ⟨d, hd, hrefuses⟩
    exact ⟨d, a.dataTypeOf_of_refuses ha t ht d hd hrefuses⟩
  · rintro ⟨d, hdef⟩
    refine ⟨d, (a.mem_report_iff d).mpr (Or.inr (Or.inl ⟨t, ht, hmark, hdef⟩)), ?_⟩
    rcases a.of_dataTypeOf_eq_error t d hdef with ⟨detail, causes, rfl⟩
    exact (Finding.refuses_iff _ _).mpr ⟨rfl, rfl⟩

/-- The types that are refused are different ones. -/
theorem nodup_refusedTypes (ha : a.HasDistinctNames) : (a.refusedTypes.map (·.subject)).Nodup := by
  have hsub : List.Sublist (a.refusedTypes.map (·.subject))
      ((a.types.filter (·.isData)).map (·.name)) :=
    map_filterMap_error_sublist _ (fun _ => rfl) (fun _ => rfl) a.dataTypeOf (·.subject) (·.name)
      a.subject_of_dataTypeOf_eq_error _
  exact (hsub.trans (List.filter_sublist.map _)).nodup ha

/-- No type is refused twice. -/
theorem countP_refuses_le_one (ha : a.HasDistinctNames) (name : TypeName) :
    a.review.report.countP (·.refuses name) ≤ 1 := by
  rcases a.exists_report_eq with ⟨added, hreport, _, hadded⟩
  have hbases : a.inheritanceFindings.countP (·.refuses name) = 0 := by
    refine List.countP_eq_zero.mpr (List.forall_mem_map.mpr fun base _ => ?_)
    rw [refuses_inheritanceFinding]
    exact Bool.false_ne_true
  have hservices : added.countP (·.refuses name) = 0 := by
    refine List.countP_eq_zero.mpr fun d hd => ?_
    rcases List.mem_flatMap.mp ((hadded d).mp hd) with ⟨t, _, hfound⟩
    rw [a.refuses_of_mem_findings t d hfound]
    exact Bool.false_ne_true
  rw [hreport, List.countP_append, List.countP_append, hbases, hservices, Nat.zero_add,
    Nat.add_zero]
  calc a.refusedTypes.countP (·.refuses name)
      ≤ a.refusedTypes.countP fun d => d.subject = name :=
        List.countP_mono_left fun d _ hd => decide_eq_true ((d.refuses_iff name).mp hd).2
    _ = (a.refusedTypes.map (·.subject)).count name := by
        rw [List.count, List.countP_map]
        rfl
    _ ≤ 1 := List.nodup_iff_count_le_one.mp (a.nodup_refusedTypes ha) name

/-- Marked types are defined whole or refused. The data types of the contract are, type for type and
    in the order of the library, all that is declared by the marked types that the report does not
    refuse. No type is refused twice, and a class or structure is refused with what is in the way of
    each of its fields, in the order of the fields. -/
theorem definitions_of_validate (verdict : Verdict) (h : a.validate = .ok verdict) :
    List.Forall₂ a.Defines
        (a.types.filter fun t => t.isData && !verdict.report.any (·.refuses t.name))
        verdict.contract.dataTypes
      ∧ (∀ name, verdict.report.countP (·.refuses name) ≤ 1)
      ∧ ∀ t ∈ a.types, t.kind = .classType ∨ t.kind = .struct →
        ∀ d ∈ verdict.report, d.refuses t.name = true →
          d.causes = t.fields.flatMap (fun f => a.obstaclesTo f.type) ∧ d.causes ≠ [] := by
  rcases (a.validate_eq_ok_iff verdict).mp h with ⟨hdefect, rfl⟩
  have ha := a.hasDistinctNames_of_defect?_eq_none hdefect
  refine ⟨?_, a.countP_refuses_le_one ha, fun t ht hkind d hd hrefuses =>
    a.causes_of_dataTypeOf_eq_error t hkind d (a.dataTypeOf_of_refuses ha t ht d hd hrefuses)⟩
  rw [contract_review_eq]
  -- Both lists are made from the types of the library, so one type at a time is enough.
  refine forall₂_filter_filterMap _ _ a.types fun t ht => ?_
  unfold definitionFor?
  cases hmark : t.isData with
  | false => exact Or.inr ⟨rfl, rfl⟩
  | true =>
      have hrefused := a.any_refuses_iff ha t ht hmark
      simp only [if_true, Bool.true_and, Bool.not_eq_true', hrefused,
        ← Bool.not_eq_true]
      cases hdef : a.dataTypeOf t with
      | ok d =>
          refine Or.inl ⟨?_, d, rfl, a.defines_of_dataTypeOf_eq_ok t d hdef⟩
          rintro ⟨e, he⟩
          cases he
      | error d => exact Or.inr ⟨fun hnone => hnone ⟨d, rfl⟩, rfl⟩

/-- A class with two fields that cannot cross. -/
def deskType : DeclaredType :=
  { (default : DeclaredType) with
    name := "Acme.Desk", isData := true
    fields := [⟨"Height", .named "System.Decimal"⟩, ⟨"Owner", .named "Acme.Person"⟩,
      ⟨"Lamps", .array (.named "Acme.Lamp")⟩] }

/-- A structure and an enumeration around the class. -/
def officeLibrary : Library :=
  ⟨"Acme", [
    { (default : DeclaredType) with
      name := "Acme.Person", kind := .struct, isData := true
      fields := [⟨"Name", .named "System.String"⟩, ⟨"Mood", .named "Acme.Mood"⟩] },
    deskType,
    { (default : DeclaredType) with
      name := "Acme.Mood", kind := .enum, isData := true, members := ["Happy", "Sad"] }]⟩

/-- The class is refused with what is in the way of these two fields, and the others are defined
    around it. -/
theorem definitions_of_officeLibrary :
    officeLibrary.validate = .ok officeLibrary.review
      ∧ List.Forall₂ officeLibrary.Defines
        (officeLibrary.types.filter fun t =>
          t.isData && !officeLibrary.review.report.any (·.refuses t.name))
        officeLibrary.review.contract.dataTypes
      ∧ officeLibrary.review.contract.dataTypes.map (·.name) = ["Acme.Person", "Acme.Mood"]
      ∧ ∃ d ∈ officeLibrary.review.report, d.refuses deskType.name = true
        ∧ d.causes = deskType.fields.flatMap (fun f => officeLibrary.obstaclesTo f.type)
        ∧ d.causes = [⟨"System.Decimal", .unsupportedPrimitive⟩, ⟨"Acme.Lamp", .unknownType⟩] := by
  have h : officeLibrary.validate = .ok officeLibrary.review :=
    (validate_eq_ok_iff _ _).mpr ⟨by decide +kernel, rfl⟩
  rcases definitions_of_validate officeLibrary _ h with ⟨hwhole, _, hcauses⟩
  have hdesk : deskType ∈ officeLibrary.types := List.mem_cons_of_mem _ List.mem_cons_self
  have hrefused : ∃ d ∈ officeLibrary.review.report, d.refuses deskType.name = true
      ∧ d.causes = [⟨"System.Decimal", .unsupportedPrimitive⟩, ⟨"Acme.Lamp", .unknownType⟩] := by
    decide +kernel
  rcases hrefused with ⟨d, hd, hrefuses, hlist⟩
  exact ⟨h, hwhole, by decide +kernel, d, hd, hrefuses,
    (hcauses deskType hdesk (Or.inl rfl) d hd hrefuses).1, hlist⟩

end Library

end PlatformBridge
