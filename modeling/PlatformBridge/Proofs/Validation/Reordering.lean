import PlatformBridge.Proofs.Validation.Locality

/-!
# The Order of Declarations

A library lists its types in some order, and validation goes through them in
this order, with a report into which findings go as they are made. Nothing that
is found depends on it. Types are looked up by name, so each of them has the
same service and the same definition wherever it stands, and the contract lists
these in the order of the types. The report has the same findings in another
order, with one exception: a finding about a base names the types that are
derived from it, and these come in the order of the library.

So reports are compared up to the order of findings and up to the order of the
names in a finding. The report is taken apart into what is found about bases,
about marked types and about services, and each part is shown to be the same up
to order. Findings of two parts are never equal, by their kinds, so that equal
findings are told once can be looked at in the last part alone.

## Main definitions

* `Finding.SameUpToOrder`, `Report.SameUpToOrder`: Findings and reports that
  differ in order only.
* `FindingKind.isAboutServices`: Findings about services, by their kinds.
* `Library.serviceFor?`, `Library.definitionFor?`: What a type contributes to a
  contract.
* `Library.refusedTypes`, `Library.serviceFindings`: The parts of a report.

## Theorems

* `Library.contract_review_eq`: A contract lists what its types contribute.
* `Library.agreeOn_of_perm`: Libraries that differ in order have the same types.
* `Library.of_inheritanceFinding`: What is in a finding about a base.
* `Library.inheritanceFinding_of_perm`, `Library.disputedBases_of_perm`:
  Findings about bases.
* `Library.report_review_eq`, `Library.exists_report_eq`: The parts of a report.
* `Library.isAboutServices_of_mem_findings`: Findings about services are of
  kinds of their own.
* `Library.report_of_perm`: Reports have the same findings.
* `Library.reordering_of_validate`: Validation does not depend on the order of
  types.
-/

namespace PlatformBridge

open Results

/-- Findings are equal, or name the types derived from a base in another order. -/
def Finding.SameUpToOrder (d d' : Finding) : Prop :=
  d = d' ∨ (d.kind = .unsupportedInheritedDataType ∨ d.kind = .unmarkedDataSubtype)
    ∧ d.related.Perm d'.related ∧ d' = { d with related := d'.related }

/-- Reports have the same findings, up to the order of findings and of what they name. -/
def Report.SameUpToOrder (r r' : Report) : Prop :=
  ∃ reordered : Report, r.Perm reordered ∧ List.Forall₂ Finding.SameUpToOrder reordered r'

/-- Whether findings of a kind are about services and not about data types. -/
def FindingKind.isAboutServices : FindingKind → Bool
  | .unsupportedDataType | .unsupportedInheritedDataType | .unmarkedDataSubtype => false
  | _ => true

namespace Library

variable (a : Library)

/-- The service of a type, if it offers one. -/
def serviceFor? (t : DeclaredType) : Option Service :=
  if a.offersService t then some (a.serviceOf t).1 else none

/-- The definition of a type, if it is marked and can be taken over. -/
def definitionFor? (t : DeclaredType) : Option DataType :=
  if t.isData then (a.dataTypeOf t).toOption else none

theorem name_of_serviceFor?_eq_some (t : DeclaredType) (s : Service)
    (h : a.serviceFor? t = some s) : s.name = t.name := by
  unfold serviceFor? at h
  split at h
  · cases h
    rfl
  · cases h

theorem name_of_definitionFor?_eq_some (t : DeclaredType) (d : DataType)
    (h : a.definitionFor? t = some d) : d.name = t.name := by
  unfold definitionFor? at h
  split at h
  · cases hdef : a.dataTypeOf t with
    | ok d' =>
        rw [hdef] at h
        cases h
        exact a.name_of_dataTypeOf_eq_ok t d hdef
    | error e =>
        rw [hdef] at h
        cases h
  · cases h

/-- A contract lists what its types contribute, in their order. -/
theorem contract_review_eq :
    a.review.contract
      = ⟨a.name, a.types.filterMap a.serviceFor?, a.types.filterMap a.definitionFor?⟩ := by
  have hservices : ((a.types.filter a.offersService).map a.serviceOf).map (·.1)
      = a.types.filterMap a.serviceFor? := by
    rw [List.map_map, ← List.filterMap_eq_map, List.filterMap_filter]
    rfl
  have hdata : ((a.types.filter (·.isData)).map a.dataTypeOf).filterMap (·.toOption)
      = a.types.filterMap a.definitionFor? := by
    rw [List.filterMap_map, List.filterMap_filter]
    rfl
  unfold review
  simp only
  rw [hservices, hdata]

/-- A type can only disagree with its base. -/
theorem declaredBase?_of_disagrees {a : Library} {base : TypeName} {t : DeclaredType}
    (h : a.disagrees base t = true) : t.declaredBase? = some base := by
  unfold disagrees at h
  rw [Bool.and_eq_true, decide_eq_true_eq] at h
  exact h.1

/-- A base is disputed if some type does not agree with it, and is met once. -/
theorem mem_disputedBases_iff (base : TypeName) :
    base ∈ a.disputedBases ↔ ∃ t ∈ a.types, a.disagrees base t = true := by
  unfold disputedBases
  rcases exists_foldl_new_eq (a.types.filterMap fun t =>
    t.declaredBase?.filter fun base => a.disagrees base t) [] with ⟨added, heq, _, _, hadded⟩
  rw [heq, List.nil_append, hadded, List.mem_filterMap]
  simp only [List.not_mem_nil, not_false_eq_true, and_true, Option.filter_eq_some_iff]
  exact exists_congr fun t => and_congr_right fun _ =>
    and_iff_right_of_imp declaredBase?_of_disagrees

theorem nodup_disputedBases : a.disputedBases.Nodup := by
  unfold disputedBases
  rcases exists_foldl_new_eq (a.types.filterMap fun t =>
    t.declaredBase?.filter fun base => a.disagrees base t) [] with ⟨added, heq, _, hnodup, _⟩
  rw [heq, List.nil_append]
  exact hnodup

/-- Findings about services are of kinds of their own. -/
theorem isAboutServices_of_mem_findings (t : DeclaredType) (d : Finding)
    (h : d ∈ (a.serviceOf t).2) : d.kind.isAboutServices = true := by
  rcases (a.mem_findings_iff t d).mp h with ⟨c, _, hrefusal⟩ | ⟨clash, _, rfl⟩ | ⟨c, _, hbuilt⟩
    | ⟨e, _, hbuilt⟩
  · rcases c.of_refusal?_eq_some d hrefusal with ⟨detail, rfl | rfl⟩
    · rfl
    · rfl
  · rfl
  · rcases a.of_operationOf_eq_error t.name c d hbuilt with ⟨detail, causes, rfl⟩
    rfl
  · rcases a.of_eventOf_eq_error t.name e.1 e.2 d hbuilt with ⟨detail, causes, rfl⟩
    rfl

/-- A finding about a base is of one of two kinds, and names the types that do not agree with it. -/
theorem of_inheritanceFinding (base : TypeName) :
    ∃ kind detail, (kind = .unmarkedDataSubtype ∨ kind = .unsupportedInheritedDataType)
      ∧ a.inheritanceFinding base
        = .of kind base detail ((a.types.filter (a.disagrees base)).map (·.name)) [] := by
  unfold inheritanceFinding
  cases a.isMarkedData base with
  | true => exact ⟨_, _, Or.inl rfl, rfl⟩
  | false => exact ⟨_, _, Or.inr rfl, rfl⟩

theorem isAboutServices_inheritanceFinding (base : TypeName) :
    (a.inheritanceFinding base).kind.isAboutServices = false := by
  rcases a.of_inheritanceFinding base with ⟨kind, detail, hkind, heq⟩
  rw [heq]
  rcases hkind with rfl | rfl <;> rfl

/-- The findings about marked types that are refused. -/
def refusedTypes : List Finding :=
  ((a.types.filter (·.isData)).map a.dataTypeOf).filterMap fun
    | .error d => some d
    | .ok _ => none

/-- A refusal is what a marked type is refused with. -/
theorem mem_refusedTypes_iff (d : Finding) :
    d ∈ a.refusedTypes ↔ ∃ t ∈ a.types, t.isData = true ∧ a.dataTypeOf t = .error d := by
  unfold refusedTypes
  rw [mem_filterMap_error _ _ (fun _ => rfl) (fun _ => rfl)]
  simp only [List.mem_map, List.mem_filter, and_assoc]

/-- What is found about services, again and again where they share interfaces. -/
def serviceFindings : List Finding :=
  (a.types.filter a.offersService).flatMap fun t => (a.serviceOf t).2

/-- A report is what is found about bases and marked types, and then what is new about services. -/
theorem report_review_eq :
    a.review.report
      = Report.addAllUnique (a.inheritanceFindings ++ a.refusedTypes) a.serviceFindings := by
  unfold review serviceFindings
  rw [← List.flatMap_map]
  rfl

/-- A report starts with the findings about bases and marked types. What is found about services
    comes after them, each finding once. -/
theorem exists_report_eq :
    ∃ added, a.review.report = a.inheritanceFindings ++ a.refusedTypes ++ added ∧ added.Nodup
      ∧ ∀ d, d ∈ added ↔ d ∈ a.serviceFindings := by
  rcases Report.exists_addAllUnique_eq (a.inheritanceFindings ++ a.refusedTypes) a.serviceFindings
    with ⟨added, heq, _, hnodup, hadded⟩
  refine ⟨added, a.report_review_eq.trans heq, hnodup,
    fun d => (hadded d).trans (and_iff_left_of_imp ?_)⟩
  intro hd hmem
  rcases List.mem_flatMap.mp hd with ⟨t, _, hfound⟩
  have hkind := a.isAboutServices_of_mem_findings t d hfound
  rcases List.mem_append.mp hmem with hmem | hmem
  · rcases List.mem_map.mp hmem with ⟨base, _, rfl⟩
    rw [a.isAboutServices_inheritanceFinding base] at hkind
    cases hkind
  · rcases (a.mem_refusedTypes_iff d).mp hmem with ⟨u, _, _, hdef⟩
    rcases a.of_dataTypeOf_eq_error u d hdef with ⟨detail, causes, rfl⟩
    cases hkind

/-- A library that is well formed is so in any order. -/
theorem defect?_of_perm (b : Library) (hperm : a.types.Perm b.types) :
    a.defect? = none ↔ b.defect? = none := by
  rw [defect?_eq_none_iff, defect?_eq_none_iff]
  refine and_congr (hperm.map fun t : DeclaredType => t.name).nodup_iff ?_
  exact forall_congr' fun t => imp_congr_left hperm.mem_iff

/-- Libraries that differ in order have the same types by name. -/
theorem agreeOn_of_perm (b : Library) (hperm : a.types.Perm b.types) (ha : a.HasDistinctNames) :
    AgreeOn a b fun _ => True := by
  have hb : b.HasDistinctNames := (hperm.map fun t : DeclaredType => t.name).nodup_iff.mp ha
  refine ⟨fun name _ => ?_, fun _ _ _ _ _ _ => trivial⟩
  refine Option.ext fun t => ?_
  rw [a.type?_eq_some_iff ha, b.type?_eq_some_iff hb, hperm.mem_iff]

section Reordering

variable {a} {b : Library} (h : AgreeOn a b fun _ => True) (hperm : a.types.Perm b.types)

include h

theorem disagrees_of_agreeOn (base : TypeName) : a.disagrees base = b.disagrees base :=
  funext fun t => h.disagrees base t fun _ _ => trivial

theorem serviceFor?_of_agreeOn : a.serviceFor? = b.serviceFor? := by
  funext t
  unfold serviceFor?
  rw [h.offersService t fun _ _ => trivial, h.serviceOf t fun _ _ => trivial]

theorem definitionFor?_of_agreeOn : a.definitionFor? = b.definitionFor? := by
  funext t
  unfold definitionFor?
  rw [h.dataTypeOf t fun _ _ => trivial]

include hperm

/-- A finding about a base names the same types in some order. -/
theorem inheritanceFinding_of_perm (base : TypeName) :
    (a.inheritanceFinding base).SameUpToOrder (b.inheritanceFinding base) := by
  have hsubtypes : ((a.types.filter (a.disagrees base)).map (·.name)).Perm
      ((b.types.filter (b.disagrees base)).map (·.name)) := by
    rw [disagrees_of_agreeOn h base]
    exact (hperm.filter _).map _
  unfold inheritanceFinding
  simp only
  rw [← h.isMarkedData base trivial]
  split
  · exact Or.inr ⟨Or.inr rfl, hsubtypes, rfl⟩
  · exact Or.inr ⟨Or.inl rfl, hsubtypes, rfl⟩

theorem disputedBases_of_perm : a.disputedBases.Perm b.disputedBases := by
  refine (List.perm_ext_iff_of_nodup a.nodup_disputedBases b.nodup_disputedBases).mpr fun base => ?_
  rw [mem_disputedBases_iff, mem_disputedBases_iff, disagrees_of_agreeOn h base]
  exact exists_congr fun t => and_congr_left' hperm.mem_iff

theorem refusedTypes_of_perm : a.refusedTypes.Perm b.refusedTypes := by
  have hdefine : a.dataTypeOf = b.dataTypeOf := funext fun t => h.dataTypeOf t fun _ _ => trivial
  unfold refusedTypes
  rw [hdefine]
  exact ((hperm.filter _).map _).filterMap _

theorem serviceFindings_of_perm : a.serviceFindings.Perm b.serviceFindings := by
  have hoffers : a.offersService = b.offersService :=
    funext fun t => h.offersService t fun _ _ => trivial
  have hservices : a.serviceOf = b.serviceOf := funext fun t => h.serviceOf t fun _ _ => trivial
  unfold serviceFindings
  rw [hoffers, hservices]
  exact (hperm.filter _).flatMap_right _

/-- Reports have the same findings. -/
theorem report_of_perm : a.review.report.SameUpToOrder b.review.report := by
  rcases a.exists_report_eq with ⟨added, hreport, hnodup, hadded⟩
  rcases b.exists_report_eq with ⟨added', hreport', hnodup', hadded'⟩
  have hbases := disputedBases_of_perm h hperm
  have hservices : added.Perm added' := by
    refine (List.perm_ext_iff_of_nodup hnodup hnodup').mpr fun d => ?_
    rw [hadded, hadded', (serviceFindings_of_perm h hperm).mem_iff]
  rw [hreport, hreport']
  refine ⟨b.disputedBases.map a.inheritanceFinding ++ b.refusedTypes ++ added',
    ((hbases.map a.inheritanceFinding).append (refusedTypes_of_perm h hperm)).append hservices, ?_⟩
  have hsame : ∀ findings : List Finding,
      List.Forall₂ Finding.SameUpToOrder findings findings :=
    fun findings => List.forall₂_same.mpr fun _ _ => Or.inl rfl
  refine List.rel_append (List.rel_append ?_ (hsame _)) (hsame _)
  unfold inheritanceFindings
  rw [List.forall₂_map_left_iff, List.forall₂_map_right_iff, List.forall₂_same]
  exact fun base _ => inheritanceFinding_of_perm h hperm base

end Reordering

/-- Validation does not depend on the order of types. Libraries that differ in it are both validated
    or both refused. Every type then has the same service and the same definition or none, and the
    contracts list these in the orders of the types. The reports have the same findings. -/
theorem reordering_of_validate (b : Library) (hname : a.name = b.name)
    (hperm : a.types.Perm b.types) :
    ((∃ verdict, a.validate = .ok verdict) ↔ ∃ verdict, b.validate = .ok verdict)
      ∧ ∀ verdict verdict', a.validate = .ok verdict → b.validate = .ok verdict' →
        (∃ (service : DeclaredType → Option Service) (definition : DeclaredType → Option DataType),
          (∀ t s, service t = some s → s.name = t.name)
          ∧ (∀ t d, definition t = some d → d.name = t.name)
          ∧ verdict.contract
            = ⟨a.name, a.types.filterMap service, a.types.filterMap definition⟩
          ∧ verdict'.contract
            = ⟨a.name, b.types.filterMap service, b.types.filterMap definition⟩)
        ∧ verdict.report.SameUpToOrder verdict'.report := by
  constructor
  · simp only [validate_eq_ok_iff, exists_and_left, exists_eq', and_true]
    exact a.defect?_of_perm b hperm
  · intro verdict verdict' ha hb
    rcases (a.validate_eq_ok_iff verdict).mp ha with ⟨hdefect, rfl⟩
    rcases (b.validate_eq_ok_iff verdict').mp hb with ⟨_, rfl⟩
    have h := a.agreeOn_of_perm b hperm (a.hasDistinctNames_of_defect?_eq_none hdefect)
    refine ⟨⟨a.serviceFor?, a.definitionFor?, a.name_of_serviceFor?_eq_some,
      a.name_of_definitionFor?_eq_some, a.contract_review_eq, ?_⟩, report_of_perm h hperm⟩
    rw [b.contract_review_eq, hname, serviceFor?_of_agreeOn h, definitionFor?_of_agreeOn h]

/-- Two marked classes without a marked base, and an interface with a class. -/
def shapeTypes : List DeclaredType :=
  [{ (default : DeclaredType) with
      name := "Acme.Circle", base := some "Acme.Shape", isData := true },
    { (default : DeclaredType) with
      name := "Acme.Square", base := some "Acme.Shape", isData := true },
    greeterInterface, greeterClass]

/-- Reversed, the two classes are named the other way round in the finding about their base, so the
    reports are not equal. -/
theorem reordering_of_shapeTypes :
    shapeTypes.Perm shapeTypes.reverse
      ∧ (⟨"Acme", shapeTypes⟩ : Library).validate = .ok (⟨"Acme", shapeTypes⟩ : Library).review
      ∧ (⟨"Acme", shapeTypes.reverse⟩ : Library).validate
        = .ok (⟨"Acme", shapeTypes.reverse⟩ : Library).review
      ∧ (⟨"Acme", shapeTypes⟩ : Library).review.report
        ≠ (⟨"Acme", shapeTypes.reverse⟩ : Library).review.report
      ∧ (⟨"Acme", shapeTypes⟩ : Library).review.report.SameUpToOrder
        (⟨"Acme", shapeTypes.reverse⟩ : Library).review.report := by
  have hperm : shapeTypes.Perm shapeTypes.reverse := (List.reverse_perm shapeTypes).symm
  have h : ∀ types, defectAfter? [] types = none →
      (⟨"Acme", types⟩ : Library).validate = .ok (⟨"Acme", types⟩ : Library).review :=
    fun types hdefect => (validate_eq_ok_iff _ _).mpr ⟨hdefect, rfl⟩
  have ha := h shapeTypes (by decide +kernel)
  have hb := h shapeTypes.reverse (by decide +kernel)
  exact ⟨hperm, ha, hb, by decide +kernel,
    ((reordering_of_validate ⟨"Acme", shapeTypes⟩ ⟨"Acme", shapeTypes.reverse⟩ rfl hperm).2
      _ _ ha hb).2⟩

end Library

end PlatformBridge
