import PlatformBridge.Proofs.Validation.DataTypes
import PlatformBridge.Proofs.Validation.Services
import PlatformBridge.Proofs.Wire.Defined

/-!
# Verdicts without Errors

Nothing is generated from a contract with errors in its report. What this buys
is that the contract is closed. A type is accepted by the marks of the types it
names, while the contract defines only those marked types that were not refused;
the two agree because a refusal is always an error.

So closedness is not something that validation looks at. It is put together from
two halves: whatever occurs in a contract is allowed by the marks, in any
verdict, and without errors every mark comes with a definition. The first half
is by the places in which a type may occur, the second by the kinds of types.

What conversions gain from a closed contract is known where conversions are
treated, for any contract. It is restated here for the contracts of verdicts,
where no one has to ask whether they are closed.

## Theorems

* `Library.exists_dataTypeOf_of_clean`: Without errors, every marked type is
  defined.
* `Library.admits_of_mentions`: What occurs in a contract is allowed by the
  marks.
* `Library.composite?_of_clean`, `Library.enumeration?_of_clean`,
  `Library.dataType?_of_clean`: Without errors, marked types are found in the
  contract as what they are.
* `Library.isClosed_review`: A contract without errors is closed.
* `Library.isClosed_of_validate`: A contract without errors is closed, and no
  conversion of a type that occurs in it fails for want of a definition.
-/

namespace PlatformBridge

namespace Library

variable (a : Library)

/-- Without errors, every marked type is defined. -/
theorem exists_dataTypeOf_of_clean (hclean : a.review.report.hasErrors = false) (t : DeclaredType)
    (ht : t ∈ a.types) (hmark : t.isData = true) : ∃ d, a.dataTypeOf t = .ok d := by
  cases hdef : a.dataTypeOf t with
  | ok d => exact ⟨d, rfl⟩
  | error e =>
      -- A refusal would be an error in the report.
      exfalso
      have hmem : e ∈ a.review.report :=
        (a.mem_report_iff e).mpr (Or.inr (Or.inl ⟨t, ht, hmark, hdef⟩))
      have hnone := (Report.hasErrors_eq_false_iff _).mp hclean e hmem
      rcases a.of_dataTypeOf_eq_error t e hdef with ⟨detail, causes, rfl⟩
      cases hnone

/-- A type that a service or a definition names itself is allowed by the marks. -/
theorem admits_of_mem_types_review (u : BridgeType) (hu : u ∈ a.review.contract.types) :
    a.Admits u := by
  rcases List.mem_append.mp hu with hservice | hdata
  · rcases List.mem_flatMap.mp hservice with ⟨s, hs, hmem⟩
    rcases (a.mem_services_iff s).mp hs with ⟨t, _, _, rfl⟩
    exact a.admits_of_mem_types_serviceOf t u hmem
  · rcases List.mem_flatMap.mp hdata with ⟨d, hd, hmem⟩
    rcases (a.mem_dataTypes_iff d).mp hd with ⟨t, _, _, hdef⟩
    exact a.admits_of_mem_types_dataType t d hdef u hmem

/-- What occurs in a contract is allowed by the marks, at any depth, since what is inside an allowed
    type is allowed. -/
theorem admits_of_mentions (u : BridgeType) (hu : a.review.contract.Mentions u) : a.Admits u := by
  rcases hu with ⟨w, hw, hmem⟩
  exact (a.admits_of_mem_types_review w hw).of_mem_parts hmem

section Clean

variable (ha : a.HasDistinctNames) (hclean : a.review.report.hasErrors = false)

include ha hclean

/-- Without errors, a marked class or structure is a composite of the contract. -/
theorem composite?_of_clean (t : DeclaredType) (ht : a.type? t.name = some t)
    (hmark : t.isData = true) (hkind : t.kind = .classType ∨ t.kind = .struct) :
    (a.review.contract.composite? t.name).isSome = true := by
  rcases a.exists_dataTypeOf_of_clean hclean t (a.mem_of_type?_eq_some _ t ht).1 hmark with
    ⟨d, hdef⟩
  have hfind := (a.dataType?_review_eq_some_iff ha t.name d).mpr ⟨t, ht, hmark, hdef⟩
  rcases (a.dataTypeOf_composite_eq_ok_iff t hkind d).mp hdef with ⟨U, _, rfl⟩
  rw [(Contract.composite?_eq_some_iff _ t.name _ _).mpr hfind]
  rfl

/-- Without errors, a marked enumeration is an enumeration of the contract. -/
theorem enumeration?_of_clean (t : DeclaredType) (ht : a.type? t.name = some t)
    (hmark : t.isData = true) (hkind : t.kind = .enum) :
    (a.review.contract.enumeration? t.name).isSome = true := by
  rcases a.exists_dataTypeOf_of_clean hclean t (a.mem_of_type?_eq_some _ t ht).1 hmark with
    ⟨d, hdef⟩
  have hfind := (a.dataType?_review_eq_some_iff ha t.name d).mpr ⟨t, ht, hmark, hdef⟩
  rcases (a.dataTypeOf_enum_eq_ok_iff t hkind d).mp hdef with ⟨_, rfl⟩
  rw [(Contract.enumeration?_eq_some_iff _ t.name _).mpr hfind]
  rfl

/-- Without errors, a marked name has a definition, of whatever kind it is. -/
theorem dataType?_of_clean (name : TypeName) (hmark : a.isMarkedData name = true) :
    (a.review.contract.dataType? name).isSome = true := by
  unfold isMarkedData at hmark
  cases ht : a.type? name with
  | none =>
      rw [ht] at hmark
      cases hmark
  | some t =>
      rw [ht, Option.any_some] at hmark
      rcases a.exists_dataTypeOf_of_clean hclean t (a.mem_of_type?_eq_some _ t ht).1 hmark with
        ⟨d, hdef⟩
      rw [(a.dataType?_review_eq_some_iff ha name d).mpr ⟨t, ht, hmark, hdef⟩]
      rfl

/-- A contract without errors is closed. -/
theorem isClosed_review : a.review.contract.IsClosed where
  data name hname := by
    have h := a.admits_of_mentions _ hname
    cases h with
    | data t ht hmark hkind => exact a.composite?_of_clean ha hclean t ht hmark hkind
  enum name hname := by
    have h := a.admits_of_mentions _ hname
    cases h with
    | enum t ht hmark hkind => exact a.enumeration?_of_clean ha hclean t ht hmark hkind
  base d hd fields base hshape := by
    rcases (a.mem_dataTypes_iff d).mp hd with ⟨t, _, _, hdef⟩
    exact a.dataType?_of_clean ha hclean base (a.isMarkedData_of_base t d hdef fields base hshape)
  nullable inner hinner := by
    have h := a.admits_of_mentions _ hinner
    cases h with
    | nullable _ honce _ => exact honce
  dataTypes s hs name := by
    rcases (a.mem_services_iff s).mp hs with ⟨t, _, _, rfl⟩
    simp only [a.mem_dataTypes_serviceOf_iff t name, BridgeType.named?_eq_some_iff]

end Clean

/-- A contract without errors is closed, and no conversion at a type that occurs in it fails for
    want of a definition. -/
theorem isClosed_of_validate (verdict : Verdict) (h : a.validate = .ok verdict)
    (hclean : verdict.report.hasErrors = false) :
    verdict.contract.IsClosed
      ∧ ∀ type, verdict.contract.Mentions type → ∀ place missing name,
        (∀ v, verdict.contract.decode v type place ≠ .error (.unknownType missing name))
        ∧ ∀ d, verdict.contract.encode d type place ≠ .error (.unknownType missing name) := by
  rcases (a.validate_eq_ok_iff verdict).mp h with ⟨hdefect, rfl⟩
  have hclosed := a.isClosed_review (a.hasDistinctNames_of_defect?_eq_none hdefect) hclean
  refine ⟨hclosed, fun type htype place missing name => ⟨fun v => ?_, fun d => ?_⟩⟩
  · exact hclosed.decode_findsTypes v type (hclosed.resolves type htype) place missing name
  · exact hclosed.encode_findsTypes d type (hclosed.resolves type htype) place missing name

/-- A library with a class that refers to itself and to an enumeration, and a service that takes
    one. -/
def shopLibrary : Library :=
  ⟨"Acme", [
    { (default : DeclaredType) with
      name := "Acme.Color", kind := .enum, isData := true, members := ["Red"] },
    { (default : DeclaredType) with
      name := "Acme.Item", isData := true
      fields := [⟨"color", .named "Acme.Color"⟩,
        ⟨"next", .generic "System.Nullable`1" [.named "Acme.Item"]⟩] },
    { (default : DeclaredType) with
      name := "Acme.Shop", isService := true
      methods := [{ (default : DeclaredMethod) with
        name := "Put", isOperation := true
        parameters := [⟨"item", .named "Acme.Item", .value⟩]
        returns := .named "System.Void" }] }]⟩

theorem isClosed_of_shopLibrary :
    shopLibrary.validate = .ok shopLibrary.review
      ∧ shopLibrary.review.report.hasErrors = false
      ∧ shopLibrary.review.contract.IsClosed
      ∧ shopLibrary.review.contract.Mentions (.nullable (.data "Acme.Item"))
      ∧ shopLibrary.review.contract.decode (.object [("color", .string "Red")])
        (.nullable (.data "Acme.Item")) .root ≠ .error (.unknownType .root "Acme.Item") := by
  have h : shopLibrary.validate = .ok shopLibrary.review := by
    rw [validate_eq_ok_iff]
    exact ⟨by decide +kernel, rfl⟩
  have hclean : shopLibrary.review.report.hasErrors = false := by decide +kernel
  have hmem : shopLibrary.review.contract.Mentions (.nullable (.data "Acme.Item")) :=
    ⟨.nullable (.data "Acme.Item"), by decide +kernel, by decide +kernel⟩
  rcases isClosed_of_validate shopLibrary _ h hclean with ⟨hclosed, hfound⟩
  exact ⟨h, hclean, hclosed, hmem, (hfound _ hmem .root .root "Acme.Item").1 _⟩

end Library

end PlatformBridge
