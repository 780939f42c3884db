import PlatformBridge.Proofs.Validation.Reordering

/-!
# Marks of Bases

Marking is closed under bases. A marked type whose base is not marked is an
error, told once for every base with the names of all marked types derived from
it; the other way round, types without a mark are told once for every marked
base that they are derived from, interfaces apart. Bases that all types of a
kind have are left out of this.

What is told of one base follows from the marks of the types derived from it.
`subtypes_eq` says which of them do not agree with it, by one case distinction
on the mark of the base, and the two kinds of findings are the two cases.

The order of the findings takes more. The types are gone through once, and a
base is put down when the first type is met that does not agree with it.
`MetInOrder` is what holds of the bases put down after some of the types: they
are those met so far, and they stand in the order in which they were met first.
It is stated for any list with keys, because nothing in it is about types. Since
a finding names its types in the order of the library, this order can be read
off the report: each finding stands at the place of the first type that it
names.

## Main definitions

* `Finding.isAboutBase`, `Report.aboutBase`: The findings about bases, and about
  one base.
* `Library.IsMarked`: A name is that of a marked type.
* `Library.markedSubtypes`, `Library.unmarkedSubtypes`: The types derived from a
  base.
* `Library.firstNamed`: The place of the first type that a finding names.
* `MetInOrder`: The keys of a list that are met first among some of its
  elements.

## Theorems

* `MetInOrder.skip`, `MetInOrder.push`: One element more, whose key was met or
  is new.
* `metInOrder_foldl`: Keys that are kept when they are new stand in the order of
  their first places.
* `DeclaredType.declaredBase?_eq_some_iff`: The base of a type.
* `Library.subtypes_eq`: The types that do not agree with a base, by their
  marks.
* `Library.exists_report_eq_inheritanceFindings`: Findings about bases come
  before all others.
* `Library.aboutBase_of_isMarkedData`, `Library.aboutBase_of_not_isMarkedData`:
  The findings about a base.
* `Library.pairwise_disputedBases`, `Library.pairwise_inheritanceFindings`: The
  order of findings about bases.
* `Library.inheritance_of_validate`: Each base is told once, with all types,
  before anything else.
-/

namespace PlatformBridge

section FirstPlaces

variable {α β : Type} [DecidableEq β] (key? : α → Option β) (xs : List α)

/-- The place of the first element with a key. -/
def firstPlace (key : β) : Nat := xs.findIdx fun x => key? x = some key

/-- The keys met among the first elements of a list, in the order of their first places. -/
structure MetInOrder (count : Nat) (met : List β) : Prop where
  mem_iff : ∀ key, key ∈ met ↔ firstPlace key? xs key < count
  ordered : met.Pairwise fun key key' => firstPlace key? xs key < firstPlace key? xs key'

variable {key? xs}

/-- A key is met up to an element if it is met before, or is the key of the element. This is the
    only fact about first places that the steps below need. -/
theorem firstPlace_lt_succ_iff (key : β) (count : Nat) (x : α) (hx : xs[count]? = some x) :
    firstPlace key? xs key < count + 1 ↔ firstPlace key? xs key < count ∨ key? x = some key := by
  unfold firstPlace
  constructor
  · intro hlt
    rcases Nat.lt_succ_iff_lt_or_eq.mp hlt with hlt | heq
    · exact Or.inl hlt
    · rw [← heq] at hx
      have hkey := List.findIdx_of_getElem?_eq_some hx
      exact Or.inr (of_decide_eq_true hkey)
  · rintro (hlt | hkey)
    · exact Nat.lt_succ_of_lt hlt
    · rcases List.getElem?_eq_some_iff.mp hx with ⟨hcount, rfl⟩
      refine Nat.lt_succ_of_le (Nat.le_of_not_lt fun hlt => ?_)
      exact of_decide_eq_false (List.not_of_lt_findIdx hlt) hkey

namespace MetInOrder

variable {count : Nat} {met : List β} (h : MetInOrder key? xs count met) {x : α}

include h

/-- An element without a key, or with one that was met, adds nothing. -/
theorem skip (hx : xs[count]? = some x) (hmet : ∀ key, key? x = some key → key ∈ met) :
    MetInOrder key? xs (count + 1) met := by
  refine ⟨fun key => ?_, h.ordered⟩
  rw [firstPlace_lt_succ_iff key count x hx, ← h.mem_iff]
  exact (or_iff_left_of_imp (hmet key)).symm

/-- A new key goes behind all others, since its first place is here. -/
theorem push (hx : xs[count]? = some x) (key : β) (hkey : key? x = some key)
    (hnew : key ∉ met) : MetInOrder key? xs (count + 1) (met ++ [key]) := by
  constructor
  · intro other
    rw [firstPlace_lt_succ_iff other count x hx, ← h.mem_iff, List.mem_append,
      List.mem_singleton, hkey, Option.some.injEq, eq_comm (a := key)]
  · rw [List.pairwise_append]
    refine ⟨h.ordered, List.pairwise_singleton _ _, fun other hother last hlast => ?_⟩
    rw [List.mem_singleton.mp hlast]
    exact Nat.lt_of_lt_of_le ((h.mem_iff other).mp hother)
      (Nat.le_of_not_lt fun hlt => hnew ((h.mem_iff key).mpr hlt))

end MetInOrder

/-- The keys that are kept, from any place of the list on. The fold is entered with what was kept
    before, so the induction is on the rest of the list with everything before it in a variable. -/
theorem metInOrder_foldl_of_append (rest : List α) :
    ∀ before met, before ++ rest = xs → MetInOrder key? xs before.length met →
      MetInOrder key? xs xs.length ((rest.filterMap key?).foldl
        (fun kept key => if kept.contains key then kept else kept ++ [key]) met) := by
  induction rest with
  | nil =>
      intro before met hxs h
      rw [List.append_nil] at hxs
      exact hxs ▸ h
  | cons x rest ih =>
      intro before met hxs h
      have hx : xs[before.length]? = some x := by
        rw [← hxs, List.getElem?_append_right (Nat.le_refl _), Nat.sub_self]
        rfl
      have hlength : (before ++ [x]).length = before.length + 1 := List.length_append
      have hsplit : before ++ [x] ++ rest = xs := by
        rw [List.append_assoc, List.singleton_append, hxs]
      -- The next element has no key, one that was met, or a new one, and the three cases are the
      -- steps of the invariant.
      rw [List.filterMap_cons]
      cases hkey : key? x with
      | none =>
          refine ih (before ++ [x]) met hsplit (hlength ▸ h.skip hx fun key hsome => ?_)
          rw [hkey] at hsome
          cases hsome
      | some key =>
          rw [List.foldl_cons]
          by_cases hmet : key ∈ met
          · rw [if_pos (List.contains_iff_mem.mpr hmet)]
            refine ih (before ++ [x]) met hsplit (hlength ▸ h.skip hx fun key' hsome => ?_)
            rw [hkey, Option.some.injEq] at hsome
            exact hsome ▸ hmet
          · rw [if_neg fun hcontains => hmet (List.contains_iff_mem.mp hcontains)]
            exact ih (before ++ [x]) (met ++ [key]) hsplit (hlength ▸ h.push hx key hkey hmet)

variable (key? xs) in
/-- Keys that are kept when they are new stand in the order of their first places. -/
theorem metInOrder_foldl :
    MetInOrder key? xs xs.length ((xs.filterMap key?).foldl
      (fun kept key => if kept.contains key then kept else kept ++ [key]) []) := by
  refine metInOrder_foldl_of_append xs [] [] (List.nil_append xs) ⟨fun key => ?_, .nil⟩
  simp only [List.not_mem_nil, List.length_nil, Nat.not_lt_zero]

-- The first place depends on what holds of the elements only.
theorem findIdx_congr_of_mem (p q : α → Bool) (xs : List α) (h : ∀ x ∈ xs, p x = q x) :
    xs.findIdx p = xs.findIdx q := by
  induction xs with
  | nil => rfl
  | cons x rest ih =>
      rw [List.findIdx_cons, List.findIdx_cons, h x List.mem_cons_self,
        ih fun y hy => h y (List.mem_cons_of_mem x hy)]

end FirstPlaces

/-- Whether a finding is about a base and the types derived from it. -/
def Finding.isAboutBase (d : Finding) : Bool :=
  d.kind = .unsupportedInheritedDataType || d.kind = .unmarkedDataSubtype

/-- The findings of a report about a base. -/
def Report.aboutBase (r : Report) (base : TypeName) : List Finding :=
  r.filter fun d => d.isAboutBase && d.subject = base

-- Findings about services are not about bases.
theorem Finding.isAboutBase_of_isAboutServices (d : Finding) (h : d.kind.isAboutServices = true) :
    d.isAboutBase = false := by
  unfold isAboutBase
  cases hkind : d.kind with
  | unsupportedInheritedDataType | unmarkedDataSubtype =>
      rw [hkind] at h
      cases h
  | _ => rfl

/-- The base of a type is the one it declares, unless every type of its kind has that base. -/
theorem DeclaredType.declaredBase?_eq_some_iff (t : DeclaredType) (base : TypeName) :
    t.declaredBase? = some base ↔ t.base = some base ∧ base ∉ implicitBases := by
  unfold declaredBase?
  rw [Option.filter_eq_some_iff, Bool.not_eq_true', ← Bool.not_eq_true, List.contains_iff_mem]

namespace Library

variable (a : Library)

/-- A name is that of a type marked as data. -/
def IsMarked (name : TypeName) : Prop := ∃ t ∈ a.types, t.name = name ∧ t.isData = true

instance (name : TypeName) : Decidable (a.IsMarked name) :=
  inferInstanceAs (Decidable (∃ t ∈ a.types, _))

/-- The marked types derived from a base, in the order of the library. -/
def markedSubtypes (base : TypeName) : List TypeName :=
  (a.types.filter fun t => t.base = some base && t.isData).map (·.name)

/-- The types without a mark derived from a base, in the order of the library. -/
def unmarkedSubtypes (base : TypeName) : List TypeName :=
  (a.types.filter fun t => t.base = some base && !t.isData && t.kind ≠ .interface).map (·.name)

/-- The place of the first type that a finding names. -/
def firstNamed (d : Finding) : Nat := a.types.findIdx fun t => d.related.contains t.name

/-- Looking up the mark of a name is the same as finding a marked type of that name. -/
theorem isMarkedData_iff (ha : a.HasDistinctNames) (name : TypeName) :
    a.isMarkedData name = true ↔ a.IsMarked name := by
  unfold isMarkedData IsMarked
  rw [Option.any_eq_true]
  simp only [a.type?_eq_some_iff ha, and_assoc]

/-- The types that do not agree with a base are the marked ones if the base is not marked, and the
    others if it is. -/
theorem subtypes_eq (base : TypeName) (hbase : base ∉ implicitBases) :
    (a.types.filter (a.disagrees base)).map (·.name)
      = if a.isMarkedData base then a.unmarkedSubtypes base else a.markedSubtypes base := by
  have hdeclared : ∀ t : DeclaredType,
      decide (t.declaredBase? = some base) = decide (t.base = some base) := fun t => by
    rw [decide_eq_decide, t.declaredBase?_eq_some_iff, and_iff_left hbase]
  unfold disagrees unmarkedSubtypes markedSubtypes
  cases a.isMarkedData base with
  | true => simp only [hdeclared, if_true, Bool.and_assoc]
  | false => simp only [hdeclared, Bool.false_eq_true, if_false]

/-- A base is told if types do not agree with it. -/
theorem mem_disputedBases_iff_subtypes (base : TypeName) :
    base ∈ a.disputedBases ↔ (a.types.filter (a.disagrees base)).map (·.name) ≠ [] := by
  rw [mem_disputedBases_iff, ne_eq, List.map_eq_nil_iff, List.filter_eq_nil_iff]
  simp only [not_forall, not_not, exists_prop]

theorem subject_inheritanceFinding (base : TypeName) :
    (a.inheritanceFinding base).subject = base := by
  rcases a.of_inheritanceFinding base with ⟨kind, detail, _, heq⟩
  rw [heq]
  rfl

theorem related_inheritanceFinding (base : TypeName) :
    (a.inheritanceFinding base).related
      = (a.types.filter (a.disagrees base)).map (·.name) := by
  rcases a.of_inheritanceFinding base with ⟨kind, detail, _, heq⟩
  rw [heq]
  rfl

theorem isAboutBase_inheritanceFinding (base : TypeName) :
    (a.inheritanceFinding base).isAboutBase = true := by
  rcases a.of_inheritanceFinding base with ⟨kind, detail, hkind, heq⟩
  rw [heq]
  rcases hkind with rfl | rfl <;> rfl

/-- A report starts with the findings about bases, and there are no others. -/
theorem exists_report_eq_inheritanceFindings :
    ∃ rest, a.review.report = a.inheritanceFindings ++ rest
      ∧ ∀ d ∈ rest, d.isAboutBase = false := by
  rcases a.exists_report_eq with ⟨added, hreport, _, hadded⟩
  refine ⟨a.refusedTypes ++ added, by rw [hreport, List.append_assoc], fun d hd => ?_⟩
  rcases List.mem_append.mp hd with hd | hd
  · rcases (a.mem_refusedTypes_iff d).mp hd with ⟨t, _, _, hdef⟩
    rcases a.of_dataTypeOf_eq_error t d hdef with ⟨detail, causes, rfl⟩
    rfl
  · rcases List.mem_flatMap.mp ((hadded d).mp hd) with ⟨t, _, hfound⟩
    exact d.isAboutBase_of_isAboutServices (a.isAboutServices_of_mem_findings t d hfound)

/-- A report has one finding about a base if types do not agree with it, and none otherwise. A base
    is put down once, so its finding cannot come twice. -/
theorem aboutBase_review_eq (base : TypeName) :
    a.review.report.aboutBase base
      = if (a.types.filter (a.disagrees base)).map (·.name) = [] then []
        else [a.inheritanceFinding base] := by
  rcases a.exists_report_eq_inheritanceFindings with ⟨rest, hreport, hrest⟩
  have hnone : (rest.filter fun d => d.isAboutBase && d.subject = base) = [] := by
    refine List.filter_eq_nil_iff.mpr fun d hd => ?_
    rw [hrest d hd, Bool.false_and]
    exact Bool.false_ne_true
  have hsubject : (fun d : Finding => d.isAboutBase && d.subject = base) ∘ a.inheritanceFinding
      = fun name => decide (name = base) := by
    funext name
    rw [Function.comp_apply, isAboutBase_inheritanceFinding, subject_inheritanceFinding,
      Bool.true_and]
  unfold Report.aboutBase
  rw [hreport, List.filter_append, hnone, List.append_nil, inheritanceFindings, List.filter_map,
    hsubject, List.filter_eq, a.nodup_disputedBases.count]
  by_cases hempty : (a.types.filter (a.disagrees base)).map (·.name) = []
  · rw [if_pos hempty, if_neg fun hmem => (a.mem_disputedBases_iff_subtypes base).mp hmem hempty]
    rfl
  · rw [if_neg hempty, if_pos ((a.mem_disputedBases_iff_subtypes base).mpr hempty)]
    rfl

section OneBase

variable (base : TypeName) (hbase : base ∉ implicitBases)

include hbase

/-- A marked base is told if types without a mark are derived from it. -/
theorem aboutBase_of_isMarkedData (hmark : a.isMarkedData base = true) :
    a.review.report.aboutBase base
      = if a.unmarkedSubtypes base = [] then []
        else [.of .unmarkedDataSubtype base "unmarked subtypes of this data type are not exposed"
          (a.unmarkedSubtypes base) []] := by
  have hsubtypes := a.subtypes_eq base hbase
  rw [if_pos hmark] at hsubtypes
  rw [aboutBase_review_eq, inheritanceFinding, hsubtypes, if_pos hmark]

/-- A base without a mark is told if marked types are derived from it. -/
theorem aboutBase_of_not_isMarkedData (hmark : ¬ a.isMarkedData base = true) :
    a.review.report.aboutBase base
      = if a.markedSubtypes base = [] then []
        else [.of .unsupportedInheritedDataType base
          "base type must be marked as platform data because marked subtypes derive from it"
          (a.markedSubtypes base) []] := by
  have hsubtypes := a.subtypes_eq base hbase
  rw [if_neg hmark] at hsubtypes
  rw [aboutBase_review_eq, inheritanceFinding, hsubtypes, if_neg hmark]

end OneBase

/-- Bases are put down in the order of the first types that do not agree with them. -/
theorem pairwise_disputedBases :
    a.disputedBases.Pairwise fun base base' =>
      a.types.findIdx (a.disagrees base) < a.types.findIdx (a.disagrees base') := by
  have hplace : ∀ base, firstPlace (fun t => t.declaredBase?.filter fun base => a.disagrees base t)
      a.types base = a.types.findIdx (a.disagrees base) := fun base => by
    unfold firstPlace
    refine congrArg (fun p => a.types.findIdx p) (funext fun t => ?_)
    rw [Bool.eq_iff_iff, decide_eq_true_eq, Option.filter_eq_some_iff]
    exact and_iff_right_of_imp declaredBase?_of_disagrees
  have hordered := (metInOrder_foldl
    (fun t => t.declaredBase?.filter fun base => a.disagrees base t) a.types).ordered
  simp only [hplace] at hordered
  exact hordered

/-- The first type that a finding names is the first that does not agree with the base. -/
theorem firstNamed_inheritanceFinding (ha : a.HasDistinctNames) (base : TypeName) :
    a.firstNamed (a.inheritanceFinding base) = a.types.findIdx (a.disagrees base) := by
  unfold firstNamed
  rw [related_inheritanceFinding]
  refine findIdx_congr_of_mem _ _ _ fun t ht => ?_
  rw [Bool.eq_iff_iff, List.contains_iff_mem, List.mem_map]
  constructor
  · rintro ⟨u, hu, hname⟩
    rcases List.mem_filter.mp hu with ⟨hmem, hdisagrees⟩
    exact List.inj_on_of_nodup_map ha hmem ht hname ▸ hdisagrees
  · exact fun hdisagrees => ⟨t, List.mem_filter.mpr ⟨ht, hdisagrees⟩, rfl⟩

/-- Findings about bases come in the order of the first types that they name. -/
theorem pairwise_inheritanceFindings (ha : a.HasDistinctNames) :
    a.inheritanceFindings.Pairwise fun d d' => a.firstNamed d < a.firstNamed d' := by
  unfold inheritanceFindings
  rw [List.pairwise_map]
  simp only [a.firstNamed_inheritanceFinding ha]
  exact a.pairwise_disputedBases

/-- Marks that do not agree with those of bases are told exactly. A marked base is told once if
    types without a mark are derived from it, with the names of all of these, and not otherwise; a
    base without a mark is told once if marked types are derived from it, with the names of all of
    these, and not otherwise. These findings come before all others, in the order of the first types
    that they name. -/
theorem inheritance_of_validate (verdict : Verdict) (h : a.validate = .ok verdict) :
    (∀ base, base ∉ implicitBases →
      (a.IsMarked base → verdict.report.aboutBase base
        = if a.unmarkedSubtypes base = [] then []
          else [.of .unmarkedDataSubtype base
            "unmarked subtypes of this data type are not exposed" (a.unmarkedSubtypes base) []])
      ∧ (¬ a.IsMarked base → verdict.report.aboutBase base
        = if a.markedSubtypes base = [] then []
          else [.of .unsupportedInheritedDataType base
            "base type must be marked as platform data because marked subtypes derive from it"
            (a.markedSubtypes base) []]))
    ∧ ∃ first rest, verdict.report = first ++ rest
      ∧ (∀ d ∈ first, d.isAboutBase = true) ∧ (∀ d ∈ rest, d.isAboutBase = false)
      ∧ first.Pairwise fun d d' => a.firstNamed d < a.firstNamed d' := by
  rcases (a.validate_eq_ok_iff verdict).mp h with ⟨hdefect, rfl⟩
  have ha := a.hasDistinctNames_of_defect?_eq_none hdefect
  constructor
  · intro base hbase
    rw [← a.isMarkedData_iff ha]
    exact ⟨a.aboutBase_of_isMarkedData base hbase, a.aboutBase_of_not_isMarkedData base hbase⟩
  · rcases a.exists_report_eq_inheritanceFindings with ⟨rest, hreport, hrest⟩
    refine ⟨a.inheritanceFindings, rest, hreport, List.forall_mem_map.mpr fun base _ => ?_, hrest,
      a.pairwise_inheritanceFindings ha⟩
    exact a.isAboutBase_inheritanceFinding base

/-- A marked and an unmarked base, with types derived from them in turns. -/
def zooLibrary : Library :=
  ⟨"Acme", [
    { (default : DeclaredType) with name := "Acme.Shape", isData := true },
    { (default : DeclaredType) with
      name := "Acme.Dog", base := some "Acme.Animal", isData := true },
    { (default : DeclaredType) with name := "Acme.Circle", base := some "Acme.Shape" },
    { (default : DeclaredType) with
      name := "Acme.Cat", base := some "Acme.Animal", isData := true },
    { (default : DeclaredType) with name := "Acme.Animal", base := some "System.Object" },
    { (default : DeclaredType) with name := "Acme.Square", base := some "Acme.Shape" }]⟩

/-- Each base is told with its own types, though the types of the two stand in turns. -/
theorem inheritance_of_zooLibrary :
    zooLibrary.validate = .ok zooLibrary.review
      ∧ zooLibrary.review.report.aboutBase "Acme.Shape"
        = [.of .unmarkedDataSubtype "Acme.Shape"
          "unmarked subtypes of this data type are not exposed" ["Acme.Circle", "Acme.Square"] []]
      ∧ zooLibrary.review.report.aboutBase "Acme.Animal"
        = [.of .unsupportedInheritedDataType "Acme.Animal"
          "base type must be marked as platform data because marked subtypes derive from it"
          ["Acme.Dog", "Acme.Cat"] []] := by
  have h : zooLibrary.validate = .ok zooLibrary.review :=
    (validate_eq_ok_iff _ _).mpr ⟨by decide +kernel, rfl⟩
  have hbases := (inheritance_of_validate zooLibrary _ h).1
  exact ⟨h, (hbases "Acme.Shape" (by decide +kernel)).1 (by decide +kernel),
    (hbases "Acme.Animal" (by decide +kernel)).2 (by decide +kernel)⟩

end Library

end PlatformBridge
