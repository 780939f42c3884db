import Mathlib.Data.List.Nodup
import PlatformBridge.Proofs.Contract.Lookup
import PlatformBridge.Proofs.Results
import PlatformBridge.Validation.Verdict

/-!
# What a Verdict Holds

A verdict is put together from lists: one result for every marked type, one
service with findings for every type that offers one, and a report into which
equal findings go once. Everything that is proved about validation starts from
what is in these lists, so it is said here once, by membership, and nothing
after this unfolds how a verdict is made.

Lists that take over what is new occur in several places: in a report, among the
events of a service, among the bases that are put down. They are two folds with
different ideas of what is new, by a key and by equality, and each gets one
lemma that says all there is to say: what is added, that it is added once, and
that the order is kept.

A library that is validated has distinct type names. Lookups of types by name
are then the same as membership, which the rest of validation relies on without
saying so.

## Main definitions

* `Library.HasDistinctNames`: No two types have one name.

## Theorems

* `exists_foldl_first_eq`, `exists_foldl_new_eq`: Lists that take over what is
  new.
* `Report.exists_addAllUnique_eq`, `Report.mem_addAllUnique`: A report gets each
  new finding once, and loses none.
* `Report.hasErrors_eq_false_iff`: A report without errors.
* `Library.defectAfter?_eq_none_iff`, `Library.defect?_eq_none_iff`: When a
  library is without defect.
* `Library.validate_eq_ok_iff`: A verdict is the review of a library without
  defect.
* `Library.type?_eq_some_iff`: Types by name, if names are distinct.
* `Library.mem_dataTypes_iff`, `Library.mem_services_iff`,
  `Library.mem_report_iff`: What is in a verdict.
-/

namespace PlatformBridge

open Results

/-- A list that takes over what has a new key takes over the first element of each key, unless the
    key was there before. -/
theorem exists_foldl_first_eq {α κ : Type} (key : α → κ) [DecidableEq κ]
    (met : List α → α → Bool)
    (hmet : ∀ kept x, met kept x = true ↔ ∃ k ∈ kept, key k = key x) (xs : List α) :
    ∀ kept : List α, ∃ added,
      xs.foldl (fun kept x => if met kept x then kept else kept ++ [x]) kept = kept ++ added
        ∧ added.Sublist xs ∧ (added.map key).Nodup
        ∧ ∀ x, x ∈ added
          ↔ (∀ k ∈ kept, key k ≠ key x) ∧ xs.find? (fun y => key y = key x) = some x := by
  induction xs with
  | nil =>
      intro kept
      refine ⟨[], (List.append_nil kept).symm, .slnil, List.nodup_nil, fun x => ?_⟩
      simp only [List.not_mem_nil, List.find?_nil, reduceCtorEq, and_false]
  | cons y rest ih =>
      intro kept
      rw [List.foldl_cons]
      -- An element whose key was met is dropped, and any other is behind what was kept from here
      -- on.
      by_cases hy : met kept y = true
      · rw [if_pos hy]
        rcases (hmet kept y).mp hy with ⟨k, hk, hkey⟩
        rcases ih kept with ⟨added, heq, hsub, hnodup, hadded⟩
        refine ⟨added, heq, hsub.cons y, hnodup, fun x => ?_⟩
        rw [hadded, List.find?_cons]
        refine and_congr_right fun hnew => ?_
        have hne : ¬ key y = key x := fun h => hnew k hk (hkey.trans h)
        rw [decide_eq_false hne]
      · rw [if_neg hy]
        have hnew : ∀ k ∈ kept, key k ≠ key y := fun k hk h => hy ((hmet kept y).mpr ⟨k, hk, h⟩)
        rcases ih (kept ++ [y]) with ⟨added, heq, hsub, hnodup, hadded⟩
        simp only [List.forall_mem_append, List.forall_mem_singleton] at hadded
        refine ⟨y :: added, by rw [heq, List.append_assoc, List.singleton_append],
          hsub.cons_cons y, ?_, fun x => ?_⟩
        · rw [List.map_cons, List.nodup_cons]
          refine ⟨fun hmem => ?_, hnodup⟩
          rcases List.mem_map.mp hmem with ⟨x, hx, hkey⟩
          exact ((hadded x).mp hx).1.2 hkey.symm
        · rw [List.mem_cons, hadded, List.find?_cons]
          by_cases hkey : key y = key x
          · -- No later element of this key is taken over.
            simp only [hkey, ne_eq, not_true_eq_false, and_false, false_and, or_false, decide_true,
              Option.some.injEq]
            exact ⟨fun h => ⟨fun k hk => hkey ▸ hnew k hk, h.symm⟩, fun h => h.2.symm⟩
          · have hne : ¬ x = y := fun h => hkey (h ▸ rfl)
            simp only [hkey, hne, ne_eq, not_false_eq_true, and_true, false_or, decide_false]

/-- A list that takes over what is new takes over each new element once. -/
theorem exists_foldl_new_eq {α : Type} [DecidableEq α] (xs kept : List α) :
    ∃ added, xs.foldl (fun kept x => if kept.contains x then kept else kept ++ [x]) kept
        = kept ++ added
      ∧ added.Sublist xs ∧ added.Nodup ∧ ∀ x, x ∈ added ↔ x ∈ xs ∧ x ∉ kept := by
  have hmet : ∀ (kept : List α) x, kept.contains x = true ↔ ∃ k ∈ kept, id k = id x := by
    intro kept x
    simp only [List.contains_iff_mem, id_eq, exists_eq_right]
  rcases exists_foldl_first_eq id (fun kept x => kept.contains x) hmet xs kept with
    ⟨added, heq, hsub, hnodup, hadded⟩
  refine ⟨added, heq, hsub, List.map_id added ▸ hnodup, fun x => ?_⟩
  have hfirst : xs.find? (fun y => y = x) = some x ↔ x ∈ xs := by
    refine ⟨List.mem_of_find?_eq_some, fun hx => ?_⟩
    cases hfind : xs.find? (fun y => y = x) with
    | none => exact absurd (decide_eq_true rfl) (List.find?_eq_none.mp hfind x hx)
    | some y =>
        have hy := List.find?_some hfind
        simp only [decide_eq_true_eq] at hy
        rw [hy]
  simp only [hadded, id_eq, hfirst]
  refine and_comm.trans (and_congr_right' ⟨fun h hx => h x hx rfl, ?_⟩)
  rintro h k hk rfl
  exact h hk

namespace Report

/-- A report gets each new finding once. -/
theorem exists_addAllUnique_eq (r : Report) (found : List Finding) :
    ∃ added, r.addAllUnique found = r ++ added ∧ added.Sublist found ∧ added.Nodup
      ∧ ∀ x, x ∈ added ↔ x ∈ found ∧ x ∉ r :=
  exists_foldl_new_eq found r

/-- A report loses no finding and makes none up. -/
theorem mem_addAllUnique (r : Report) (found : List Finding) (x : Finding) :
    x ∈ r.addAllUnique found ↔ x ∈ r ∨ x ∈ found := by
  rcases r.exists_addAllUnique_eq found with ⟨added, heq, _, _, hadded⟩
  rw [heq, List.mem_append, hadded]
  tauto

/-- A report has errors if one of its findings is one. -/
theorem hasErrors_eq_false_iff (r : Report) :
    r.hasErrors = false ↔ ∀ d ∈ r, d.isError = false := by
  simp only [hasErrors, List.any_eq_false, Bool.not_eq_true]

end Report

namespace Library

/-- No two types have one name. -/
def HasDistinctNames (a : Library) : Prop := (a.types.map (·.name)).Nodup

/-- A type is checked for itself and against the names before it. -/
theorem defectAfter?_cons_eq_none_iff (seen : List TypeName) (t : DeclaredType)
    (rest : List DeclaredType) :
    defectAfter? seen (t :: rest) = none
      ↔ (t.name ∉ seen ∧ Text.isBlank t.name = false ∧ t.hasBlankMember = false)
        ∧ defectAfter? (t.name :: seen) rest = none := by
  rw [defectAfter?, ← List.contains_iff_mem]
  cases Text.isBlank t.name with
  | true => simp only [if_true, reduceCtorEq, false_and, and_false]
  | false =>
      cases seen.contains t.name with
      | true =>
          simp only [Bool.false_eq_true, if_true, if_false, reduceCtorEq, not_true_eq_false,
            false_and]
      | false =>
          cases t.hasBlankMember with
          | true =>
              simp only [Bool.false_eq_true, if_true, if_false, reduceCtorEq, and_false, false_and]
          | false =>
              simp only [Bool.false_eq_true, if_false, not_false_eq_true, and_self, true_and]

/-- Types are without defect if their names are new and distinct, and no name is blank. -/
theorem defectAfter?_eq_none_iff (types : List DeclaredType) :
    ∀ seen, defectAfter? seen types = none
      ↔ (types.map (·.name)).Nodup
        ∧ ∀ t ∈ types, t.name ∉ seen ∧ Text.isBlank t.name = false ∧ t.hasBlankMember = false := by
  induction types with
  | nil =>
      intro seen
      simp only [defectAfter?, List.map_nil, List.nodup_nil, List.not_mem_nil, false_implies,
        implies_true, and_self]
  | cons t rest ih =>
      intro seen
      -- The types that follow are compared with this name, too.
      have hfirst : t.name ∉ rest.map (·.name) ↔ ∀ u ∈ rest, u.name ≠ t.name := by
        simp only [List.mem_map, not_exists, not_and, ne_eq]
      rw [defectAfter?_cons_eq_none_iff, ih, List.map_cons, List.nodup_cons, List.forall_mem_cons,
        hfirst]
      simp only [List.mem_cons, not_or, forall_and, ne_eq]
      tauto

/-- A library is without defect if its names are distinct and no name in it is blank. -/
theorem defect?_eq_none_iff (a : Library) :
    a.defect? = none
      ↔ a.HasDistinctNames
        ∧ ∀ t ∈ a.types, Text.isBlank t.name = false ∧ t.hasBlankMember = false := by
  unfold defect?
  rw [defectAfter?_eq_none_iff]
  simp only [List.not_mem_nil, not_false_eq_true, true_and]
  rfl

/-- A verdict is the review of a library without defect. -/
theorem validate_eq_ok_iff (a : Library) (verdict : Verdict) :
    a.validate = .ok verdict ↔ a.defect? = none ∧ a.review = verdict := by
  unfold validate
  cases a.defect? with
  | none => simp only [Except.ok.injEq, true_and]
  | some defect => simp only [reduceCtorEq, false_and]

/-- The names of a library without defect are distinct. -/
theorem hasDistinctNames_of_defect?_eq_none (a : Library) (h : a.defect? = none) :
    a.HasDistinctNames :=
  (a.defect?_eq_none_iff.mp h).1

theorem mem_of_type?_eq_some (a : Library) (name : TypeName) (t : DeclaredType)
    (h : a.type? name = some t) : t ∈ a.types ∧ t.name = name := by
  refine ⟨List.mem_reverse.mp (List.mem_of_find?_eq_some h), ?_⟩
  have hname := List.find?_some h
  simp only [decide_eq_true_eq] at hname
  exact hname

/-- If names are distinct, looking up a type is the same as finding it in the library. -/
theorem type?_eq_some_iff (a : Library) (ha : a.HasDistinctNames) (name : TypeName)
    (t : DeclaredType) : a.type? name = some t ↔ t ∈ a.types ∧ t.name = name := by
  constructor
  · exact a.mem_of_type?_eq_some name t
  · rintro ⟨ht, rfl⟩
    -- The lookup starts at the last type, which does not matter to distinct names.
    have hrev : (a.types.reverse.map (·.name)).Nodup := by
      rw [List.map_reverse]
      exact List.nodup_reverse.mpr ha
    exact find?_key_of_nodup (·.name) a.types.reverse hrev t (List.mem_reverse.mpr ht)

section Review

variable (a : Library)

/-- The data types of a verdict are what the marked types define. -/
theorem mem_dataTypes_iff (d : DataType) :
    d ∈ a.review.contract.dataTypes
      ↔ ∃ t ∈ a.types, t.isData = true ∧ a.dataTypeOf t = .ok d := by
  simp only [review, mem_filterMap_toOption, List.mem_map, List.mem_filter, and_assoc]

/-- The services of a verdict are those of the types that offer one. -/
theorem mem_services_iff (s : Service) :
    s ∈ a.review.contract.services
      ↔ ∃ t ∈ a.types, a.offersService t = true ∧ (a.serviceOf t).1 = s := by
  simp only [review, List.map_map, List.mem_map, List.mem_filter, Function.comp_apply, and_assoc]

/-- The findings of a verdict are about bases, about marked types, or about services. -/
theorem mem_report_iff (d : Finding) :
    d ∈ a.review.report
      ↔ d ∈ a.inheritanceFindings
        ∨ (∃ t ∈ a.types, t.isData = true ∧ a.dataTypeOf t = .error d)
        ∨ ∃ t ∈ a.types, a.offersService t = true ∧ d ∈ (a.serviceOf t).2 := by
  unfold review
  rw [Report.mem_addAllUnique, List.mem_append, or_assoc,
    mem_filterMap_error _ _ (fun _ => rfl) (fun _ => rfl), List.flatMap_map]
  simp only [List.mem_flatMap, List.mem_map, List.mem_filter, and_assoc]

end Review

end Library

end PlatformBridge
