import Mathlib.Data.List.Perm.Subperm
import PlatformBridge.Proofs.Validation.Bases
import PlatformBridge.Proofs.Validation.Closure
import PlatformBridge.Proofs.Validation.Definitions

/-!
# Inherited Fields

A class has the fields of its bases before its own, and a value of it holds all
of them. Which bases these are can be told from the library alone: `Lineage`
follows bases from type to type and stops before one that is no class or
structure, or that was met already, since nothing keeps a library from declaring
bases in a circle.

The contract does the same walk on its own definitions, in which a base is left
out if it is not marked. So a link could be missing there. It is not, once the
report has no errors: the base of a marked type is marked then, and every marked
type is defined with all of its fields. The walk in the contract takes its steps
from a fuel, which lasts because the types that are met have distinct names and
are all defined.

Both walks are compared link by link, in `forall₂_chain`, by induction on the
lineage and not on the fuel. What a field is on the bridge is part of this
relation, so that names, types and the order of fields are all covered by it.

## Main definitions

* `Library.Lineage`: The types met by following bases from a type.
* `Library.IsComposite`: A type is a marked class or structure of the library.

## Theorems

* `Library.exists_lineage`, `Library.Lineage.unique`: There is one lineage of a
  type.
* `Library.Lineage.nodup`: No type is met twice.
* `Library.isMarkedData_of_clean`, `Library.isData_of_clean`: Without errors,
  the bases of marked types are marked.
* `Library.exists_composite?_of_clean`: Without errors, marked classes are
  defined with their bases.
* `Library.Lineage.forall₂_chain`: The contract meets the types of the lineage.
* `Library.Lineage.forall₂_fields`: All fields of a type are those of its
  lineage.
* `Library.fields_of_validate`: Without errors, no inherited field is lost.
-/

namespace PlatformBridge

namespace Library

variable (a : Library)

/-- The types met by following bases from a type, when some names were met before. -/
inductive Lineage : List TypeName → DeclaredType → List DeclaredType → Prop where
  | last (met : List TypeName) (t : DeclaredType)
      (hlast : ∀ u ∈ a.types, t.declaredBase? = some u.name →
        u.kind = .classType ∨ u.kind = .struct → u.name ∈ t.name :: met) :
      Lineage met t [t]
  | derived (met : List TypeName) (t u : DeclaredType) (chain : List DeclaredType)
      (hu : u ∈ a.types) (hbase : t.declaredBase? = some u.name)
      (hkind : u.kind = .classType ∨ u.kind = .struct) (hnew : u.name ∉ t.name :: met)
      (hrest : Lineage (t.name :: met) u chain) : Lineage met t (t :: chain)

/-- Every step meets a type that was not met before, so the walk ends. The induction is on how many
    of these are left. -/
theorem exists_lineage_of_length (remaining : Nat) :
    ∀ (met : List TypeName) (t : DeclaredType), t ∈ a.types → t.name ∉ met →
      (a.types.filter fun u => u.name ∉ met).length = remaining →
      ∃ chain, a.Lineage met t chain := by
  induction remaining using Nat.strongRecOn with
  | ind remaining ih =>
      intro met t ht hmet hlength
      by_cases hbase : ∃ u ∈ a.types, t.declaredBase? = some u.name
          ∧ (u.kind = .classType ∨ u.kind = .struct) ∧ u.name ∉ t.name :: met
      · rcases hbase with ⟨u, hu, hbase, hkind, hnew⟩
        have hfewer := length_filter_not_mem_cons_lt (·.name) a.types met t ht hmet
        rw [hlength] at hfewer
        rcases ih _ hfewer (t.name :: met) u hu hnew rfl with ⟨chain, hchain⟩
        exact ⟨t :: chain, .derived met t u chain hu hbase hkind hnew hchain⟩
      · refine ⟨[t], .last met t fun u hu hdeclared hkind => ?_⟩
        by_contra hnew
        exact hbase ⟨u, hu, hdeclared, hkind, hnew⟩

/-- Every type has a lineage. -/
theorem exists_lineage (t : DeclaredType) (ht : t ∈ a.types) : ∃ types, a.Lineage [] t types :=
  a.exists_lineage_of_length _ [] t ht List.not_mem_nil rfl

namespace Lineage

variable {a} {met : List TypeName} {t : DeclaredType} {chain : List DeclaredType}

/-- A type has no other lineage. -/
theorem unique (h : a.Lineage met t chain) (ha : a.HasDistinctNames) :
    ∀ chain', a.Lineage met t chain' → chain' = chain := by
  induction h with
  | last met t hlast =>
      intro chain' h'
      cases h' with
      | last _ _ _ => rfl
      | derived _ _ u _ hu hbase hkind hnew _ => exact absurd (hlast u hu hbase hkind) hnew
  | derived met t u chain hu hbase hkind hnew _ ih =>
      intro chain' h'
      cases h' with
      | last _ _ hlast => exact absurd (hlast u hu hbase hkind) hnew
      | derived _ _ u' chain' hu' hbase' _ _ hrest' =>
          have hsame : u' = u := by
            rw [hbase, Option.some.injEq] at hbase'
            exact List.inj_on_of_nodup_map ha hu' hu hbase'.symm
          subst hsame
          rw [ih chain' hrest']

/-- No type is met twice, nor one that was met before. -/
theorem nodup (h : a.Lineage met t chain) (ht : t.name ∉ met) :
    (chain.map (·.name)).Nodup ∧ ∀ u ∈ chain, u.name ∉ met := by
  induction h with
  | last met t _ =>
      refine ⟨List.nodup_singleton _, fun u hu => ?_⟩
      rw [List.mem_singleton.mp hu]
      exact ht
  | derived met t u chain _ _ _ hnew _ ih =>
      rcases ih hnew with ⟨hnodup, hmet⟩
      refine ⟨?_, List.forall_mem_cons.mpr ⟨ht, fun v hv hmem =>
        hmet v hv (List.mem_cons_of_mem t.name hmem)⟩⟩
      rw [List.map_cons, List.nodup_cons]
      refine ⟨fun hmem => ?_, hnodup⟩
      rcases List.mem_map.mp hmem with ⟨v, hv, hname⟩
      exact hmet v hv (hname ▸ List.mem_cons_self)

end Lineage

/-- A type is a class or a structure of the library and marked. -/
structure IsComposite (t : DeclaredType) : Prop where
  mem : t ∈ a.types
  mark : t.isData = true
  kind : t.kind = .classType ∨ t.kind = .struct

section Clean

variable (ha : a.HasDistinctNames) (hclean : a.review.report.hasErrors = false)

include hclean in
/-- Without errors, the base of a marked type is marked. -/
theorem isMarkedData_of_clean (t : DeclaredType) (ht : t ∈ a.types) (hmark : t.isData = true)
    (base : TypeName) (hbase : t.declaredBase? = some base) : a.isMarkedData base = true := by
  by_contra hnone
  rcases (t.declaredBase?_eq_some_iff base).mp hbase with ⟨hdeclared, hroot⟩
  have hsubtypes : a.markedSubtypes base ≠ [] := by
    refine List.ne_nil_of_mem (a := t.name) (List.mem_map_of_mem (List.mem_filter.mpr ⟨ht, ?_⟩))
    rw [hmark, hdeclared, decide_eq_true rfl, Bool.true_and]
  -- A base without a mark would be told as an error.
  have htold := a.aboutBase_of_not_isMarkedData base hroot hnone
  rw [if_neg hsubtypes] at htold
  have hmem := List.mem_of_mem_filter (htold ▸ List.mem_singleton_self _)
  have hnoerror := (Report.hasErrors_eq_false_iff _).mp hclean _ hmem
  cases hnoerror

include ha hclean

/-- Without errors, a marked class or structure is defined with its fields and its base. -/
theorem exists_composite?_of_clean (t : DeclaredType) (ht : a.IsComposite t) :
    ∃ fields, List.Forall₂ a.IsField t.fields fields
      ∧ a.review.contract.composite? t.name = some (fields, t.declaredBase?) := by
  rcases a.exists_dataTypeOf_of_clean hclean t ht.mem ht.mark with ⟨d, hdef⟩
  have hbase : t.declaredBase?.filter a.isMarkedData = t.declaredBase? := by
    cases hdeclared : t.declaredBase? with
    | none => rfl
    | some base =>
      have hmark := a.isMarkedData_of_clean hclean t ht.mem ht.mark base hdeclared
      rw [Option.filter_some, if_pos hmark]
  have hfound := (a.dataType?_review_eq_some_iff ha t.name d).mpr
    ⟨t, (a.type?_eq_some_iff ha _ t).mpr ⟨ht.mem, rfl⟩, ht.mark, hdef⟩
  cases a.defines_of_dataTypeOf_eq_ok t d hdef with
  | enumeration hkind _ =>
      rcases ht.kind with hkind' | hkind' <;> (rw [hkind] at hkind'; cases hkind')
  | composite _ fields hfields =>
      rw [hbase] at hfound
      exact ⟨fields, hfields, (Contract.composite?_eq_some_iff _ t.name _ _).mpr hfound⟩

omit hclean in
/-- A name that is defined as a composite is that of a marked class or structure. -/
theorem exists_isComposite (name : TypeName) (fields : List Field) (base : Option TypeName)
    (h : a.review.contract.composite? name = some (fields, base)) :
    ∃ t, a.IsComposite t ∧ t.name = name := by
  rw [Contract.composite?_eq_some_iff, a.dataType?_review_eq_some_iff ha] at h
  rcases h with ⟨t, ht, hmark, hdef⟩
  rcases a.mem_of_type?_eq_some name t ht with ⟨hmem, hname⟩
  rcases a.of_dataTypeOf_eq_ok t _ hdef with ⟨_, _, hshape⟩ | ⟨hkind, _⟩
  · cases hshape
  · exact ⟨t, ⟨hmem, hmark, hkind⟩, hname⟩

/-- Without errors, a type that a marked one is derived from is marked. -/
theorem isData_of_clean (t : DeclaredType) (ht : a.IsComposite t) (u : DeclaredType)
    (hu : u ∈ a.types) (hbase : t.declaredBase? = some u.name) : u.isData = true := by
  have hmark := a.isMarkedData_of_clean hclean t ht.mem ht.mark u.name hbase
  rcases (a.isMarkedData_iff ha u.name).mp hmark with ⟨v, hv, hname, hdata⟩
  exact List.inj_on_of_nodup_map ha hv hu hname ▸ hdata

/-- Without errors, the types of a lineage are marked. -/
theorem Lineage.isComposite {met : List TypeName} {t : DeclaredType} {chain : List DeclaredType}
    (h : a.Lineage met t chain) (ht : a.IsComposite t) : ∀ u ∈ chain, a.IsComposite u := by
  induction h with
  | last met t _ => exact List.forall_mem_singleton.mpr ht
  | derived met t u chain hu hbase hkind _ _ ih =>
      have hmark := a.isData_of_clean ha hclean t ht u hu hbase
      exact List.forall_mem_cons.mpr ⟨ht, ih ⟨hu, hmark, hkind⟩⟩

/-- Without errors, the contract meets the types of the lineage, each with its own fields, if the
    fuel lasts for all of them. -/
theorem Lineage.forall₂_chain {met : List TypeName} {t : DeclaredType}
    {types : List DeclaredType} (h : a.Lineage met t types) (ht : a.IsComposite t)
    (hmet : t.name ∉ met) :
    ∀ fuel, types.length ≤ fuel →
      List.Forall₂ (fun u link => List.Forall₂ a.IsField u.fields link.2) types
        (a.review.contract.chain fuel met t.name) := by
  induction h with
  | last met t hlast =>
      intro fuel hfuel
      rcases a.exists_composite?_of_clean ha hclean t ht with ⟨fields, hfields, hfound⟩
      cases fuel with
      | zero => exact absurd hfuel (Nat.not_succ_le_zero _)
      | succ fuel =>
          -- The walk in the contract ends here, too: a base that is defined as a composite is a
          -- class or structure, and that was met.
          have hend : t.declaredBase?.toList.flatMap
              (a.review.contract.chain fuel (t.name :: met)) = [] := by
            refine List.flatMap_eq_nil_iff.mpr fun base hbase => Contract.chain_eq_nil _ _ _ _ ?_
            rw [Option.mem_toList] at hbase
            rcases hparts : a.review.contract.composite? base with _ | ⟨fields', base'⟩
            · exact Or.inr rfl
            · rcases a.exists_isComposite ha base fields' base' hparts with ⟨u, hu, rfl⟩
              exact Or.inl (hlast u hu.mem hbase hu.kind)
          rw [Contract.chain_succ _ fuel met t.name hmet fields _ hfound, hend]
          exact .cons hfields .nil
  | derived met t u types hu hbase hkind hnew hrest ih =>
      intro fuel hfuel
      rcases a.exists_composite?_of_clean ha hclean t ht with ⟨fields, hfields, hfound⟩
      cases fuel with
      | zero => exact absurd hfuel (Nat.not_succ_le_zero _)
      | succ fuel =>
          have hmark := a.isData_of_clean ha hclean t ht u hu hbase
          rw [Contract.chain_succ _ fuel met t.name hmet fields _ hfound, hbase,
            Option.toList_some, List.flatMap_singleton]
          exact .cons hfields (ih ⟨hu, hmark, hkind⟩ hnew fuel (Nat.le_of_succ_le_succ hfuel))

/-- Without errors, all fields of a marked class or structure are those of its lineage. -/
theorem Lineage.forall₂_fields {t : DeclaredType} {types : List DeclaredType}
    (h : a.Lineage [] t types) (ht : a.IsComposite t) :
    List.Forall₂ a.IsField (types.reverse.flatMap (·.fields))
      (a.review.contract.fieldsWithInherited t.name) := by
  -- The types of a lineage have distinct names, each of which is defined, so the fuel lasts.
  have hlength : types.length ≤ a.review.contract.dataTypes.length := by
    have hdefined : types.map (·.name) ⊆ a.review.contract.dataTypes.map (·.name) := by
      intro name hname
      rcases List.mem_map.mp hname with ⟨u, hu, rfl⟩
      rcases a.exists_composite?_of_clean ha hclean u (h.isComposite a ha hclean ht u hu) with
        ⟨fields, _, hfound⟩
      exact List.mem_map.mpr ⟨_, Contract.mem_of_composite?_eq_some _ _ _ _ hfound, rfl⟩
    have hle := (List.subperm_of_subset (h.nodup List.not_mem_nil).1 hdefined).length_le
    rwa [List.length_map, List.length_map] at hle
  have hlinks := h.forall₂_chain a ha hclean ht List.not_mem_nil _ (Nat.le_succ_of_le hlength)
  exact List.rel_flatMap (List.forall₂_reverse_iff.mpr hlinks) fun _ _ hfields => hfields

end Clean

/-- Without errors, no inherited field is lost. Every marked class or structure has one lineage, and
    all of its fields in the contract are those that the types of the lineage declare, from the last
    of them down to the type itself, in the order of their declarations. -/
theorem fields_of_validate (verdict : Verdict) (h : a.validate = .ok verdict)
    (hclean : verdict.report.hasErrors = false) (t : DeclaredType) (ht : t ∈ a.types)
    (hmark : t.isData = true) (hkind : t.kind = .classType ∨ t.kind = .struct) :
    (∃! types, a.Lineage [] t types)
      ∧ ∀ types, a.Lineage [] t types →
        List.Forall₂ a.IsField (types.reverse.flatMap (·.fields))
          (verdict.contract.fieldsWithInherited t.name) := by
  rcases (a.validate_eq_ok_iff verdict).mp h with ⟨hdefect, rfl⟩
  have ha := a.hasDistinctNames_of_defect?_eq_none hdefect
  rcases a.exists_lineage t ht with ⟨types, htypes⟩
  exact ⟨⟨types, htypes, htypes.unique ha⟩,
    fun types htypes => htypes.forall₂_fields a ha hclean ⟨ht, hmark, hkind⟩⟩

/-- A class derived from one of two classes that are each derived from the other. -/
def chickType : DeclaredType :=
  { (default : DeclaredType) with
    name := "Acme.Chick", base := some "Acme.Hen", isData := true
    fields := [⟨"Age", .named "System.Int32"⟩, ⟨"Name", .named "System.String"⟩] }

/-- The first class that is met from the class. -/
def henType : DeclaredType :=
  { (default : DeclaredType) with
    name := "Acme.Hen", base := some "Acme.Egg", isData := true
    fields := [⟨"Eggs", .array (.named "Acme.Egg")⟩] }

/-- The last class that is met, since its base was met already. -/
def eggType : DeclaredType :=
  { (default : DeclaredType) with
    name := "Acme.Egg", base := some "Acme.Hen", isData := true
    fields := [⟨"Weight", .named "System.Double"⟩, ⟨"Fresh", .named "System.Boolean"⟩] }

/-- The library of the three classes. -/
def henhouseLibrary : Library := ⟨"Acme", [chickType, henType, eggType]⟩

/-- The classes derived from each other are met once each, and the last of them gives the first
    fields. -/
theorem fields_of_henhouseLibrary :
    henhouseLibrary.validate = .ok henhouseLibrary.review
      ∧ henhouseLibrary.review.report.hasErrors = false
      ∧ (∃! types, henhouseLibrary.Lineage [] chickType types)
      ∧ henhouseLibrary.Lineage [] chickType [chickType, henType, eggType]
      ∧ List.Forall₂ henhouseLibrary.IsField
        (eggType.fields ++ henType.fields ++ chickType.fields)
        (henhouseLibrary.review.contract.fieldsWithInherited "Acme.Chick")
      ∧ (henhouseLibrary.review.contract.fieldsWithInherited "Acme.Chick").map (·.name)
        = ["Weight", "Fresh", "Eggs", "Age", "Name"] := by
  have h : henhouseLibrary.validate = .ok henhouseLibrary.review :=
    (validate_eq_ok_iff _ _).mpr ⟨by decide +kernel, rfl⟩
  have hclean : henhouseLibrary.review.report.hasErrors = false := by decide +kernel
  have hlineage : henhouseLibrary.Lineage [] chickType [chickType, henType, eggType] := by
    refine .derived [] chickType henType _ (.tail _ (.head _)) rfl (Or.inl rfl) (by decide) ?_
    refine .derived _ henType eggType _ (.tail _ (.tail _ (.head _))) rfl (Or.inl rfl)
      (by decide) ?_
    exact .last _ eggType (by decide)
  rcases fields_of_validate henhouseLibrary _ h hclean chickType List.mem_cons_self rfl
    (Or.inl rfl) with ⟨hunique, hfields⟩
  exact ⟨h, hclean, hunique, hlineage, hfields _ hlineage, by decide +kernel⟩

end Library

end PlatformBridge
