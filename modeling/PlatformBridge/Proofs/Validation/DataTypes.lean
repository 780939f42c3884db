import PlatformBridge.Proofs.Validation.Types

/-!
# Definitions of Marked Types

What a marked type defines. An enumeration is taken over if it has members, a
class or a structure if all of its fields can cross; there is nothing in
between, since a field that cannot cross always names something that is in the
way, and one obstacle is enough to refuse the whole type. A refusal is an error,
so in a verdict without errors every marked type has its definition, and a name
is looked up in the contract with the same success as in the library.

A class is made in three passes over its fields: one finds out what they are on
the bridge, one collects what is in the way, one keeps the fields that can
cross. That the last keeps all of them is not visible in the definition. It
holds since the first two agree, which is what the lemmas about `fieldObstacles`
and `fieldOf?` are for.

## Main definitions

* `Library.fieldObstacles`: What is in the way of a field.
* `Library.fieldOf?`: The field, if it can cross.

## Theorems

* `Library.dataTypeOf_enum_eq_ok_iff`,
  `Library.dataTypeOf_composite_eq_ok_iff`: Definitions by kind.
* `Library.of_dataTypeOf_eq_ok`: What a definition is made of.
* `Library.admits_of_mem_types_dataType`: Its types are allowed by the marks.
* `Library.of_dataTypeOf_eq_error`: A refusal is an error about the type.
* `Library.nodup_dataTypes`: Definitions have distinct names.
* `Library.dataType?_review_eq_some_iff`: Lookups in the contract of a verdict.
-/

namespace PlatformBridge

namespace Library

open Results

variable (a : Library)

/-- An enumeration is taken over if it has members. -/
theorem dataTypeOf_enum_eq_ok_iff (t : DeclaredType) (hkind : t.kind = .enum) (d : DataType) :
    a.dataTypeOf t = .ok d ↔ t.members ≠ [] ∧ d = ⟨t.name, .enumeration t.members⟩ := by
  simp only [dataTypeOf, hkind]
  by_cases hmembers : t.members = []
  · simp only [hmembers, List.isEmpty_nil, if_true, reduceCtorEq, ne_eq, not_true, false_and]
  · have hempty : t.members.isEmpty = false := List.isEmpty_eq_false_iff.mpr hmembers
    simp only [hempty, Bool.false_eq_true, if_false, Except.ok.injEq, ne_eq, hmembers,
      not_false_eq_true, true_and]
    exact eq_comm

/-- What is in the way of a field. -/
def fieldObstacles : String × Resolved → List Obstacle
  | (_, .error causes) => causes
  | (_, .ok _) => []

/-- The field, if it can cross. -/
def fieldOf? : String × Resolved → Option Field
  | (name, result) => result.toOption.map fun type => ⟨name, type⟩

/-- A class or structure by what its fields are on the bridge. The three passes are taken apart
    here, so that nothing after this unfolds the definition again. -/
theorem dataTypeOf_composite_eq (t : DeclaredType) (hkind : t.kind = .classType ∨ t.kind = .struct)
    (resolved : List (String × Resolved))
    (hresolved : resolved = t.fields.map fun f => (f.name, a.bridgeType f.type)) :
    a.dataTypeOf t
      = if (resolved.flatMap fieldObstacles).isEmpty then
          .ok ⟨t.name, .composite (resolved.filterMap fieldOf?)
            (t.declaredBase?.filter a.isMarkedData)⟩
        else .error (.of .unsupportedDataType t.name
          "data type has fields that cannot cross the boundary" []
          (resolved.flatMap fieldObstacles)) := by
  subst hresolved
  rcases hkind with hkind | hkind
  · simp only [dataTypeOf, hkind]
    rfl
  · simp only [dataTypeOf, hkind]
    rfl

/-- If all fields can cross, there are no obstacles. -/
theorem flatMap_fieldObstacles_of_ok (U : DeclaredField → BridgeType)
    (fields : List DeclaredField) (hU : ∀ f ∈ fields, a.bridgeType f.type = .ok (U f)) :
    (fields.map fun f => (f.name, a.bridgeType f.type)).flatMap fieldObstacles = [] := by
  rw [List.flatMap_map, List.flatMap_eq_nil_iff]
  intro f hf
  rw [hU f hf, fieldObstacles]

/-- If all fields can cross, none is left out. -/
theorem filterMap_fieldOf?_of_ok (U : DeclaredField → BridgeType)
    (fields : List DeclaredField) (hU : ∀ f ∈ fields, a.bridgeType f.type = .ok (U f)) :
    (fields.map fun f => (f.name, a.bridgeType f.type)).filterMap fieldOf?
      = fields.map fun f => ⟨f.name, U f⟩ := by
  rw [List.filterMap_map, ← List.filterMap_eq_map]
  refine List.filterMap_congr fun f hf => ?_
  simp only [Function.comp_apply, hU f hf, fieldOf?, Except.toOption, Option.map_some]

/-- A field that cannot cross names an obstacle. -/
theorem exists_of_flatMap_fieldObstacles_eq_nil (fields : List DeclaredField)
    (h : (fields.map fun f => (f.name, a.bridgeType f.type)).flatMap fieldObstacles = []) :
    ∀ f ∈ fields, ∃ u, a.bridgeType f.type = .ok u := by
  intro f hf
  have hf' := List.flatMap_eq_nil_iff.mp h _ (List.mem_map_of_mem hf)
  cases hresult : a.bridgeType f.type with
  | ok u => exact ⟨u, rfl⟩
  | error causes =>
      rw [hresult] at hf'
      exact absurd hf' (a.ne_nil_of_bridgeType_eq_error f.type causes hresult)

/-- A class or structure is taken over with all of its fields, if each of them can cross. -/
theorem dataTypeOf_composite_eq_ok_iff (t : DeclaredType)
    (hkind : t.kind = .classType ∨ t.kind = .struct) (d : DataType) :
    a.dataTypeOf t = .ok d
      ↔ ∃ U : DeclaredField → BridgeType, (∀ f ∈ t.fields, a.bridgeType f.type = .ok (U f))
        ∧ d = ⟨t.name, .composite (t.fields.map fun f => ⟨f.name, U f⟩)
          (t.declaredBase?.filter a.isMarkedData)⟩ := by
  rw [a.dataTypeOf_composite_eq t hkind _ rfl]
  constructor
  · intro h
    by_cases hnone : (t.fields.map fun f => (f.name, a.bridgeType f.type)).flatMap fieldObstacles
        = []
    · have hok := a.exists_of_flatMap_fieldObstacles_eq_nil t.fields hnone
      choose! U hU using hok
      rw [hnone, a.filterMap_fieldOf?_of_ok U t.fields hU, List.isEmpty_nil, if_pos rfl,
        Except.ok.injEq] at h
      exact ⟨U, hU, h.symm⟩
    · rw [if_neg (fun hempty => hnone (List.isEmpty_iff.mp hempty))] at h
      cases h
  · rintro ⟨U, hU, rfl⟩
    rw [a.flatMap_fieldObstacles_of_ok U t.fields hU, a.filterMap_fieldOf?_of_ok U t.fields hU,
      List.isEmpty_nil, if_pos rfl]

/-- An interface defines nothing, marked or not. -/
theorem dataTypeOf_interface_ne_ok (t : DeclaredType) (hkind : t.kind = .interface)
    (d : DataType) : a.dataTypeOf t ≠ .ok d := by
  intro h
  simp only [dataTypeOf, hkind] at h
  cases h

/-- What a marked type defines, by its kind. -/
theorem of_dataTypeOf_eq_ok (t : DeclaredType) (d : DataType) (h : a.dataTypeOf t = .ok d) :
    (t.kind = .enum ∧ t.members ≠ [] ∧ d = ⟨t.name, .enumeration t.members⟩)
      ∨ ((t.kind = .classType ∨ t.kind = .struct)
        ∧ ∃ U : DeclaredField → BridgeType, (∀ f ∈ t.fields, a.bridgeType f.type = .ok (U f))
          ∧ d = ⟨t.name, .composite (t.fields.map fun f => ⟨f.name, U f⟩)
            (t.declaredBase?.filter a.isMarkedData)⟩) := by
  cases hkind : t.kind with
  | enum => exact Or.inl ⟨rfl, (a.dataTypeOf_enum_eq_ok_iff t hkind d).mp h⟩
  | interface => exact absurd h (a.dataTypeOf_interface_ne_ok t hkind d)
  | classType =>
      exact Or.inr ⟨Or.inl rfl, (a.dataTypeOf_composite_eq_ok_iff t (Or.inl hkind) d).mp h⟩
  | struct =>
      exact Or.inr ⟨Or.inr rfl, (a.dataTypeOf_composite_eq_ok_iff t (Or.inr hkind) d).mp h⟩

/-- A definition has the name of the type. -/
theorem name_of_dataTypeOf_eq_ok (t : DeclaredType) (d : DataType) (h : a.dataTypeOf t = .ok d) :
    d.name = t.name := by
  rcases a.of_dataTypeOf_eq_ok t d h with ⟨_, _, rfl⟩ | ⟨_, U, _, rfl⟩
  · rfl
  · rfl

/-- The types in a definition are allowed by the marks. -/
theorem admits_of_mem_types_dataType (t : DeclaredType) (d : DataType)
    (h : a.dataTypeOf t = .ok d) (u : BridgeType) (hu : u ∈ d.types) : a.Admits u := by
  rcases a.of_dataTypeOf_eq_ok t d h with ⟨_, _, rfl⟩ | ⟨_, U, hU, rfl⟩
  · exact absurd hu List.not_mem_nil
  · rcases List.mem_map.mp hu with ⟨g, hg, rfl⟩
    rcases List.mem_map.mp hg with ⟨f, hf, rfl⟩
    exact a.admits_of_bridgeType_eq_ok f.type _ (hU f hf)

/-- The base of a definition is marked. -/
theorem isMarkedData_of_base (t : DeclaredType) (d : DataType) (h : a.dataTypeOf t = .ok d)
    (fields : List Field) (base : TypeName) (hshape : d.shape = .composite fields (some base)) :
    a.isMarkedData base = true := by
  rcases a.of_dataTypeOf_eq_ok t d h with ⟨_, _, rfl⟩ | ⟨_, U, _, rfl⟩
  · cases hshape
  · rw [DataShape.composite.injEq, Option.filter_eq_some_iff] at hshape
    exact hshape.2.2

/-- A refusal is an error about the type. -/
theorem of_dataTypeOf_eq_error (t : DeclaredType) (e : Finding) (h : a.dataTypeOf t = .error e) :
    ∃ detail causes, e = .of .unsupportedDataType t.name detail [] causes := by
  unfold dataTypeOf at h
  simp only at h
  split at h
  · split at h
    · cases h
      exact ⟨_, _, rfl⟩
    · cases h
  · cases h
    exact ⟨_, _, rfl⟩
  · split at h
    · cases h
    · cases h
      exact ⟨_, _, rfl⟩
  · split at h
    · cases h
    · cases h
      exact ⟨_, _, rfl⟩

/-- The names of the definitions are distinct if those of the types are. -/
theorem nodup_dataTypes (ha : a.HasDistinctNames) :
    (a.review.contract.dataTypes.map (·.name)).Nodup := by
  have hsub : List.Sublist (a.review.contract.dataTypes.map (·.name))
      ((a.types.filter (·.isData)).map (·.name)) :=
    map_filterMap_toOption_sublist a.dataTypeOf (·.name) (·.name) a.name_of_dataTypeOf_eq_ok _
  exact (hsub.trans (List.filter_sublist.map _)).nodup ha

/-- A name is found in the contract of a verdict if it is that of a marked type that is taken
    over. -/
theorem dataType?_review_eq_some_iff (ha : a.HasDistinctNames) (name : TypeName) (d : DataType) :
    a.review.contract.dataType? name = some d
      ↔ ∃ t, a.type? name = some t ∧ t.isData = true ∧ a.dataTypeOf t = .ok d := by
  constructor
  · intro h
    rcases Contract.mem_of_dataType?_eq_some _ name d h with ⟨hmem, rfl⟩
    rcases (a.mem_dataTypes_iff d).mp hmem with ⟨t, ht, hmark, hdef⟩
    refine ⟨t, (a.type?_eq_some_iff ha _ t).mpr ⟨ht, ?_⟩, hmark, hdef⟩
    exact (a.name_of_dataTypeOf_eq_ok t d hdef).symm
  · rintro ⟨t, ht, hmark, hdef⟩
    rcases (a.type?_eq_some_iff ha name t).mp ht with ⟨hmem, rfl⟩
    have hname := a.name_of_dataTypeOf_eq_ok t d hdef
    rw [← hname]
    exact find?_key_of_nodup (·.name) _ (a.nodup_dataTypes ha) d
      ((a.mem_dataTypes_iff d).mpr ⟨t, hmem, hmark, hdef⟩)

end Library

end PlatformBridge
