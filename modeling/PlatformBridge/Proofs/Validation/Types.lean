import PlatformBridge.Proofs.Contract.Closed
import PlatformBridge.Proofs.Results
import PlatformBridge.Proofs.Validation.Verdict

/-!
# Types That Cross

What a type of a library is on the bridge, if it can cross. `bridgeType`
collects everything that is in the way; when nothing is, the type it gives is
put together by a few rules, and `Admits` is these rules. They only look at the
marks and the kinds of the types that are declared, not at what validation makes
of these types, since a type may cross before the type it names has been looked
at.

The two directions are separate. A type that crosses is allowed, and a type that
does not cross has something in its way; together they say that an answer is
never empty of reasons and never a type that the marks do not allow. Each is
shown once for names, maps and generic types, and then for type expressions by
induction over their arguments.

## Main definitions

* `Library.Admits`: The types that the marks of a library allow.

## Theorems

* `TypeExpr.byParts`: Induction over a type expression from its arguments.
* `Library.bridgeTypes_eq_map`: The arguments of a generic type, one by one.
* `Library.admits_of_bridgeType_eq_ok`: A type that can cross is allowed.
* `Library.Admits.of_mem_parts`: What is inside an allowed type is allowed.
* `Library.ne_nil_of_bridgeType_eq_error`: Something is in the way of a type
  that cannot cross.
-/

namespace PlatformBridge

/-- Induction over a type expression from its element or its arguments. -/
@[elab_as_elim]
theorem TypeExpr.byParts {motive : TypeExpr → Prop} (named : ∀ name, motive (named name))
    (array : ∀ element, motive element → motive (array element))
    (generic : ∀ definition arguments, (∀ e ∈ arguments, motive e) →
      motive (generic definition arguments)) :
    ∀ e, motive e
  | .named name => named name
  | .array element => array element (byParts named array generic element)
  | .generic definition arguments =>
      generic definition arguments fun e _ => byParts named array generic e
termination_by e => sizeOf e
decreasing_by
  · simp only [TypeExpr.array.sizeOf_spec]
    omega
  · have hlt := List.sizeOf_lt_of_mem ‹e ∈ arguments›
    simp only [TypeExpr.generic.sizeOf_spec]
    omega

namespace Library

open Results

/-- The types that the marks of a library allow. -/
inductive Admits (a : Library) : BridgeType → Prop where
  | primitive (p : Primitive) : Admits a (.primitive p)
  | nullable (inner : BridgeType) (honce : inner.isNullable = false) (h : Admits a inner) :
      Admits a (.nullable inner)
  | list (element : BridgeType) (h : Admits a element) : Admits a (.list element)
  | map (value : BridgeType) (h : Admits a value) : Admits a (.map value)
  | data (t : DeclaredType) (ht : a.type? t.name = some t) (hmark : t.isData = true)
      (hkind : t.kind = .classType ∨ t.kind = .struct) : Admits a (.data t.name)
  | enum (t : DeclaredType) (ht : a.type? t.name = some t) (hmark : t.isData = true)
      (hkind : t.kind = .enum) : Admits a (.enum t.name)

variable (a : Library)

/-- The arguments of a generic type are looked at one by one. -/
theorem bridgeTypes_eq_map (es : List TypeExpr) : a.bridgeTypes es = es.map a.bridgeType := by
  induction es with
  | nil => rfl
  | cons e rest ih => rw [bridgeTypes, ih, List.map_cons]

/-- Absence is added once only. -/
theorem Admits.orNull {a : Library} {t : BridgeType} (h : a.Admits t) : a.Admits t.orNull := by
  cases h with
  | nullable inner honce h => exact .nullable inner honce h
  | primitive p => exact .nullable _ rfl (.primitive p)
  | list element h => exact .nullable _ rfl (.list element h)
  | map value h => exact .nullable _ rfl (.map value h)
  | data t ht hmark hkind => exact .nullable _ rfl (.data t ht hmark hkind)
  | enum t ht hmark hkind => exact .nullable _ rfl (.enum t ht hmark hkind)

/-- A name that can cross is that of a primitive or of a marked type of the library. -/
theorem admits_of_namedType_eq_ok (name : TypeName) (t : BridgeType)
    (h : a.namedType name = .ok t) : a.Admits t := by
  unfold namedType at h
  -- The checks are made one after the other, and each but the last ends in an obstacle.
  split at h
  · cases h
    exact .primitive _
  · split at h
    · cases h
    · split at h
      · cases h
      · rename_i d hd
        have hname : d.name = name := (a.mem_of_type?_eq_some name d hd).2
        subst hname
        split at h
        · cases h
        · rename_i hservice
          split at h
          · cases h
          · rename_i hmark
            have hdata : d.isData = true := by simpa using hmark
            split at h
            · cases h
              exact .enum d hd hdata ‹_›
            · rename_i hnotenum
              cases h
              -- An interface was refused before, so a class or a structure is left.
              refine .data d hd hdata ?_
              cases hkind : d.kind with
              | classType => exact Or.inl rfl
              | struct => exact Or.inr rfl
              | interface =>
                  exfalso
                  apply hservice
                  simp only [hkind, decide_true, Bool.true_or]
              | enum => exact absurd hkind hnotenum

/-- A map that can cross is one of values that can. -/
theorem exists_of_mapType_eq_ok (key : TypeExpr) (value : Resolved) (t : BridgeType)
    (h : mapType key value = .ok t) : ∃ u, value = .ok u ∧ t = .map u := by
  unfold mapType at h
  cases value with
  | error causes => cases h
  | ok u =>
      simp only at h
      split at h
      · cases h
        exact ⟨u, rfl, rfl⟩
      · cases h

/-- A generic type that can cross is made of one argument that can. -/
theorem admits_of_genericType_eq_ok (definition : TypeName) (arguments : List TypeExpr)
    (resolved : List Resolved) (hresolved : ∀ u, .ok u ∈ resolved → a.Admits u) (t : BridgeType)
    (h : genericType definition arguments resolved = .ok t) : a.Admits t := by
  unfold genericType at h
  split at h
  -- An absent value, a list and a map are made of one argument each; nothing else can cross.
  · rcases map_eq_ok.mp h with ⟨u, rfl, rfl⟩
    exact (hresolved u List.mem_cons_self).orNull
  · rcases map_eq_ok.mp h with ⟨u, rfl, rfl⟩
    exact .list u (hresolved u List.mem_cons_self)
  · rcases exists_of_mapType_eq_ok _ _ t h with ⟨u, rfl, rfl⟩
    exact .map u (hresolved u (List.mem_cons_of_mem _ List.mem_cons_self))
  · cases h

/-- A type that can cross is one that the marks of the library allow. -/
theorem admits_of_bridgeType_eq_ok (e : TypeExpr) :
    ∀ t, a.bridgeType e = .ok t → a.Admits t := by
  induction e using TypeExpr.byParts with
  | named name =>
      intro t h
      rw [bridgeType] at h
      exact a.admits_of_namedType_eq_ok name t h
  | array element ih =>
      intro t h
      rw [bridgeType] at h
      rcases map_eq_ok.mp h with ⟨u, hu, rfl⟩
      exact .list u (ih u hu)
  | generic definition arguments ih =>
      intro t h
      rw [bridgeType, bridgeTypes_eq_map] at h
      refine a.admits_of_genericType_eq_ok definition arguments _ (fun u hu => ?_) t h
      rcases List.mem_map.mp hu with ⟨e, he, heq⟩
      exact ih e he u heq

/-- What is inside an allowed type is allowed. -/
theorem Admits.of_mem_parts {a : Library} {t u : BridgeType} (h : a.Admits t) (hu : u ∈ t.parts) :
    a.Admits u := by
  induction h with
  | nullable inner honce h ih =>
      rcases List.mem_cons.mp hu with rfl | hu
      · exact .nullable inner honce h
      · exact ih hu
  | list element h ih =>
      rcases List.mem_cons.mp hu with rfl | hu
      · exact .list element h
      · exact ih hu
  | map value h ih =>
      rcases List.mem_cons.mp hu with rfl | hu
      · exact .map value h
      · exact ih hu
  | primitive p =>
      rw [List.mem_singleton.mp hu]
      exact .primitive p
  | data t ht hmark hkind =>
      rw [List.mem_singleton.mp hu]
      exact .data t ht hmark hkind
  | enum t ht hmark hkind =>
      rw [List.mem_singleton.mp hu]
      exact .enum t ht hmark hkind

/-- Something is in the way of a name that cannot cross. -/
theorem ne_nil_of_namedType_eq_error (name : TypeName) (causes : List Obstacle)
    (h : a.namedType name = .error causes) : causes ≠ [] := by
  unfold namedType at h
  split at h
  · cases h
  · split at h
    · cases h
      exact List.cons_ne_nil _ _
    · split at h
      · cases h
        exact List.cons_ne_nil _ _
      · split at h
        · cases h
          exact List.cons_ne_nil _ _
        · split at h
          · cases h
            exact List.cons_ne_nil _ _
          · split at h <;> cases h

-- Something is in the way of a map that cannot cross, be it the key or the value.
theorem ne_nil_of_mapType_eq_error (key : TypeExpr) (value : Resolved)
    (hvalue : ∀ causes, value = .error causes → causes ≠ []) (causes : List Obstacle)
    (h : mapType key value = .error causes) : causes ≠ [] := by
  unfold mapType at h
  cases value with
  | ok u =>
      simp only at h
      split at h
      · cases h
      · cases h
        exact List.cons_ne_nil _ _
  | error valueCauses =>
      cases h
      exact List.append_ne_nil_of_right_ne_nil _ (hvalue valueCauses rfl)

-- Something is in the way of a generic type that cannot cross, if this holds for its arguments.
theorem ne_nil_of_genericType_eq_error (definition : TypeName) (arguments : List TypeExpr)
    (resolved : List Resolved) (hresolved : ∀ causes, .error causes ∈ resolved → causes ≠ [])
    (causes : List Obstacle) (h : genericType definition arguments resolved = .error causes) :
    causes ≠ [] := by
  unfold genericType at h
  split at h
  · exact hresolved causes (map_eq_error.mp h ▸ List.mem_cons_self)
  · exact hresolved causes (map_eq_error.mp h ▸ List.mem_cons_self)
  · exact ne_nil_of_mapType_eq_error _ _ (fun causes hvalue => hresolved causes
      (hvalue ▸ List.mem_cons_of_mem _ List.mem_cons_self)) causes h
  · cases h
    exact List.cons_ne_nil _ _

/-- Something is in the way of a type that cannot cross. -/
theorem ne_nil_of_bridgeType_eq_error (e : TypeExpr) :
    ∀ causes, a.bridgeType e = .error causes → causes ≠ [] := by
  induction e using TypeExpr.byParts with
  | named name =>
      intro causes h
      rw [bridgeType] at h
      exact a.ne_nil_of_namedType_eq_error name causes h
  | array element ih =>
      intro causes h
      rw [bridgeType] at h
      exact ih causes (map_eq_error.mp h)
  | generic definition arguments ih =>
      intro causes h
      rw [bridgeType, bridgeTypes_eq_map] at h
      refine ne_nil_of_genericType_eq_error definition arguments _ (fun causes hc => ?_) causes h
      rcases List.mem_map.mp hc with ⟨e, he, heq⟩
      exact ih e he causes heq

end Library

end PlatformBridge
