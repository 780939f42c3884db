import PlatformBridge.Proofs.Validation.Types

/-!
# What Is in the Way

A type that cannot cross is refused with a list of obstacles, and whoever asks
decides by this list whether the type can cross. So the list has to be complete,
must not name anything else, and must not be empty.

Which parts of a type are in the way is said here by rules, one for each form of
a type. A name is in the way for at most one reason. An array, a list or an
absent value adds nothing to what it holds, and neither does a map with text
keys. A map with other keys adds its key in front, and of any other generic type
the whole is in the way, whatever its arguments are. The rules say nothing about
what a type that can cross is on the other side.

Every type has one list of offending parts by these rules, and the code gives
this list, or a type if it is empty. What wraps a type has the same list, so it
crosses exactly if the type does.

The code answers with a type or with a list that is not empty, and the rules
give a list in any case. `Tells` relates the two, and each function of the code
that puts answers together gets one lemma in these terms. That the lists of the
rules are unique is then no induction of its own: the code tells only one.

## Main definitions

* `Library.Blocks`: Why a name is in the way.
* `Library.Offending`: The parts of a type that are in the way, from left to
  right.
* `TypeExpr.Wraps`: A type is put into arrays, lists, maps with text keys, or
  may be absent.
* `Resolved.Tells`: The obstacles that a resolved type tells.

## Theorems

* `Resolved.Tells.ok_iff`, `Resolved.Tells.error_iff`: What an answer is, by the
  obstacles that it tells.
* `GenericKind.of?_eq_some_iff`: The generic types that can cross.
* `Library.tells_of_blocks`, `Library.tells_of_free`: What a name tells.
* `Library.tells_mapType`: What a map tells.
* `Library.tells_of_offending`: The code tells the offending parts.
* `Library.exists_offending_parts`: Every type has a list of offending parts.
* `Library.Offending.of_wraps`: What wraps a type has the same offending parts.
* `Library.obstacles_of_bridgeType`: All of this about every type of a library.
-/

namespace PlatformBridge

/-- A type is put into arrays, lists, maps with text keys, or may be absent, in any combination. -/
inductive TypeExpr.Wraps (e : TypeExpr) : TypeExpr → Prop where
  | self : Wraps e e
  | array (w : TypeExpr) (h : Wraps e w) : Wraps e (.array w)
  | single (definition : TypeName) (kind : GenericKind)
      (hkind : (definition, 1, kind) ∈ genericKinds) (w : TypeExpr) (h : Wraps e w) :
      Wraps e (.generic definition [w])
  | map (definition : TypeName) (hkind : (definition, 2, .map) ∈ genericKinds) (w : TypeExpr)
      (h : Wraps e w) : Wraps e (.generic definition [.named "System.String", w])

/-- A resolved type tells some obstacles: they are in its way, or there are none and it can cross.
    -/
def Resolved.Tells (r : Resolved) (parts : List Obstacle) : Prop :=
  match r with
  | .ok _ => parts = []
  | .error causes => causes = parts ∧ parts ≠ []

namespace Resolved

/-- What is made of a type that can cross tells the same as the type. -/
theorem Tells.map {r : Resolved} {parts : List Obstacle} (f : BridgeType → BridgeType)
    (h : r.Tells parts) : Tells (r.map f) parts := by
  cases r with
  | ok type => exact h
  | error causes => exact h

/-- A type can cross if it tells nothing. -/
theorem Tells.ok_iff {r : Resolved} {parts : List Obstacle} (h : r.Tells parts) :
    (∃ type, r = .ok type) ↔ parts = [] := by
  cases r with
  | ok type => exact iff_of_true ⟨type, rfl⟩ h
  | error causes =>
      refine iff_of_false ?_ h.2
      rintro ⟨type, htype⟩
      cases htype

/-- It is refused with what it tells. -/
theorem Tells.error_iff {r : Resolved} {parts : List Obstacle} (h : r.Tells parts)
    (causes : List Obstacle) : r = .error causes ↔ parts ≠ [] ∧ causes = parts := by
  cases r with
  | ok type =>
      refine iff_of_false ?_ fun hparts => hparts.1 h
      intro hcauses
      cases hcauses
  | error found =>
      rw [Except.error.injEq, h.1]
      exact ⟨fun heq => ⟨h.2, heq.symm⟩, fun heq => heq.2.symm⟩

end Resolved

/-- A generic type has the kind that the table gives for its name and the number of arguments. -/
theorem GenericKind.of?_eq_some_iff (definition : TypeName) (count : Nat) (kind : GenericKind) :
    GenericKind.of? definition count = some kind ↔ (definition, count, kind) ∈ genericKinds := by
  constructor
  · intro h
    unfold GenericKind.of? at h
    rcases Option.map_eq_some_iff.mp h with ⟨⟨definition', count', kind'⟩, hfind, rfl⟩
    have hkey := List.find?_some hfind
    rw [Bool.and_eq_true, decide_eq_true_eq, decide_eq_true_eq] at hkey
    rcases hkey with ⟨rfl, rfl⟩
    exact List.mem_of_find?_eq_some hfind
  · -- No name with a number of arguments is in the table twice.
    have hall : ∀ g ∈ genericKinds, GenericKind.of? g.1 g.2.1 = some g.2.2 := by decide
    exact hall (definition, count, kind)

/-- The kinds by the number of arguments. -/
theorem kind_of_mem_genericKinds : ∀ g ∈ genericKinds,
    g.2.1 = 1 ∧ (g.2.2 = .nullable ∨ g.2.2 = .list) ∨ g.2.1 = 2 ∧ g.2.2 = .map := by
  decide

namespace Library

/-- Why a name is in the way, if it is not that of a primitive that can cross: it is that of another
    primitive, no type has it, its type is an interface or only a service, or is not marked. -/
inductive Blocks (a : Library) (name : TypeName) : ObstacleKind → Prop where
  | foreign (hno : ∀ p : Primitive, p.typeName ≠ name) (hforeign : name ∈ foreignPrimitives) :
      Blocks a name .unsupportedPrimitive
  | unknown (hno : ∀ p : Primitive, p.typeName ≠ name) (hforeign : name ∉ foreignPrimitives)
      (hnone : a.type? name = none) : Blocks a name .unknownType
  | service (hno : ∀ p : Primitive, p.typeName ≠ name) (hforeign : name ∉ foreignPrimitives)
      (t : DeclaredType) (ht : a.type? name = some t)
      (hservice : t.kind = .interface ∨ t.isService = true ∧ t.isData = false) :
      Blocks a name .serviceType
  | unmarked (hno : ∀ p : Primitive, p.typeName ≠ name) (hforeign : name ∉ foreignPrimitives)
      (t : DeclaredType) (ht : a.type? name = some t) (hkind : t.kind ≠ .interface)
      (hservice : t.isService = false) (hdata : t.isData = false) : Blocks a name .notMarked

/-- The parts of a type that are in the way, from left to right. -/
inductive Offending (a : Library) : TypeExpr → List Obstacle → Prop where
  | free (name : TypeName) (hfree : ∀ reason, ¬ a.Blocks name reason) : Offending a (.named name) []
  | blocked (name : TypeName) (reason : ObstacleKind) (hblocked : a.Blocks name reason) :
      Offending a (.named name) [⟨name, reason⟩]
  | array (element : TypeExpr) (parts : List Obstacle) (h : Offending a element parts) :
      Offending a (.array element) parts
  | single (definition : TypeName) (kind : GenericKind)
      (hkind : (definition, 1, kind) ∈ genericKinds) (inner : TypeExpr) (parts : List Obstacle)
      (h : Offending a inner parts) :
      Offending a (.generic definition [inner]) parts
  | map (definition : TypeName) (hkind : (definition, 2, .map) ∈ genericKinds) (value : TypeExpr)
      (parts : List Obstacle) (h : Offending a value parts) :
      Offending a (.generic definition [.named "System.String", value]) parts
  | key (definition : TypeName) (hkind : (definition, 2, .map) ∈ genericKinds)
      (key value : TypeExpr) (hkey : key ≠ .named "System.String") (parts : List Obstacle)
      (h : Offending a value parts) :
      Offending a (.generic definition [key, value]) (⟨key.display, .nonStringMapKey⟩ :: parts)
  | generic (definition : TypeName) (arguments : List TypeExpr)
      (hkind : ∀ kind, (definition, arguments.length, kind) ∉ genericKinds) :
      Offending a (.generic definition arguments)
        [⟨(TypeExpr.generic definition arguments).display, .unsupportedGeneric⟩]

variable (a : Library)

theorem ofTypeName?_eq_none_iff (name : TypeName) :
    Primitive.ofTypeName? name = none ↔ ∀ p : Primitive, p.typeName ≠ name := by
  unfold Primitive.ofTypeName?
  rw [List.find?_eq_none]
  simp only [decide_eq_true_eq]
  exact ⟨fun h p => h p (by cases p <;> decide), fun h p _ => h p⟩

/-- A name is told with the reason for which it is in the way. -/
theorem tells_of_blocks (name : TypeName) (reason : ObstacleKind) (h : a.Blocks name reason) :
    (a.namedType name).Tells [⟨name, reason⟩] := by
  have htells : a.namedType name = .error [⟨name, reason⟩] := by
    unfold namedType
    cases h with
    | foreign hno hforeign =>
        rw [(ofTypeName?_eq_none_iff name).mpr hno]
        simp only [List.contains_iff_mem, hforeign, if_true]
    | unknown hno hforeign hnone =>
        rw [(ofTypeName?_eq_none_iff name).mpr hno]
        simp only [List.contains_iff_mem, hforeign, if_false, hnone]
    | service hno hforeign t ht hservice =>
        rw [(ofTypeName?_eq_none_iff name).mpr hno]
        simp only [List.contains_iff_mem, hforeign, if_false, ht]
        rw [if_pos]
        simpa using hservice
    | unmarked hno hforeign t ht hkind hservice hdata =>
        rw [(ofTypeName?_eq_none_iff name).mpr hno]
        simp only [List.contains_iff_mem, hforeign, if_false, ht, hkind, hservice, hdata,
          decide_false, Bool.false_and, Bool.or_self, Bool.false_eq_true, Bool.not_false, if_true]
  rw [htells]
  exact ⟨rfl, List.cons_ne_nil _ _⟩

/-- A name that is not in the way for any reason can cross. -/
theorem tells_of_free (name : TypeName) (h : ∀ reason, ¬ a.Blocks name reason) :
    (a.namedType name).Tells [] := by
  unfold namedType
  cases hprimitive : Primitive.ofTypeName? name with
  | some p => rfl
  | none =>
      have hno := (ofTypeName?_eq_none_iff name).mp hprimitive
      -- Each reason that the name is not blocked for rules out one branch of the code.
      have hforeign : name ∉ foreignPrimitives := fun hmem => h _ (.foreign hno hmem)
      simp only [List.contains_iff_mem, hforeign, if_false]
      cases ht : a.type? name with
      | none => exact absurd (.unknown hno hforeign ht) (h _)
      | some t =>
          have hservice : ¬ (t.kind = .interface ∨ t.isService = true ∧ t.isData = false) :=
            fun hservice => h _ (.service hno hforeign t ht hservice)
          have hdata : t.isData = true := by
            by_contra hdata
            rw [Bool.not_eq_true] at hdata
            push Not at hservice
            refine h _ (.unmarked hno hforeign t ht hservice.1 ?_ hdata)
            rw [← Bool.not_eq_true]
            exact fun hmark => hservice.2 hmark hdata
          rw [not_or] at hservice
          simp only [hservice.1, hdata, decide_false, Bool.not_true, Bool.and_false, Bool.or_self,
            Bool.false_eq_true, if_false]
          split <;> rfl

-- A map with text keys tells what its values tell.
theorem mapType_string (value : Resolved) :
    mapType (.named "System.String") value = value.map .map := by
  cases value <;> rfl

/-- Any other map tells its key first. -/
theorem tells_mapType (key : TypeExpr) (hkey : key ≠ .named "System.String") (value : Resolved)
    (parts : List Obstacle) (h : value.Tells parts) :
    (mapType key value).Tells (⟨key.display, .nonStringMapKey⟩ :: parts) := by
  unfold mapType
  split
  · exact absurd rfl hkey
  · cases value with
    | ok type =>
        have hnil : parts = [] := h
        subst hnil
        exact ⟨rfl, List.cons_ne_nil _ _⟩
    | error causes =>
        rw [← h.1]
        exact ⟨rfl, List.cons_ne_nil _ _⟩

/-- The code tells the offending parts of a type. -/
theorem tells_of_offending (e : TypeExpr) (parts : List Obstacle) (h : a.Offending e parts) :
    (a.bridgeType e).Tells parts := by
  -- One rule at a time: the code tells of the whole what it tells of the parts, with the key of a
  -- map in front.
  induction h with
  | free name hfree => exact a.tells_of_free name hfree
  | blocked name reason hblocked => exact a.tells_of_blocks name reason hblocked
  | array element parts _ ih => exact ih.map _
  | single definition kind hkind inner parts _ ih =>
      have hof := (GenericKind.of?_eq_some_iff definition 1 kind).mpr hkind
      rw [bridgeType, bridgeTypes_eq_map]
      rcases kind_of_mem_genericKinds _ hkind with ⟨_, rfl | rfl⟩ | ⟨htwo, _⟩
      · simp only [genericType, List.length_singleton, hof, List.map_cons, List.map_nil]
        exact ih.map _
      · simp only [genericType, List.length_singleton, hof, List.map_cons, List.map_nil]
        exact ih.map _
      · cases htwo
  | map definition hkind value parts _ ih =>
      have hof := (GenericKind.of?_eq_some_iff definition 2 .map).mpr hkind
      rw [bridgeType, bridgeTypes_eq_map]
      simp only [genericType, List.length_cons, List.length_nil, Nat.zero_add, Nat.reduceAdd, hof,
        List.map_cons, List.map_nil, mapType_string]
      exact ih.map _
  | key definition hkind key value hkey parts _ ih =>
      have hof := (GenericKind.of?_eq_some_iff definition 2 .map).mpr hkind
      rw [bridgeType, bridgeTypes_eq_map]
      simp only [genericType, List.length_cons, List.length_nil, Nat.zero_add, Nat.reduceAdd, hof,
        List.map_cons, List.map_nil]
      exact tells_mapType key hkey _ parts ih
  | generic definition arguments hkind =>
      have hof : GenericKind.of? definition arguments.length = none := by
        rw [Option.eq_none_iff_forall_ne_some]
        exact fun kind h => hkind kind ((GenericKind.of?_eq_some_iff _ _ kind).mp h)
      rw [bridgeType]
      simp only [genericType, hof]
      exact ⟨rfl, List.cons_ne_nil _ _⟩

/-- Every type has a list of offending parts. -/
theorem exists_offending_parts (e : TypeExpr) : ∃ parts, a.Offending e parts := by
  induction e using TypeExpr.byParts with
  | named name =>
      by_cases hblocked : ∃ reason, a.Blocks name reason
      · rcases hblocked with ⟨reason, h⟩
        exact ⟨_, .blocked name reason h⟩
      · exact ⟨[], .free name fun reason h => hblocked ⟨reason, h⟩⟩
  | array element ih =>
      rcases ih with ⟨parts, h⟩
      exact ⟨parts, .array element parts h⟩
  | generic definition arguments ih =>
      by_cases hkind : ∃ kind, (definition, arguments.length, kind) ∈ genericKinds
      · rcases hkind with ⟨kind, hkind⟩
        -- The generic types that can cross have one argument or two.
        rcases kind_of_mem_genericKinds _ hkind with ⟨hone, _⟩ | ⟨htwo, hmap⟩
        · rcases List.length_eq_one_iff.mp hone with ⟨inner, rfl⟩
          rcases ih inner List.mem_cons_self with ⟨parts, h⟩
          exact ⟨parts, .single definition kind hkind inner parts h⟩
        · rcases List.length_eq_two.mp htwo with ⟨key, value, rfl⟩
          rcases ih value (List.mem_cons_of_mem _ List.mem_cons_self) with ⟨parts, h⟩
          simp only at hmap
          subst hmap
          by_cases hkey : key = .named "System.String"
          · subst hkey
            exact ⟨parts, .map definition hkind value parts h⟩
          · exact ⟨_, .key definition hkind key value hkey parts h⟩
      · exact ⟨_, .generic definition arguments fun kind h => hkind ⟨kind, h⟩⟩

variable {a} in
/-- What wraps a type has the same offending parts. -/
theorem Offending.of_wraps {e w : TypeExpr} {parts : List Obstacle} (h : a.Offending e parts)
    (hwraps : e.Wraps w) : a.Offending w parts := by
  induction hwraps with
  | self => exact h
  | array w _ ih => exact .array w parts ih
  | single definition kind hkind w _ ih => exact .single definition kind hkind w parts ih
  | map definition hkind w _ ih => exact .map definition hkind w parts ih

/-- Every type has one list of offending parts. The type can cross if this list is empty, and else
    it is what is in the way. What wraps the type can cross if the type can, and the same is in its
    way. -/
theorem obstacles_of_bridgeType (e : TypeExpr) :
    ∃ parts, (∀ found, a.Offending e found ↔ found = parts)
      ∧ ((∃ type, a.bridgeType e = .ok type) ↔ parts = [])
      ∧ (∀ causes, a.bridgeType e = .error causes ↔ parts ≠ [] ∧ causes = parts)
      ∧ ∀ w, e.Wraps w →
        ((∃ type, a.bridgeType w = .ok type) ↔ ∃ type, a.bridgeType e = .ok type)
        ∧ ∀ causes, a.bridgeType w = .error causes ↔ a.bridgeType e = .error causes := by
  rcases a.exists_offending_parts e with ⟨parts, hparts⟩
  have htells := a.tells_of_offending e parts hparts
  refine ⟨parts, fun found => ⟨fun hfound => ?_, fun heq => heq ▸ hparts⟩, htells.ok_iff,
    htells.error_iff, fun w hwraps => ?_⟩
  · -- Both lists are what the code tells.
    have hother := a.tells_of_offending e found hfound
    by_cases hnil : found = []
    · rw [hnil]
      exact (htells.ok_iff.mp (hother.ok_iff.mpr hnil)).symm
    · exact ((htells.error_iff found).mp ((hother.error_iff found).mpr ⟨hnil, rfl⟩)).2
  · have houter := a.tells_of_offending w parts (hparts.of_wraps hwraps)
    exact ⟨houter.ok_iff.trans htells.ok_iff.symm, fun causes =>
      (houter.error_iff causes).trans (htells.error_iff causes).symm⟩

/-- A map of maps, with keys that are no texts, of arrays of numbers that cannot cross. -/
def tallyType : TypeExpr :=
  .generic "System.Collections.Generic.Dictionary\x602" [.named "System.Int32",
    .generic "System.Collections.Generic.IDictionary\x602" [.named "Acme.Color",
      .array (.named "System.UInt32")]]

/-- All three parts are told from left to right, and what is put around the type adds nothing. -/
theorem obstacles_of_tallyType :
    (⟨"Acme", []⟩ : Library).bridgeType
        (.generic "System.Nullable\x601" [.generic "System.Collections.Generic.IEnumerable\x601"
          [tallyType]])
      = .error [⟨"System.Int32", .nonStringMapKey⟩, ⟨"Acme.Color", .nonStringMapKey⟩,
        ⟨"System.UInt32", .unsupportedPrimitive⟩] := by
  rcases obstacles_of_bridgeType ⟨"Acme", []⟩ tallyType with ⟨parts, hone, _, herror, hwraps⟩
  have hno : ∀ p : Primitive, p.typeName ≠ "System.UInt32" := by
    intro p
    cases p <;> decide
  -- The two keys and the number, by the rules.
  have hparts := (hone _).mp (.key _ (by decide) (.named "System.Int32") _ (by simp) _
    (.key _ (by decide) (.named "Acme.Color") _ (by simp) _
      (.array _ _ (.blocked "System.UInt32" _ (.foreign hno (by decide))))))
  refine ((hwraps _ (.single _ .nullable (by decide) _ (.single _ .list (by decide) _ .self))).2
    _).mpr ((herror _).mpr ⟨?_, hparts⟩)
  rw [← hparts]
  exact List.cons_ne_nil _ _

end Library

end PlatformBridge
