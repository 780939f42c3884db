import PlatformBridge.Validation.Method
import Mathlib.Data.List.Perm.Basic

/-!
# Names that Methods Share

The methods of one name are a group. Groups are kept in the order of their names
and each once, and a group of more than one is a clash. So the clashes tell of
every name that more than one method has, and of no other, and of such a name
they have all signatures in the order of the methods.

The groups can be made one method at a time: each method goes to the end of the
group of its name, and begins a group in its place if there is none. That this
is the same is shown method by method. It is a map with sorted keys that is
filled in one pass, and the definition by sorting and filtering says what the
map holds in the end.

No method is lost or told of twice. Whatever the name of a method, there is one
group with this name, and it is a clash unless the method is the only one in it.
Said as a permutation, this covers methods that are equal in all respects, which
a statement about membership would not tell apart.

## Main definitions

* `signaturesOf`: The signatures of the methods of a name.
* `methodGroups`, `addToGroup`: The groups of some methods, and one method more.
* `soleMethods`: The methods that are the only ones of their name.

## Theorems

* `addToGroup_map`: Adding to groups whose names are sorted.
* `addToGroup_methodGroups`, `nameClashes_eq_foldl`: The clashes, one method
  after the other.
* `mem_nameClashes_iff`, `any_nameClashes_iff`: The clashes and the names that
  clash.
* `pairwise_nameClashes`: Their order.
* `perm_nameClashes_append_soleMethods`: Every method clashes or is the only one
  of its name.
* `nameClashes_exact`: What the clashes of some methods are.
-/

namespace PlatformBridge

variable (methods : List DeclaredMethod)

/-- The formal signatures of the methods of a name. -/
def signaturesOf (name : String) : List String :=
  (methods.filter (·.canonicalSignature = name)).map (·.formalSignature)

/-- The methods of each name, sorted by their names. -/
def methodGroups : List NameClash :=
  (sortNames (methods.map (·.canonicalSignature))).map fun name => ⟨name, signaturesOf methods name⟩

/-- The clashes are the groups of more than one. -/
theorem nameClashes_eq_filter :
    nameClashes methods = (methodGroups methods).filter fun c => 1 < c.formal.length := rfl

section Adding

/-- Puts a signature at the end of the group of a name, or into a new group in the place of the
    name. -/
def addToGroup (name signature : String) : List NameClash → List NameClash
  | [] => [⟨name, [signature]⟩]
  | g :: rest =>
    if name = g.name then ⟨g.name, g.formal ++ [signature]⟩ :: rest
    else if name < g.name then ⟨name, [signature]⟩ :: g :: rest
    else g :: addToGroup name signature rest

/-- Adding to the groups of sorted names is inserting the name, and only its group grows. -/
theorem addToGroup_map (name signature : String) (names : List String)
    (hnames : names.Pairwise (· < ·)) (formal : String → List String)
    (hnew : name ∉ names → formal name = []) :
    addToGroup name signature (names.map fun n => ⟨n, formal n⟩)
      = (insertName name names).map fun n =>
          ⟨n, formal n ++ if n = name then [signature] else []⟩ := by
  -- The groups of other names stay as they are.
  have hother : ∀ others : List String, name ∉ others →
      (others.map fun n => (⟨n, formal n ++ if n = name then [signature] else []⟩ : NameClash))
        = others.map fun n => ⟨n, formal n⟩ := by
    intro others hnot
    refine List.map_congr_left fun n hn => ?_
    rw [if_neg fun heq : n = name => hnot (heq ▸ hn), List.append_nil]
  induction names with
  | nil =>
      rw [List.map_nil, addToGroup, insertName, List.map_singleton, if_pos rfl,
        hnew List.not_mem_nil, List.nil_append]
  | cons n rest ih =>
      rw [List.pairwise_cons] at hnames
      rw [List.map_cons, addToGroup, insertName]
      dsimp only
      by_cases heq : name = n
      · have hnot : name ∉ rest := fun hmem => String.lt_irrefl n (heq ▸ hnames.1 name hmem)
        rw [if_pos heq, if_pos heq, List.map_cons, if_pos heq.symm, hother rest hnot]
      · rw [if_neg heq, if_neg heq]
        by_cases hlt : name < n
        · have hnot : name ∉ n :: rest := by
            rw [List.mem_cons, not_or]
            exact ⟨heq, fun hmem => String.lt_irrefl n (String.lt_trans (hnames.1 name hmem) hlt)⟩
          rw [if_pos hlt, if_pos hlt, List.map_cons, if_pos rfl, hnew hnot, List.nil_append,
            hother _ hnot, List.map_cons]
        · have hrest : name ∉ rest → formal name = [] := fun hnot =>
            hnew fun hmem => (List.mem_cons.mp hmem).elim heq hnot
          rw [if_neg hlt, if_neg hlt, List.map_cons, if_neg (Ne.symm heq), List.append_nil,
            ih hnames.2 hrest]

/-- One method more goes to the end of the group of its name. -/
theorem addToGroup_methodGroups (m : DeclaredMethod) :
    addToGroup m.canonicalSignature m.formalSignature (methodGroups methods)
      = methodGroups (methods ++ [m]) := by
  have hnew : m.canonicalSignature ∉ sortNames (methods.map (·.canonicalSignature)) →
      signaturesOf methods m.canonicalSignature = [] := by
    intro hnot
    rw [signaturesOf, List.map_eq_nil_iff, List.filter_eq_nil_iff]
    intro m' hm' hname
    exact hnot (mem_sortNames.mpr (List.mem_map.mpr ⟨m', hm', of_decide_eq_true hname⟩))
  have hsigns : ∀ name, signaturesOf (methods ++ [m]) name = signaturesOf methods name
      ++ if name = m.canonicalSignature then [m.formalSignature] else [] := by
    intro name
    rw [signaturesOf, signaturesOf, List.filter_append, List.map_append, List.filter_singleton]
    by_cases hname : name = m.canonicalSignature
    · rw [if_pos hname, decide_eq_true hname.symm]
      rfl
    · rw [if_neg hname, decide_eq_false (Ne.symm hname)]
      rfl
  rw [methodGroups, addToGroup_map _ _ _ (pairwise_sortNames _) _ hnew, methodGroups,
    List.map_append, List.map_singleton, sortNames, sortNames, List.foldl_append]
  exact List.map_congr_left fun name _ => by rw [hsigns]

/-- The clashes can be found by adding one method after the other. -/
theorem nameClashes_eq_foldl : nameClashes methods
    = (methods.foldl (fun groups m => addToGroup m.canonicalSignature m.formalSignature groups)
        []).filter fun c => 1 < c.formal.length := by
  have hgroups : ∀ done, methods.foldl
      (fun groups m => addToGroup m.canonicalSignature m.formalSignature groups)
        (methodGroups done) = methodGroups (done ++ methods) := by
    induction methods with
    | nil => exact fun done => congrArg methodGroups (List.append_nil done).symm
    | cons m rest ih =>
        intro done
        rw [List.foldl_cons, addToGroup_methodGroups, ih, List.append_assoc]
        rfl
  rw [nameClashes_eq_filter, ← List.nil_append methods, ← hgroups []]
  rfl

end Adding

section Exact

/-- The clashes among some methods are the names of more than one, with all signatures. -/
theorem mem_nameClashes_iff (clash : NameClash) :
    clash ∈ nameClashes methods
      ↔ clash.formal = (methods.filter (·.name = clash.name)).map (·.formalSignature)
        ∧ 1 < clash.formal.length := by
  unfold nameClashes
  rw [List.mem_filter, List.mem_map, decide_eq_true_eq]
  constructor
  · rintro ⟨⟨name, _, rfl⟩, hmany⟩
    exact ⟨rfl, hmany⟩
  · rintro ⟨hformal, hmany⟩
    refine ⟨⟨clash.name, ?_, ?_⟩, hmany⟩
    · -- A name of more than one method is the name of one.
      rw [mem_sortNames]
      rw [hformal, List.length_map] at hmany
      rcases List.exists_mem_of_length_pos (Nat.lt_trans Nat.zero_lt_one hmany) with ⟨m, hm⟩
      rw [List.mem_filter, decide_eq_true_eq] at hm
      exact List.mem_map.mpr ⟨m, hm.1, hm.2⟩
    · cases clash
      simp only [NameClash.mk.injEq, true_and]
      exact hformal.symm

/-- A name clashes if more than one method has it. -/
theorem any_nameClashes_iff (name : String) :
    (nameClashes methods).any (·.name = name) = true
      ↔ 1 < (methods.filter (·.name = name)).length := by
  rw [List.any_eq_true]
  constructor
  · rintro ⟨clash, hclash, hname⟩
    rw [decide_eq_true_eq] at hname
    subst hname
    rcases (mem_nameClashes_iff methods clash).mp hclash with ⟨hformal, hmany⟩
    rw [hformal, List.length_map] at hmany
    exact hmany
  · intro hmany
    refine ⟨⟨name, (methods.filter (·.name = name)).map (·.formalSignature)⟩,
      (mem_nameClashes_iff methods _).mpr ⟨rfl, ?_⟩, decide_eq_true rfl⟩
    rw [List.length_map]
    exact hmany

/-- The clashes are in strict order of their names. -/
theorem pairwise_nameClashes : (nameClashes methods).Pairwise fun c d => c.name < d.name := by
  unfold nameClashes
  exact List.Pairwise.filter _ (List.pairwise_map.mpr (pairwise_sortNames _))

theorem nodup_nameClashes : (nameClashes methods).Nodup :=
  (pairwise_nameClashes methods).imp fun hlt => ne_of_apply_ne NameClash.name (String.ne_of_lt hlt)

/-- The methods that are the only ones of their name. -/
def soleMethods : List DeclaredMethod :=
  methods.filter fun m => (methods.map (·.name)).count m.name = 1

theorem count_name_eq_length (name : String) :
    (methods.map (·.name)).count name = (methods.filter (·.name = name)).length := by
  rw [List.count_eq_countP, List.countP_map, List.countP_eq_length_filter]
  rfl

/-- A name clashes if it occurs twice among the names of the methods. -/
theorem mem_names_nameClashes_iff (name : String) :
    name ∈ (nameClashes methods).map (·.name) ↔ 2 ≤ (methods.map (·.name)).count name := by
  rw [count_name_eq_length, Nat.succ_le_iff, ← any_nameClashes_iff, List.any_eq_true, List.mem_map]
  simp only [decide_eq_true_eq]

/-- The methods of some names, name by name, are those of the list that have one of the names. -/
theorem perm_flatMap_filter (names : List String) (hnames : names.Nodup) :
    (names.flatMap fun name => methods.filter (·.name = name)).Perm
      (methods.filter (·.name ∈ names)) := by
  induction names with
  | nil => simp
  | cons name rest ih =>
      rw [List.nodup_cons] at hnames
      -- The methods of the first name, and those of the others.
      have hsplit :=
        List.filter_append_perm (·.name = name) (methods.filter (·.name ∈ name :: rest))
      rw [List.filter_filter, List.filter_filter] at hsplit
      refine List.Perm.trans ?_ hsplit
      rw [List.flatMap_cons]
      refine List.Perm.append (List.Perm.of_eq (List.filter_congr fun m _ => ?_))
        ((ih hnames.2).trans (List.Perm.of_eq (List.filter_congr fun m _ => ?_)))
      · by_cases hm : m.name = name <;> simp [hm]
      · by_cases hm : m.name = name
        · simp [hm, hnames.1]
        · simp [hm]

/-- Every method is one of the methods of a clash or the only one of its name. -/
theorem perm_nameClashes_append_soleMethods :
    (((nameClashes methods).flatMap fun c => methods.filter (·.name = c.name))
      ++ soleMethods methods).Perm methods := by
  have hnodup : ((nameClashes methods).map (·.name)).Nodup :=
    (List.pairwise_map.mpr (pairwise_nameClashes methods)).imp fun hlt => String.ne_of_lt hlt
  have hclash := perm_flatMap_filter methods _ hnodup
  rw [List.flatMap_map] at hclash
  refine (hclash.append_right _).trans ?_
  have hsole : soleMethods methods
      = methods.filter fun m => !(m.name ∈ (nameClashes methods).map (·.name) : Bool) := by
    refine List.filter_congr fun m hm => ?_
    have hpos : 0 < (methods.map (·.name)).count m.name :=
      List.count_pos_iff.mpr (List.mem_map_of_mem hm)
    rw [Bool.eq_iff_iff, decide_eq_true_eq, Bool.not_eq_true', decide_eq_false_iff_not,
      mem_names_nameClashes_iff]
    omega
  rw [hsole]
  exact List.filter_append_perm _ methods

/-- The clashes of some methods are exactly the names that more than one method has: in strict
    order, each with the signatures of its methods as they come. With the methods that are the only
    ones of their name, they account for every method once. -/
theorem nameClashes_exact :
    (nameClashes methods).Pairwise (fun c d => c.name < d.name)
      ∧ (∀ name, name ∈ (nameClashes methods).map (·.name)
        ↔ 2 ≤ (methods.map (·.name)).count name)
      ∧ (∀ c ∈ nameClashes methods,
        c.formal = (methods.filter (·.name = c.name)).map (·.formalSignature))
      ∧ (((nameClashes methods).flatMap fun c => methods.filter (·.name = c.name))
        ++ soleMethods methods).Perm methods
      ∧ ((nameClashes methods).flatMap (·.formal)
        ++ (soleMethods methods).map (·.formalSignature)).Perm
          (methods.map (·.formalSignature)) := by
  have hformal : ∀ c ∈ nameClashes methods,
      c.formal = (methods.filter (·.name = c.name)).map (·.formalSignature) := fun c hc =>
    ((mem_nameClashes_iff methods c).mp hc).1
  have hperm := perm_nameClashes_append_soleMethods methods
  refine ⟨pairwise_nameClashes methods, mem_names_nameClashes_iff methods, hformal, hperm, ?_⟩
  rw [List.flatMap_congr hformal, ← List.map_flatMap, ← List.map_append]
  exact hperm.map _

end Exact

end PlatformBridge
