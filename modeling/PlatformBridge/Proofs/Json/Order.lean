import Mathlib.Data.List.Nodup
import PlatformBridge.Proofs.Json.Documents

/-!
# The Order of Members

The members of an object come in some order, which means nothing. Sorting
them by key puts them in an order that depends on nothing but the members, if
their keys are distinct, so two values are the same up to the order of members
when they are equal once sorted. All orders in which a value is written,
whichever rule they follow, are the same in this sense.

Canonical texts do not sort by key but by the key with its quotes and
escapes, which is another order. That is why sorting is stated here for any
rule. `sorted_sorted` says that sorting by key forgets whatever rule was
followed before, and it is all that is needed to compare what was written with
what is read.

Both uses of it are here. A reader is shown a value in some order and has to
find its members, and two values that are the same have the same members, at
every depth. The lemmas in `Same` are named for the form of value that they
take apart. `take` removes one member, which is what a reader does with the
tag of a variant before it looks at the rest.

## Main definitions

* `Json.Same`: Two values differ in the order of members only.
* `Json.Same.sortValues`: Members with the values in them sorted.

## Theorems

* `Json.sortMembers_perm`: Sorting rearranges members.
* `Json.pairwise_sortMembers`: Sorted members are in the order of their keys.
* `Json.sortMembers_eq_of_perm`: Sorting by key forgets the order.
* `Json.sorted_sorted`: Sorting by key forgets an order of all objects in a
  value.
* `Json.IsDocument.sorted`, `Json.depth_sorted`: A sorted value can be
  written as well.
* `Json.Same.array`, `Json.Same.object_iff`: Arrays and objects that are the
  same.
* `Json.Same.value`, `Json.Same.tag`, `Json.Same.exists_member`: Members of
  objects that are the same.
* `Json.Same.forall₂`: Objects with their keys in the same order.
* `Json.Same.filter`, `Json.Same.take`: Objects without some of their
  members.
-/

namespace PlatformBridge

namespace Json

variable (before : String → String → Bool)

/-- A member of a new key is put somewhere among the others. -/
theorem insertMember_perm (key : String) (value : Json) (members : List (String × Json))
    (hnew : key ∉ members.map (·.1)) :
    (insertMember before key value members).Perm ((key, value) :: members) := by
  induction members with
  | nil => exact .refl _
  | cons m rest ih =>
      rw [List.map_cons, List.mem_cons, not_or] at hnew
      rw [insertMember, if_neg hnew.1]
      by_cases hbefore : before key m.1 = true
      · rw [if_pos hbefore]
      · rw [if_neg hbefore]
        exact ((ih hnew.2).cons m).trans (.swap (key, value) m rest)

/-- Members that are put in one after the other, all of different keys, are all there. -/
theorem foldl_insertMember_perm (members : List (String × Json)) :
    ∀ sorted, ((members ++ sorted).map (·.1)).Nodup →
      (members.foldl (fun sorted m => insertMember before m.1 m.2 sorted) sorted).Perm
        (members ++ sorted) := by
  induction members with
  | nil =>
      intro sorted _
      exact .refl _
  | cons m rest ih =>
      intro sorted hnodup
      have hnew : m.1 ∉ sorted.map (·.1) := by
        rw [List.cons_append, List.map_cons, List.nodup_cons, List.map_append, List.mem_append,
          not_or] at hnodup
        exact hnodup.1.2
      have hinsert := insertMember_perm before m.1 m.2 sorted hnew
      have hmove : (rest ++ insertMember before m.1 m.2 sorted).Perm (m :: (rest ++ sorted)) :=
        (hinsert.append_left rest).trans List.perm_middle
      have hkeys : ((rest ++ insertMember before m.1 m.2 sorted).map (·.1)).Nodup :=
        (hmove.map (·.1)).nodup_iff.mpr hnodup
      exact (ih _ hkeys).trans hmove

/-- Sorting rearranges members of distinct keys. -/
theorem sortMembers_perm (members : List (String × Json)) (h : (members.map (·.1)).Nodup) :
    (sortMembers before members).Perm members := by
  have hperm := foldl_insertMember_perm before members [] (by rwa [List.append_nil])
  rw [List.append_nil] at hperm
  exact hperm

theorem mem_of_mem_insertMember (key : String) (value : Json) (members : List (String × Json))
    (m : String × Json) (h : m ∈ insertMember before key value members) :
    m = (key, value) ∨ m ∈ members := by
  induction members with
  | nil => exact Or.inl (List.mem_singleton.mp h)
  | cons n rest ih =>
      rw [insertMember] at h
      split at h
      · exact (List.mem_cons.mp h).imp_right (List.mem_cons_of_mem n)
      · split at h
        · exact List.mem_cons.mp h
        · rcases List.mem_cons.mp h with rfl | h
          · exact Or.inr List.mem_cons_self
          · exact (ih h).imp_right (List.mem_cons_of_mem n)

/-- Setting a member keeps members in the strict order of their keys. -/
theorem pairwise_insertMember (key : String) (value : Json) (members : List (String × Json))
    (h : members.Pairwise fun m n => m.1 < n.1) :
    (insertMember keyBefore key value members).Pairwise fun m n => m.1 < n.1 := by
  induction members with
  | nil => exact List.pairwise_singleton _ _
  | cons m rest ih =>
      rw [List.pairwise_cons] at h
      rw [insertMember]
      -- The key is put in place of an equal one, in front of the first that is larger, or further
      -- behind.
      by_cases hkey : key = m.1
      · rw [if_pos hkey]
        exact List.pairwise_cons.mpr ⟨fun n hn => hkey ▸ h.1 n hn, h.2⟩
      · rw [if_neg hkey]
        by_cases hbefore : key < m.1
        · have hkeys : keyBefore key m.1 = true := decide_eq_true hbefore
          rw [if_pos hkeys]
          refine List.pairwise_cons.mpr ⟨fun n hn => ?_, List.pairwise_cons.mpr h⟩
          rcases List.mem_cons.mp hn with rfl | hn
          · exact hbefore
          · exact String.lt_trans hbefore (h.1 n hn)
        · rw [if_neg (by simpa only [keyBefore, decide_eq_true_eq] using hbefore)]
          refine List.pairwise_cons.mpr ⟨fun n hn => ?_, ih h.2⟩
          rcases mem_of_mem_insertMember keyBefore key value rest n hn with rfl | hn
          · -- Neither equal nor before, the new key comes after.
            exact String.not_le.mp fun hle =>
              hkey (String.le_antisymm hle (String.not_lt.mp hbefore))
          · exact h.1 n hn

/-- Sorted members are in the strict order of their keys. -/
theorem pairwise_sortMembers (members : List (String × Json)) :
    (sortMembers keyBefore members).Pairwise fun m n => m.1 < n.1 := by
  have hfold : ∀ sorted : List (String × Json), (sorted.Pairwise fun m n => m.1 < n.1) →
      (members.foldl (fun sorted m => insertMember keyBefore m.1 m.2 sorted) sorted).Pairwise
        fun m n => m.1 < n.1 := by
    induction members with
    | nil => exact fun _ h => h
    | cons m rest ih => exact fun sorted h => ih _ (pairwise_insertMember m.1 m.2 sorted h)
  exact hfold [] .nil

/-- Sorting by key forgets the order. -/
theorem sortMembers_eq_of_perm (members others : List (String × Json))
    (h : (members.map (·.1)).Nodup) (hperm : members.Perm others) :
    sortMembers keyBefore members = sortMembers keyBefore others := by
  have hothers : (others.map (·.1)).Nodup := (hperm.map (·.1)).nodup_iff.mp h
  refine List.Perm.eq_of_pairwise (fun m n _ _ hlt hgt => ?_) (pairwise_sortMembers members)
    (pairwise_sortMembers others) ?_
  · exact absurd hgt (String.lt_asymm hlt)
  · exact (sortMembers_perm keyBefore members h).trans
      (hperm.trans (sortMembers_perm keyBefore others hothers).symm)

theorem map_fst_sorted (members : List (String × Json)) :
    (members.map fun m => (m.1, m.2.sorted before)).map (·.1) = members.map (·.1) := by
  rw [List.map_map]
  rfl

/-- Sorting by key forgets an order of all objects in a value. -/
theorem sorted_sorted (layout : Layout) (v : Json) (h : v.IsDocument layout) :
    (v.sorted before).sorted keyBefore = v.sorted keyBefore := by
  induction h with
  | null => rfl
  | bool b => rfl
  | number n _ => rfl
  | string s => rfl
  | array items _ ih =>
      simp only [sorted, sortedItems_eq_map, List.map_map, array.injEq]
      exact List.map_congr_left ih
  | object members distinct _ ih =>
      have hkeys := map_fst_sorted before members
      have hperm := sortMembers_perm before (members.map fun m => (m.1, m.2.sorted before))
        (hkeys ▸ distinct)
      simp only [sorted, sortedMembers_eq_map, object.injEq]
      rw [sortMembers_eq_of_perm _ _ ?_ (hperm.map fun m => (m.1, m.2.sorted keyBefore)),
        List.map_map]
      · refine congrArg (sortMembers keyBefore) (List.map_congr_left fun m hm => ?_)
        exact congrArg (Prod.mk m.1) (ih m hm)
      · rw [map_fst_sorted]
        exact (hperm.map (·.1)).nodup_iff.mpr (hkeys ▸ distinct)

/-- A sorted value can be written as well. -/
theorem IsDocument.sorted {layout : Layout} {v : Json} (h : v.IsDocument layout) :
    (v.sorted before).IsDocument layout := by
  induction h with
  | null => exact .null
  | bool b => exact .bool b
  | number n hn => exact .number n hn
  | string s => exact .string s
  | array items _ ih =>
      rw [Json.sorted, sortedItems_eq_map]
      refine .array _ fun w hw => ?_
      rcases List.mem_map.mp hw with ⟨v, hv, rfl⟩
      exact ih v hv
  | object members distinct _ ih =>
      rw [← map_fst_sorted before members] at distinct
      have hperm := sortMembers_perm before _ distinct
      rw [Json.sorted, sortedMembers_eq_map]
      refine .object _ ((hperm.map (·.1)).nodup_iff.mpr distinct) fun n hn => ?_
      rcases List.mem_map.mp (hperm.mem_iff.mp hn) with ⟨m, hm, rfl⟩
      exact ih m hm

theorem depth_sorted_le_iff (layout : Layout) (v : Json) (h : v.IsDocument layout) :
    ∀ n, (v.sorted before).depth ≤ n ↔ v.depth ≤ n := by
  induction h with
  | null => exact fun _ => Iff.rfl
  | bool b => exact fun _ => Iff.rfl
  | number n _ => exact fun _ => Iff.rfl
  | string s => exact fun _ => Iff.rfl
  | array items _ ih =>
      intro n
      rw [sorted, sortedItems_eq_map]
      cases n with
      | zero => simp only [not_depth_array_le_zero]
      | succ n =>
          simp only [depth_array_le_iff, List.forall_mem_map]
          exact forall₂_congr fun v hv => ih v hv n
  | object members distinct _ ih =>
      intro n
      rw [← map_fst_sorted before members] at distinct
      -- Sorting does not change which members there are.
      have hperm := sortMembers_perm before _ distinct
      rw [sorted, sortedMembers_eq_map]
      cases n with
      | zero => simp only [not_depth_object_le_zero]
      | succ n =>
          simp only [depth_object_le_iff, hperm.mem_iff, List.forall_mem_map]
          exact forall₂_congr fun m hm => ih m hm n

/-- Sorting does not change how deep a value nests. -/
theorem depth_sorted (layout : Layout) (v : Json) (h : v.IsDocument layout) :
    (v.sorted before).depth = v.depth :=
  Nat.le_antisymm ((depth_sorted_le_iff before layout v h _).mpr (Nat.le_refl _))
    ((depth_sorted_le_iff before layout v h _).mp (Nat.le_refl _))

/-- Two values differ in the order of members only. -/
def Same (v w : Json) : Prop := v.sorted keyBefore = w.sorted keyBefore

namespace Same

variable {v w : Json}

theorem symm (h : v.Same w) : w.Same v := Eq.symm h

theorem depth_eq {layout : Layout} (h : v.Same w) (hv : v.IsDocument layout)
    (hw : w.IsDocument layout) : v.depth = w.depth := by
  rw [← depth_sorted keyBefore layout v hv, h, depth_sorted keyBefore layout w hw]

/-- What has no parts is the same as itself only. -/
theorem eq_string {s : String} (h : v.Same (string s)) : v = string s := by
  cases v <;> simp_all [Same, sorted]

theorem eq_bool {b : Bool} (h : v.Same (bool b)) : v = bool b := by
  cases v <;> simp_all [Same, sorted]

theorem eq_null (h : v.Same null) : v = null := by
  cases v <;> simp_all [Same, sorted]

theorem eq_number {n : Number} (h : v.Same (number n)) : v = number n := by
  cases v <;> simp_all [Same, sorted]

/-- What is the same as an array is an array of items that are the same. -/
theorem array {items : List Json} (h : v.Same (array items)) :
    ∃ others, v = .array others ∧ List.Forall₂ Same others items := by
  unfold Same at h
  cases v with
  | array others =>
      simp only [sorted, sortedItems_eq_map, array.injEq] at h
      refine ⟨others, rfl, ?_⟩
      rw [← List.forall₂_eq_eq_eq, List.forall₂_map_left_iff, List.forall₂_map_right_iff] at h
      exact h
  | null => simp only [sorted, reduceCtorEq] at h
  | bool b => simp only [sorted, reduceCtorEq] at h
  | number n => simp only [sorted, reduceCtorEq] at h
  | string s => simp only [sorted, reduceCtorEq] at h
  | object members => simp only [sorted, reduceCtorEq] at h

/-- What is the same as an object is an object. -/
theorem exists_object {members : List (String × Json)} (h : v.Same (object members)) :
    ∃ others, v = .object others := by
  unfold Same at h
  cases v with
  | object others => exact ⟨others, rfl⟩
  | null => simp only [sorted, reduceCtorEq] at h
  | bool b => simp only [sorted, reduceCtorEq] at h
  | number n => simp only [sorted, reduceCtorEq] at h
  | string s => simp only [sorted, reduceCtorEq] at h
  | array items => simp only [sorted, reduceCtorEq] at h

section Members

/-- Members with the values in them sorted. -/
def sortValues (members : List (String × Json)) : List (String × Json) :=
  members.map fun m => (m.1, m.2.sorted keyBefore)

variable {members others : List (String × Json)} (hmembers : (members.map (·.1)).Nodup)
variable (hothers : (others.map (·.1)).Nodup)

include hmembers hothers in
/-- Objects are the same if each has the members of the other, up to what is the same. -/
theorem object_iff :
    (object members).Same (object others) ↔ (sortValues members).Perm (sortValues others) := by
  have hkeys := map_fst_sorted keyBefore members
  have hkeys' := map_fst_sorted keyBefore others
  simp only [Same, sorted, sortedMembers_eq_map, object.injEq]
  constructor
  · intro h
    have hperm := sortMembers_perm keyBefore (sortValues members) (hkeys.symm ▸ hmembers)
    exact hperm.symm.trans (h ▸ sortMembers_perm keyBefore _ (hkeys'.symm ▸ hothers))
  · exact sortMembers_eq_of_perm _ _ (hkeys.symm ▸ hmembers)

include hmembers hothers in
/-- Objects that are the same have the same value under a key. -/
theorem value (h : (object members).Same (object others)) {key : String}
    (hv : (key, v) ∈ members) (hw : (key, w) ∈ others) : v.Same w := by
  have hperm := (object_iff hmembers hothers).mp h
  have hmem : (key, v.sorted keyBefore) ∈ sortValues others :=
    hperm.mem_iff.mp (List.mem_map_of_mem hv)
  rcases List.mem_map.mp hmem with ⟨m, hm, heq⟩
  rw [Prod.mk.injEq] at heq
  -- A key occurs once, so the member found is the one in question.
  have hsame : m = (key, w) := List.inj_on_of_nodup_map hothers hm hw heq.1
  rw [hsame] at heq
  exact heq.2.symm

include hmembers hothers in
/-- Variants that are the same have the same tag. -/
theorem tag {key s s' : String} (h : (object members).Same (object others))
    (hs : (key, string s) ∈ members) (hs' : (key, string s') ∈ others) : s = s' :=
  string.inj (h.value hmembers hothers hs hs').eq_string

include hmembers in
/-- Objects with the same keys in the same order are the same if the values are, one by one. -/
theorem forall₂ (h : (object members).Same (object others))
    (hkeys : members.map (·.1) = others.map (·.1)) :
    List.Forall₂ (fun m n => m.2.Same n.2) members others := by
  refine List.forall₂_iff_get.mpr ⟨by simpa using congrArg List.length hkeys, fun i hi hi' => ?_⟩
  have hkey : (members.get ⟨i, hi⟩).1 = (others.get ⟨i, hi'⟩).1 := by
    have hget := List.getElem_of_eq hkeys (by simpa using hi : i < (members.map (·.1)).length)
    simpa using hget
  refine h.value hmembers (hkeys ▸ hmembers) (List.get_mem members ⟨i, hi⟩) ?_
  rw [hkey]
  exact List.get_mem others ⟨i, hi'⟩

include hmembers hothers in
/-- Objects that are the same have a key both, or neither. -/
theorem exists_member (h : (object members).Same (object others)) (m : String × Json)
    (hm : m ∈ others) : ∃ v, (m.1, v) ∈ members ∧ v.Same m.2 := by
  have hperm := (object_iff hmembers hothers).mp h
  have hmem : (m.1, m.2.sorted keyBefore) ∈ sortValues members :=
    hperm.mem_iff.mpr (List.mem_map_of_mem hm)
  rcases List.mem_map.mp hmem with ⟨n, hn, heq⟩
  rw [Prod.mk.injEq] at heq
  exact ⟨n.2, heq.1 ▸ hn, heq.2⟩

include hmembers hothers in
/-- Objects that are the same are so without the members of some keys. -/
theorem filter (h : (object members).Same (object others)) (p : String → Bool) :
    (object (members.filter fun m => p m.1)).Same (object (others.filter fun m => p m.1)) := by
  have hfilter : ∀ ms : List (String × Json),
      sortValues (ms.filter fun m => p m.1) = (sortValues ms).filter fun m => p m.1 := by
    intro ms
    rw [sortValues, sortValues, List.filter_map]
    rfl
  have hsub : ∀ ms : List (String × Json), (ms.map (·.1)).Nodup →
      ((ms.filter fun m => p m.1).map (·.1)).Nodup :=
    fun ms hms => hms.sublist (List.filter_sublist.map _)
  rw [object_iff (hsub members hmembers) (hsub others hothers), hfilter, hfilter]
  exact ((object_iff hmembers hothers).mp h).filter _

include hothers in
/-- An object that is the same as one with a key in front has one member of this key, and is the
    same without it. -/
theorem take {key : String} (hkeys : (((key, v) :: members).map (·.1)).Nodup)
    (h : (object others).Same (object ((key, v) :: members))) :
    ∃ u, others.filter (fun m => decide (m.1 = key)) = [(key, u)] ∧ u.Same v
      ∧ (object (others.filter fun m => decide (m.1 ≠ key))).Same (object members) := by
  have hnew : ∀ m ∈ members, m.1 ≠ key := by
    rw [List.map_cons, List.nodup_cons] at hkeys
    exact fun m hm heq => hkeys.1 (List.mem_map.mpr ⟨m, hm, heq⟩)
  have hwith : ((key, v) :: members).filter (fun m => decide (m.1 = key)) = [(key, v)] := by
    rw [List.filter_cons_of_pos (by exact decide_eq_true rfl), List.filter_eq_nil_iff.mpr]
    exact fun m hm heq => hnew m hm (of_decide_eq_true heq)
  have hwithout : ((key, v) :: members).filter (fun m => decide (m.1 ≠ key)) = members := by
    rw [List.filter_cons_of_neg (by exact fun h => of_decide_eq_true h rfl), List.filter_eq_self]
    exact fun m hm => decide_eq_true (hnew m hm)
  have hsingle : ([(key, v)].map (·.1)).Nodup := List.nodup_singleton key
  have hone := h.filter hothers hkeys fun k => decide (k = key)
  have hrest := h.filter hothers hkeys fun k => decide (k ≠ key)
  rw [hwithout] at hrest
  rw [hwith, object_iff (hothers.sublist (List.filter_sublist.map _)) hsingle] at hone
  rcases List.map_eq_singleton_iff.mp (List.perm_singleton.mp hone) with ⟨⟨k, u⟩, hu, heq⟩
  rw [Prod.mk.injEq] at heq
  obtain rfl : k = key := heq.1
  exact ⟨u, hu, heq.2, hrest⟩

end Members

end Same

end Json

end PlatformBridge
