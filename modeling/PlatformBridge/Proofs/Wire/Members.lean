import PlatformBridge.Json.Value
import PlatformBridge.Proofs.Contract.Lookup

/-!
# Members by Name

Looking up a name in a list of named things, where the first one of a name is
found. An object that is written gets its members sorted, and sorting takes the
last member of a name; when the names are distinct the two agree, so sorting
cannot be seen through a lookup.

The lemmas hold for sorting by any rule. A record is written with its members
sorted by name, and read with a lookup for each field, so what the rule is
makes no difference to what a record is read as.

## Theorems

* `Json.find?_insertMember`: Looking up a name after a member was set.
* `Json.find?_foldl_insertMember`: After some were set.
* `Json.find?_sortMembers`: In a sorted object the last member of a name counts.
* `Json.find?_sortMembers_of_nodup`: With distinct names every member is found.
* `Json.exists_mem_sortMembers_iff`: Sorting neither adds nor loses a name.
-/

namespace PlatformBridge

namespace Json

/-- Looking up a name after a member was set. -/
theorem find?_insertMember (before : String → String → Bool) (key : String) (value : Json)
    (name : String) (members : List (String × Json)) :
    (insertMember before key value members).find? (fun m => m.1 = name)
      = if key = name then some (key, value) else members.find? (fun m => m.1 = name) := by
  induction members with
  | nil =>
      rw [insertMember, List.find?_singleton]
      simp only [decide_eq_true_eq, List.find?_nil]
  | cons m rest ih =>
      rw [insertMember]
      -- The key replaces an equal one, goes in front of the first that comes after it, or goes on.
      by_cases hkey : key = m.1
      · rw [if_pos hkey, List.find?_cons, List.find?_cons]
        by_cases hname : key = name
        · simp only [hname, decide_true, if_true]
        · simp only [hname, hkey ▸ hname, decide_false, if_false]
      · rw [if_neg hkey]
        by_cases hbefore : before key m.1 = true
        · rw [if_pos hbefore, List.find?_cons]
          by_cases hname : key = name
          · simp only [hname, decide_true, if_true]
          · simp only [hname, decide_false, if_false]
        · rw [if_neg hbefore, List.find?_cons, ih, List.find?_cons]
          by_cases hm : m.1 = name
          · subst hm
            simp only [decide_true, if_neg hkey]
          · simp only [hm, decide_false]

-- Setting members one after the other: the last one of a name counts, and before all of them what
-- was there.
theorem find?_foldl_insertMember (before : String → String → Bool) (name : String)
    (members : List (String × Json)) :
    ∀ sorted, (members.foldl (fun sorted m => insertMember before m.1 m.2 sorted) sorted).find?
        (fun m => m.1 = name)
      = (members.reverse.find? fun m => m.1 = name).or (sorted.find? fun m => m.1 = name) := by
  induction members with
  | nil =>
      intro sorted
      rfl
  | cons m rest ih =>
      intro sorted
      rw [List.foldl_cons, ih, find?_insertMember, List.reverse_cons, List.find?_append,
        Option.or_assoc, List.find?_singleton]
      by_cases hm : m.1 = name
      · subst hm
        simp only [decide_true, if_true, Option.some_or]
      · simp only [hm, decide_false, Bool.false_eq_true, if_false, Option.none_or]

/-- In a sorted object the last member of a name counts. -/
theorem find?_sortMembers (before : String → String → Bool) (name : String)
    (members : List (String × Json)) :
    (sortMembers before members).find? (fun m => m.1 = name)
      = members.reverse.find? fun m => m.1 = name := by
  rw [sortMembers, find?_foldl_insertMember, List.find?_nil, Option.or_none]

/-- With distinct names every member of a sorted object is found under its own. -/
theorem find?_sortMembers_of_nodup (before : String → String → Bool)
    (members : List (String × Json)) (h : (members.map (·.1)).Nodup) (m : String × Json)
    (hm : m ∈ members) : (sortMembers before members).find? (fun x => x.1 = m.1) = some m := by
  rw [find?_sortMembers]
  refine find?_key_of_nodup (fun x => x.1) members.reverse ?_ m (List.mem_reverse.mpr hm)
  rw [List.map_reverse, List.nodup_reverse]
  exact h

/-- Sorting neither adds nor loses a name. -/
theorem exists_mem_sortMembers_iff (before : String → String → Bool) (name : String)
    (members : List (String × Json)) :
    (∃ m ∈ sortMembers before members, m.1 = name) ↔ ∃ m ∈ members, m.1 = name := by
  have hfound : ((sortMembers before members).find? fun m => m.1 = name).isSome = true
      ↔ (members.reverse.find? fun m => m.1 = name).isSome = true := by
    rw [find?_sortMembers]
  simpa only [List.find?_isSome, List.mem_reverse, decide_eq_true_eq] using hfound

end Json

end PlatformBridge
