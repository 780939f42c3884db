import PlatformBridge.Proofs.Json.Numerals
import PlatformBridge.Proofs.Json.Written

/-!
# Values That Programs Hold

A program holds the members of an object in the order of their keys, each key
once, and its numbers are integers of 64 bits, with or without sign, or finite
doubles. Such a value is what is read from its own text, without a loss, if it
nests little enough. Nothing else is known of it: it may be null, and objects
may be empty.

These are the values that cross between the two sides as arguments, results
and payloads of messages. A message has such a value as a part, and is found
by a reader like any other record. So what is needed of a value is that it is
found in each document of it, which is `Reader.json_finds`.

Where a part of a message may be left out, a value that is null cannot be told
from one that is not there. `unlessNull` is what is left of a value then, and
the lemma about readers of such parts is stated with it, so that what is lost
shows in the statement.

## Main definitions

* `Json.Number.IsHeld`, `Json.IsValue`: Numbers and values that a program
  holds.
* `Json.unlessNull`: A value that is taken for absent if it is null.

## Theorems

* `Json.Number.IsHeld.isLegible`: Such numbers are read back.
* `Json.IsValue.isDocument`, `Json.IsValue.sorted_eq`: Such values can be
  written, and are sorted already.
* `Json.Reader.json_finds`, `Json.Reader.orNull_json_finds`: They are found in
  their documents.
* `Json.ofText?_render`: The document in a text without blanks.
* `Json.Reader.readText?_of_finds`: What is read from such a text.
-/

namespace PlatformBridge

namespace Json

/-- A number that a program holds: an integer of 64 bits, with or without sign, or a finite double.
    -/
def Number.IsHeld : Number → Prop
  | .integer n => -0x8000000000000000 ≤ n ∧ n < 0x10000000000000000
  | .float x => x.isFinite = true

/-- A value that a program holds. -/
inductive IsValue : Json → Prop where
  | null : IsValue null
  | bool (b : Bool) : IsValue (bool b)
  | number (n : Number) (h : n.IsHeld) : IsValue (number n)
  | string (s : String) : IsValue (string s)
  | array (items : List Json) (h : ∀ v ∈ items, IsValue v) : IsValue (array items)
  | object (members : List (String × Json)) (ordered : members.Pairwise fun m n => m.1 < n.1)
      (h : ∀ m ∈ members, IsValue m.2) : IsValue (object members)

/-- A number that a program holds is read back from its text. -/
theorem Number.IsHeld.isLegible {n : Number} (h : n.IsHeld) : Token.IsLegible .json n := by
  cases n with
  | integer n => exact isLegible_integer .json n h.1 h.2
  | float x => exact isLegible_float x h

/-- Keys in strict order are distinct. -/
theorem nodup_of_ordered (members : List (String × Json))
    (h : members.Pairwise fun m n => m.1 < n.1) : (members.map (·.1)).Nodup := by
  rw [List.nodup_iff_pairwise_ne, List.pairwise_map]
  refine h.imp fun {m n} hlt heq => ?_
  rw [heq] at hlt
  exact String.lt_irrefl _ hlt

namespace IsValue

variable {v : Json}

/-- A value that a program holds can be written. -/
theorem isDocument (h : v.IsValue) : v.IsDocument .json := by
  induction h with
  | null => exact .null
  | bool b => exact .bool b
  | number n hn => exact .number n hn.isLegible
  | string s => exact .string s
  | array items _ ih => exact .array items ih
  | object members ordered _ ih => exact .object members (nodup_of_ordered members ordered) ih

/-- A value that a program holds is sorted already. -/
theorem sorted_eq (h : v.IsValue) : v.sorted keyBefore = v := by
  induction h with
  | null | bool _ | number _ _ | string _ => rfl
  | array items _ ih =>
      rw [sorted, sortedItems_eq_map, List.map_congr_left ih, List.map_id']
  | object members ordered _ ih =>
      have hvalues : members.map (fun m => (m.1, m.2.sorted keyBefore)) = members := by
        rw [List.map_congr_left fun m hm => congrArg (Prod.mk m.1) (ih m hm)]
        exact List.map_id' members
      have hperm := sortMembers_perm keyBefore members (nodup_of_ordered members ordered)
      rw [sorted, sortedMembers_eq_map, hvalues]
      -- Members in strict order can be sorted in one way only.
      refine congrArg Json.object (hperm.eq_of_pairwise (fun m n _ _ hlt hgt => ?_)
        (pairwise_sortMembers members) ordered)
      exact absurd hgt (String.lt_asymm hlt)

end IsValue

/-- A value that a program holds is found in every document of it. -/
theorem Reader.json_finds (v : Json) (h : v.IsValue) : Reader.json.Finds v v := by
  rintro a t ⟨layout, w, hdocument, hsame, hadmits, rfl⟩
  have hread : ∀ n, w.depth ≤ n → (w.toTree layout).toJson? n = some v := by
    intro n hn
    rw [toJson?_toTree layout w hdocument, if_pos hn, hsame, h.sorted_eq]
  cases a with
  | none => exact hread _ hadmits.1
  | some n => exact hread n (hadmits.2 n rfl)

/-- The value, unless it is null. -/
def unlessNull : Json → Option Json
  | null => none
  | v => some v

theorem unlessNull_of_ne {v : Json} (h : v ≠ .null) : v.unlessNull = some v := by
  cases v with
  | null => exact absurd rfl h
  | _ => rfl

/-- Whatever may be null and is, is taken for absent. -/
theorem Reader.orNull_json_finds (v : Json) (h : v.IsValue) :
    json.orNull.Finds v v.unlessNull := by
  by_cases hnull : v = .null
  · subst hnull
    exact orNull_finds json id none nofun
  · rw [unlessNull_of_ne hnull]
    refine orNull_finds json id (some v) fun w hw => ?_
    cases hw
    exact ⟨hnull, json_finds v h⟩

/-- The document in a text without blanks is the one of the value. -/
theorem ofText?_render (v : Json) (h : v.IsDocument .json) :
    Tree.ofText? v.render = some (v.toTree .json) :=
  ofText?_of_scans _ _ (scans_compact .json v h)

/-- What a reader finds in the documents of a value, it finds in its text, if the value nests little
    enough. -/
theorem Reader.readText?_of_finds {α : Type} (reader : Reader α) (v : Json) (x : α)
    (h : v.IsDocument .json) (hdepth : v.depth ≤ maxDepth) (hfinds : reader.Finds v x) :
    readText? reader v.render = some x := by
  rw [readText?, ofText?_render v h, Option.bind_some]
  exact hfinds _ _ ⟨.json, v, h, rfl, Allowance.admits_maxDepth hdepth, rfl⟩

end Json

end PlatformBridge
