import PlatformBridge.Proofs.Contract.Closed
import PlatformBridge.Proofs.Wire.Success

/-!
# Conversions in Closed Contracts

A conversion can fail because a value is not what its type says, and then the
sender of the value is to blame; or because the contract does not define a
type, and then the contract is. In a closed contract the second kind of failure
does not happen, whatever the value. The names that a conversion meets are
those inside the type it is given and inside the types of fields, and all of
these occur in the contract.

The argument follows the value, as conversion does: the type is that of a field
as soon as the value is a member of a record, so there is nothing to be said
about how deep types nest. A record that contains values of its own type is no
trouble for the same reason.

`FindsTypes` is about results, successes and failures alike. What a conversion
does with its parts is the same in both directions, and the parts decide in the
same way, so the first section is used for reading and for writing. The two
inductions at the end differ in the values that they are over and in nothing
else.

## Main definitions

* `Contract.FindsTypes`: A conversion does not fail for want of a definition.

## Theorems

* `Contract.FindsTypes.convertItems`, `Contract.FindsTypes.convertEntries`,
  `Contract.FindsTypes.convertField`, `Contract.FindsTypes.convertRecord`: The
  parts of a value decide.
* `Contract.Resolves.decodeLeaf_findsTypes`,
  `Contract.Resolves.encodeLeaf_findsTypes`: Values without parts.
* `Contract.Resolves.element`, `Contract.Resolves.value`,
  `Contract.Resolves.isSome_composite?`: The parts of a type.
* `Contract.IsClosed.decode_findsTypes`, `Contract.IsClosed.encode_findsTypes`:
  Conversions in closed contracts.
-/

namespace PlatformBridge

namespace Contract

open Results

/-- A conversion does not fail for want of a definition. -/
def FindsTypes {α : Type} (result : Except ConversionError α) : Prop :=
  ∀ place name, result ≠ .error (.unknownType place name)

namespace FindsTypes

variable {α β ι : Type}

theorem ok (value : α) : FindsTypes (.ok value) := by
  intro place name h
  cases h

theorem map {result : Except ConversionError α} (h : FindsTypes result) (f : α → β) :
    FindsTypes (result.map f) := by
  intro place name hmap
  exact h place name (map_eq_error.mp hmap)

/-- A row of conversions does not fail for want of a definition if none of them does. -/
theorem inRow {step : Nat → ι → Except ConversionError α} {xs : List ι} {index : Nat}
    (h : ∀ x ∈ xs, ∀ i, FindsTypes (step i x)) : FindsTypes (inRow step index xs) := by
  intro place name hrow
  rcases exists_of_inRow_eq_error step xs index _ hrow with ⟨x, hx, i, hi⟩
  exact h x hx i place name hi

-- Items of a list decide about the list.
theorem convertItems {F : ι → Conversion α} {element : BridgeType} {xs : List ι}
    (h : ∀ x ∈ xs, ∀ place, FindsTypes (F x element place)) (place : Location) (index : Nat) :
    FindsTypes (convertItems element place index (xs.map F)) := by
  rw [convertItems_eq_inRow]
  exact inRow fun x hx i => h x hx _

-- Values of entries decide about the map.
theorem convertEntries {key : ι → String} {F : ι → Conversion α} {type : BridgeType} {xs : List ι}
    (h : ∀ x ∈ xs, ∀ place, FindsTypes (F x type place)) (place : Location) :
    FindsTypes (convertEntries type place (xs.map fun x => (key x, F x))) := by
  rw [convertEntries_eq_inRow F key type place xs 0]
  exact inRow fun x hx i => (h x hx _).map _

/-- The entry of a field decides about the field, and a field without one fails for a reason of its
    own. -/
theorem convertField {absent : α} {entries : List (String × Conversion α)} {f : Field}
    (h : ∀ e ∈ entries, ∀ place, FindsTypes (e.2 f.type place)) (place : Location) :
    FindsTypes (convertField absent entries place f) := by
  unfold Contract.convertField
  cases hfind : entries.find? fun e => e.1 = f.name with
  | none =>
      by_cases hnull : f.type.isNullable = true
      · simp only [hnull, if_true]
        exact ok absent
      · simp only [hnull]
        intro place' name herror
        cases herror
  | some e => exact h e (List.mem_of_find?_eq_some hfind) _

-- Entries of a record decide about the record, if its type is a composite.
theorem convertRecord {c : Contract} {absent : α} {name : TypeName}
    {entries : List (String × Conversion α)} (hname : (c.composite? name).isSome = true)
    (h : ∀ e ∈ entries, ∀ f ∈ c.fieldsWithInherited name, ∀ place,
      FindsTypes (e.2 f.type place)) (place : Location) :
    FindsTypes (c.convertRecord absent place name entries) := by
  intro place' n hrecord
  unfold Contract.convertRecord at hrecord
  -- The name is a composite, so its fields are found and the failure comes later.
  rw [fieldsOf_eq, if_pos hname, bind_eq_error] at hrecord
  rcases hrecord with hfields | ⟨fields, hfields, hrest⟩
  · cases hfields
  · cases hfields
    cases hunknown : entries.find? fun e =>
        !(c.fieldsWithInherited name).any fun f => f.name = e.1 with
    | some unknown =>
        simp only [hunknown] at hrest
        cases hrest
    | none =>
        simp only [hunknown, convertFields_eq_inRow absent entries place _ 0] at hrest
        refine inRow (fun f hf i => ?_) place' n hrest
        exact (convertField (fun e he place => h e he f hf place) place).map _

end FindsTypes

theorem primitive_decode_findsTypes (p : Primitive) (place : Location) (v : Json) :
    FindsTypes (p.decode place v) := by
  intro place' name h
  unfold Primitive.decode at h
  split at h
  · cases h
  · cases h
  · split at h <;> cases h
  · split at h <;> cases h
  · split at h <;> cases h
  · split at h
    · cases h
    · split at h
      · split at h <;> cases h
      · cases h
  · cases h

theorem primitive_encode_findsTypes (p : Primitive) (place : Location) (d : Data) :
    FindsTypes (p.encode place d) := by
  intro place' name h
  unfold Primitive.encode at h
  split at h
  · cases h
  · cases h
  · cases h
  · split at h <;> cases h
  · split at h <;> cases h
  · split at h
    · cases h
    · split at h <;> cases h
  · cases h

/-- The members of an enumeration are looked up, which fails for want of a definition only without
    one. -/
theorem checkMember_findsTypes (c : Contract) (place : Location) (name : TypeName)
    (member : String) (hname : (c.enumeration? name).isSome = true) :
    FindsTypes (c.checkMember place name member) := by
  intro place' n h
  rw [checkMember_eq] at h
  rcases Option.isSome_iff_exists.mp hname with ⟨members, hmembers⟩
  simp only [hmembers] at h
  split at h <;> cases h

theorem Resolves.decodeLeaf_findsTypes {c : Contract} {type : BridgeType} (h : c.Resolves type)
    (v : Json) (place : Location) : FindsTypes (c.decodeLeaf v type place) := by
  unfold decodeLeaf
  split
  · exact primitive_decode_findsTypes _ place v
  -- An enumeration is the only type without parts that has a name.
  · cases h with
    | enum _ hname => exact (checkMember_findsTypes c place _ _ hname).map _
  · intro place' name herror
    cases herror

theorem Resolves.encodeLeaf_findsTypes {c : Contract} {type : BridgeType} (h : c.Resolves type)
    (d : Data) (place : Location) : FindsTypes (c.encodeLeaf d type place) := by
  unfold encodeLeaf
  split
  · exact primitive_encode_findsTypes _ place d
  · cases h with
    | enum _ hname => exact (checkMember_findsTypes c place _ _ hname).map _
  · intro place' name herror
    cases herror

-- Looking through absences does not lose a name.
theorem Resolves.present {c : Contract} {t : BridgeType} (h : c.Resolves t) :
    c.Resolves t.present := by
  induction h with
  | nullable inner _ ih => exact ih
  | primitive p => exact .primitive p
  | list element h _ => exact .list element h
  | map value h _ => exact .map value h
  | data name h => exact .data name h
  | enum name h => exact .enum name h

-- The parts of a type are known where the type is.
theorem Resolves.element {c : Contract} {t element : BridgeType} (h : c.Resolves t)
    (ht : t.present = .list element) : c.Resolves element := by
  have hpresent := h.present
  rw [ht] at hpresent
  cases hpresent with
  | list _ helement => exact helement

theorem Resolves.value {c : Contract} {t value : BridgeType} (h : c.Resolves t)
    (ht : t.present = .map value) : c.Resolves value := by
  have hpresent := h.present
  rw [ht] at hpresent
  cases hpresent with
  | map _ hvalue => exact hvalue

theorem Resolves.isSome_composite? {c : Contract} {t : BridgeType} {name : TypeName}
    (h : c.Resolves t) (ht : t.present = .data name) : (c.composite? name).isSome = true := by
  have hpresent := h.present
  rw [ht] at hpresent
  cases hpresent with
  | data _ hname => exact hname

/-- Reading in a closed contract does not fail for want of a definition. -/
theorem IsClosed.decode_findsTypes {c : Contract} (hc : c.IsClosed) (v : Json) :
    ∀ type, c.Resolves type → ∀ place, FindsTypes (c.decode v type place) := by
  induction v using Json.byParts with
  | null =>
      intro type htype place
      rw [decode]
      by_cases hnull : type.isNullable = true
      · rw [if_pos hnull]
        exact .ok _
      · rw [if_neg hnull]
        exact htype.decodeLeaf_findsTypes .null place
  | simple v hv =>
      intro type htype place
      rw [c.decode_simple v hv]
      exact htype.present.decodeLeaf_findsTypes v place
  | array items ih =>
      intro type htype place
      rw [decode, decodeItems_eq_map]
      cases htp : type.present with
      | list element =>
          have helement := htype.element htp
          exact (FindsTypes.convertItems (fun v hv => ih v hv element helement) place 0).map _
      | _ => exact (htp ▸ htype.present).decodeLeaf_findsTypes _ place
  | object members ih =>
      intro type htype place
      rw [decode, decodeMembers_eq_map]
      cases htp : type.present with
      | map value =>
          have hvalue := htype.value htp
          exact (FindsTypes.convertEntries (fun m hm => ih m hm value hvalue) place).map _
      | data name =>
          have hname := htype.isSome_composite? htp
          -- The type of a member is that of a field, which occurs in the contract.
          refine (FindsTypes.convertRecord hname
            (List.forall_mem_map.mpr fun m hm f hf => ?_) place).map _
          exact ih m hm f.type (hc.resolves_field name f hf)
      | _ => exact (htp ▸ htype.present).decodeLeaf_findsTypes _ place

/-- Writing in a closed contract does not fail for want of a definition. -/
theorem IsClosed.encode_findsTypes {c : Contract} (hc : c.IsClosed) (d : Data) :
    ∀ type, c.Resolves type → ∀ place, FindsTypes (c.encode d type place) := by
  -- A type is looked up for records and enumerations only, and a closed contract has it.
  induction d using Data.byParts with
  | null =>
      intro type htype place
      rw [encode]
      by_cases hnull : type.isNullable = true
      · rw [if_pos hnull]
        exact .ok _
      · rw [if_neg hnull]
        exact htype.encodeLeaf_findsTypes .null place
  | simple d hd =>
      intro type htype place
      rw [c.encode_simple d hd]
      exact htype.present.encodeLeaf_findsTypes d place
  | list items ih =>
      intro type htype place
      rw [encode, encodeItems_eq_map]
      cases htp : type.present with
      | list element =>
          have helement := htype.element htp
          exact (FindsTypes.convertItems (fun d hd => ih d hd element helement) place 0).map _
      | _ => exact (htp ▸ htype.present).encodeLeaf_findsTypes _ place
  | map entries ih =>
      intro type htype place
      rw [encode, encodeEntries_eq_map]
      cases htp : type.present with
      | map value =>
          have hvalue := htype.value htp
          exact (FindsTypes.convertEntries (fun e he => ih e he value hvalue) place).map _
      | _ => exact (htp ▸ htype.present).encodeLeaf_findsTypes _ place
  | record entries ih =>
      intro type htype place
      rw [encode, encodeEntries_eq_map]
      cases htp : type.present with
      | data name =>
          have hname := htype.isSome_composite? htp
          refine (FindsTypes.convertRecord hname
            (List.forall_mem_map.mpr fun e he f hf => ?_) place).map _
          exact ih e he f.type (hc.resolves_field name f hf)
      | _ => exact (htp ▸ htype.present).encodeLeaf_findsTypes _ place

end Contract

end PlatformBridge
