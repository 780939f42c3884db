import PlatformBridge.Proofs.Contract.Lookup
import PlatformBridge.Proofs.Results
import PlatformBridge.Proofs.Wire.Parts

/-!
# Values without Parts

What stands for what on the wire, as far as no parts are involved. The two
directions of conversion are two functions, and each is written with its own
order of checks and its own messages; what they have to agree on is the
relation between a document and the data in it. `Primitive.Denotes` is that
relation for primitives and `Contract.LeafDenotes` adds the members of
enumerations.

Reading is the relation exactly. Writing picks one of the documents that stand
for some data, and it has one to pick for all data that can be read: a number
may be written as an integer or as a float where floats are read, but what
writing gives is always a float again.

The relation has no place in it, and no order of checks. Proofs about round
trips and about what native code reads are by cases on it, and there are few:
texts, characters, booleans, integers in the range of their type, integers and
floats where floats are held, and members. A float that is too great for its type is none of
these, on either side.

## Main definitions

* `Primitive.Denotes`: A document and the data in it, at a primitive.
* `Contract.LeafDenotes`: A document and the data in it, at a type without
  parts.

## Theorems

* `Primitive.denotes_of_decode_eq_ok`, `Primitive.decode_of_denotes`,
  `Primitive.decode_eq_ok_iff`: Reading a primitive is the relation.
* `Primitive.denotes_of_encode_eq_ok`: What is written stands for the data.
* `Primitive.Denotes.exists_encode`: What can be read can be written.
* `Contract.checkMember_eq_ok_iff`: The members of an enumeration.
* `Contract.decodeLeaf_eq_ok_iff`, `Contract.leafDenotes_of_encodeLeaf_eq_ok`,
  `Contract.LeafDenotes.exists_encodeLeaf`: The same with enumerations.
* `Contract.LeafDenotes.isSimple`: Neither side of the relation has parts.
-/

namespace PlatformBridge

open Results

namespace Primitive

/-- A document and the data in it. A number stands for itself at an integer type, and for the double
    nearest to it at a floating-point type. -/
inductive Denotes : Primitive → Json → Data → Prop where
  | bool (b : Bool) : Denotes .bool (.bool b) (.bool b)
  | string (s : String) : Denotes .string (.string s) (.string s)
  | char (k : Char) : Denotes .char (.string (String.ofList [k])) (.char k)
  | float (p : Primitive) (n : Json.Number) (h : p.holdsFloat n.toBinary64 = true) :
      Denotes p (.number n) (.float n.toBinary64)
  | integer (p : Primitive) (i : Int) (h : p.holdsInteger i = true) :
      Denotes p (.number (.integer i)) (.integer i)

-- Only the floating-point types hold floats.
theorem eq_f32_or_f64_of_holdsFloat (p : Primitive) (x : Binary64) (h : p.holdsFloat x = true) :
    p = .f32 ∨ p = .f64 := by
  cases p with
  | f32 => exact Or.inl rfl
  | f64 => exact Or.inr rfl
  | _ => cases h

/-- What is read is what the document stands for. -/
theorem denotes_of_decode_eq_ok (p : Primitive) (place : Location) (v : Json) (d : Data)
    (h : p.decode place v = .ok d) : p.Denotes v d := by
  -- The cases are those of the code: a primitive with a value of the kind that it is read from.
  unfold decode at h
  split at h
  · cases h
    exact .bool _
  · cases h
    exact .string _
  · split at h
    · rename_i s _ k hs
      cases h
      have hone : s = String.ofList [k] := by rw [← hs, String.ofList_toList]
      rw [hone]
      exact .char k
    · cases h
  · split at h
    · cases h
      exact .float _ _ ‹_›
    · cases h
  · split at h
    · cases h
      exact .float _ _ ‹_›
    · cases h
  · -- All types that are left have integers or no numbers at all.
    split at h
    · cases h
    · split at h
      · split at h
        · cases h
          exact .integer _ _ ‹_›
        · cases h
      · cases h
  · cases h

/-- A document that stands for some data is read as these. -/
theorem decode_of_denotes (p : Primitive) (place : Location) (v : Json) (d : Data)
    (h : p.Denotes v d) : p.decode place v = .ok d := by
  cases h with
  | bool b => rfl
  | string s => rfl
  | char k => simp only [decode, String.toList_ofList]
  | float _ n h =>
      rcases eq_f32_or_f64_of_holdsFloat p _ h with rfl | rfl
      · simp only [decode, h, if_true]
      · simp only [decode, h, if_true]
  | integer _ i h =>
      cases p with
      | u8 | i8 | i16 | i32 | i64 =>
          simp only [decode, integerRange?, Option.isNone_some, h, Bool.false_eq_true, if_false,
            if_true]
      | _ => cases h

/-- Reading a primitive is the relation between documents and data. -/
theorem decode_eq_ok_iff (p : Primitive) (place : Location) (v : Json) (d : Data) :
    p.decode place v = .ok d ↔ p.Denotes v d :=
  ⟨denotes_of_decode_eq_ok p place v d, decode_of_denotes p place v d⟩

/-- What is written stands for the data. -/
theorem denotes_of_encode_eq_ok (p : Primitive) (place : Location) (d : Data) (w : Json)
    (h : p.encode place d = .ok w) : p.Denotes w d := by
  unfold encode at h
  split at h
  · cases h
    exact .bool _
  · cases h
    exact .string _
  · cases h
    exact .char _
  · split at h
    · cases h
      exact .float _ (.float _) ‹_›
    · cases h
  · split at h
    · cases h
      exact .float _ (.float _) ‹_›
    · cases h
  · split at h
    · cases h
    · split at h
      · cases h
        exact .integer _ _ ‹_›
      · cases h
  · cases h

/-- What can be read can be written. -/
theorem Denotes.exists_encode {p : Primitive} {v : Json} {d : Data} (h : p.Denotes v d) :
    ∃ w, ∀ place, p.encode place d = .ok w := by
  cases h with
  | bool b => exact ⟨.bool b, fun _ => rfl⟩
  | string s => exact ⟨.string s, fun _ => rfl⟩
  | char k => exact ⟨.string (String.ofList [k]), fun _ => rfl⟩
  | float _ n h =>
      refine ⟨.number (.float n.toBinary64), fun place => ?_⟩
      rcases eq_f32_or_f64_of_holdsFloat p _ h with rfl | rfl
      · simp only [encode, h, if_true]
      · simp only [encode, h, if_true]
  | integer _ i h =>
      refine ⟨.number (.integer i), fun place => ?_⟩
      cases p with
      | u8 | i8 | i16 | i32 | i64 =>
          simp only [encode, integerRange?, Option.isNone_some, h, Bool.false_eq_true, if_false,
            if_true]
      | _ => cases h

end Primitive

namespace Contract

theorem checkMember_eq (c : Contract) (place : Location) (name : TypeName) (member : String) :
    c.checkMember place name member = match c.enumeration? name with
      | some members =>
        if members.contains member then .ok () else .error (.unknownMember place member name)
      | none => .error (.unknownType place name) := by
  unfold checkMember enumeration?
  rcases c.dataType? name with _ | ⟨n, shape⟩
  · rfl
  · cases shape <;> rfl

/-- A text is a member of an enumeration that is defined, and that lists it. -/
theorem checkMember_eq_ok_iff (c : Contract) (place : Location) (name : TypeName)
    (member : String) (u : Unit) :
    c.checkMember place name member = .ok u
      ↔ ∃ members, c.enumeration? name = some members ∧ member ∈ members := by
  rw [checkMember_eq]
  cases c.enumeration? name with
  | none => simp only [reduceCtorEq, false_and, exists_false]
  | some members =>
      by_cases hm : member ∈ members
      · simp only [List.contains_iff_mem, hm, if_true, Option.some.injEq, exists_eq_left']
      · simp only [List.contains_iff_mem, hm, if_false, reduceCtorEq, Option.some.injEq,
          exists_eq_left']

/-- A document and the data in it, at a type without parts. -/
inductive LeafDenotes (c : Contract) : BridgeType → Json → Data → Prop where
  | primitive (p : Primitive) (v : Json) (d : Data) (h : p.Denotes v d) :
      LeafDenotes c (.primitive p) v d
  | enum (name : TypeName) (member : String) (members : List String)
      (hdef : c.enumeration? name = some members) (hmem : member ∈ members) :
      LeafDenotes c (.enum name) (.string member) (.enum member)

/-- Neither side of the relation has parts. -/
theorem LeafDenotes.isSimple {c : Contract} {type : BridgeType} {v : Json} {d : Data}
    (h : c.LeafDenotes type v d) : v.isSimple = true ∧ d.isSimple = true := by
  cases h with
  | primitive p _ _ h => cases h <;> exact ⟨rfl, rfl⟩
  | enum name member _ _ _ => exact ⟨rfl, rfl⟩

/-- Reading a value without parts is the relation between documents and data. -/
theorem decodeLeaf_eq_ok_iff (c : Contract) (v : Json) (type : BridgeType) (place : Location)
    (d : Data) : c.decodeLeaf v type place = .ok d ↔ c.LeafDenotes type v d := by
  constructor
  · intro h
    unfold decodeLeaf at h
    split at h
    · exact .primitive _ _ _ ((Primitive.decode_eq_ok_iff _ _ _ _).mp h)
    · rcases map_eq_ok.mp h with ⟨u, hu, rfl⟩
      rcases (checkMember_eq_ok_iff _ _ _ _ _).mp hu with ⟨members, hdef, hmem⟩
      exact .enum _ _ members hdef hmem
    · cases h
  · intro h
    cases h with
    | primitive p _ _ h => exact (Primitive.decode_eq_ok_iff p place v d).mpr h
    | enum name member members hdef hmem =>
        have hpass := (checkMember_eq_ok_iff c place name member ()).mpr ⟨members, hdef, hmem⟩
        exact map_eq_ok.mpr ⟨(), hpass, rfl⟩

/-- What is written of a value without parts stands for it. -/
theorem leafDenotes_of_encodeLeaf_eq_ok (c : Contract) (d : Data) (type : BridgeType)
    (place : Location) (w : Json) (h : c.encodeLeaf d type place = .ok w) :
    c.LeafDenotes type w d := by
  unfold encodeLeaf at h
  split at h
  · exact .primitive _ _ _ (Primitive.denotes_of_encode_eq_ok _ _ _ _ h)
  · rcases map_eq_ok.mp h with ⟨u, hu, rfl⟩
    rcases (checkMember_eq_ok_iff _ _ _ _ _).mp hu with ⟨members, hdef, hmem⟩
    exact .enum _ _ members hdef hmem
  · cases h

/-- What can be read without parts can be written. -/
theorem LeafDenotes.exists_encodeLeaf {c : Contract} {type : BridgeType} {v : Json} {d : Data}
    (h : c.LeafDenotes type v d) : ∃ w, ∀ place, c.encodeLeaf d type place = .ok w := by
  cases h with
  | primitive p _ _ h => exact h.exists_encode
  | enum name member members hdef hmem =>
      refine ⟨.string member, fun place => ?_⟩
      have hpass := (checkMember_eq_ok_iff c place name member ()).mpr ⟨members, hdef, hmem⟩
      exact map_eq_ok.mpr ⟨(), hpass, rfl⟩

end Contract

end PlatformBridge
