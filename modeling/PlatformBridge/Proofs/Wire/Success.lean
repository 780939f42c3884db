import PlatformBridge.Proofs.Wire.Leaves

/-!
# Successful Conversions

What a conversion that succeeds says about the parts of the value, for each kind
of value and both directions. The code threads a place through every part
because errors need it; none of this matters to a success, and
`decode_placeFree` and `encode_placeFree` say so once. From then on a converted
list is a map over the list it was made from, so the inversion lemmas below
name a function `G` from parts to converted parts instead of a second list.

A record goes through the most hands: the name has to be that of a composite,
every entry has to belong to a field, and the fields are then looked up among
the entries in their own order. `convertRecord_eq_ok_iff` puts the three
conditions side by side.

Both directions use the same functions for items, entries and fields, with the
conversion of a part as a parameter. What is said of these functions is said
for any such conversion, so the first two sections have nothing of documents or
data in them. The last section is about kinds, and has for each kind and each
direction the one equation that later proofs use. Null comes before all
others, because it stands for absence at some types and is refused at all the
rest.

## Main definitions

* `Contract.Conversion`, `Contract.PlaceFree`: A conversion of a part, and one
  whose value does not depend on the place.
* `Contract.convertField`: What is given for one field.

## Theorems

* `Contract.convertItems_eq_inRow`, `Contract.convertEntries_eq_inRow`,
  `Contract.convertFields_eq_inRow`: Parts are converted in rows.
* `Contract.convertItems_of_ok`, `Contract.exists_of_convertItems_eq_ok`: Lists
  by their items, in both directions.
* `Contract.convertEntries_of_ok`, `Contract.exists_of_convertEntries_eq_ok`:
  Maps by their values.
* `Contract.convertRecord_eq_ok_iff`, `Contract.convertRecord_of_ok`,
  `Contract.exists_of_convertRecord_eq_ok`: When a record is converted.
* `Contract.decode_simple_eq_ok_iff`, `Contract.decode_array_eq_ok_iff`,
  `Contract.decode_object_eq_ok_iff`: Reading by kind.
* `Contract.encode_simple`, `Contract.encode_list_eq_ok_iff`,
  `Contract.encode_map_eq_ok_iff`, `Contract.encode_record_eq_ok_iff`: Writing
  by kind.
* `Contract.decode_placeFree`, `Contract.encode_placeFree`: Places only matter
  to errors.
-/

namespace PlatformBridge

namespace Contract

open Results

/-- A conversion not yet given its type and its place. -/
abbrev Conversion (α : Type) := BridgeType → Location → Except ConversionError α

/-- The value of a conversion does not depend on the place. -/
def PlaceFree {α : Type} (convert : Conversion α) : Prop :=
  ∀ type place place' value, convert type place = .ok value → convert type place' = .ok value

section Rows

variable {ι α : Type} (F : ι → Conversion α)

theorem convertItems_eq_inRow (element : BridgeType) (place : Location) (xs : List ι) :
    ∀ index, convertItems element place index (xs.map F)
      = inRow (fun i x => F x element (.item place i)) index xs := by
  induction xs with
  | nil =>
      intro index
      rfl
  | cons x rest ih =>
      intro index
      simp only [List.map_cons, convertItems, inRow, ih]

theorem convertEntries_eq_inRow (key : ι → String) (type : BridgeType) (place : Location)
    (xs : List ι) :
    ∀ index, convertEntries type place (xs.map fun x => (key x, F x))
      = inRow (fun _ x => (F x type (.member place (key x))).map fun y => (key x, y))
          index xs := by
  induction xs with
  | nil =>
      intro index
      rfl
  | cons x rest ih =>
      intro index
      simp only [List.map_cons, convertEntries, inRow, ih (index + 1)]
      cases F x type (.member place (key x)) <;> rfl

-- Items that are converted make a list that is converted.
theorem convertItems_of_ok (G : ι → α) (element : BridgeType) (xs : List ι)
    (h : ∀ x ∈ xs, ∀ place, F x element place = .ok (G x)) (place : Location) (index : Nat) :
    convertItems element place index (xs.map F) = .ok (xs.map G) := by
  rw [convertItems_eq_inRow]
  exact inRow_of_ok _ G xs (fun x hx i => h x hx _) index

/-- A converted list is made of converted items. -/
theorem exists_of_convertItems_eq_ok [Inhabited α] (element : BridgeType) (xs : List ι)
    (hF : ∀ x ∈ xs, PlaceFree (F x)) (place : Location) (index : Nat) (out : List α)
    (h : convertItems element place index (xs.map F) = .ok out) :
    ∃ G : ι → α, out = xs.map G ∧ ∀ x ∈ xs, ∀ place, F x element place = .ok (G x) := by
  rw [convertItems_eq_inRow] at h
  rcases exists_of_inRow_eq_ok _ xs (fun x hx i j y hy => hF x hx _ _ _ _ hy) index out h with
    ⟨G, hmap, hG⟩
  exact ⟨G, hmap, fun x hx place' => hF x hx _ _ _ _ (hG x hx 0)⟩

-- Entries whose values are converted make a map that is converted.
theorem convertEntries_of_ok (key : ι → String) (G : ι → α) (type : BridgeType) (xs : List ι)
    (h : ∀ x ∈ xs, ∀ place, F x type place = .ok (G x)) (place : Location) :
    convertEntries type place (xs.map fun x => (key x, F x))
      = .ok (xs.map fun x => (key x, G x)) := by
  rw [convertEntries_eq_inRow F key type place xs 0]
  exact inRow_keyed_of_ok key _ G xs (fun x hx => h x hx _) 0

-- A converted map is made of entries whose values are converted.
theorem exists_of_convertEntries_eq_ok [Inhabited α] (key : ι → String) (type : BridgeType)
    (xs : List ι) (hF : ∀ x ∈ xs, PlaceFree (F x)) (place : Location) (out : List (String × α))
    (h : convertEntries type place (xs.map fun x => (key x, F x)) = .ok out) :
    ∃ G : ι → α, out = xs.map (fun x => (key x, G x))
      ∧ ∀ x ∈ xs, ∀ place, F x type place = .ok (G x) := by
  rw [convertEntries_eq_inRow F key type place xs 0] at h
  rcases exists_of_inRow_keyed_eq_ok key _ xs 0 out h with ⟨G, hmap, hG⟩
  exact ⟨G, hmap, fun x hx place' => hF x hx _ _ _ _ (hG x hx)⟩

end Rows

section Fields

variable {α : Type} (absent : α) (entries : List (String × Conversion α))

/-- What is given for a field. -/
def convertField (place : Location) (f : Field) : Except ConversionError α :=
  match entries.find? fun e => e.1 = f.name with
  | some (_, convert) => convert f.type (.member place f.name)
  | none => if f.type.isNullable then .ok absent else .error (.missingField place f.name)

theorem convertFields_eq_inRow (place : Location) (fields : List Field) :
    ∀ index, convertFields absent place entries fields
      = inRow (fun _ f => (convertField absent entries place f).map fun y => (f.name, y))
          index fields := by
  induction fields with
  | nil =>
      intro index
      rfl
  | cons f rest ih =>
      intro index
      simp only [convertFields, inRow, ih (index + 1), convertField]
      cases entries.find? fun e => e.1 = f.name with
      | none => cases f.type.isNullable <;> rfl
      | some e =>
          dsimp only
          cases e.2 f.type (.member place f.name) <;> rfl

-- What is given for a field does not depend on the place if this holds for every entry.
theorem convertField_placeFree (hentries : ∀ e ∈ entries, PlaceFree e.2) (place place' : Location)
    (f : Field) (value : α) (h : convertField absent entries place f = .ok value) :
    convertField absent entries place' f = .ok value := by
  unfold convertField at h ⊢
  cases hfind : entries.find? fun e => e.1 = f.name with
  | none =>
      simp only [hfind] at h ⊢
      by_cases hnull : f.type.isNullable = true
      · rw [if_pos hnull] at h ⊢
        exact h
      · rw [if_neg hnull] at h
        cases h
  | some e =>
      simp only [hfind] at h ⊢
      exact hentries e (List.mem_of_find?_eq_some hfind) _ _ _ _ h

-- Fields that are given make a record.
theorem convertFields_of_ok (G : Field → α) (fields : List Field) (place : Location)
    (h : ∀ f ∈ fields, convertField absent entries place f = .ok (G f)) :
    convertFields absent place entries fields = .ok (fields.map fun f => (f.name, G f)) := by
  rw [convertFields_eq_inRow absent entries place fields 0]
  exact inRow_keyed_of_ok (·.name) _ G fields h 0

-- A record is made of what is given for each field.
theorem exists_of_convertFields_eq_ok [Inhabited α] (hentries : ∀ e ∈ entries, PlaceFree e.2)
    (fields : List Field) (place : Location) (out : List (String × α))
    (h : convertFields absent place entries fields = .ok out) :
    ∃ G : Field → α, out = fields.map (fun f => (f.name, G f))
      ∧ ∀ f ∈ fields, ∀ place, convertField absent entries place f = .ok (G f) := by
  rw [convertFields_eq_inRow absent entries place fields 0] at h
  rcases exists_of_inRow_keyed_eq_ok (·.name) _ fields 0 out h with ⟨G, hmap, hG⟩
  exact ⟨G, hmap, fun f hf place' =>
    convertField_placeFree absent entries hentries _ _ _ _ (hG f hf)⟩

-- What is given for a field is the first entry of its name, or nothing where that is allowed.
theorem convertField_map_eq_ok_iff {ι : Type} (key : ι → String) (F : ι → Conversion α)
    (xs : List ι) (place : Location) (f : Field) (value : α) :
    convertField absent (xs.map fun x => (key x, F x)) place f = .ok value
      ↔ (∃ x, xs.find? (fun x => key x = f.name) = some x
          ∧ F x f.type (.member place f.name) = .ok value)
        ∨ (xs.find? (fun x => key x = f.name) = none ∧ f.type.isNullable = true
          ∧ absent = value) := by
  unfold convertField
  rw [List.find?_map]
  simp only [Function.comp_def]
  cases xs.find? fun x => key x = f.name with
  | none =>
      by_cases hnull : f.type.isNullable = true
      · simp only [Option.map_none, hnull, if_true, Except.ok.injEq, reduceCtorEq, false_and,
          exists_false, true_and, false_or]
      · simp only [Option.map_none, hnull, Bool.false_eq_true, if_false, reduceCtorEq, false_and,
          exists_false, and_false, or_self]
  | some x =>
      simp only [Option.map_some, Option.some.injEq, exists_eq_left', reduceCtorEq, false_and,
        or_false]

end Fields

theorem fieldsOf_eq (c : Contract) (place : Location) (name : TypeName) :
    c.fieldsOf place name = if (c.composite? name).isSome = true
      then .ok (c.fieldsWithInherited name) else .error (.unknownType place name) := by
  unfold fieldsOf composite?
  rcases c.dataType? name with _ | ⟨n, shape⟩
  · rfl
  · cases shape <;> rfl

-- The search for an entry that is no field finds nothing when all of them are fields.
theorem find?_unknown_eq_none_iff {α : Type} (fields : List Field) (entries : List (String × α)) :
    (entries.find? fun e => !fields.any fun f => f.name = e.1) = none
      ↔ ∀ e ∈ entries, ∃ f ∈ fields, f.name = e.1 := by
  simp only [List.find?_eq_none, Bool.not_eq_true', Bool.not_eq_false, List.any_eq_true,
    decide_eq_true_eq]

/-- A record is converted if its type is a composite, all of its entries are fields, and every field
    is given. -/
theorem convertRecord_eq_ok_iff {α : Type} (c : Contract) (absent : α) (place : Location)
    (name : TypeName) (entries : List (String × Conversion α)) (out : List (String × α)) :
    c.convertRecord absent place name entries = .ok out
      ↔ (c.composite? name).isSome = true
        ∧ (∀ e ∈ entries, ∃ f ∈ c.fieldsWithInherited name, f.name = e.1)
        ∧ convertFields absent place entries (c.fieldsWithInherited name) = .ok out := by
  unfold convertRecord
  rw [bind_eq_ok, fieldsOf_eq, ← find?_unknown_eq_none_iff]
  by_cases hc : (c.composite? name).isSome = true
  · -- The fields are known, and what is left to fail is the search for an entry that is none.
    simp only [hc, if_true, true_and, Except.ok.injEq, exists_eq_left']
    cases entries.find? fun e => !(c.fieldsWithInherited name).any fun f => f.name = e.1 with
    | none =>
        simp only [true_and]
    | some unknown =>
        simp only [reduceCtorEq, false_and, iff_false]
        intro h
        cases h
  · simp only [hc, if_false, reduceCtorEq, false_and, exists_false]

-- Fields that are given make a record of a composite.
theorem convertRecord_of_ok {α : Type} (c : Contract) (absent : α) (place : Location)
    (name : TypeName) (entries : List (String × Conversion α)) (G : Field → α)
    (hname : (c.composite? name).isSome = true)
    (hknown : ∀ e ∈ entries, ∃ f ∈ c.fieldsWithInherited name, f.name = e.1)
    (h : ∀ f ∈ c.fieldsWithInherited name, convertField absent entries place f = .ok (G f)) :
    c.convertRecord absent place name entries
      = .ok ((c.fieldsWithInherited name).map fun f => (f.name, G f)) :=
  (c.convertRecord_eq_ok_iff absent place name entries _).mpr
    ⟨hname, hknown, convertFields_of_ok absent entries G _ place h⟩

/-- A record of a composite is made of what is given for each field. -/
theorem exists_of_convertRecord_eq_ok {α : Type} [Inhabited α] (c : Contract) (absent : α)
    (place : Location) (name : TypeName) (entries : List (String × Conversion α))
    (hentries : ∀ e ∈ entries, PlaceFree e.2) (out : List (String × α))
    (h : c.convertRecord absent place name entries = .ok out) :
    (c.composite? name).isSome = true
      ∧ (∀ e ∈ entries, ∃ f ∈ c.fieldsWithInherited name, f.name = e.1)
      ∧ ∃ G : Field → α, out = (c.fieldsWithInherited name).map (fun f => (f.name, G f))
        ∧ ∀ f ∈ c.fieldsWithInherited name, ∀ place,
            convertField absent entries place f = .ok (G f) := by
  rcases (c.convertRecord_eq_ok_iff absent place name entries out).mp h with
    ⟨hname, hknown, hfields⟩
  exact ⟨hname, hknown,
    exists_of_convertFields_eq_ok absent entries hentries _ place out hfields⟩

section Kinds

variable (c : Contract)

-- Nothing with parts is written without them.
theorem encodeLeaf_ne_ok (d : Data) (type : BridgeType) (place : Location) (w : Json)
    (hd : d.isSimple = false) : c.encodeLeaf d type place ≠ .ok w := by
  intro h
  rw [(c.leafDenotes_of_encodeLeaf_eq_ok d type place w h).isSimple.2] at hd
  cases hd

-- Nothing with parts is read without them.
theorem decodeLeaf_ne_ok (v : Json) (type : BridgeType) (place : Location) (d : Data)
    (hv : v.isSimple = false) : c.decodeLeaf v type place ≠ .ok d := by
  intro h
  rw [((c.decodeLeaf_eq_ok_iff v type place d).mp h).isSimple.1] at hv
  cases hv

/-- Null is read where something may be absent, and nowhere else. -/
theorem decode_null_eq_ok_iff (type : BridgeType) (place : Location) (d : Data) :
    c.decode .null type place = .ok d ↔ type.isNullable = true ∧ .null = d := by
  rw [decode]
  by_cases hnull : type.isNullable = true
  · rw [if_pos hnull]
    simp only [hnull, true_and, Except.ok.injEq]
  · rw [if_neg hnull]
    simp only [hnull, decodeLeaf_ne_ok c .null type place d rfl, Bool.false_eq_true, false_and]

example : (Contract.mk "Acme" [] []).decode .null (.nullable (.primitive .i32)) .root
    = .ok .null := by
  cbv

theorem decode_simple (v : Json) (hv : v.isSimple = true) (type : BridgeType)
    (place : Location) : c.decode v type place = c.decodeLeaf v type.present place := by
  cases v with
  | bool b => rw [decode]
  | number n => rw [decode]
  | string s => rw [decode]
  | _ => cases hv

theorem decode_simple_eq_ok_iff (v : Json) (hv : v.isSimple = true) (type : BridgeType)
    (place : Location) (d : Data) :
    c.decode v type place = .ok d ↔ c.LeafDenotes type.present v d := by
  rw [c.decode_simple v hv, c.decodeLeaf_eq_ok_iff]

/-- An array is read as a list. -/
theorem decode_array_eq_ok_iff (items : List Json) (type : BridgeType) (place : Location)
    (d : Data) :
    c.decode (.array items) type place = .ok d
      ↔ ∃ element, type.present = .list element
        ∧ ∃ ds, convertItems element place 0 (items.map c.decode) = .ok ds ∧ .list ds = d := by
  rw [decode, decodeItems_eq_map]
  cases type.present with
  | list element => simp only [map_eq_ok, BridgeType.list.injEq, exists_eq_left']
  | _ =>
      simp only [decodeLeaf_ne_ok c (.array items) _ place d rfl, reduceCtorEq, false_and,
        exists_false]

-- An object is a map or a record.
theorem decode_object_eq_ok_iff (members : List (String × Json)) (type : BridgeType)
    (place : Location) (d : Data) :
    c.decode (.object members) type place = .ok d
      ↔ (∃ value, type.present = .map value
          ∧ ∃ out, convertEntries value place (members.map fun m => (m.1, c.decode m.2)) = .ok out
            ∧ .map out = d)
        ∨ ∃ name, type.present = .data name
          ∧ ∃ out, c.convertRecord .null place name (members.map fun m => (m.1, c.decode m.2))
              = .ok out ∧ .record out = d := by
  rw [decode, decodeMembers_eq_map]
  cases type.present with
  | map value =>
      simp only [map_eq_ok, BridgeType.map.injEq, exists_eq_left', reduceCtorEq, false_and,
        exists_false, or_false]
  | data name =>
      simp only [map_eq_ok, BridgeType.data.injEq, exists_eq_left', reduceCtorEq, false_and,
        exists_false, false_or]
  | _ =>
      simp only [decodeLeaf_ne_ok c (.object members) _ place d rfl, reduceCtorEq, false_and,
        exists_false, or_self]

theorem encode_null_eq_ok_iff (type : BridgeType) (place : Location) (w : Json) :
    c.encode .null type place = .ok w ↔ type.isNullable = true ∧ .null = w := by
  rw [encode]
  by_cases hnull : type.isNullable = true
  · rw [if_pos hnull]
    simp only [hnull, true_and, Except.ok.injEq]
  · rw [if_neg hnull]
    simp only [hnull, encodeLeaf_ne_ok c .null type place w rfl, Bool.false_eq_true, false_and]

example : (Contract.mk "Acme" [] []).encode .null (.nullable (.primitive .i32)) .root
    = .ok .null := by
  cbv

theorem encode_simple (d : Data) (hd : d.isSimple = true) (type : BridgeType)
    (place : Location) : c.encode d type place = c.encodeLeaf d type.present place := by
  cases d with
  | bool b => rw [encode]
  | integer n => rw [encode]
  | float x => rw [encode]
  | char k => rw [encode]
  | string s => rw [encode]
  | enum member => rw [encode]
  | _ => cases hd

theorem encode_list_eq_ok_iff (items : List Data) (type : BridgeType) (place : Location)
    (w : Json) :
    c.encode (.list items) type place = .ok w
      ↔ ∃ element, type.present = .list element
        ∧ ∃ ws, convertItems element place 0 (items.map c.encode) = .ok ws ∧ .array ws = w := by
  rw [encode, encodeItems_eq_map]
  cases type.present with
  | list element => simp only [map_eq_ok, BridgeType.list.injEq, exists_eq_left']
  | _ =>
      simp only [encodeLeaf_ne_ok c (.list items) _ place w rfl, reduceCtorEq, false_and,
        exists_false]

/-- A map is written with its values under the same keys. -/
theorem encode_map_eq_ok_iff (entries : List (String × Data)) (type : BridgeType)
    (place : Location) (w : Json) :
    c.encode (.map entries) type place = .ok w
      ↔ ∃ value, type.present = .map value
        ∧ ∃ out, convertEntries value place (entries.map fun e => (e.1, c.encode e.2)) = .ok out
          ∧ .object out = w := by
  rw [encode, encodeEntries_eq_map]
  cases type.present with
  | map value => simp only [map_eq_ok, BridgeType.map.injEq, exists_eq_left']
  | _ =>
      simp only [encodeLeaf_ne_ok c (.map entries) _ place w rfl, reduceCtorEq, false_and,
        exists_false]

/-- A record is written as an object, whatever the order of its entries. -/
theorem encode_record_eq_ok_iff (entries : List (String × Data)) (type : BridgeType)
    (place : Location) (w : Json) :
    c.encode (.record entries) type place = .ok w
      ↔ ∃ name, type.present = .data name
        ∧ ∃ out, c.convertRecord .null place name (entries.map fun e => (e.1, c.encode e.2))
            = .ok out ∧ .ofMembers out = w := by
  rw [encode, encodeEntries_eq_map]
  cases type.present with
  | data name => simp only [map_eq_ok, BridgeType.data.injEq, exists_eq_left']
  | _ =>
      simp only [encodeLeaf_ne_ok c (.record entries) _ place w rfl, reduceCtorEq, false_and,
        exists_false]

/-- Where a document stands only matters to errors. -/
theorem decode_placeFree (v : Json) : PlaceFree (c.decode v) := by
  induction v using Json.byParts with
  | null =>
      intro type place place' d h
      rw [decode_null_eq_ok_iff] at h ⊢
      exact h
  | simple v hv =>
      intro type place place' d h
      rw [decode_simple_eq_ok_iff c v hv] at h ⊢
      exact h
  | array items ih =>
      intro type place place' d h
      rw [decode_array_eq_ok_iff] at h ⊢
      rcases h with ⟨element, hpresent, ds, hds, rfl⟩
      rcases exists_of_convertItems_eq_ok c.decode element items ih place 0 ds hds with
        ⟨G, rfl, hG⟩
      exact ⟨element, hpresent, _, convertItems_of_ok c.decode G element items hG place' 0, rfl⟩
  | object members ih =>
      intro type place place' d h
      -- Both readings of an object convert its members, one with and one without their fields.
      rw [decode_object_eq_ok_iff] at h ⊢
      rcases h with ⟨value, hpresent, out, hout, rfl⟩ | ⟨name, hpresent, out, hout, rfl⟩
      · left
        rcases exists_of_convertEntries_eq_ok (fun m => c.decode m.2) (fun m => m.1) value
          members ih place out hout with ⟨G, rfl, hG⟩
        exact ⟨value, hpresent, _, convertEntries_of_ok _ _ G value members hG place', rfl⟩
      · right
        rcases c.exists_of_convertRecord_eq_ok .null place name _
          (List.forall_mem_map.mpr ih) out hout with ⟨hname, hknown, G, rfl, hG⟩
        exact ⟨name, hpresent, _, c.convertRecord_of_ok .null place' name _ G hname hknown
          (fun f hf => hG f hf place'), rfl⟩

/-- Where data stand only matters to errors. -/
theorem encode_placeFree (d : Data) : PlaceFree (c.encode d) := by
  induction d using Data.byParts with
  | null =>
      intro type place place' w h
      rw [encode_null_eq_ok_iff] at h ⊢
      exact h
  | simple d hd =>
      intro type place place' w h
      rw [encode_simple c d hd] at h ⊢
      -- The same data are written at every place, so what is written here is what is written there.
      rcases (c.leafDenotes_of_encodeLeaf_eq_ok d _ place w h).exists_encodeLeaf with ⟨w', hw'⟩
      rw [hw', Except.ok.injEq] at h
      rw [hw', h]
  | list items ih =>
      intro type place place' w h
      rw [encode_list_eq_ok_iff] at h ⊢
      rcases h with ⟨element, hpresent, ws, hws, rfl⟩
      rcases exists_of_convertItems_eq_ok c.encode element items ih place 0 ws hws with
        ⟨G, rfl, hG⟩
      exact ⟨element, hpresent, _, convertItems_of_ok c.encode G element items hG place' 0, rfl⟩
  | map entries ih =>
      intro type place place' w h
      rw [encode_map_eq_ok_iff] at h ⊢
      rcases h with ⟨value, hpresent, out, hout, rfl⟩
      rcases exists_of_convertEntries_eq_ok (fun e => c.encode e.2) (fun e => e.1) value
        entries ih place out hout with ⟨G, rfl, hG⟩
      exact ⟨value, hpresent, _, convertEntries_of_ok _ _ G value entries hG place', rfl⟩
  | record entries ih =>
      intro type place place' w h
      rw [encode_record_eq_ok_iff] at h ⊢
      rcases h with ⟨name, hpresent, out, hout, rfl⟩
      rcases c.exists_of_convertRecord_eq_ok .null place name _
        (List.forall_mem_map.mpr ih) out hout with ⟨hname, hknown, G, rfl, hG⟩
      exact ⟨name, hpresent, _, c.convertRecord_of_ok .null place' name _ G hname hknown
        (fun f hf => hG f hf place'), rfl⟩

end Kinds

end Contract

end PlatformBridge
