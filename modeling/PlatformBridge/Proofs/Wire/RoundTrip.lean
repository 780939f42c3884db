import PlatformBridge.Proofs.Wire.NormalForm

/-!
# Round Trips

Reading and writing undo each other. Data that were read are written again, and
the document that results gives the same data: it may differ from the first
one, which may have left out fields or had integers in place of floats. In the
other direction a document that was written gives the normal form of the data,
and the normal form is written as the same document.

Both directions rest on the record. Its fields are listed in the order of the
contract on the side of the data and in the order of their names on the side of
the document, and every lookup on either side is by name; that the names of a
composite are distinct is what lets each lookup find the field it is for.

`Matches` says of a document and some data that each is what the other is
converted to. It holds of a whole if it holds of the parts, and there is one
lemma for each kind with parts. The two inductions then do not go back and
forth between reading and writing. From a success in one direction, by
inverting it, they have some part for each part, and put together what matches.

The induction for reading is over the document, and that for writing over the
data. The types come with the values, and places are of no matter to a success.

## Main definitions

* `Contract.Matches`: A document and data stand for each other.

## Theorems

* `Contract.Matches.list`, `Contract.Matches.map`, `Contract.Matches.record`:
  The parts decide, for each kind with parts.
* `Contract.exists_matches_of_decode`: Some document stands for what was read.
* `Contract.matches_normalForm_of_encode`: What was written stands for the
  normal form.
* `Contract.encode_then_decode_of_decode`: Reading, writing and reading again.
* `Contract.decode_encode_eq_normalForm`: Writing and reading.
-/

namespace PlatformBridge

namespace Contract

open Results

/-- A document and data stand for each other at a type: reading the one gives the other, and writing
    the other gives the one. -/
def Matches (c : Contract) (type : BridgeType) (w : Json) (d : Data) : Prop :=
  ∀ place, c.decode w type place = .ok d ∧ c.encode d type place = .ok w

namespace Matches

variable {c : Contract} {type : BridgeType}

theorem null (hnull : type.isNullable = true) : c.Matches type .null .null := fun place =>
  ⟨(c.decode_null_eq_ok_iff type place .null).mpr ⟨hnull, rfl⟩,
    (c.encode_null_eq_ok_iff type place .null).mpr ⟨hnull, rfl⟩⟩

/-- What has no parts and can be written is matched by what is written. -/
theorem simple {d : Data} (hd : d.isSimple = true) {w : Json}
    (hw : ∀ place, c.encodeLeaf d type.present place = .ok w) : c.Matches type w d := by
  intro place
  have hleaf := c.leafDenotes_of_encodeLeaf_eq_ok d type.present place w (hw place)
  refine ⟨(c.decode_simple_eq_ok_iff w hleaf.isSimple.1 type place d).mpr hleaf, ?_⟩
  rw [c.encode_simple d hd, hw place]

-- Lists stand for each other if their items do.
theorem list {ι : Type} {element : BridgeType} (hpresent : type.present = .list element)
    (xs : List ι) (W : ι → Json) (G : ι → Data)
    (h : ∀ x ∈ xs, c.Matches element (W x) (G x)) :
    c.Matches type (.array (xs.map W)) (.list (xs.map G)) := by
  intro place
  constructor
  · refine (c.decode_array_eq_ok_iff _ type place _).mpr ⟨element, hpresent, _, ?_, rfl⟩
    rw [List.map_map]
    exact convertItems_of_ok (c.decode ∘ W) G element xs (fun x hx place' => (h x hx place').1)
      place 0
  · refine (c.encode_list_eq_ok_iff _ type place _).mpr ⟨element, hpresent, _, ?_, rfl⟩
    rw [List.map_map]
    exact convertItems_of_ok (c.encode ∘ G) W element xs (fun x hx place' => (h x hx place').2)
      place 0

-- Maps stand for each other if the values of each key do.
theorem map {ι : Type} {value : BridgeType} (hpresent : type.present = .map value)
    (key : ι → String) (xs : List ι) (W : ι → Json) (G : ι → Data)
    (h : ∀ x ∈ xs, c.Matches value (W x) (G x)) :
    c.Matches type (.object (xs.map fun x => (key x, W x)))
      (.map (xs.map fun x => (key x, G x))) := by
  intro place
  constructor
  · refine (c.decode_object_eq_ok_iff _ type place _).mpr (Or.inl ⟨value, hpresent, _, ?_, rfl⟩)
    rw [List.map_map]
    exact convertEntries_of_ok (fun x => c.decode (W x)) key G value xs
      (fun x hx place' => (h x hx place').1) place
  · refine (c.encode_map_eq_ok_iff _ type place _).mpr ⟨value, hpresent, _, ?_, rfl⟩
    rw [List.map_map]
    exact convertEntries_of_ok (fun x => c.encode (G x)) key W value xs
      (fun x hx place' => (h x hx place').2) place

section Records

variable (hc : c.HasDistinctFields) {name : TypeName} (hpresent : type.present = .data name)
variable (hname : (c.composite? name).isSome = true) {W : Field → Json} {G : Field → Data}
variable (h : ∀ f ∈ c.fieldsWithInherited name, c.Matches f.type (W f) (G f))

include hc hpresent hname h

-- An object with one member for every field is read as a record.
theorem decode_record (place : Location) :
    c.decode (.ofMembers ((c.fieldsWithInherited name).map fun f => (f.name, W f))) type place
      = .ok (.record ((c.fieldsWithInherited name).map fun f => (f.name, G f))) := by
  have hkeys : (((c.fieldsWithInherited name).map fun f => (f.name, W f)).map (·.1)).Nodup := by
    rw [List.map_map]
    exact hc.nodup name
  refine (c.decode_object_eq_ok_iff _ type place _).mpr (Or.inr ⟨name, hpresent, _, ?_, rfl⟩)
  refine c.convertRecord_of_ok .null place name _ G hname ?_ fun f hf => ?_
  · -- Members of the object have the names of fields.
    rw [List.forall_mem_map]
    intro m hm
    rcases (Json.exists_mem_sortMembers_iff _ m.1 _).mp ⟨m, hm, rfl⟩ with ⟨m', hm', heq⟩
    rcases List.mem_map.mp hm' with ⟨f, hf, rfl⟩
    exact ⟨f, hf, heq⟩
  · -- Sorting the members does not change which of them is found for a field.
    refine (convertField_map_eq_ok_iff _ (fun m : String × Json => m.1)
      (fun m => c.decode m.2) _ place f _).mpr ?_
    have hfind := Json.find?_sortMembers_of_nodup Json.keyBefore _ hkeys (f.name, W f)
      (List.mem_map_of_mem hf)
    exact Or.inl ⟨_, hfind, (h f hf _).1⟩

-- A record with one entry for every field is written as an object.
theorem encode_record (place : Location) :
    c.encode (.record ((c.fieldsWithInherited name).map fun f => (f.name, G f))) type place
      = .ok (.ofMembers ((c.fieldsWithInherited name).map fun f => (f.name, W f))) := by
  refine (c.encode_record_eq_ok_iff _ type place _).mpr ⟨name, hpresent, _, ?_, rfl⟩
  rw [List.map_map]
  refine c.convertRecord_of_ok .null place name _ W hname ?_ fun f hf => ?_
  · rw [List.forall_mem_map]
    exact fun f hf => ⟨f, hf, rfl⟩
  · -- Names of fields are distinct, so the entry found for a field is its own.
    refine (convertField_map_eq_ok_iff _ (fun g : Field => g.name) (fun g => c.encode (G g))
      _ place f _).mpr ?_
    have hfind := find?_key_of_nodup (fun g : Field => g.name) _ (hc.nodup name) f hf
    exact Or.inl ⟨f, hfind, (h f hf _).2⟩

-- Records with all fields stand for each other if the values of each field do.
theorem record :
    c.Matches type (.ofMembers ((c.fieldsWithInherited name).map fun f => (f.name, W f)))
      (.record ((c.fieldsWithInherited name).map fun f => (f.name, G f))) := fun place =>
  ⟨decode_record hc hpresent hname h place, encode_record hc hpresent hname h place⟩

end Records

end Matches

/-- What was read is in order, and some document stands for it. -/
theorem exists_matches_of_decode (c : Contract) (hc : c.HasDistinctFields) (v : Json) :
    ∀ type place d, c.decode v type place = .ok d →
      c.InOrder type d ∧ ∃ w, c.Matches type w d := by
  induction v using Json.byParts with
  | null =>
      intro type place d h
      rcases (c.decode_null_eq_ok_iff type place d).mp h with ⟨hnull, rfl⟩
      exact ⟨.null type, .null, .null hnull⟩
  | simple v hv =>
      intro type place d h
      have hleaf := (c.decode_simple_eq_ok_iff v hv type place d).mp h
      rcases hleaf.exists_encodeLeaf with ⟨w, hw⟩
      exact ⟨.simple type d hleaf.isSimple.2, w, .simple hleaf.isSimple.2 hw⟩
  | array items ih =>
      intro type place d h
      rcases (c.decode_array_eq_ok_iff items type place d).mp h with
        ⟨element, hpresent, ds, hds, rfl⟩
      rcases exists_of_convertItems_eq_ok c.decode element items
        (fun v _ => c.decode_placeFree v) place 0 ds hds with ⟨G, rfl, hG⟩
      -- Every item is read on its own, so the hypothesis gives a document for each.
      have hitem := fun v hv => ih v hv element place (G v) (hG v hv place)
      choose! W hW using fun v hv => (hitem v hv).2
      exact ⟨.list type element _ hpresent (List.forall_mem_map.mpr fun v hv => (hitem v hv).1),
        _, .list hpresent items W G hW⟩
  | object members ih =>
      intro type place d h
      rcases (c.decode_object_eq_ok_iff members type place d).mp h with
        ⟨value, hpresent, out, hout, rfl⟩ | ⟨name, hpresent, out, hout, rfl⟩
      · -- A map keeps the keys it is read with, so entries are treated like items.
        rcases exists_of_convertEntries_eq_ok (fun m => c.decode m.2) (fun m => m.1) value members
          (fun m _ => c.decode_placeFree m.2) place out hout with ⟨G, rfl, hG⟩
        have hentry := fun m hm => ih m hm value place (G m) (hG m hm place)
        choose! W hW using fun m hm => (hentry m hm).2
        exact ⟨.map type value _ hpresent
          (List.forall_mem_map.mpr fun m hm => (hentry m hm).1),
          _, .map hpresent (fun m => m.1) members W G hW⟩
      · -- A record is read field by field, so its parts are those that the fields were found with.
        rcases c.exists_of_convertRecord_eq_ok .null place name _
          (List.forall_mem_map.mpr fun m _ => c.decode_placeFree m.2) out hout with
          ⟨hname, _, G, rfl, hG⟩
        have hfield : ∀ f ∈ c.fieldsWithInherited name, c.InOrder f.type (G f)
            ∧ ∃ w, c.Matches f.type w (G f) := by
          intro f hf
          rcases (convertField_map_eq_ok_iff _ (fun m => m.1) (fun m => c.decode m.2) members
            place f (G f)).mp (hG f hf place) with ⟨m, hfind, hm⟩ | ⟨_, hnull, habsent⟩
          · exact ih m (List.mem_of_find?_eq_some hfind) f.type _ (G f) hm
          · -- A field that was left out holds null, which is written as null.
            rw [← habsent]
            exact ⟨.null f.type, .null, .null hnull⟩
        choose! W hW using fun f hf => (hfield f hf).2
        exact ⟨.record type name G hpresent fun f hf => (hfield f hf).1, _,
          .record hc hpresent hname hW⟩

/-- What was written and the normal form of the data stand for each other. -/
theorem matches_normalForm_of_encode (c : Contract) (hc : c.HasDistinctFields) (d : Data) :
    ∀ type place w, c.encode d type place = .ok w → c.Matches type w (c.normalForm d type) := by
  induction d using Data.byParts with
  | null =>
      intro type place w h
      rcases (c.encode_null_eq_ok_iff type place w).mp h with ⟨hnull, rfl⟩
      rw [normalForm]
      exact .null hnull
  | simple d hd =>
      intro type place w h
      rw [c.normalForm_simple d hd]
      refine .simple hd fun place' => ?_
      rw [← c.encode_simple d hd]
      exact c.encode_placeFree d type place place' w h
  | list items ih =>
      intro type place w h
      rcases (c.encode_list_eq_ok_iff items type place w).mp h with
        ⟨element, hpresent, ws, hws, rfl⟩
      rcases exists_of_convertItems_eq_ok c.encode element items
        (fun d _ => c.encode_placeFree d) place 0 ws hws with ⟨W, rfl, hW⟩
      rw [c.normalForm_list items type element hpresent]
      exact .list hpresent items W _ fun d hd => ih d hd element place (W d) (hW d hd place)
  | map entries ih =>
      intro type place w h
      rcases (c.encode_map_eq_ok_iff entries type place w).mp h with
        ⟨value, hpresent, out, hout, rfl⟩
      rcases exists_of_convertEntries_eq_ok (fun e => c.encode e.2) (fun e => e.1) value entries
        (fun e _ => c.encode_placeFree e.2) place out hout with ⟨W, rfl, hW⟩
      rw [c.normalForm_map entries type value hpresent]
      exact .map hpresent (fun e => e.1) entries W _ fun e he =>
        ih e he value place (W e) (hW e he place)
  | record entries ih =>
      intro type place w h
      rcases (c.encode_record_eq_ok_iff entries type place w).mp h with
        ⟨name, hpresent, out, hout, rfl⟩
      rcases c.exists_of_convertRecord_eq_ok .null place name _
        (List.forall_mem_map.mpr fun e _ => c.encode_placeFree e.2) out hout with
        ⟨hname, _, W, rfl, hW⟩
      rw [c.normalForm_record entries type name hpresent]
      refine .record hc hpresent hname fun f hf => ?_
      -- The normal form takes the first entry of a field, which is the one that was written.
      unfold firstFor
      rw [List.find?_map]
      simp only [Function.comp_def]
      rcases (convertField_map_eq_ok_iff _ (fun e => e.1) (fun e => c.encode e.2) entries
        place f (W f)).mp (hW f hf place) with ⟨e, hfind, he⟩ | ⟨hfind, hnull, habsent⟩
      · simp only [hfind, Option.map_some]
        exact ih e (List.mem_of_find?_eq_some hfind) f.type _ (W f) he
      · -- Nothing was given for the field: both sides are null.
        simp only [hfind, Option.map_none, ← habsent]
        exact .null hnull

/-- Data that were read can be written, and what is written is read as the same data. -/
theorem encode_then_decode_of_decode (c : Contract) (hc : c.HasDistinctFields) (type : BridgeType)
    (v : Json) (d : Data) (place : Location) (h : c.decode v type place = .ok d) :
    ∃ w, c.encode d type place = .ok w ∧ c.decode w type place = .ok d := by
  rcases exists_matches_of_decode c hc v type place d h with ⟨_, w, hw⟩
  exact ⟨w, (hw place).2, (hw place).1⟩

/-- A composite with a base that nests in itself. -/
def nestedContract : Contract :=
  ⟨"Acme", [], [
    ⟨"Acme.Entity", .composite [⟨"id", .primitive .i32⟩] none⟩,
    ⟨"Acme.Node", .composite [
      ⟨"weight", .primitive .f64⟩, ⟨"next", .nullable (.data "Acme.Node")⟩]
      (some "Acme.Entity")⟩]⟩

/-- A document of the nested composite. The weights are integers, and the inner composite leaves out
    the field that may be absent. -/
def nestedDocument : Json :=
  .object [
    ("id", .number (.integer 1)),
    ("next", .object [("id", .number (.integer (-2))), ("weight", .number (.integer 2))]),
    ("weight", .number (.integer 3))]

/-- The data in the document. -/
def nestedData : Data :=
  .record [
    ("id", .integer 1), ("weight", .float ⟨0x4008000000000000⟩),
    ("next", .record [
      ("id", .integer (-2)), ("weight", .float ⟨0x4000000000000000⟩), ("next", .null)])]

set_option maxRecDepth 20000 in
/-- The document leaves out a field and has integers for floats; the data are written otherwise, and
    read as what they are. -/
theorem encode_then_decode_of_nested :
    nestedContract.HasDistinctFields
      ∧ nestedContract.decode nestedDocument (.data "Acme.Node") .root = .ok nestedData
      ∧ ∃ w, nestedContract.encode nestedData (.data "Acme.Node") .root = .ok w
        ∧ nestedContract.decode w (.data "Acme.Node") .root = .ok nestedData := by
  have hc : nestedContract.HasDistinctFields := by decide +kernel
  have h : nestedContract.decode nestedDocument (.data "Acme.Node") .root = .ok nestedData := rfl
  exact ⟨hc, h, encode_then_decode_of_decode nestedContract hc _ nestedDocument nestedData .root h⟩

/-- What was written is read as the normal form of the data. The normal form is in order, is the
    data themselves if they were in order, and is written as the same document. -/
theorem decode_encode_eq_normalForm (c : Contract) (hc : c.HasDistinctFields) (type : BridgeType)
    (d : Data) (w : Json) (place : Location) (h : c.encode d type place = .ok w) :
    c.decode w type place = .ok (c.normalForm d type)
      ∧ c.InOrder type (c.normalForm d type)
      ∧ (c.InOrder type d → c.normalForm d type = d)
      ∧ c.encode (c.normalForm d type) type place = .ok w := by
  rcases matches_normalForm_of_encode c hc d type place w h place with ⟨hread, hwrite⟩
  exact ⟨hread, (exists_matches_of_decode c hc w type place _ hread).1,
    c.normalForm_eq_self hc type d, hwrite⟩

/-- The nested data with the entries in another order, one of the outer ones twice, and the inner
    composite without the field that may be absent. -/
def shuffledData : Data :=
  .record [
    ("weight", .float ⟨0x4008000000000000⟩),
    ("next", .record [("weight", .float ⟨0x4000000000000000⟩), ("id", .integer (-2))]),
    ("id", .integer 1), ("weight", .integer 5)]

set_option maxRecDepth 20000 in
/-- Entries out of order, an entry too many and a field that is left out do not come back. -/
theorem decode_encode_of_shuffled :
    nestedContract.HasDistinctFields
      ∧ ∃ w, nestedContract.encode shuffledData (.data "Acme.Node") .root = .ok w
        ∧ nestedContract.decode w (.data "Acme.Node") .root
          = .ok (nestedContract.normalForm shuffledData (.data "Acme.Node"))
        ∧ nestedContract.normalForm shuffledData (.data "Acme.Node") = nestedData := by
  have hc : nestedContract.HasDistinctFields := by decide +kernel
  have h : nestedContract.encode shuffledData (.data "Acme.Node") .root
      = .ok (.ofMembers [
        ("id", .number (.integer 1)),
        ("next", .ofMembers [
          ("id", .number (.integer (-2))), ("next", .null),
          ("weight", .number (.float ⟨0x4000000000000000⟩))]),
        ("weight", .number (.float ⟨0x4008000000000000⟩))]) := rfl
  exact ⟨hc, _, h,
    (decode_encode_eq_normalForm nestedContract hc _ shuffledData _ .root h).1, rfl⟩

end Contract

end PlatformBridge
