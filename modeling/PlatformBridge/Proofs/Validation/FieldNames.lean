import Mathlib.Data.List.Dedup
import PlatformBridge.Proofs.Json.Order
import PlatformBridge.Proofs.Validation.Lineage
import PlatformBridge.Proofs.Wire.RoundTrip

/-!
# Names of Fields

A record is written as an object with the names of its fields for keys,
inherited ones included, so two fields of one name share one member. Validation
looks at the names of types and of operations, but not at those of fields:
neither a class that declares a field twice nor one that declares a field of its
base again is refused. So there can be a record in a library without errors that
is not read as it was written.

The fields of a type have keys of their own exactly if no name is declared twice
along its lineage, which can be told from the library alone. If this is so for
all marked classes and structures, whatever is read can be written and read
again, and data in order come back as they were.

If it is not so, what happens to the fields of one name is known as well. A
record is written with as many keys as there are names, and of the values of two
fields one is kept; a record is read with an entry for each field, and two
entries are read from the same member. So the two directions are looked at
apart, and no assumption on names is made in either.

## Main definitions

* `Library.DeclareDistinct`: Some types declare no two fields of one name.
* `Contract.RoundTrips`: Values of a type come back from the wire as they were.

## Theorems

* `Contract.exists_of_encode_data`, `Contract.exists_of_decode_data`: Only
  records are written at a composite, and only objects are read.
* `Contract.exists_members_of_encode`: The members of a record that was written.
* `Contract.exists_entries_of_decode`: The entries of a record that was read.
* `Contract.HasDistinctFields.roundTrips`: Records come back if their fields
  have distinct names.
* `Library.nodup_fields_iff`, `Library.hasDistinctFields_iff`: Fields have
  distinct names if they are declared so.
* `Library.fieldNames_of_validate`: When fields have keys of their own.
* `Library.exists_not_nodup_fields`: A class and its base share a member.
-/

namespace PlatformBridge

namespace Contract

variable (c : Contract)

/-- Values of a type come back as they were, from the wire to the wire and, if their records are in
    order, from data to data. -/
structure RoundTrips (type : BridgeType) : Prop where
  data : ∀ v place d, c.decode v type place = .ok d →
    ∃ w, c.encode d type place = .ok w ∧ c.decode w type place = .ok d
  document : ∀ d place w, c.encode d type place = .ok w → c.InOrder type d →
    c.decode w type place = .ok d

/-- Records come back as they were if no two fields of a composite have one name. -/
theorem HasDistinctFields.roundTrips {c : Contract} (hc : c.HasDistinctFields)
    (type : BridgeType) : c.RoundTrips type := by
  constructor
  · intro v place d h
    rcases exists_matches_of_decode c hc v type place d h with ⟨_, w, hw⟩
    exact ⟨w, (hw place).2, (hw place).1⟩
  · intro d place w h hd
    have hread := (matches_normalForm_of_encode c hc d type place w h place).1
    rwa [c.normalForm_eq_self hc type d hd] at hread

section Records

variable {name : TypeName} {place : Location}

/-- Only records are written at a composite. -/
theorem exists_of_encode_data {d : Data} {w : Json}
    (h : c.encode d (.data name) place = .ok w) :
    ∃ entries out, d = .record entries ∧ w = .ofMembers out
      ∧ c.convertRecord .null place name (entries.map fun e => (e.1, c.encode e.2)) = .ok out := by
  cases d with
  | null => cases ((c.encode_null_eq_ok_iff _ place w).mp h).1
  | list items =>
      rcases (c.encode_list_eq_ok_iff items _ place w).mp h with ⟨element, hpresent, _⟩
      cases hpresent
  | map entries =>
      rcases (c.encode_map_eq_ok_iff entries _ place w).mp h with ⟨value, hpresent, _⟩
      cases hpresent
  | record entries =>
      rcases (c.encode_record_eq_ok_iff entries _ place w).mp h with ⟨_, hpresent, out, hout, hw⟩
      cases hpresent
      exact ⟨entries, out, rfl, hw.symm, hout⟩
  | bool | integer | float | char | string | enum =>
      rw [c.encode_simple _ rfl] at h
      cases h

/-- Only objects are read at a composite. -/
theorem exists_of_decode_data {v : Json} {d : Data}
    (h : c.decode v (.data name) place = .ok d) :
    ∃ members out, v = .object members ∧ d = .record out
      ∧ c.convertRecord .null place name (members.map fun m => (m.1, c.decode m.2)) = .ok out := by
  cases v with
  | null => cases ((c.decode_null_eq_ok_iff _ place d).mp h).1
  | array items =>
      rcases (c.decode_array_eq_ok_iff items _ place d).mp h with ⟨element, hpresent, _⟩
      cases hpresent
  | object members =>
      rcases (c.decode_object_eq_ok_iff members _ place d).mp h with
        ⟨value, hpresent, _⟩ | ⟨_, hpresent, out, hout, hd⟩
      · cases hpresent
      · cases hpresent
        exact ⟨members, out, rfl, hd.symm, hout⟩
  | bool | number | string =>
      rw [c.decode_simple _ rfl] at h
      cases h

/-- A record is written as an object with the names of the fields for keys, each of them once. -/
theorem exists_members_of_encode {d : Data} {w : Json}
    (h : c.encode d (.data name) place = .ok w) :
    ∃ members, w = .object members ∧ (members.map (·.1)).Nodup
      ∧ ∀ key, key ∈ members.map (·.1) ↔ key ∈ (c.fieldsWithInherited name).map (·.name) := by
  rcases c.exists_of_encode_data h with ⟨entries, out, rfl, rfl, hout⟩
  rcases c.exists_of_convertRecord_eq_ok .null place name _
    (List.forall_mem_map.mpr fun e _ => c.encode_placeFree e.2) out hout with ⟨_, _, G, rfl, _⟩
  refine ⟨_, rfl, ?_, fun key => ?_⟩
  · rw [List.Nodup, List.pairwise_map]
    exact (Json.pairwise_sortMembers _).imp fun hlt => String.ne_of_lt hlt
  · rw [List.mem_map, Json.exists_mem_sortMembers_iff, ← List.mem_map, List.map_map]
    rfl

/-- A record is read with an entry for each field, and what is read for a field depends on nothing
    but its name and type. -/
theorem exists_entries_of_decode {v : Json} {d : Data}
    (h : c.decode v (.data name) place = .ok d) :
    ∃ G : Field → Data, d = .record ((c.fieldsWithInherited name).map fun f => (f.name, G f)) := by
  rcases c.exists_of_decode_data h with ⟨members, out, rfl, rfl, hout⟩
  rcases c.exists_of_convertRecord_eq_ok .null place name _
    (List.forall_mem_map.mpr fun m _ => c.decode_placeFree m.2) out hout with ⟨_, _, G, rfl, _⟩
  exact ⟨G, rfl⟩

end Records

end Contract

/-- A list without repetitions is as long as another of the same elements if that has none either.
    -/
theorem length_eq_length_iff_nodup {α : Type} [DecidableEq α] (xs ys : List α) (hxs : xs.Nodup)
    (h : ∀ x, x ∈ xs ↔ x ∈ ys) : xs.length = ys.length ↔ ys.Nodup := by
  have hperm : xs.Perm ys.dedup :=
    (List.perm_ext_iff_of_nodup hxs ys.nodup_dedup).mpr fun x => by rw [h, List.mem_dedup]
  rw [hperm.length_eq, ← List.dedup_eq_self]
  exact ⟨ys.dedup_sublist.eq_of_length, congrArg List.length⟩

namespace Library

/-- No two fields that some types declare have one name, be they of one type or of two. -/
def DeclareDistinct (types : List DeclaredType) : Prop :=
  (∀ t ∈ types, (t.fields.map (·.name)).Nodup)
    ∧ types.Pairwise fun t u => ∀ f ∈ t.fields, ∀ g ∈ u.fields, f.name ≠ g.name

/-- The names along a lineage are distinct in either direction. -/
theorem nodup_declared_iff (types : List DeclaredType) :
    ((types.reverse.flatMap (·.fields)).map (·.name)).Nodup ↔ DeclareDistinct types := by
  rw [List.map_flatMap, List.nodup_flatMap, List.pairwise_reverse]
  unfold DeclareDistinct
  simp only [List.mem_reverse]
  refine and_congr_right' (List.Pairwise.iff fun t u => ⟨fun h f hf g hg hname => ?_, fun h => ?_⟩)
  · exact h (hname ▸ List.mem_map_of_mem hg) (List.mem_map_of_mem hf)
  · intro name hu ht
    rcases List.mem_map.mp ht with ⟨f, hf, rfl⟩
    rcases List.mem_map.mp hu with ⟨g, hg, hname⟩
    exact h f hf g hg hname.symm

variable (a : Library)

section Clean

variable {a} (ha : a.HasDistinctNames) (hclean : a.review.report.hasErrors = false)
  {t : DeclaredType} (ht : a.IsComposite t) {types : List DeclaredType} (h : a.Lineage [] t types)

include ha hclean ht h

/-- The names of all fields of a type are those declared along its lineage. -/
theorem names_fields_eq :
    (a.review.contract.fieldsWithInherited t.name).map (·.name)
      = (types.reverse.flatMap (·.fields)).map (·.name) := by
  have hfields := h.forall₂_fields a ha hclean ht
  rw [← List.forall₂_eq_eq_eq, List.forall₂_map_left_iff, List.forall₂_map_right_iff]
  exact (hfields.imp fun _ _ hfield => hfield.name).flip

/-- Fields of a type have distinct names if they are declared so. -/
theorem nodup_fields_iff :
    ((a.review.contract.fieldsWithInherited t.name).map (·.name)).Nodup
      ↔ DeclareDistinct types := by
  rw [names_fields_eq ha hclean ht h, nodup_declared_iff]

/-- A record is written with a key for each name declared along the lineage, and with as many keys
    as there are fields if no name is declared twice. -/
theorem members_of_encode {d : Data} {place : Location} {w : Json}
    (hw : a.review.contract.encode d (.data t.name) place = .ok w) :
    ∃ members, w = .object members ∧ (members.map (·.1)).Nodup
      ∧ (∀ key, key ∈ members.map (·.1) ↔ ∃ u ∈ types, ∃ f ∈ u.fields, f.name = key)
      ∧ (members.length = (a.review.contract.fieldsWithInherited t.name).length
        ↔ DeclareDistinct types) := by
  rcases Contract.exists_members_of_encode _ hw with ⟨members, rfl, hnodup, hkeys⟩
  refine ⟨members, rfl, hnodup, fun key => ?_, ?_⟩
  · rw [hkeys, names_fields_eq ha hclean ht h]
    simp only [List.mem_map, List.mem_flatMap, List.mem_reverse]
    exact ⟨fun ⟨f, ⟨u, hu, hf⟩, hname⟩ => ⟨u, hu, f, hf, hname⟩,
      fun ⟨u, hu, f, hf, hname⟩ => ⟨f, ⟨u, hu, hf⟩, hname⟩⟩
  · rw [← nodup_fields_iff ha hclean ht h, ← length_eq_length_iff_nodup _ _ hnodup hkeys,
      List.length_map, List.length_map]

end Clean

/-- Without errors, all fields have distinct names if those along every lineage have. -/
theorem hasDistinctFields_iff (ha : a.HasDistinctNames)
    (hclean : a.review.report.hasErrors = false) :
    a.review.contract.HasDistinctFields
      ↔ ∀ t types, a.IsComposite t → a.Lineage [] t types → DeclareDistinct types := by
  constructor
  · exact fun hdistinct t types ht hlineage =>
      (nodup_fields_iff ha hclean ht hlineage).mp (hdistinct.nodup t.name)
  · intro hdeclared d _
    cases hparts : a.review.contract.composite? d.name with
    | none =>
        rw [Contract.fieldsWithInherited_of_composite?_eq_none _ _ hparts]
        exact List.nodup_nil
    | some parts =>
        rcases a.exists_isComposite ha d.name parts.1 parts.2 hparts with ⟨t, ht, hname⟩
        rcases a.exists_lineage t ht.mem with ⟨types, hlineage⟩
        rw [← hname, nodup_fields_iff ha hclean ht hlineage]
        exact hdeclared t types ht hlineage

/-- When fields have keys of their own. Without errors, every composite of the contract is a marked
    class or structure of the library, and its fields, inherited ones included, have distinct names
    exactly if no name is declared twice along the lineage. What is written has a key for each name
    that is declared there, so there is one for each field in the same case only; what is read for
    fields of one name and one type is the same. If no name is declared twice along any lineage,
    values of all types come back as they were. -/
theorem fieldNames_of_validate (verdict : Verdict) (h : a.validate = .ok verdict)
    (hclean : verdict.report.hasErrors = false) :
    (∀ name, (verdict.contract.composite? name).isSome = true →
      ∃ t types, t.name = name ∧ a.IsComposite t ∧ a.Lineage [] t types
        ∧ (((verdict.contract.fieldsWithInherited name).map (·.name)).Nodup
          ↔ DeclareDistinct types)
        ∧ (∀ d place w, verdict.contract.encode d (.data name) place = .ok w →
          ∃ members, w = .object members ∧ (members.map (·.1)).Nodup
            ∧ (∀ key, key ∈ members.map (·.1) ↔ ∃ u ∈ types, ∃ f ∈ u.fields, f.name = key)
            ∧ (members.length = (verdict.contract.fieldsWithInherited name).length
              ↔ DeclareDistinct types))
        ∧ ∀ v place d, verdict.contract.decode v (.data name) place = .ok d →
          ∃ G : Field → Data, d = .record
            ((verdict.contract.fieldsWithInherited name).map fun f => (f.name, G f)))
    ∧ (verdict.contract.HasDistinctFields
      ↔ ∀ t types, a.IsComposite t → a.Lineage [] t types → DeclareDistinct types)
    ∧ (verdict.contract.HasDistinctFields → ∀ type, verdict.contract.RoundTrips type) := by
  rcases (a.validate_eq_ok_iff verdict).mp h with ⟨hdefect, rfl⟩
  have ha := a.hasDistinctNames_of_defect?_eq_none hdefect
  refine ⟨fun name hname => ?_, a.hasDistinctFields_iff ha hclean, fun hc => hc.roundTrips⟩
  rcases Option.isSome_iff_exists.mp hname with ⟨⟨fields, base⟩, hparts⟩
  -- The composite of the contract is taken back to the library, where its lineage is.
  rcases a.exists_isComposite ha name fields base hparts with ⟨t, ht, rfl⟩
  rcases a.exists_lineage t ht.mem with ⟨types, hlineage⟩
  exact ⟨t, types, rfl, ht, hlineage, nodup_fields_iff ha hclean ht hlineage,
    fun d place w => members_of_encode ha hclean ht hlineage,
    fun v place d => Contract.exists_entries_of_decode _⟩

/-- A class and its base with fields of different names. -/
def shelfLibrary : Library :=
  ⟨"Acme", [
    { (default : DeclaredType) with
      name := "Acme.Book", base := some "Acme.Entity", isData := true
      fields := [⟨"Title", .named "System.String"⟩, ⟨"Sequels", .array (.named "Acme.Book")⟩] },
    { (default : DeclaredType) with
      name := "Acme.Entity", isData := true, fields := [⟨"Id", .named "System.Int32"⟩] }]⟩

/-- A book with a sequel. -/
def bookData : Data :=
  .record [("Id", .integer 1), ("Title", .string "On"), ("Sequels", .list [
    .record [("Id", .integer 2), ("Title", .string "And On"), ("Sequels", .list [])]])]

set_option maxRecDepth 20000 in
/-- The fields of a book and of its base are told apart, and a book with a sequel comes back. -/
theorem fieldNames_of_shelfLibrary :
    shelfLibrary.validate = .ok shelfLibrary.review
      ∧ shelfLibrary.review.report.hasErrors = false
      ∧ shelfLibrary.review.contract.HasDistinctFields
      ∧ shelfLibrary.review.contract.RoundTrips (.data "Acme.Book")
      ∧ ∃ members, shelfLibrary.review.contract.encode bookData (.data "Acme.Book") .root
          = .ok (.object members) ∧ (members.map (·.1)).Nodup ∧ members.length = 3 := by
  have h : shelfLibrary.validate = .ok shelfLibrary.review :=
    (validate_eq_ok_iff _ _).mpr ⟨by decide +kernel, rfl⟩
  have hclean : shelfLibrary.review.report.hasErrors = false := by decide +kernel
  have hc : shelfLibrary.review.contract.HasDistinctFields := by decide +kernel
  rcases fieldNames_of_validate shelfLibrary _ h hclean with ⟨hnames, hdistinct, hround⟩
  rcases hnames "Acme.Book" (by decide +kernel) with
    ⟨t, types, _, ht, hlineage, _, hwritten, _⟩
  have hok : (shelfLibrary.review.contract.encode bookData (.data "Acme.Book") .root).isOk
      = true := by
    decide +kernel
  cases hencode : shelfLibrary.review.contract.encode bookData (.data "Acme.Book") .root with
  | error e =>
      rw [hencode] at hok
      cases hok
  | ok w =>
      rcases hwritten bookData .root w hencode with ⟨members, rfl, hnodup, _, hlength⟩
      refine ⟨h, hclean, hc, hround hc _, members, rfl, hnodup, ?_⟩
      rw [hlength.mpr (hdistinct.mp hc t types ht hlineage)]
      decide +kernel

/-- A class that declares a field of its base again. -/
def tagLibrary : Library :=
  ⟨"Acme", [
    { (default : DeclaredType) with
      name := "Acme.Entity", isData := true, fields := [⟨"Tag", .named "System.Int32"⟩] },
    { (default : DeclaredType) with
      name := "Acme.Item", base := some "Acme.Entity", isData := true
      fields := [⟨"Tag", .named "System.Int32"⟩] }]⟩

set_option maxRecDepth 20000 in
/-- A field and one of the base share a member, and only one of them comes back. -/
theorem exists_not_nodup_fields :
    tagLibrary.validate = .ok tagLibrary.review
      ∧ tagLibrary.review.report.hasErrors = false
      ∧ (tagLibrary.review.contract.composite? "Acme.Item").isSome = true
      ∧ ¬ ((tagLibrary.review.contract.fieldsWithInherited "Acme.Item").map (·.name)).Nodup
      ∧ tagLibrary.review.contract.encode
          (.record [("Tag", .integer 1), ("Tag", .integer 2)]) (.data "Acme.Item") .root
        = .ok (.object [("Tag", .number (.integer 1))])
      ∧ tagLibrary.review.contract.decode (.object [("Tag", .number (.integer 1))])
          (.data "Acme.Item") .root
        = .ok (.record [("Tag", .integer 1), ("Tag", .integer 1)]) :=
  ⟨(validate_eq_ok_iff _ _).mpr ⟨by decide +kernel, rfl⟩, by decide +kernel, by decide +kernel,
    by decide +kernel, rfl, rfl⟩

end Library

end PlatformBridge
