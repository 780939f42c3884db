import PlatformBridge.Proofs.Wire.Members
import PlatformBridge.Proofs.Wire.Success

/-!
# Normal Form of Data

What is left of data that are written and read again. A record may come with
its entries in any order, with several entries of one name, and without fields
that may be absent. The document that is written does not tell any of this, so
reading it gives the record in one form: the fields of the contract in the
order of the contract, the first entry of each name, and null for what was left
out.

`normalForm` is that form as a function. It is defined on all data at all
types, including those that cannot be written, by the same recursion as
conversion. `InOrder` says when there is nothing to be changed, and is a
property of its own: a tree is in order if all records in it list the fields of
their types.

The type of a part is known only when the kind of the whole has been looked at,
and so, as in conversions, parts are rewritten with their types left open. The
lemmas on kinds close them again. From there on nothing is said of how the
function recurs.

That the fields of a composite have distinct names is asked for in every result
about round trips. A composite with two fields of one name has one member for
both of them on the wire.

## Main definitions

* `Contract.HasDistinctFields`: No composite has two fields of one name.
* `Contract.firstFor`: The entry that counts for a field.
* `Contract.normalForm`: Data with all records in the order of the contract.
* `Contract.InOrder`: All records are in the order of the contract already.

## Theorems

* `Contract.HasDistinctFields.nodup`: The fields of any name are distinct.
* `Contract.normalForm_simple`, `Contract.normalForm_list`,
  `Contract.normalForm_map`, `Contract.normalForm_record`: The normal form by
  kind.
* `Contract.firstFor_map_of_nodup`: Entries that are given for each field.
* `Contract.normalForm_eq_self`: Data in order are their own normal form.
-/

namespace PlatformBridge

namespace Contract

/-- No composite has two fields of one name, inherited ones included. -/
def HasDistinctFields (c : Contract) : Prop :=
  ∀ d ∈ c.dataTypes, ((c.fieldsWithInherited d.name).map (·.name)).Nodup

instance (c : Contract) : Decidable c.HasDistinctFields :=
  inferInstanceAs (Decidable (∀ d ∈ c.dataTypes, _))

/-- The fields of any name are distinct, if those of every data type are. -/
theorem HasDistinctFields.nodup {c : Contract} (hc : c.HasDistinctFields) (name : TypeName) :
    ((c.fieldsWithInherited name).map (·.name)).Nodup := by
  cases h : c.composite? name with
  | none =>
      rw [fieldsWithInherited_of_composite?_eq_none c name h]
      exact List.nodup_nil
  | some parts =>
      exact hc _ (mem_of_composite?_eq_some c name parts.1 parts.2 h)

/-- The first of some entries that is for a field, at the type of the field, and null if there is
    none. -/
def firstFor (entries : List (String × (BridgeType → Data))) (f : Field) : Data :=
  match entries.find? fun e => e.1 = f.name with
  | some (_, normal) => normal f.type
  | none => .null

mutual

/-- Data of a type with every record rewritten to list the fields of its composite in the order of
    the contract. -/
def normalForm (c : Contract) : Data → BridgeType → Data
  | .list items, type =>
    match type.present with
    | .list element => .list ((c.normalItems items).map fun normal => normal element)
    | _ => .list items
  | .map entries, type =>
    match type.present with
    | .map value => .map ((c.normalEntries entries).map fun e => (e.1, e.2 value))
    | _ => .map entries
  | .record entries, type =>
    match type.present with
    | .data name =>
      .record ((c.fieldsWithInherited name).map fun f =>
        (f.name, firstFor (c.normalEntries entries) f))
    | _ => .record entries
  | .null, _ => .null
  | .bool b, _ => .bool b
  | .integer n, _ => .integer n
  | .float x, _ => .float x
  | .char k, _ => .char k
  | .string s, _ => .string s
  | .enum member, _ => .enum member

/-- `normalForm` of every item, its type still open. -/
def normalItems (c : Contract) : List Data → List (BridgeType → Data)
  | [] => []
  | d :: rest => c.normalForm d :: c.normalItems rest

/-- `normalForm` of the value of every entry, its type still open. -/
def normalEntries (c : Contract) : List (String × Data) → List (String × (BridgeType → Data))
  | [] => []
  | (k, d) :: rest => (k, c.normalForm d) :: c.normalEntries rest

end

/-- Every record lists the fields of its composite in the order of the contract. -/
inductive InOrder (c : Contract) : BridgeType → Data → Prop where
  | null (type : BridgeType) : InOrder c type .null
  | simple (type : BridgeType) (d : Data) (hd : d.isSimple = true) : InOrder c type d
  | list (type element : BridgeType) (items : List Data) (htype : type.present = .list element)
      (hparts : ∀ d ∈ items, InOrder c element d) : InOrder c type (.list items)
  | map (type value : BridgeType) (entries : List (String × Data))
      (htype : type.present = .map value) (hparts : ∀ e ∈ entries, InOrder c value e.2) :
      InOrder c type (.map entries)
  | record (type : BridgeType) (name : TypeName) (G : Field → Data)
      (htype : type.present = .data name)
      (hparts : ∀ f ∈ c.fieldsWithInherited name, InOrder c f.type (G f)) :
      InOrder c type (.record ((c.fieldsWithInherited name).map fun f => (f.name, G f)))

section Kinds

variable (c : Contract)

theorem normalItems_eq_map (items : List Data) : c.normalItems items = items.map c.normalForm := by
  induction items with
  | nil => rfl
  | cons d rest ih => rw [normalItems, ih, List.map_cons]

theorem normalEntries_eq_map (entries : List (String × Data)) :
    c.normalEntries entries = entries.map fun e => (e.1, c.normalForm e.2) := by
  induction entries with
  | nil => rfl
  | cons e rest ih => rw [normalEntries, ih, List.map_cons]

theorem normalForm_simple (d : Data) (hd : d.isSimple = true) (type : BridgeType) :
    c.normalForm d type = d := by
  cases d with
  | bool b => rw [normalForm]
  | integer n => rw [normalForm]
  | float x => rw [normalForm]
  | char k => rw [normalForm]
  | string s => rw [normalForm]
  | enum member => rw [normalForm]
  | _ => cases hd

example : (Contract.mk "Acme" [] []).normalForm (.string "Tag") (.primitive .string)
    = .string "Tag" := by
  cbv

theorem normalForm_list (items : List Data) (type element : BridgeType)
    (h : type.present = .list element) :
    c.normalForm (.list items) type = .list (items.map fun d => c.normalForm d element) := by
  simp only [normalForm, h, normalItems_eq_map, List.map_map, Function.comp_def]

theorem normalForm_map (entries : List (String × Data)) (type value : BridgeType)
    (h : type.present = .map value) :
    c.normalForm (.map entries) type
      = .map (entries.map fun e => (e.1, c.normalForm e.2 value)) := by
  simp only [normalForm, h, normalEntries_eq_map, List.map_map, Function.comp_def]

/-- A record becomes the fields of its composite, each with what is first for it. -/
theorem normalForm_record (entries : List (String × Data)) (type : BridgeType) (name : TypeName)
    (h : type.present = .data name) :
    c.normalForm (.record entries) type
      = .record ((c.fieldsWithInherited name).map fun f =>
          (f.name, firstFor (entries.map fun e => (e.1, c.normalForm e.2)) f)) := by
  rw [normalForm, h, normalEntries_eq_map]

-- Among entries given for each field, the first for a field is its own.
theorem firstFor_map_of_nodup (fields : List Field) (h : (fields.map (·.name)).Nodup)
    (N : Field → BridgeType → Data) (f : Field) (hf : f ∈ fields) :
    firstFor (fields.map fun g => (g.name, N g)) f = N f f.type := by
  unfold firstFor
  rw [List.find?_map]
  have hfind := find?_key_of_nodup (fun g : Field => g.name) fields h f hf
  simp only [Function.comp_def, hfind, Option.map_some]

/-- Data in order are their own normal form. -/
theorem normalForm_eq_self (hc : c.HasDistinctFields) (type : BridgeType) (d : Data)
    (h : c.InOrder type d) : c.normalForm d type = d := by
  induction h with
  | null type => rw [normalForm]
  | simple type d hd => exact normalForm_simple c d hd type
  | list type element items htype _ ih =>
      rw [normalForm_list c items type element htype, List.map_congr_left ih, List.map_id']
  | map type value entries htype _ ih =>
      rw [normalForm_map c entries type value htype]
      have hsame : ∀ e ∈ entries, (e.1, c.normalForm e.2 value) = e := by
        intro e he
        rw [ih e he]
      rw [List.map_congr_left hsame, List.map_id']
  | record type name G htype _ ih =>
      rw [normalForm_record c _ type name htype, List.map_map]
      congr 1
      refine List.map_congr_left fun f hf => ?_
      rw [Function.comp_def, firstFor_map_of_nodup _ (hc.nodup name)
        (fun g => c.normalForm (G g)) f hf, ih f hf]

end Kinds

end Contract

end PlatformBridge
