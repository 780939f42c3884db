import PlatformBridge.Wire.Conversion

/-!
# Parts of Values

How to argue about a value from the values in it. Both kinds of value, those of
the wire and those of native code, nest through lists and through lists of
named entries, so the principle Lean derives has a motive for each of these
lists; the ones here ask for the members of a list instead. All the kinds that
hold nothing and are not null are converted alike, and share one case.

`decode` and `encode` leave the type and the place of every part open until the
kind of the whole is known. The lists of parts that this needs are maps over
the parts, and are used as such from here on.

## Main definitions

* `Json.isSimple`, `Data.isSimple`: A value is neither null nor made of others.

## Theorems

* `Json.byParts`, `Data.byParts`: Induction over a value from its parts.
* `Contract.decodeItems_eq_map`, `Contract.decodeMembers_eq_map`: The parts of a
  document.
* `Contract.encodeItems_eq_map`, `Contract.encodeEntries_eq_map`: The parts of
  data.
-/

namespace PlatformBridge

-- An entry is larger than its value.
theorem sizeOf_snd_lt_of_mem {α : Type} [SizeOf α] {entries : List (String × α)}
    {e : String × α} (h : e ∈ entries) : sizeOf e.2 < sizeOf entries := by
  have hentry : sizeOf e < sizeOf entries := List.sizeOf_lt_of_mem h
  have hvalue : sizeOf e = 1 + sizeOf e.1 + sizeOf e.2 := by
    cases e
    rfl
  omega

namespace Json

/-- Whether a value is neither null nor made of others. -/
def isSimple : Json → Bool
  | bool _ | number _ | string _ => true
  | null | array _ | object _ => false

/-- Induction over a value from its parts. -/
@[elab_as_elim]
theorem byParts {motive : Json → Prop} (null : motive null)
    (simple : ∀ v, v.isSimple = true → motive v)
    (array : ∀ items, (∀ v ∈ items, motive v) → motive (array items))
    (object : ∀ members, (∀ m ∈ members, motive m.2) → motive (object members)) :
    ∀ v, motive v
  | .null => null
  | .bool b => simple (.bool b) rfl
  | .number n => simple (.number n) rfl
  | .string s => simple (.string s) rfl
  | .array items => array items fun v _ => byParts null simple array object v
  | .object members => object members fun m _ => byParts null simple array object m.2
termination_by v => sizeOf v
decreasing_by
  · have hlt := List.sizeOf_lt_of_mem ‹v ∈ items›
    simp only [Json.array.sizeOf_spec]
    omega
  · have hlt := sizeOf_snd_lt_of_mem ‹m ∈ members›
    simp only [Json.object.sizeOf_spec]
    omega

end Json

namespace Data

/-- Whether a value is neither null nor made of others. -/
def isSimple : Data → Bool
  | bool _ | integer _ | float _ | char _ | string _ | enum _ => true
  | null | list _ | map _ | record _ => false

/-- Induction over a value from its parts. -/
@[elab_as_elim]
theorem byParts {motive : Data → Prop} (null : motive null)
    (simple : ∀ d, d.isSimple = true → motive d)
    (list : ∀ items, (∀ d ∈ items, motive d) → motive (list items))
    (map : ∀ entries, (∀ e ∈ entries, motive e.2) → motive (map entries))
    (record : ∀ fields, (∀ e ∈ fields, motive e.2) → motive (record fields)) :
    ∀ d, motive d
  | .null => null
  | .bool b => simple (.bool b) rfl
  | .integer n => simple (.integer n) rfl
  | .float x => simple (.float x) rfl
  | .char k => simple (.char k) rfl
  | .string s => simple (.string s) rfl
  | .enum member => simple (.enum member) rfl
  | .list items => list items fun d _ => byParts null simple list map record d
  | .map entries => map entries fun e _ => byParts null simple list map record e.2
  | .record fields => record fields fun e _ => byParts null simple list map record e.2
termination_by d => sizeOf d
decreasing_by
  · have hlt := List.sizeOf_lt_of_mem ‹d ∈ items›
    simp only [Data.list.sizeOf_spec]
    omega
  · have hlt := sizeOf_snd_lt_of_mem ‹e ∈ entries›
    simp only [Data.map.sizeOf_spec]
    omega
  · have hlt := sizeOf_snd_lt_of_mem ‹e ∈ fields›
    simp only [Data.record.sizeOf_spec]
    omega

end Data

namespace Contract

variable (c : Contract)

theorem decodeItems_eq_map (items : List Json) : c.decodeItems items = items.map c.decode := by
  induction items with
  | nil => rfl
  | cons v rest ih => rw [decodeItems, ih, List.map_cons]

theorem decodeMembers_eq_map (members : List (String × Json)) :
    c.decodeMembers members = members.map fun m => (m.1, c.decode m.2) := by
  induction members with
  | nil => rfl
  | cons m rest ih => rw [decodeMembers, ih, List.map_cons]

theorem encodeItems_eq_map (items : List Data) : c.encodeItems items = items.map c.encode := by
  induction items with
  | nil => rfl
  | cons d rest ih => rw [encodeItems, ih, List.map_cons]

theorem encodeEntries_eq_map (entries : List (String × Data)) :
    c.encodeEntries entries = entries.map fun e => (e.1, c.encode e.2) := by
  induction entries with
  | nil => rfl
  | cons e rest ih => rw [encodeEntries, ih, List.map_cons]

end Contract

end PlatformBridge
