import PlatformBridge.Proofs.Contract.Lookup
import PlatformBridge.Proofs.Json.Order

/-!
# Reading Back

What readers make of a document that was written for a value. The members of
an object may have been put in another order on the way, so a document
presents a value when it is written for something that is the same as the
value up to this order. It must also nest no deeper than the reader may go.

There is one lemma for each kind of value that says what a document of it
looks like, and one law for each way to put a reader together. A reader of a
domain type is covered by the laws of its parts, without a look at trees,
orders or depths. `Finds` is what these laws are about. It quantifies over
all documents of a value, and so the parts of a value may each come in an
order of their own.

The limit on depth is handed down from a document to its parts, and the
reader of a variant lifts it: to find the tag, a variant is read whole first,
and what has been read whole is within the limit. `Allowance.Admits` has a
case for this, in which the limit that is left is not known and not needed.

A record is read by looking up its fields one after the other. `Holds` says
what can be looked up, and the laws of fields say what comes of it.
`HoldsOnly` is the stronger notion for records with a field that is left out
when it has its default, where the lookup has to fail.

## Main definitions

* `Json.Allowance.Admits`: The depth of documents that may be read.
* `Json.Tree.Presents`: A document of a value that may be read.
* `Json.Reader.Finds`: A reader finds something in every document of a value.
* `Json.Record.Holds`, `Json.Record.HoldsOnly`: A record has the members of an
  object as its fields, and no others.

## Theorems

* `Json.Tree.Presents.string`, `Json.Tree.Presents.number`: Documents of what
  has no parts.
* `Json.Tree.Presents.array`, `Json.Tree.Presents.object`: Documents of arrays
  and objects.
* `Json.Tree.Presents.single`, `Json.Tree.Presents.take`: An object with one
  member, and one that is taken apart at a key.
* `Json.Tree.Presents.depth_le`: Whatever is read nests little enough.
* `Json.Reader.list_finds`, `Json.Reader.orNull_finds`,
  `Json.Reader.name_finds`: Parts of records.
* `Json.Record.Holds.required`, `Json.Record.Holds.optional`,
  `Json.Record.Holds.defaulted`: Fields of records.
* `Json.Record.HoldsOnly.defaulted_of_absent`: A field that is left out.
* `Json.Reader.record_finds`, `Json.Reader.record_finds_only`,
  `Json.Reader.single_finds`: Records.
* `Json.Reader.tagged_finds`, `Json.Reader.unit_finds`: Variants.
-/

namespace PlatformBridge

namespace Json

namespace Allowance

/-- Whether documents of a depth may be read. Where nothing limits a reader any more, what it reads
    has been read within the limit of all documents before. -/
def Admits (a : Allowance) (depth : Nat) : Prop :=
  depth ≤ maxDepth ∧ ∀ n, a = some n → depth ≤ n

variable {a : Allowance}

theorem Admits.mono {d d' : Nat} (h : a.Admits d) (hle : d' ≤ d) : a.Admits d' :=
  ⟨Nat.le_trans hle h.1, fun n hn => Nat.le_trans hle (h.2 n hn)⟩

theorem admits_none {d : Nat} (h : d ≤ maxDepth) : Admits none d :=
  ⟨h, fun _ hn => by cases hn⟩

theorem admits_maxDepth {d : Nat} (h : d ≤ maxDepth) : Admits (some maxDepth) d :=
  ⟨h, fun _ hn => by cases hn; exact h⟩

/-- One level less is left inside than before. -/
theorem Admits.enter {d : Nat} (h : a.Admits (d + 1)) :
    ∃ inside, a.enter? = some inside ∧ inside.Admits d := by
  have hle : d ≤ maxDepth := Nat.le_trans (Nat.le_succ d) h.1
  rcases a with _ | n
  · exact ⟨none, rfl, admits_none hle⟩
  · cases n with
    | zero => exact absurd (h.2 0 rfl) (Nat.not_succ_le_zero d)
    | succ n =>
        refine ⟨some n, rfl, hle, fun m hm => ?_⟩
        cases hm
        exact Nat.le_of_succ_le_succ (h.2 (n + 1) rfl)

end Allowance

/-- A document of a value, with the members of objects in whatever order, that may be read. -/
def Tree.Presents (t : Tree) (a : Allowance) (v : Json) : Prop :=
  ∃ (layout : Layout) (w : Json),
    w.IsDocument layout ∧ w.Same v ∧ a.Admits w.depth ∧ t = w.toTree layout

namespace Tree.Presents

variable {t : Tree} {a : Allowance}

/-- What has no parts is written in one way only. -/
theorem string {s : String} (h : t.Presents a (.string s)) : t = .string (some s) := by
  rcases h with ⟨layout, w, _, hsame, _, rfl⟩
  rw [hsame.eq_string, toTree]

theorem bool {b : Bool} (h : t.Presents a (.bool b)) : t = .bool b := by
  rcases h with ⟨layout, w, _, hsame, _, rfl⟩
  rw [hsame.eq_bool, toTree]

theorem null (h : t.Presents a .null) : t = .null := by
  rcases h with ⟨layout, w, _, hsame, _, rfl⟩
  rw [hsame.eq_null, toTree]

/-- A number is written as a numeral that means it. -/
theorem number {n : Number} (h : t.Presents a (.number n)) :
    ∃ numeral : Numeral, t = .number numeral ∧ numeral.toNumber? = some n := by
  rcases h with ⟨layout, w, hdocument, hsame, _, rfl⟩
  rw [hsame.eq_number] at hdocument ⊢
  cases hdocument with
  | number _ hlegible => exact ⟨_, rfl, hlegible.means⟩

theorem ne_null {v : Json} (h : t.Presents a v) (hv : v ≠ .null) : t ≠ .null := by
  rcases h with ⟨layout, w, _, hsame, _, rfl⟩
  cases w with
  | null => exact absurd hsame.symm.eq_null hv
  | _ => simp only [toTree, ne_eq, reduceCtorEq, not_false_eq_true]

/-- A document of an array is an array of documents of its items. -/
theorem array {items : List Json} (h : t.Presents a (.array items)) :
    ∃ ts inside, t = .array ts ∧ a.enter? = some inside
      ∧ List.Forall₂ (fun t v => t.Presents inside v) ts items := by
  rcases h with ⟨layout, w, hdocument, hsame, hadmits, rfl⟩
  rcases hsame.array with ⟨others, rfl, hothers⟩
  rcases hadmits.enter with ⟨inside, henter, hinside⟩
  have hdepths := (depth_array_le_iff others _).mp (Nat.le_refl _)
  cases hdocument with
  | array _ hitems =>
      refine ⟨others.map (toTree layout), inside, ?_, henter, ?_⟩
      · rw [toTree, itemTrees_eq_map]
      · have hparts : ∀ v ∈ others, v.IsDocument layout ∧ inside.Admits v.depth :=
          fun v hv => ⟨hitems v hv, hinside.mono (hdepths v hv)⟩
        rw [List.forall₂_map_left_iff]
        refine ((List.forall₂_and_left others items).mpr ⟨hparts, hothers⟩).imp fun w v hw => ?_
        exact ⟨layout, w, hw.1.1, hw.2, hw.1.2, rfl⟩

section Members

variable {members : List (String × Json)}

/-- A document of an object is an object of documents of the values of its members, under the same
    keys. -/
theorem object (hkeys : (members.map (·.1)).Nodup) (h : t.Presents a (.object members)) :
    ∃ (fields : List (String × Tree)) (inside : Allowance),
      t = .object (fields.map fun f => (some f.1, f.2)) ∧ a.enter? = some inside
      ∧ (fields.map (·.1)).Nodup ∧ (∀ f ∈ fields, f.1 ∈ members.map (·.1))
      ∧ ∀ m ∈ members, ∃ u, (m.1, u) ∈ fields ∧ u.Presents inside m.2 := by
  rcases h with ⟨layout, w, hdocument, hsame, hadmits, rfl⟩
  rcases hsame.exists_object with ⟨others, rfl⟩
  rcases hadmits.enter with ⟨inside, henter, hinside⟩
  have hdepths := (depth_object_le_iff others _).mp (Nat.le_refl _)
  cases hdocument with
  | object _ distinct hvalues =>
      refine ⟨others.map fun m => (m.1, m.2.toTree layout), inside, ?_, henter, ?_, ?_, ?_⟩
      · rw [toTree, memberTrees_eq_map, List.map_map]
        rfl
      · rwa [List.map_map]
      · intro f hf
        rcases List.mem_map.mp hf with ⟨m, hm, rfl⟩
        rcases Same.exists_member hkeys distinct hsame.symm m hm with ⟨v, hv, _⟩
        exact List.mem_map.mpr ⟨_, hv, rfl⟩
      · intro m hm
        rcases Same.exists_member distinct hkeys hsame m hm with ⟨w, hw, hwsame⟩
        refine ⟨w.toTree layout, List.mem_map.mpr ⟨_, hw, rfl⟩, layout, w, hvalues _ hw, hwsame,
          hinside.mono (hdepths _ hw), rfl⟩

/-- A document of an object with one member has one member. -/
theorem single {key : String} {v : Json} (h : t.Presents a (.object [(key, v)])) :
    ∃ u inside, t = .object [(some key, u)] ∧ a.enter? = some inside ∧ u.Presents inside v := by
  have hnodup : ([(key, v)].map (·.1)).Nodup := List.nodup_singleton key
  rcases h.object hnodup with ⟨fields, inside, rfl, henter, hdistinct, hknown, hmembers⟩
  rcases hmembers _ List.mem_cons_self with ⟨u, hu, hpresents⟩
  refine ⟨u, inside, ?_, henter, hpresents⟩
  have hkeys : ∀ f ∈ fields, f.1 = key := fun f hf => List.mem_singleton.mp (hknown f hf)
  -- Keys that are distinct and all the same are one key.
  have hone : fields = [(key, u)] := by
    cases fields with
    | nil => cases hu
    | cons f rest =>
        have hrest : rest = [] := by
          refine List.eq_nil_iff_forall_not_mem.mpr fun g hg => ?_
          rw [List.map_cons, List.nodup_cons, hkeys f List.mem_cons_self] at hdistinct
          exact hdistinct.1 (List.mem_map.mpr ⟨g, hg, hkeys g (List.mem_cons_of_mem f hg)⟩)
        rw [hrest] at hu ⊢
        rw [List.mem_singleton.mp hu]
  rw [hone]
  rfl

/-- A document of an object can be taken apart at a key: into a document of the value under it and
    one of an object with the other members. -/
theorem take {key : String} {v : Json} (hkeys : (((key, v) :: members).map (·.1)).Nodup)
    (h : t.Presents a (.object ((key, v) :: members))) :
    ∃ fields u rest, t = .object fields ∧ Reader.takeMember? key fields = some (u, rest)
      ∧ u.Presents none v ∧ (Tree.object rest).Presents none (.object members) := by
  rcases h with ⟨layout, w, hdocument, hsame, hadmits, rfl⟩
  rcases hsame.exists_object with ⟨others, rfl⟩
  have hdepths := (depth_object_le_iff others _).mp (Nat.le_refl _)
  cases hdocument with
  | object _ distinct hvalues =>
      -- Keys are distinct, so there is one member to be taken and the rest has all others.
      rcases hsame.take distinct hkeys with ⟨u, hfound, husame, hrest⟩
      have hu : (key, u) ∈ others := List.mem_of_mem_filter (hfound ▸ List.mem_singleton_self _)
      refine ⟨_, u.toTree layout, memberTrees layout (others.filter fun m => decide (m.1 ≠ key)),
        rfl, ?_, ⟨layout, u, hvalues _ hu, husame, ?_, rfl⟩, ⟨layout, _, ?_, hrest, ?_, rfl⟩⟩
      · have hfilter : ∀ p : Option String → Bool, (memberTrees layout others).filter
            (fun m => p m.1) = memberTrees layout (others.filter fun m => p (some m.1)) := by
          intro p
          rw [memberTrees_eq_map, memberTrees_eq_map, List.filter_map]
          rfl
        have htag := hfilter fun k => decide (k = some key)
        have hothers := hfilter fun k => decide (k ≠ some key)
        simp only [Option.some.injEq, ne_eq] at htag hothers
        simp only [Reader.takeMember?, htag, hfound, hothers, memberTrees, ne_eq]
      · exact (Allowance.admits_none hadmits.1).mono (Nat.le_succ_of_le (hdepths _ hu))
      · refine .object _ (distinct.sublist (List.filter_sublist.map _)) fun m hm => ?_
        exact hvalues m (List.mem_of_mem_filter hm)
      · refine (Allowance.admits_none hadmits.1).mono ((depth_object_le_iff _ _).mpr fun m hm => ?_)
        exact hdepths m (List.mem_of_mem_filter hm)

end Members

/-- A value nests as deep as any document of it. -/
theorem depth_le {v : Json} (h : t.Presents a v) (hv : ∀ layout, v.IsDocument layout) :
    v.depth ≤ maxDepth := by
  rcases h with ⟨layout, w, hdocument, hsame, hadmits, rfl⟩
  rw [← hsame.depth_eq hdocument (hv layout)]
  exact hadmits.1

end Tree.Presents

variable {α : Type}

/-- A reader finds something in every document of a value. -/
def Reader.Finds (r : Reader α) (v : Json) (x : α) : Prop :=
  ∀ (a : Allowance) (t : Tree), t.Presents a v → r a t = some x

/-- A record has the members of an object as its fields. -/
def Record.Holds (r : Record) (members : List (String × Json)) : Prop :=
  ∀ m ∈ members, ∃ t, r.find? m.1 = some t ∧ t.Presents r.inside m.2

/-- A record has the members of an object as its fields, and no other fields. -/
structure Record.HoldsOnly (r : Record) (members : List (String × Json)) : Prop where
  holds : r.Holds members
  absent : ∀ key, key ∉ members.map (·.1) → r.find? key = none

namespace Record.Holds

variable {r : Record} {members : List (String × Json)}

/-- A field that has to be there is there. -/
theorem required (h : r.Holds members) {key : String} {v : Json} (hmem : (key, v) ∈ members)
    {reader : Reader α} {x : α} (hfinds : reader.Finds v x) :
    r.required key reader = some x := by
  rcases h _ hmem with ⟨t, hfind, ht⟩
  rw [Record.required, hfind, Option.bind_some]
  exact hfinds _ t ht

/-- A field that may be null is there as well. -/
theorem optional (h : r.Holds members) {key : String} {v : Json} (hmem : (key, v) ∈ members)
    {reader : Reader α} {x : Option α} (hfinds : reader.orNull.Finds v x) :
    r.optional key reader = some x := by
  rcases h _ hmem with ⟨t, hfind, ht⟩
  rw [Record.optional, hfind]
  exact hfinds _ t ht

/-- A field with a value to take when it is not there, which is there. -/
theorem defaulted (h : r.Holds members) {key : String} {v : Json} (hmem : (key, v) ∈ members)
    {reader : Reader α} {x : α} (hfinds : reader.Finds v x) (default : α) :
    r.defaulted key reader default = some x := by
  rcases h _ hmem with ⟨t, hfind, ht⟩
  rw [Record.defaulted, hfind]
  exact hfinds _ t ht

end Record.Holds

/-- A field that is not there has the value to take in its place. -/
theorem Record.HoldsOnly.defaulted_of_absent {r : Record} {members : List (String × Json)}
    (h : r.HoldsOnly members) {key : String} (habsent : key ∉ members.map (·.1))
    (reader : Reader α) (default : α) : r.defaulted key reader default = some default := by
  rw [Record.defaulted, h.absent key habsent]

namespace Reader

theorem text_finds (s : String) : text.Finds (string s) s := by
  intro a t ht
  rw [ht.string, text]

theorem bool_finds (b : Bool) : bool.Finds (.bool b) b := by
  intro a t ht
  rw [ht.bool, bool]

/-- A number that is small enough is found. -/
theorem natBelow_finds {bound n : Nat} (h : n < bound) : (natBelow bound).Finds (ofNat n) n := by
  intro a t ht
  rcases ht.number with ⟨numeral, rfl, hmeans⟩
  simp [natBelow, hmeans, h]

/-- A name stands for the value that is listed under it. -/
theorem name_finds (values : List (String × α)) (s : String) (x : α)
    (h : (values.find? fun v => v.1 = s).map (·.2) = some x) :
    (name values).Finds (string s) x := by
  intro a t ht
  rw [ht.string, name, h]

/-- An absent value is null, and no other value is. -/
theorem orNull_finds (r : Reader α) (toJson : α → Json) (x : Option α)
    (h : ∀ y ∈ x, toJson y ≠ null ∧ r.Finds (toJson y) y) :
    r.orNull.Finds ((x.map toJson).getD null) x := by
  intro a t ht
  cases x with
  | none => rw [ht.null, orNull]
  | some y =>
      rcases h y rfl with ⟨hvalue, hfinds⟩
      rw [orNull, hfinds a t ht, Option.map_some]
      exact ht.ne_null hvalue

/-- Every item of a list is found, in their order. -/
theorem list_finds (r : Reader α) (toJson : α → Json) (xs : List α)
    (h : ∀ x ∈ xs, r.Finds (toJson x) x) : (list r).Finds (array (xs.map toJson)) xs := by
  intro a t ht
  rcases ht.array with ⟨ts, inside, rfl, henter, hts⟩
  rw [list, henter, Option.bind_some]
  clear ht
  induction xs generalizing ts with
  | nil =>
      cases hts
      rfl
  | cons x rest ih =>
      rw [List.map_cons, List.forall₂_cons_right_iff] at hts
      rcases hts with ⟨t, others, ht, hothers, rfl⟩
      rw [List.forall_mem_cons] at h
      rw [items, h.1 inside t ht, ih h.2 others hothers]

/-- With known, distinct keys no member is passed over and none is refused. -/
theorem knownMembers?_eq (names : List String) (fields : List (String × Tree))
    (hkeys : (fields.map (·.1)).Nodup) (hknown : ∀ f ∈ fields, f.1 ∈ names) :
    knownMembers? names (fields.map fun f => (some f.1, f.2)) = some fields := by
  induction fields with
  | nil => rfl
  | cons f rest ih =>
      rw [List.map_cons, List.nodup_cons] at hkeys
      rw [List.forall_mem_cons] at hknown
      have hname : names.contains f.1 = true := List.contains_iff_mem.mpr hknown.1
      have hnew : (rest.find? fun g => g.1 = f.1).isSome = false := by
        rw [Option.isSome_eq_false_iff, Option.isNone_iff_eq_none, List.find?_eq_none]
        intro g hg heq
        exact hkeys.1 (List.mem_map.mpr ⟨g, hg, of_decide_eq_true heq⟩)
      simp only [List.map_cons, knownMembers?, ih hkeys.2 hknown.2, Option.bind_some, hname, hnew,
        if_true, Bool.false_eq_true, if_false]

/-- A record is found if its body makes it of fields that are the members of the object, and no
    others. -/
theorem record_finds_only (names : List String) (body : Record → Option α)
    (members : List (String × Json)) (hkeys : (members.map (·.1)).Nodup)
    (hknown : ∀ m ∈ members, m.1 ∈ names) (x : α)
    (hbody : ∀ r : Record, r.HoldsOnly members → body r = some x) :
    (record names body).Finds (object members) x := by
  intro a t ht
  rcases ht.object hkeys with ⟨fields, inside, rfl, henter, hdistinct, hfields, hmembers⟩
  have hnames : ∀ f ∈ fields, f.1 ∈ names := by
    intro f hf
    rcases List.mem_map.mp (hfields f hf) with ⟨m, hm, heq⟩
    exact heq ▸ hknown m hm
  have hread : record names body a (.object (fields.map fun f => (some f.1, f.2)))
      = body ⟨inside, false, fields⟩ := by
    rw [record, henter, knownMembers?_eq names fields hdistinct hnames]
    rfl
  rw [hread]
  refine hbody _ ⟨fun m hm => ?_, fun key hkey => ?_⟩
  · rcases hmembers m hm with ⟨u, hu, hpresents⟩
    have hfind := find?_key_of_nodup (fun f : String × Tree => f.1) fields hdistinct (m.1, u) hu
    exact ⟨u, by rw [Record.find?, hfind, Option.map_some], hpresents⟩
  · rw [Record.find?, Option.map_eq_none_iff, List.find?_eq_none]
    exact fun f hf heq => hkey (of_decide_eq_true heq ▸ hfields f hf)

/-- A record is found if its body makes it of fields that are the members of the object. -/
theorem record_finds (names : List String) (body : Record → Option α)
    (members : List (String × Json)) (hkeys : (members.map (·.1)).Nodup)
    (hknown : ∀ m ∈ members, m.1 ∈ names) (x : α)
    (hbody : ∀ r : Record, r.Holds members → body r = some x) :
    (record names body).Finds (object members) x :=
  record_finds_only names body members hkeys hknown x fun r hr => hbody r hr.holds

/-- A record with one field is found if the field is. -/
theorem single_finds {β : Type} (key : String) (reader : Reader β) (f : β → α) (v : Json) (x : β)
    (h : reader.Finds v x) :
    (record [key] fun r => (r.required key reader).map f).Finds (object [(key, v)]) (f x) := by
  have hkeys : ([(key, v)].map (·.1)).Nodup := List.nodup_singleton key
  refine record_finds [key] _ _ hkeys (fun m hm => ?_) _ fun r hr => ?_
  · rw [List.mem_singleton.mp hm]
    exact List.mem_singleton_self key
  · rw [hr.required List.mem_cons_self h, Option.map_some]

/-- What may be read at all is read whole without a loss. -/
theorem whole_eq (r : Reader α) (a : Allowance) (t : Tree) (v : Json) (h : t.Presents a v) :
    whole r a t = r none t := by
  rcases h with ⟨layout, w, hdocument, _, hadmits, rfl⟩
  cases a with
  | none => rfl
  | some n =>
      rw [whole, toJson?_toTree layout w hdocument n, if_pos (hadmits.2 n rfl), Option.bind_some]

/-- A variant is read whole first, and so its tag is not even looked at if this fails. -/
theorem tagged_eq_none {tag : String} {variants : List (String × Reader α)} {n : Nat} {t : Tree}
    (h : t.toJson? n = none) : tagged tag variants (some n) t = none := by
  rw [tagged, whole, h, Option.bind_none]

/-- A tag stands for the place of its variant. -/
theorem findIdx?_name_of_nodup (variants : List (String × α)) (h : (variants.map (·.1)).Nodup)
    (index : Nat) (hindex : index < variants.length) :
    (variants.map (·.1)).findIdx? (fun s => s = variants[index].1) = some index := by
  have hlength : index < (variants.map (·.1)).length := by rwa [List.length_map]
  refine List.findIdx?_eq_some_iff_getElem.mpr ⟨hlength, ?_, fun j hj heq => ?_⟩
  · rw [List.getElem_map, decide_eq_true_eq]
  · have hsame : (variants.map (·.1))[j] = (variants.map (·.1))[index] := by
      rw [List.getElem_map _ (i := index)]
      exact of_decide_eq_true heq
    exact absurd (h.getElem_inj_iff.mp hsame) (Nat.ne_of_lt hj)

/-- A variant is found by its tag if its reader finds it in the other members. -/
theorem tagged_finds (tag : String) (variants : List (String × Reader α))
    (hvariants : (variants.map (·.1)).Nodup) (choice : String) (r : Reader α)
    (hvariant : (choice, r) ∈ variants) (members : List (String × Json))
    (hkeys : (((tag, string choice) :: members).map (·.1)).Nodup) (x : α)
    (hfinds : r.Finds (object members) x) :
    (tagged tag variants).Finds (object ((tag, string choice) :: members)) x := by
  intro a t ht
  rcases ht.take hkeys with ⟨fields, u, rest, rfl, htake, hu, hrest⟩
  rcases List.getElem_of_mem hvariant with ⟨index, hindex, hget⟩
  have hchoice := findIdx?_name_of_nodup variants hvariants index hindex
  rw [tagged, whole_eq _ a _ _ ht]
  simp only [hget] at hchoice
  simp only [htake, hu.string, Option.map_some, Option.bind_eq_bind, Option.bind_some, tagIndex?,
    hchoice, List.getElem?_eq_getElem hindex, hget, hfinds none _ hrest]

/-- A variant without fields is found in an object without further members. -/
theorem unit_finds (x : α) : (unit x).Finds (object []) x := by
  intro a t ht
  have hkeys : (([] : List (String × Json)).map (·.1)).Nodup := List.nodup_nil
  rcases ht.object hkeys with ⟨fields, _, rfl, _⟩
  rfl

end Reader

end Json

end PlatformBridge
