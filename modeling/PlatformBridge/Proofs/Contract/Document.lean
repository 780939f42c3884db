import PlatformBridge.Contract.Document
import PlatformBridge.Proofs.Json.Order

/-!
# What a Document Says

The document of a contract can be written and read: no object in it has a key
twice, and it is free of numbers. Nothing is lost in it either. Parts of
contracts whose documents differ in the order of members only are equal,
however deep they nest; the readers, which stop at some depth, do not come
into this.

It would be shorter to say that what is read back is the contract, and so no
two contracts have the same document. But a contract that nests too deep is
not read back, and yet its fingerprint has to be that of no other contract. So
the parts of a contract are compared directly, each kind by the members that it
has.

Every kind has two lemmas, one that its document is a document and one that it
is told apart, and they follow the nesting of kinds from the inside out. Types
are the only kind that nests in itself. Most of what happens is in the lemmas
on lists, absent values and variants at the start of the second half; a lemma
on a kind lists its members and uses these.

## Theorems

* `Json.isDocument_map`, `Json.isDocument_ofOptional`: Lists and absent values.
* `BridgeType.isDocument`, `Operation.isDocument`, `Service.isDocument`,
  `DataType.isDocument`: Documents of parts.
* `Contract.isDocument`: The document of a contract can be written and read.
* `eq_of_same_map`, `eq_of_same_ofOptional`: Lists and absent values are told
  apart.
* `tag_eq_of_same`, `value_same_of_same`: Variants by their tags and values.
* `BridgeType.eq_of_same`, `ReplyMode.eq_of_same`, `Operation.eq_of_same`,
  `Service.eq_of_same`, `DataType.eq_of_same`: Parts are told apart.
* `Contract.eq_of_same`: Contracts are told apart by their documents.
-/

namespace PlatformBridge

open Json

theorem Json.ofOptional_eq {α : Type} (toJson : α → Json) (x : Option α) :
    ofOptional toJson x = (x.map toJson).getD null := by
  cases x <;> rfl

theorem Json.ofOption_eq (x : Option String) : ofOption x = ofOptional string x := by
  cases x <;> rfl

section Documents

variable (layout : Layout)

/-- Lists and absent values are written by parts. -/
theorem Json.isDocument_map {α : Type} (toJson : α → Json) (xs : List α)
    (h : ∀ x, (toJson x).IsDocument layout) : (array (xs.map toJson)).IsDocument layout :=
  .array _ fun _ hv => by
    rcases List.mem_map.mp hv with ⟨x, _, rfl⟩
    exact h x

theorem Json.isDocument_ofOptional {α : Type} (toJson : α → Json) (x : Option α)
    (h : ∀ x, (toJson x).IsDocument layout) : (ofOptional toJson x).IsDocument layout := by
  cases x with
  | none => exact .null
  | some x => exact h x

variable {layout}

/-- The document of a type can be written and read, since every object in it has two keys at most.
    -/
theorem BridgeType.isDocument (t : BridgeType) : t.toJson.IsDocument layout := by
  induction t with
  | primitive p => exact .object _ (by simp) (by simp [IsDocument.string])
  | nullable inner ih => exact .object _ (by simp) (by simp [IsDocument.string, ih])
  | list element ih => exact .object _ (by simp) (by simp [IsDocument.string, ih])
  | map value ih => exact .object _ (by simp) (by simp [IsDocument.string, ih])
  | data name => exact .object _ (by simp) (by simp [IsDocument.string])
  | enum name => exact .object _ (by simp) (by simp [IsDocument.string])

theorem ReplyMode.isDocument (m : ReplyMode) : m.toJson.IsDocument layout := by
  cases m with
  | fireAndForget => exact .object _ (by simp) (by simp [IsDocument.string])
  | sync value => exact .object _ (by simp) (by simp [IsDocument.string, value.isDocument])
  | async value =>
      have hvalue := isDocument_ofOptional layout _ value BridgeType.isDocument
      exact .object _ (by simp) (by simp [IsDocument.string, hvalue])

theorem Parameter.isDocument (p : Parameter) : p.toJson.IsDocument layout :=
  .object _ (by simp) (by simp [IsDocument.string, p.type.isDocument])

theorem Operation.isDocument (o : Operation) : o.toJson.IsDocument layout := by
  have hparameters := isDocument_map layout _ o.parameters Parameter.isDocument
  exact .object _ (by simp)
    (by simp [IsDocument.string, IsDocument.bool, o.returns.isDocument, hparameters])

theorem Event.isDocument (e : Event) : e.toJson.IsDocument layout := by
  have hpayload := isDocument_ofOptional layout _ e.payload BridgeType.isDocument
  exact .object _ (by simp) (by simp [IsDocument.string, hpayload])

theorem Service.isDocument (s : Service) : s.toJson.IsDocument layout := by
  have hoperations := isDocument_map layout _ s.operations Operation.isDocument
  have hevents := isDocument_map layout _ s.events Event.isDocument
  have hnames := isDocument_map layout _ s.dataTypes.toList IsDocument.string
  exact .object _ (by simp) (by simp [IsDocument.string, hoperations, hevents, ofStrings, hnames])

theorem Field.isDocument (f : Field) : f.toJson.IsDocument layout :=
  .object _ (by simp) (by simp [IsDocument.string, f.type.isDocument])

theorem DataType.isDocument (d : DataType) : d.toJson.IsDocument layout := by
  rcases d with ⟨name, ⟨fields, base⟩ | members⟩
  · have hfields := isDocument_map layout _ fields Field.isDocument
    have hbase := isDocument_ofOptional layout _ base IsDocument.string
    exact .object _ (by simp [DataShape.toMembers])
      (by simp [DataShape.toMembers, IsDocument.string, hfields, ofOption_eq, hbase])
  · have hmembers := isDocument_map layout _ members IsDocument.string
    exact .object _ (by simp [DataShape.toMembers])
      (by simp [DataShape.toMembers, IsDocument.string, ofStrings, hmembers])

/-- The document of a contract can be written and read. -/
theorem Contract.isDocument (c : Contract) : c.toJson.IsDocument layout := by
  have hservices := isDocument_map layout _ c.services Service.isDocument
  have hdataTypes := isDocument_map layout _ c.dataTypes DataType.isDocument
  exact .object _ (by simp) (by simp [IsDocument.string, hservices, hdataTypes])

end Documents

/-- Lists are told apart if their items are. -/
theorem eq_of_same_map {α : Type} (toJson : α → Json)
    (h : ∀ x y, (toJson x).Same (toJson y) → x = y) (xs ys : List α)
    (hsame : (array (xs.map toJson)).Same (array (ys.map toJson))) : xs = ys := by
  rcases hsame.array with ⟨others, heq, hothers⟩
  cases heq
  rw [List.forall₂_map_left_iff, List.forall₂_map_right_iff] at hothers
  rw [← List.forall₂_eq_eq_eq]
  exact hothers.imp h

theorem eq_of_same_string (s s' : String) (h : (string s).Same (string s')) : s = s' :=
  string.inj h.eq_string

theorem eq_of_same_bool (b b' : Bool) (h : (Json.bool b).Same (.bool b')) : b = b' :=
  bool.inj h.eq_bool

/-- Values that may be absent are told apart if they are where they are there, and none of them is
    null. -/
theorem eq_of_same_ofOptional {α : Type} (toJson : α → Json)
    (h : ∀ x y, (toJson x).Same (toJson y) → x = y) (hnull : ∀ x, toJson x ≠ null)
    (x y : Option α) (hsame : (ofOptional toJson x).Same (ofOptional toJson y)) : x = y := by
  cases x with
  | none =>
      cases y with
      | none => rfl
      | some y => exact absurd hsame.symm.eq_null (hnull y)
  | some x =>
      cases y with
      | none => exact absurd hsame.eq_null (hnull x)
      | some y => rw [h x y hsame]

/-- Variants of different tags differ. -/
theorem tag_eq_of_same {tag s s' : String} {members others : List (String × Json)}
    (hmembers : (((tag, string s) :: members).map (·.1)).Nodup)
    (hothers : (((tag, string s') :: others).map (·.1)).Nodup)
    (h : (object ((tag, string s) :: members)).Same (object ((tag, string s') :: others))) :
    s = s' :=
  h.tag hmembers hothers List.mem_cons_self List.mem_cons_self

/-- Variants of the same tag with one more member differ in its value, if at all. -/
theorem value_same_of_same {tag key : String} {u v w : Json} (hkeys : [tag, key].Nodup)
    (h : (object [(tag, u), (key, v)]).Same (object [(tag, u), (key, w)])) : v.Same w := by
  have hmembers : ([(tag, u), (key, v)].map (·.1)).Nodup := hkeys
  have hparts := h.forall₂ hmembers rfl
  simp only [List.forall₂_cons] at hparts
  exact hparts.2.1

theorem Primitive.text_injective (p q : Primitive) (h : p.text = q.text) : p = q := by
  cases p <;> cases q <;> first | rfl | exact absurd h (by decide)

theorem Passing.text_injective (m n : Passing) (h : m.text = n.text) : m = n := by
  cases m <;> cases n <;> first | rfl | exact absurd h (by decide)

theorem BridgeType.toJson_ne_null (t : BridgeType) : t.toJson ≠ null := by
  cases t <;> simp only [toJson, ne_eq, reduceCtorEq, not_false_eq_true]

/-- Types are told apart by their documents. -/
theorem BridgeType.eq_of_same (t t' : BridgeType) (h : t.toJson.Same t'.toJson) : t = t' := by
  -- The tag tells the constructor, and what is in it comes from the one member besides.
  induction t generalizing t' with
  | primitive p =>
      cases t' with
      | primitive q =>
          rw [p.text_injective q (eq_of_same_string _ _ (value_same_of_same (by simp) h))]
      | _ => exact absurd (tag_eq_of_same (by simp) (by simp) h) (by decide)
  | nullable inner ih =>
      cases t' with
      | nullable inner' =>
          rw [ih inner' (value_same_of_same (by simp) h)]
      | _ => exact absurd (tag_eq_of_same (by simp) (by simp) h) (by decide)
  | list element ih =>
      cases t' with
      | list element' =>
          rw [ih element' (value_same_of_same (by simp) h)]
      | _ => exact absurd (tag_eq_of_same (by simp) (by simp) h) (by decide)
  | map value ih =>
      cases t' with
      | map value' =>
          rw [ih value' (value_same_of_same (by simp) h)]
      | _ => exact absurd (tag_eq_of_same (by simp) (by simp) h) (by decide)
  | data name =>
      cases t' with
      | data name' =>
          rw [eq_of_same_string _ _ (value_same_of_same (by simp) h)]
      | _ => exact absurd (tag_eq_of_same (by simp) (by simp) h) (by decide)
  | enum name =>
      cases t' with
      | enum name' =>
          rw [eq_of_same_string _ _ (value_same_of_same (by simp) h)]
      | _ => exact absurd (tag_eq_of_same (by simp) (by simp) h) (by decide)

theorem eq_of_same_ofOptionalType (x y : Option BridgeType)
    (h : (ofOptional BridgeType.toJson x).Same (ofOptional BridgeType.toJson y)) : x = y :=
  eq_of_same_ofOptional _ BridgeType.eq_of_same BridgeType.toJson_ne_null x y h

/-- Ways to answer are told apart by their documents. -/
theorem ReplyMode.eq_of_same (m m' : ReplyMode) (h : m.toJson.Same m'.toJson) : m = m' := by
  cases m with
  | fireAndForget =>
      cases m' with
      | fireAndForget => rfl
      | _ => exact absurd (tag_eq_of_same (by simp) (by simp) h) (by decide)
  | sync value =>
      cases m' with
      | sync value' =>
          rw [value.eq_of_same value' (value_same_of_same (by simp) h)]
      | _ => exact absurd (tag_eq_of_same (by simp) (by simp) h) (by decide)
  | async value =>
      cases m' with
      | async value' =>
          rw [eq_of_same_ofOptionalType value value' (value_same_of_same (by simp) h)]
      | _ => exact absurd (tag_eq_of_same (by simp) (by simp) h) (by decide)

theorem Parameter.eq_of_same (p q : Parameter) (h : p.toJson.Same q.toJson) : p = q := by
  have hparts := h.forall₂ (by simp) rfl
  simp only [List.forall₂_cons] at hparts
  rcases hparts with ⟨hname, htype, hmode, _⟩
  rw [Parameter.mk.injEq]
  exact ⟨eq_of_same_string _ _ hname, p.type.eq_of_same q.type htype,
    p.mode.text_injective q.mode (eq_of_same_string _ _ hmode)⟩

theorem Operation.eq_of_same (o o' : Operation) (h : o.toJson.Same o'.toJson) : o = o' := by
  have hparts := h.forall₂ (by simp) rfl
  simp only [List.forall₂_cons] at hparts
  rcases hparts with ⟨hname, hid, hparameters, hreturns, hstatic, hcanonical, hformal, _⟩
  rw [Operation.mk.injEq]
  exact ⟨eq_of_same_string _ _ hname, eq_of_same_string _ _ hid,
    eq_of_same_map _ Parameter.eq_of_same _ _ hparameters,
    o.returns.eq_of_same o'.returns hreturns, eq_of_same_bool _ _ hstatic,
    eq_of_same_string _ _ hcanonical, eq_of_same_string _ _ hformal⟩

theorem Event.eq_of_same (e e' : Event) (h : e.toJson.Same e'.toJson) : e = e' := by
  have hparts := h.forall₂ (by simp) rfl
  simp only [List.forall₂_cons] at hparts
  rcases hparts with ⟨hname, hid, hpayload, _⟩
  rw [Event.mk.injEq]
  exact ⟨eq_of_same_string _ _ hname, eq_of_same_string _ _ hid,
    eq_of_same_ofOptionalType _ _ hpayload⟩

/-- Services are told apart by their documents. -/
theorem Service.eq_of_same (s s' : Service) (h : s.toJson.Same s'.toJson) : s = s' := by
  have hparts := h.forall₂ (by simp) rfl
  simp only [List.forall₂_cons] at hparts
  rcases hparts with ⟨hname, hoperations, hevents, hdataTypes, _⟩
  rw [Service.mk.injEq, NameSet.mk.injEq]
  exact ⟨eq_of_same_string _ _ hname, eq_of_same_map _ Operation.eq_of_same _ _ hoperations,
    eq_of_same_map _ Event.eq_of_same _ _ hevents,
    eq_of_same_map _ eq_of_same_string _ _ hdataTypes⟩

theorem Field.eq_of_same (f f' : Field) (h : f.toJson.Same f'.toJson) : f = f' := by
  have hparts := h.forall₂ (by simp) rfl
  simp only [List.forall₂_cons] at hparts
  rw [Field.mk.injEq]
  exact ⟨eq_of_same_string _ _ hparts.1, f.type.eq_of_same f'.type hparts.2.1⟩

/-- Data types are told apart by their documents. -/
theorem DataType.eq_of_same (d d' : DataType) (h : d.toJson.Same d'.toJson) : d = d' := by
  rcases d with ⟨name, ⟨fields, base⟩ | members⟩
  · rcases d' with ⟨name', ⟨fields', base'⟩ | members'⟩
    · have hparts := h.forall₂ (by simp [DataShape.toMembers]) rfl
      simp only [DataShape.toMembers, List.forall₂_cons, ofOption_eq] at hparts
      rcases hparts with ⟨hname, _, hfields, hbase, _⟩
      rw [eq_of_same_string _ _ hname, eq_of_same_map _ Field.eq_of_same _ _ hfields,
        eq_of_same_ofOptional _ eq_of_same_string (by simp) _ _ hbase]
    · exact absurd (h.tag (by simp [DataShape.toMembers]) (by simp [DataShape.toMembers])
        (List.mem_cons_of_mem _ List.mem_cons_self) (List.mem_cons_of_mem _ List.mem_cons_self))
        (by decide)
  · rcases d' with ⟨name', ⟨fields', base'⟩ | members'⟩
    · exact absurd (h.tag (by simp [DataShape.toMembers]) (by simp [DataShape.toMembers])
        (List.mem_cons_of_mem _ List.mem_cons_self) (List.mem_cons_of_mem _ List.mem_cons_self))
        (by decide)
    · have hparts := h.forall₂ (by simp [DataShape.toMembers]) rfl
      simp only [DataShape.toMembers, List.forall₂_cons] at hparts
      rw [eq_of_same_string _ _ hparts.1, eq_of_same_map _ eq_of_same_string _ _ hparts.2.2.1]

/-- Contracts are told apart by their documents. -/
theorem Contract.eq_of_same (c c' : Contract) (h : c.toJson.Same c'.toJson) : c = c' := by
  have hparts := h.forall₂ (by simp) rfl
  simp only [List.forall₂_cons] at hparts
  rcases hparts with ⟨hassembly, hservices, hdataTypes, _⟩
  rw [Contract.mk.injEq]
  exact ⟨eq_of_same_string _ _ hassembly, eq_of_same_map _ Service.eq_of_same _ _ hservices,
    eq_of_same_map _ DataType.eq_of_same _ _ hdataTypes⟩

end PlatformBridge
