import PlatformBridge.Dispatch.Basic
import PlatformBridge.Proofs.Contract.Document
import PlatformBridge.Proofs.Json.Written

/-!
# Reading Contracts Back

A contract is read from its own document, and every reader of a part of it
finds the part. A type is the one part that nests: its reader has fuel, and
the limit that keeps documents from nesting too deep keeps types from using
the fuel up. One of the fuel is spent for each level of the document, so there
is enough whenever the document may be read.

The file that is written for a contract holds its document in an order of
members of its own, so reading the file gives the contract. What the text
identifies is more than what is read from it: a contract that nests too deep
has no file, and still no other contract has its canonical text.

Most readers are records, and a record is found if its fields are, so their
lemmas list the fields and nothing else. A service is the exception: the names
of its data types are a set in the program, and a reader of a set sorts what
it reads. They are written in order, and sorting leaves them as they are. A
data type is a record and a variant in one object, whose name is taken out
before the variant is read.

## Theorems

* `BridgeType.readerWithin_finds`, `BridgeType.reader_finds`: Types.
* `Operation.reader_finds`, `Event.reader_finds`, `Service.reader_finds`:
  Services and what they are made of.
* `Field.reader_finds`, `DataShape.reader_finds`, `DataType.reader_finds`:
  Data types.
* `Contract.reader_finds`: Contracts.
* `Contract.readBytes?_indentedCanonical`: The file of a contract holds the
  contract.
* `Contract.canonical_eq_iff`: The canonical text is that of no other
  contract.
* `Contract.identified_by_document`: Both.
-/

namespace PlatformBridge

open Json

namespace BridgeType

/-- A type that nests little enough is read back. -/
theorem readerWithin_finds (t : BridgeType) (n : Nat) (h : t.toJson.depth ≤ n) :
    (readerWithin n).Finds t.toJson t := by
  -- Each kind of a type is an object with a tag, and the parts of it are read by one level less.
  induction t generalizing n with
  | primitive p =>
      cases n with
      | zero => exact absurd h (not_depth_object_le_zero _)
      | succ n =>
          have hname : (Reader.name (Primitive.all.map fun p => (p.text, p))).Finds
              (string p.text) p :=
            Reader.name_finds _ p.text p (by cases p <;> decide)
          rw [readerWithin, toJson]
          exact Reader.tagged_finds "kind" _ (by simp) "primitive" _ (by simp) _ (by simp) _
            (Reader.single_finds "primitive" _ primitive _ _ hname)
  | nullable inner ih =>
      cases n with
      | zero => exact absurd h (not_depth_object_le_zero _)
      | succ n =>
          have hinner := ih n ((depth_object_le_iff _ n).mp h ("inner", _) (by simp))
          rw [readerWithin, toJson]
          exact Reader.tagged_finds "kind" _ (by simp) "nullable" _ (by simp) _ (by simp) _
            (Reader.single_finds "inner" _ nullable _ _ hinner)
  | list element ih =>
      cases n with
      | zero => exact absurd h (not_depth_object_le_zero _)
      | succ n =>
          have helement := ih n ((depth_object_le_iff _ n).mp h ("element", _) (by simp))
          rw [readerWithin, toJson]
          exact Reader.tagged_finds "kind" _ (by simp) "list" _ (by simp) _ (by simp) _
            (Reader.single_finds "element" _ list _ _ helement)
  | map value ih =>
      cases n with
      | zero => exact absurd h (not_depth_object_le_zero _)
      | succ n =>
          have hvalue := ih n ((depth_object_le_iff _ n).mp h ("value", _) (by simp))
          rw [readerWithin, toJson]
          exact Reader.tagged_finds "kind" _ (by simp) "map" _ (by simp) _ (by simp) _
            (Reader.single_finds "value" _ map _ _ hvalue)
  | data name =>
      cases n with
      | zero => exact absurd h (not_depth_object_le_zero _)
      | succ n =>
          rw [readerWithin, toJson]
          exact Reader.tagged_finds "kind" _ (by simp) "data" _ (by simp) _ (by simp) _
            (Reader.single_finds "name" _ data _ _ (Reader.text_finds name))
  | enum name =>
      cases n with
      | zero => exact absurd h (not_depth_object_le_zero _)
      | succ n =>
          rw [readerWithin, toJson]
          exact Reader.tagged_finds "kind" _ (by simp) "enum" _ (by simp) _ (by simp) _
            (Reader.single_finds "name" _ enum _ _ (Reader.text_finds name))

/-- A type is read back: a document that may be read nests too little for the fuel to run out. -/
theorem reader_finds (t : BridgeType) : reader.Finds t.toJson t := by
  intro a u hu
  have hdepth := hu.depth_le fun _ => t.isDocument
  exact readerWithin_finds t _ (Nat.le_succ_of_le hdepth) a u hu

/-- A type that may be absent is read back, as no type is written as null. -/
theorem orNull_reader_finds (t : Option BridgeType) :
    reader.orNull.Finds (ofOptional toJson t) t := by
  rw [ofOptional_eq]
  exact Reader.orNull_finds reader toJson t fun t _ => ⟨t.toJson_ne_null, t.reader_finds⟩

end BridgeType

/-- A way to answer is read back, by its tag. -/
theorem ReplyMode.reader_finds (m : ReplyMode) : reader.Finds m.toJson m := by
  cases m with
  | fireAndForget =>
      exact Reader.tagged_finds "shape" _ (by simp) "fire_and_forget" _ (by simp) _ (by simp) _
        (Reader.unit_finds fireAndForget)
  | sync value =>
      exact Reader.tagged_finds "shape" _ (by simp) "sync" _ (by simp) _ (by simp) _
        (Reader.single_finds "value" _ sync _ _ value.reader_finds)
  | async value =>
      refine Reader.tagged_finds "shape" _ (by simp) "async" _
        (List.mem_cons_of_mem _ (List.mem_cons_of_mem _ List.mem_cons_self)) _ (by simp) _ ?_
      refine Reader.record_finds _ _ _ (by simp) (by simp) _ fun r hr => ?_
      rw [hr.optional List.mem_cons_self (BridgeType.orNull_reader_finds value), Option.map_some]

theorem Parameter.reader_finds (p : Parameter) : reader.Finds p.toJson p := by
  refine Reader.record_finds _ _ _ (by simp) (by simp) _ fun r hr => ?_
  have hmode := Reader.name_finds Passing.names p.mode.text p.mode (by cases p.mode <;> decide)
  rw [hr.required (by simp) (Reader.text_finds p.name), hr.required (by simp) p.type.reader_finds,
    hr.required (by simp) hmode]
  rfl

theorem Operation.reader_finds (o : Operation) : reader.Finds o.toJson o := by
  refine Reader.record_finds _ _ _ (by simp) (by simp) _ fun r hr => ?_
  have hparameters := Reader.list_finds _ _ o.parameters fun p _ => p.reader_finds
  rw [hr.required (by simp) (Reader.text_finds o.name),
    hr.required (by simp) (Reader.text_finds o.id), hr.required (by simp) hparameters,
    hr.required (by simp) o.returns.reader_finds,
    hr.required (by simp) (Reader.bool_finds o.isStatic),
    hr.required (by simp) (Reader.text_finds o.canonicalSignature),
    hr.required (by simp) (Reader.text_finds o.formalSignature)]
  rfl

theorem Event.reader_finds (e : Event) : reader.Finds e.toJson e := by
  refine Reader.record_finds _ _ _ (by simp) (by simp) _ fun r hr => ?_
  rw [hr.required (by simp) (Reader.text_finds e.name),
    hr.required (by simp) (Reader.text_finds e.id),
    hr.optional (by simp) (BridgeType.orNull_reader_finds e.payload)]
  rfl

/-- A service is read back. The names of its data types, which are written in order, are put in
    order again. -/
theorem Service.reader_finds (s : Service) : reader.Finds s.toJson s := by
  refine Reader.record_finds _ _ _ (by simp) (by simp) _ fun r hr => ?_
  have hoperations := Reader.list_finds _ _ s.operations fun o _ => o.reader_finds
  have hevents := Reader.list_finds _ _ s.events fun e _ => e.reader_finds
  have hdataTypes := Reader.list_finds _ _ s.dataTypes.toList fun n _ => Reader.text_finds n
  rw [hr.required (by simp) (Reader.text_finds s.name), hr.required (by simp) hoperations,
    hr.required (by simp) hevents, hr.required (by simp [ofStrings]) hdataTypes]
  simp only [Option.bind_eq_bind, Option.bind_some, NameSet.ofList_toList]

theorem Field.reader_finds (f : Field) : reader.Finds f.toJson f := by
  refine Reader.record_finds _ _ _ (by simp) (by simp) _ fun r hr => ?_
  rw [hr.required (by simp) (Reader.text_finds f.name), hr.required (by simp) f.type.reader_finds]
  rfl

/-- What says of the values of a data type what they are is read back, as a variant among the
    members that are left. -/
theorem DataShape.reader_finds (s : DataShape) : reader.Finds (object s.toMembers) s := by
  cases s with
  | composite fields base =>
      refine Reader.tagged_finds "kind" _ (by simp) "composite" _ List.mem_cons_self _ (by simp)
        _ ?_
      refine Reader.record_finds _ _ _ (by simp) (by simp) _ fun r hr => ?_
      have hfields := Reader.list_finds _ _ fields fun f _ => f.reader_finds
      have hbase := Reader.orNull_finds Reader.text string base
        fun s _ => ⟨by simp, Reader.text_finds s⟩
      rw [hr.required (by simp) hfields,
        hr.optional (by simp [ofOption_eq, ofOptional_eq]) hbase]
      rfl
  | enumeration members =>
      have hmembers := Reader.list_finds _ _ members fun n _ => Reader.text_finds n
      exact Reader.tagged_finds "kind" _ (by simp) "enumeration" _ (by simp) _ (by simp) _
        (Reader.single_finds "members" _ enumeration _ _ hmembers)

/-- A data type is read back. Its name is taken out first, and what says of its values what they are
    is left. -/
theorem DataType.reader_finds (d : DataType) : reader.Finds d.toJson d := by
  intro a t ht
  have hkeys : ((("name", string d.name) :: d.shape.toMembers).map (·.1)).Nodup := by
    rcases d with ⟨name, ⟨fields, base⟩ | members⟩ <;> simp [DataShape.toMembers]
  rcases ht.take hkeys with ⟨fields, u, rest, rfl, htake, hname, hshape⟩
  rw [reader, Reader.whole_eq _ a _ _ ht]
  simp only [htake, Reader.text_finds d.name none u hname, d.shape.reader_finds none _ hshape,
    Option.bind_eq_bind, Option.bind_some]

namespace Contract

/-- A contract is read back. -/
theorem reader_finds (c : Contract) : reader.Finds c.toJson c := by
  refine Reader.record_finds _ _ _ (by simp) (by simp) _ fun r hr => ?_
  have hservices := Reader.list_finds _ _ c.services fun s _ => s.reader_finds
  have hdataTypes := Reader.list_finds _ _ c.dataTypes fun d _ => d.reader_finds
  rw [hr.required (by simp) (Reader.text_finds c.assembly), hr.required (by simp) hservices,
    hr.required (by simp) hdataTypes]
  rfl

/-- The file of a contract holds the contract. -/
theorem readBytes?_indentedCanonical (c : Contract) (text : String)
    (h : indentedCanonical? c.toJson = some text) :
    readBytes? reader text.toUTF8 = some c :=
  Reader.readBytes?_of_finds reader _ c (fun _ => c.isDocument) c.reader_finds text h

/-- The canonical text of a contract is that of no other contract, however deep it nests. -/
theorem canonical_eq_iff (c c' : Contract) :
    c'.toJson.canonical = c.toJson.canonical ↔ c' = c := by
  constructor
  · intro h
    exact c'.eq_of_same c (same_of_canonical_eq _ _ c'.isDocument c.isDocument h)
  · rintro rfl
    rfl

/-- A contract is what its document says. Where there is a file of it, the bytes in the file are
    read as the contract, by a dispatcher as by anyone else, and the canonical text, from which the
    fingerprint is taken, is that of no other contract. -/
theorem identified_by_document (c : Contract) :
    (∀ text, indentedCanonical? c.toJson = some text →
      readBytes? reader text.toUTF8 = some c
      ∧ ∀ table hasRunner, Dispatcher.ofDocument text.toUTF8 table hasRunner
        = Dispatcher.of c table hasRunner)
    ∧ ∀ c' : Contract, c'.toJson.canonical = c.toJson.canonical ↔ c' = c := by
  refine ⟨fun text htext => ?_, c.canonical_eq_iff⟩
  have hread := c.readBytes?_indentedCanonical text htext
  refine ⟨hread, fun table hasRunner => ?_⟩
  rw [Dispatcher.ofDocument, hread]

/-- A contract with nested types, with data types of both kinds and with names outside ASCII. -/
def mixedContract : Contract where
  assembly := "Größe"
  services := [{
    name := "Acme.\"Uhr\""
    operations := [{
      name := "Stellen"
      id := "Acme.\"Uhr\".Stellen"
      parameters := [⟨"wann", .nullable (.list (.map (.data "Acme.Zeit"))), .value⟩,
        ⟨"art", .enum "Acme.Art", .ref⟩]
      returns := .async (some (.primitive .i64))
      isStatic := false
      canonicalSignature := "Stellen"
      formalSignature := "Stellen(System.Object)" }]
    events := [⟨"Läutet", "Acme.\"Uhr\".Läutet", none⟩]
    dataTypes := .ofList ["Acme.Zeit", "Acme.Art"] }]
  dataTypes := [⟨"Acme.Zeit", .composite [⟨"stunde", .primitive .u8⟩] none⟩,
    ⟨"Acme.Art", .enumeration ["Früh", "Spät\n"]⟩]

/-- The contract has a file, the file is read as the contract, and a contract that differs in its
    name alone has another canonical text. -/
theorem identified_by_document_of_mixedContract :
    (∃ text, indentedCanonical? mixedContract.toJson = some text
      ∧ readBytes? reader text.toUTF8 = some mixedContract)
    ∧ { mixedContract with assembly := "" }.toJson.canonical
      ≠ mixedContract.toJson.canonical := by
  have hdepth : mixedContract.toJson.depth ≤ maxDepth := by decide
  have htext := (indentedCanonical?_eq_some_iff _ mixedContract.isDocument _).mpr ⟨hdepth, rfl⟩
  refine ⟨⟨_, htext, ((identified_by_document mixedContract).1 _ htext).1⟩, fun h => ?_⟩
  exact absurd (((identified_by_document mixedContract).2 _).mp h) (by decide)

end Contract

end PlatformBridge
