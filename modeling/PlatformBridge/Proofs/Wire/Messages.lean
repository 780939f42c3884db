import PlatformBridge.Proofs.Dispatch.Admission
import PlatformBridge.Proofs.Json.Values
import PlatformBridge.Proofs.Wire.Success

/-!
# Messages on the Way

What the other side reads from the text of a message. A reply is read as it was
sent, whether it carries a value or a failure: the payload says by its key
which of the two it is, so a value that is null is still a value. A notice has
no such key. Its payload is left out where there is none, and null is read
there as none as well, so a payload that is null is lost, although the contract
tells the two apart when the event is raised.

How deep the document of a message nests decides whether it is read at all.
Nothing on the native side looks at this, neither where a value is accepted nor
where a message is written, so it stays a condition of the result.

Messages that are sent have values in them that a program holds, and the
results are about these. A reply with a value is one that the dispatcher makes,
and an event is one that some contract lets out, as far as the definition of
what is sent can tell. The exception, an event with a payload that is null, is
real: `raise_null_eq_ok_iff` says which events go out like this, and they are
all those whose payload may be absent.

## Main definitions

* `Notice.received`, `Outbound.received`: A message without a payload that is
  null.
* `Outbound.overWire?`: What the other side reads.
* `Outbound.HoldsValues`: Messages with values that a program holds.
* `Outbound.IsSent`: The messages that are sent.

## Theorems

* `Reply.reader_finds`, `Notice.reader_finds`, `Outbound.reader_finds`: What is
  found in the documents of a message.
* `Outbound.isDocument`: The document of a message can be written and read.
* `Outbound.overWire?_eq`: What is read, and whether anything is.
* `Outbound.received_eq_iff`: The messages that are received as they are.
* `Contract.raise_null_eq_ok_iff`: The events whose payload may be null.
* `Outbound.overWire?_of_isSent`: The messages that are read as they were sent.
* `Outbound.exists_overWire?_ne`: A message that is not.
-/

namespace PlatformBridge

open Json Json.Reader

theorem Failure.reader_finds (f : Failure) : Failure.reader.Finds f.toJson f := by
  have hkind := name_finds FailureKind.names f.kind.text f.kind (by cases f.kind <;> decide)
  refine record_finds _ _ _ (by simp) (by simp) _ fun r hr => ?_
  rw [hr.required (by simp) hkind, hr.required (by simp) (text_finds f.message)]
  rfl

namespace CorrelationId

variable {r : Record} {members : List (String × Json)} (h : r.HoldsOnly members)
include h

theorem ofRecord?_eq_some (id : CorrelationId)
    (hmem : ("correlation_id", Json.ofNat id.toNat) ∈ members) : ofRecord? r = some (some id) := by
  have hfinds := orNull_finds (natBelow bound) Json.ofNat (some id.toNat) fun y hy => by
    cases hy
    exact ⟨nofun, natBelow_finds id.toNat_lt⟩
  rw [ofRecord?, h.holds.defaulted hmem hfinds, Option.map_some, Option.map_some,
    UInt64.ofNat_toNat]

theorem ofRecord?_eq_none (habsent : "correlation_id" ∉ members.map (·.1)) :
    ofRecord? r = some none := by
  rw [ofRecord?, h.defaulted_of_absent habsent, Option.map_some, Option.map_none]

end CorrelationId

namespace Reply

/-- A payload is found as what it is, a value or a failure: it says so by its key. -/
theorem payloadReader_finds (payload : Except Failure Json) (h : ∀ v, payload = .ok v → v.IsValue) :
    payloadReader.Finds (payloadJson payload) payload := by
  intro a t ht
  cases payload with
  | ok v =>
      rcases ht.single with ⟨u, inside, rfl, henter, hu⟩
      rw [payloadReader, henter, Option.bind_some, json_finds v (h v rfl) inside u hu,
        Option.map_some]
  | error f =>
      rcases ht.single with ⟨u, inside, rfl, henter, hu⟩
      rw [payloadReader, henter, Option.bind_some, f.reader_finds inside u hu, Option.map_some]

theorem reader_finds (r : Reply) (h : ∀ v, r.payload = .ok v → v.IsValue) :
    reader.Finds r.toJson r := by
  rcases r with ⟨operation, correlation, payload⟩
  have hpayload := payloadReader_finds payload h
  cases correlation with
  | none =>
      refine record_finds_only _ _ _ (by simp [members, CorrelationId.members])
        (by simp [members, CorrelationId.members]) _ fun r hr => ?_
      have habsent := CorrelationId.ofRecord?_eq_none hr (by simp [members, CorrelationId.members])
      rw [hr.holds.required (by simp [members]) (text_finds operation), habsent,
        hr.holds.required (by simp [members]) hpayload]
      rfl
  | some id =>
      refine record_finds_only _ _ _ (by simp [members, CorrelationId.members])
        (by simp [members, CorrelationId.members]) _ fun r hr => ?_
      have hid := CorrelationId.ofRecord?_eq_some hr id (by simp [members, CorrelationId.members])
      rw [hr.holds.required (by simp [members]) (text_finds operation), hid,
        hr.holds.required (by simp [members]) hpayload]
      rfl

end Reply

namespace Notice

/-- A notice as it is received: a payload that is null is taken for none. -/
def received (n : Notice) : Notice := { n with payload := n.payload.bind unlessNull }

theorem received_eq_iff (n : Notice) : n.received = n ↔ n.payload ≠ some .null := by
  rcases n with ⟨event, payload⟩
  rcases payload with _ | v
  · exact ⟨fun _ => nofun, fun _ => rfl⟩
  · by_cases hnull : v = .null
    · simp [received, hnull, unlessNull]
    · simp [received, hnull, unlessNull_of_ne]

theorem reader_finds (n : Notice) (h : ∀ v ∈ n.payload, v.IsValue) :
    reader.Finds n.toJson n.received := by
  rcases n with ⟨event, payload⟩
  refine record_finds_only _ _ _ ?_ ?_ _ fun r hr => ?_
  · cases payload <;> simp [members]
  · cases payload <;> simp [members]
  rw [hr.holds.required (by simp [members]) (text_finds event)]
  cases payload with
  | none =>
      rw [hr.defaulted_of_absent (by simp [members])]
      rfl
  | some v =>
      rw [hr.holds.defaulted (by simp [members]) (orNull_json_finds v (h v rfl))]
      rfl

end Notice

namespace Outbound

/-- A message as it is received. -/
def received : Outbound → Outbound
  | reply r => reply r
  | event n => event n.received

/-- What the other side reads from the text of a message. -/
def overWire? (m : Outbound) : Option Outbound := readText? reader m.toJson.render

/-- The values in a message are ones that a program holds. -/
def HoldsValues : Outbound → Prop
  | reply r => ∀ v, r.payload = .ok v → v.IsValue
  | event n => ∀ v ∈ n.payload, v.IsValue

/-- A message is found in its documents as it is received. -/
theorem reader_finds (m : Outbound) (h : m.HoldsValues) : reader.Finds m.toJson m.received := by
  cases m with
  | reply r =>
      refine tagged_finds "type" _ (by simp) "reply" _ List.mem_cons_self _ ?_ _ fun a t ht => ?_
      · rcases r with ⟨operation, _ | id, payload⟩
        · simp [Reply.members, CorrelationId.members]
        · simp [Reply.members, CorrelationId.members]
      · exact congrArg (Option.map reply) (r.reader_finds h a t ht)
  | event n =>
      refine tagged_finds "type" _ (by simp) "event" _
        (List.mem_cons_of_mem _ List.mem_cons_self) _ ?_ _ fun a t ht => ?_
      · rcases n with ⟨event, _ | v⟩
        · simp [Notice.members]
        · simp [Notice.members]
      · exact congrArg (Option.map event) (n.reader_finds h a t ht)

/-- The document of a message can be written and read. -/
theorem isDocument (m : Outbound) (h : m.HoldsValues) : m.toJson.IsDocument .json := by
  rcases m with ⟨operation, correlation, payload⟩ | ⟨id, payload⟩
  · have hpayload : (Reply.payloadJson payload).IsDocument .json := by
      cases payload with
      | ok v => exact .object _ (by simp) (by simp [(h v rfl).isDocument])
      | error f =>
          have hfailure : f.toJson.IsDocument .json :=
            .object _ (by simp) (by simp [IsDocument.string])
          exact .object _ (by simp) (by simp [hfailure])
    -- A correlation is small enough for a number that is read back.
    have hcorrelation : ∀ id : CorrelationId, (Json.ofNat id.toNat).IsDocument .json := fun id =>
      IsValue.isDocument (.number _ ⟨by omega, by have := id.toNat_lt; omega⟩)
    cases correlation with
    | none =>
        exact .object _ (by simp [Reply.members, CorrelationId.members])
          (by simp [Reply.members, CorrelationId.members, hpayload, IsDocument.string])
    | some id =>
        exact .object _ (by simp [Reply.members, CorrelationId.members])
          (by simp [Reply.members, CorrelationId.members, hpayload, IsDocument.string,
            hcorrelation])
  · cases payload with
    | none =>
        exact .object _ (by simp [Notice.members]) (by simp [Notice.members, IsDocument.string])
    | some v =>
        exact .object _ (by simp [Notice.members])
          (by simp [Notice.members, IsDocument.string, (h v rfl).isDocument])

/-- A message is received if its document nests little enough, and nothing is received otherwise. -/
theorem overWire?_eq (m : Outbound) (h : m.HoldsValues) :
    m.overWire? = if m.toJson.depth ≤ maxDepth then some m.received else none := by
  have hdocument := m.isDocument h
  by_cases hdepth : m.toJson.depth ≤ maxDepth
  · rw [if_pos hdepth, overWire?, readText?_of_finds reader _ _ hdocument hdepth (m.reader_finds h)]
  · have hread := toJson?_toTree .json m.toJson hdocument maxDepth
    rw [if_neg hdepth] at hread ⊢
    rw [overWire?, readText?, ofText?_render _ hdocument, Option.bind_some]
    exact tagged_eq_none hread

/-- A message is received as it is, unless it is an event with a payload that is null. -/
theorem received_eq_iff (m : Outbound) : m.received = m ↔ ∀ id, m ≠ event ⟨id, some .null⟩ := by
  cases m with
  | reply r => exact ⟨fun _ => nofun, fun _ => rfl⟩
  | event n =>
      rcases n with ⟨id, payload⟩
      rw [received, event.injEq, Notice.received_eq_iff]
      constructor
      · rintro hne id' ⟨⟩
        exact hne rfl
      · rintro hne rfl
        exact hne id rfl

end Outbound

namespace Contract

variable {c : Contract} {id : MemberId} {channel channel' : Channel}

/-- A payload that is null goes out with the events whose declared payload may be absent. -/
theorem raise_null_eq_ok_iff :
    c.raise id (some .null) channel = .ok channel'
      ↔ (∃ event type, c.event? id = some event ∧ event.payload = some type
          ∧ type.isNullable = true) ∧ channel.isOpen = true
        ∧ channel' = { channel with
          messages := channel.messages ++ [.event ⟨id, some .null⟩] } := by
  rw [raise_eq_ok_iff]
  refine and_congr_left fun _ => ⟨?_, ?_⟩
  · rintro ⟨event, hevent, hdeclared, hcheck⟩
    obtain ⟨type, htype⟩ := Option.isSome_iff_exists.mp hdeclared.symm
    obtain ⟨d, hd⟩ := Results.map_eq_ok.mp (hcheck _ type rfl htype)
    exact ⟨event, type, hevent, htype, ((c.decode_null_eq_ok_iff type .root d).mp hd.1).1⟩
  · rintro ⟨event, type, hevent, htype, hnull⟩
    refine ⟨event, hevent, by rw [htype]; rfl, fun value type' hvalue htype' => ?_⟩
    cases hvalue
    rw [htype] at htype'
    cases htype'
    rw [check, (c.decode_null_eq_ok_iff type .root .null).mpr ⟨hnull, rfl⟩]
    rfl

end Contract

namespace Outbound

/-- A message that the native side sends: a reply with a value that a program holds, a reply with a
    failure, or an event that the contract of some channel lets out. -/
inductive IsSent : Outbound → Prop where
  | value (operation : MemberId) (correlation : Option CorrelationId) (v : Json) (h : v.IsValue) :
      IsSent (reply ⟨operation, correlation, .ok v⟩)
  | failure (operation : MemberId) (correlation : Option CorrelationId) (f : Failure) :
      IsSent (reply ⟨operation, correlation, .error f⟩)
  | event (c : Contract) (id : MemberId) (payload : Option Json) (channel channel' : Channel)
      (hpayload : ∀ v ∈ payload, v.IsValue) (h : c.raise id payload channel = .ok channel') :
      IsSent (event ⟨id, payload⟩)

theorem IsSent.holdsValues {m : Outbound} (h : m.IsSent) : m.HoldsValues := by
  cases h with
  | value operation correlation v hv =>
      rintro w ⟨⟩
      exact hv
  | failure operation correlation f => exact nofun
  | event c id payload channel channel' hpayload hraise => exact hpayload

/-- A message that is sent and nests little enough is read as it was sent, unless it is an event
    with a payload that is null. Such an event is read as one without payload. -/
theorem overWire?_of_isSent (m : Outbound) (h : m.IsSent) :
    (m.overWire? = some m
      ↔ m.toJson.depth ≤ maxDepth ∧ ∀ id, m ≠ event ⟨id, some .null⟩)
    ∧ ∀ id, m = event ⟨id, some .null⟩ → m.overWire? = some (event ⟨id, none⟩) := by
  rw [m.overWire?_eq h.holdsValues]
  constructor
  · rw [Option.ite_none_right_eq_some, Option.some.injEq, received_eq_iff]
  · rintro id rfl
    rfl

/-- A reply with a value in which there is a double, and null. -/
def reading : Outbound :=
  reply ⟨"Acme.Clock.Read", some 7,
    .ok (.object [("seconds", .number (.float ⟨0x3FB999999999999A⟩)), ("zone", .null)])⟩

/-- A reply with null and a double in its value is read as it was sent. -/
theorem overWire?_of_reading : reading.overWire? = some reading := by
  have hvalue : IsValue (.object [("seconds", .number (.float ⟨0x3FB999999999999A⟩)),
      ("zone", .null)]) := by
    refine .object _ (by decide) fun m hm => ?_
    rcases List.mem_pair.mp hm with rfl | rfl
    · exact .number _ rfl
    · exact .null
  exact (overWire?_of_isSent reading (.value _ _ _ hvalue)).1.mpr ⟨by decide, nofun⟩

/-- A contract with an event that tells a text or nothing. -/
def tickContract : Contract :=
  ⟨"Acme", [⟨"Acme.Clock", [],
    [⟨"Ticked", "Acme.Clock.Ticked", some (.nullable (.primitive .string))⟩], .ofList []⟩], []⟩

/-- There is a contract that lets out an event that is not read as it was sent. -/
theorem exists_overWire?_ne :
    ∃ m : Outbound, m.IsSent ∧ m.toJson.depth ≤ maxDepth ∧ m.overWire? ≠ some m := by
  have hraise : tickContract.raise "Acme.Clock.Ticked" (some .null) .new
      = .ok ⟨true, [event ⟨"Acme.Clock.Ticked", some .null⟩]⟩ :=
    Contract.raise_null_eq_ok_iff.mpr ⟨⟨_, _, rfl, rfl, rfl⟩, rfl, rfl⟩
  refine ⟨event ⟨"Acme.Clock.Ticked", some .null⟩,
    .event _ _ _ _ _ (by rintro v ⟨⟩; exact .null) hraise, by decide, fun h => ?_⟩
  rw [overWire?_eq _ (by rintro v ⟨⟩; exact .null), if_pos (by decide), Option.some.injEq,
    received_eq_iff] at h
  exact h _ rfl

end Outbound

end PlatformBridge
