import PlatformBridge.Contract.Basic
import PlatformBridge.Digest.Content

/-!
# Contract Documents

The document of a contract. Its canonical text identifies it: the fingerprint of a contract is the
digest of that text.

## Main definitions

* `Contract.reader`, `Contract.toJson`: The document of a contract.
* `Contract.fingerprint`: The digest that identifies a contract.
-/

namespace PlatformBridge

/-- A document, or null in place of an absent value. -/
def Json.ofOptional {α : Type} (toJson : α → Json) : Option α → Json
  | some v => toJson v
  | none => .null

namespace ReplyMode

/-- Reads how an operation answers. -/
def reader : Json.Reader ReplyMode :=
  .tagged "shape" [
    ("fire_and_forget", .unit fireAndForget),
    ("sync", .record ["value"] fun r => (r.required "value" BridgeType.reader).map sync),
    ("async", .record ["value"] fun r => (r.optional "value" BridgeType.reader).map async)]

/-- The document of how an operation answers. -/
def toJson : ReplyMode → Json
  | fireAndForget => .object [("shape", .string "fire_and_forget")]
  | sync value => .object [("shape", .string "sync"), ("value", value.toJson)]
  | async value =>
    .object [("shape", .string "async"), ("value", .ofOptional BridgeType.toJson value)]

end ReplyMode

namespace Parameter

/-- Reads a parameter. -/
def reader : Json.Reader Parameter :=
  .record ["name", "type", "mode"] fun r => do
    some {
      name := ← r.required "name" .text
      type := ← r.required "type" BridgeType.reader
      mode := ← r.required "mode" (.name Passing.names) }

/-- The document of a parameter. -/
def toJson (p : Parameter) : Json :=
  .object [("name", .string p.name), ("type", p.type.toJson), ("mode", .string p.mode.text)]

end Parameter

namespace Operation

/-- Reads an operation. -/
def reader : Json.Reader Operation :=
  .record ["name", "id", "parameters", "returns", "is_static", "canonical_signature",
      "formal_signature"] fun r => do
    some {
      name := ← r.required "name" .text
      id := ← r.required "id" .text
      parameters := ← r.required "parameters" (.list Parameter.reader)
      returns := ← r.required "returns" ReplyMode.reader
      isStatic := ← r.required "is_static" .bool
      canonicalSignature := ← r.required "canonical_signature" .text
      formalSignature := ← r.required "formal_signature" .text }

/-- The document of an operation. -/
def toJson (o : Operation) : Json :=
  .object [
    ("name", .string o.name),
    ("id", .string o.id),
    ("parameters", .array (o.parameters.map Parameter.toJson)),
    ("returns", o.returns.toJson),
    ("is_static", .bool o.isStatic),
    ("canonical_signature", .string o.canonicalSignature),
    ("formal_signature", .string o.formalSignature)]

end Operation

namespace Event

/-- Reads an event. -/
def reader : Json.Reader Event :=
  .record ["name", "id", "payload"] fun r => do
    some {
      name := ← r.required "name" .text
      id := ← r.required "id" .text
      payload := ← r.optional "payload" BridgeType.reader }

/-- The document of an event. -/
def toJson (e : Event) : Json :=
  .object [("name", .string e.name), ("id", .string e.id),
    ("payload", .ofOptional BridgeType.toJson e.payload)]

end Event

namespace Service

/-- Reads a service. -/
def reader : Json.Reader Service :=
  .record ["name", "operations", "events", "data_types"] fun r => do
    some {
      name := ← r.required "name" .text
      operations := ← r.required "operations" (.list Operation.reader)
      events := ← r.required "events" (.list Event.reader)
      dataTypes := .ofList (← r.required "data_types" (.list .text)) }

/-- The document of a service. -/
def toJson (s : Service) : Json :=
  .object [
    ("name", .string s.name),
    ("operations", .array (s.operations.map Operation.toJson)),
    ("events", .array (s.events.map Event.toJson)),
    ("data_types", .ofStrings s.dataTypes.toList)]

end Service

namespace Field

/-- Reads a field. -/
def reader : Json.Reader Field :=
  .record ["name", "type"] fun r => do
    some ⟨← r.required "name" .text, ← r.required "type" BridgeType.reader⟩

/-- The document of a field. -/
def toJson (f : Field) : Json :=
  .object [("name", .string f.name), ("type", f.type.toJson)]

end Field

namespace DataShape

/-- Reads what the values of a data type are. -/
def reader : Json.Reader DataShape :=
  .tagged "kind" [
    ("composite", .record ["fields", "base"] fun r => do
      some (composite (← r.required "fields" (.list Field.reader)) (← r.optional "base" .text))),
    ("enumeration", .record ["members"] fun r =>
      (r.required "members" (.list .text)).map enumeration)]

/-- The members of a document that say what the values of a data type are. -/
def toMembers : DataShape → List (String × Json)
  | composite fields base =>
    [("kind", .string "composite"), ("fields", .array (fields.map Field.toJson)),
      ("base", .ofOption base)]
  | enumeration members => [("kind", .string "enumeration"), ("members", .ofStrings members)]

end DataShape

namespace DataType

/-- Reads a data type: an object with a name and, beside it, what the values are. -/
def reader : Json.Reader DataType :=
  Json.Reader.whole fun _ t =>
    match t with
    | .object members => do
      let (name, rest) ← Json.Reader.takeMember? "name" members
      some ⟨← Json.Reader.text none name, ← DataShape.reader none (.object rest)⟩
    | _ => none

/-- The document of a data type. -/
def toJson (d : DataType) : Json :=
  .object (("name", .string d.name) :: d.shape.toMembers)

end DataType

namespace Contract

/-- Reads a contract. -/
def reader : Json.Reader Contract :=
  .record ["assembly", "services", "data_types"] fun r => do
    some {
      assembly := ← r.required "assembly" .text
      services := ← r.required "services" (.list Service.reader)
      dataTypes := ← r.required "data_types" (.list DataType.reader) }

/-- The document of a contract. -/
def toJson (c : Contract) : Json :=
  .object [
    ("assembly", .string c.assembly),
    ("services", .array (c.services.map Service.toJson)),
    ("data_types", .array (c.dataTypes.map DataType.toJson))]

/-- The digest that identifies a contract. -/
def fingerprint (c : Contract) : Digest := Digest.ofJson c.toJson

end Contract

end PlatformBridge
