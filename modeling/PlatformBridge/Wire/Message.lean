import PlatformBridge.Json.Reader
import PlatformBridge.Spelling.Name

/-!
# Calls, Replies and Events

What the two sides send each other. A call names an operation and gives its arguments by position;
the number that pairs it with a later reply is the caller's choice, and a call without one cannot be
canceled. A reply repeats both and carries a value or a failure. An event carries a payload if it
declares one. Replies and events leave on one channel, told apart by a tag.

## Main definitions

* `FailureKind`, `Failure`: Why a call has no value.
* `Call`, `Reply`, `Notice`, `Outbound`: The messages.
* `Call.reader`, `Call.toJson`, and so on: Their documents.
-/

namespace PlatformBridge

/-- Why a call has no value. -/
inductive FailureKind where
  /-- The operation is unknown or has no native binding. -/
  | notImplemented
  /-- There are more or fewer arguments than parameters. -/
  | argumentCount
  /-- An argument is not of the type of its parameter, or the number of the call is taken. -/
  | invalidArguments
  /-- Native code could not read an argument. -/
  | argumentParsing
  /-- Native code failed. -/
  | failed
  /-- The call was canceled before it ended. -/
  | canceled
  /-- There is nothing yet that could run the call. -/
  | notInitialized
  deriving DecidableEq, Repr, Inhabited

namespace FailureKind

/-- The name of a kind on the wire. -/
def text : FailureKind → String
  | notImplemented => "OperationNotImplemented"
  | argumentCount => "OperationArgumentCountMismatch"
  | invalidArguments => "InvalidOperationArguments"
  | argumentParsing => "OperationArgumentParsingError"
  | failed => "OperationFailed"
  | canceled => "OperationCanceled"
  | notInitialized => "EnvironmentNotInitialized"

/-- Every kind. -/
def all : List FailureKind :=
  [notImplemented, argumentCount, invalidArguments, argumentParsing, failed, canceled,
    notInitialized]

/-- Every kind by its name. -/
def names : List (String × FailureKind) := all.map fun k => (k.text, k)

end FailureKind

/-- Why a call has no value, with a text for people. -/
structure Failure where
  kind : FailureKind
  message : String
  deriving DecidableEq, Repr, Inhabited

namespace Failure

/-- A failure as it is shown. -/
def display (f : Failure) : String := f.kind.text ++ ": " ++ f.message

/-- Reads a failure. -/
def reader : Json.Reader Failure :=
  .record ["kind", "message"] fun r => do
    some ⟨← r.required "kind" (.name FailureKind.names), ← r.required "message" .text⟩

/-- The document of a failure. -/
def toJson (f : Failure) : Json :=
  .object [("kind", .string f.kind.text), ("message", .string f.message)]

end Failure

/-- The number that pairs a reply with its call. -/
abbrev CorrelationId := UInt64

namespace CorrelationId

/-- The natural numbers that are numbers of calls are below this. -/
def bound : Nat := UInt64.size

/-- The member for a number, if there is one. -/
def members : Option CorrelationId → List (String × Json)
  | some id => [("correlation_id", .ofNat id.toNat)]
  | none => []

/-- Reads the number of a record, if there is one. -/
def ofRecord? (r : Json.Record) : Option (Option CorrelationId) :=
  (r.defaulted "correlation_id" (.orNull (.natBelow bound)) none).map (·.map UInt64.ofNat)

end CorrelationId

/-- A call of an operation. -/
structure Call where
  operation : MemberId
  arguments : List Json
  correlation : Option CorrelationId
  deriving Repr, Inhabited

namespace Call

/-- Reads a call. -/
def reader : Json.Reader Call :=
  .record ["operation_id", "arguments", "correlation_id"] fun r => do
    some {
      operation := ← r.required "operation_id" .text
      arguments := ← r.defaulted "arguments" (.list .json) []
      correlation := ← CorrelationId.ofRecord? r }

/-- The document of a call. -/
def toJson (c : Call) : Json :=
  .object ([("operation_id", .string c.operation), ("arguments", .array c.arguments)] ++
    CorrelationId.members c.correlation)

end Call

/-- The reply to a call. -/
structure Reply where
  operation : MemberId
  correlation : Option CorrelationId
  /-- The value is null for an operation that has none. -/
  payload : Except Failure Json
  deriving Repr

namespace Reply

/-- The value of a reply, if it has one. -/
def value? (r : Reply) : Option Json :=
  match r.payload with
  | .ok v => some v
  | .error _ => none

/-- The kind of failure, if it is one. -/
def failure? (r : Reply) : Option FailureKind :=
  match r.payload with
  | .ok _ => none
  | .error f => some f.kind

/-- Reads a payload: an object whose only member says by its key what it is. -/
def payloadReader : Json.Reader (Except Failure Json)
  | a, .object [(some "result", t)] =>
    a.enter?.bind fun inside => (Json.Reader.json inside t).map .ok
  | a, .object [(some "error", t)] =>
    a.enter?.bind fun inside => (Failure.reader inside t).map .error
  | _, _ => none

/-- The document of a payload. -/
def payloadJson : Except Failure Json → Json
  | .ok v => .object [("result", v)]
  | .error f => .object [("error", f.toJson)]

/-- Reads a reply. -/
def reader : Json.Reader Reply :=
  .record ["operation_id", "correlation_id", "payload"] fun r => do
    some {
      operation := ← r.required "operation_id" .text
      correlation := ← CorrelationId.ofRecord? r
      payload := ← r.required "payload" payloadReader }

/-- The members of the document of a reply. -/
def members (r : Reply) : List (String × Json) :=
  ("operation_id", .string r.operation) :: CorrelationId.members r.correlation ++
    [("payload", payloadJson r.payload)]

/-- The document of a reply. -/
def toJson (r : Reply) : Json := .object r.members

end Reply

/-- The notice that an event has happened. -/
structure Notice where
  event : MemberId
  payload : Option Json
  deriving Repr, Inhabited

namespace Notice

/-- Reads a notice. -/
def reader : Json.Reader Notice :=
  .record ["event_id", "payload"] fun r => do
    some {
      event := ← r.required "event_id" .text
      payload := ← r.defaulted "payload" (.orNull .json) none }

/-- The members of the document of a notice. -/
def members (n : Notice) : List (String × Json) :=
  ("event_id", .string n.event) ::
    match n.payload with
    | some v => [("payload", v)]
    | none => []

/-- The document of a notice. -/
def toJson (n : Notice) : Json := .object n.members

end Notice

/-- A message that leaves the native side. -/
inductive Outbound where
  | reply (r : Reply)
  | event (n : Notice)
  deriving Repr

namespace Outbound

/-- Reads a message. -/
def reader : Json.Reader Outbound :=
  .tagged "type" [
    ("reply", fun a t => (Reply.reader a t).map reply),
    ("event", fun a t => (Notice.reader a t).map event)]

/-- The document of a message. -/
def toJson : Outbound → Json
  | reply r => .object (("type", .string "reply") :: r.members)
  | event n => .object (("type", .string "event") :: n.members)

end Outbound

end PlatformBridge
