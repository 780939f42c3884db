import PlatformBridge.Contract.Document
import PlatformBridge.Dispatch.Native

/-!
# The Dispatcher

A call goes to the code that is bound to its operation, if the contract knows the operation and
takes the arguments. Code that answers at once gives the reply with the call; a task replies later,
and until then a call with a number can be canceled by it. An operation that does not answer never
replies, whatever happens to it.

The steps of a dispatcher are a call, a cancellation, a task that goes on, and the end of a call. A
cancellation only raises a signal, and a task that ends only leaves its answer: the call ends in a
step of its own, which takes its number off the list of those that run and makes the reply. Where
both the signal and an answer are there, that step may take either.

Which code was got and which was run, on what arguments, is kept in the order in which it happened.

## Main definitions

* `Ticket`, `Outcome`: What a reply repeats of its call, and what a call gives at once.
* `Dispatcher`, `Dispatcher.State`: The fixed part and the changing part.
* `Dispatcher.call`, `State.cancel`, `State.resume`, `Dispatcher.conclude`: The steps.
-/

namespace PlatformBridge

/-- What a reply repeats of its call, and whether there is one. -/
structure Ticket where
  operation : MemberId
  correlation : Option CorrelationId
  replies : Bool
  deriving DecidableEq, Repr

/-- What a call gives at once. -/
inductive Outcome where
  /-- Its reply. -/
  | completed (reply : Reply)
  /-- Nothing, now or later. -/
  | noReply
  /-- Nothing yet. -/
  | deferred
  deriving Repr

namespace Ticket

/-- The reply of a call that has come to an end, if it has one. -/
def reply? (t : Ticket) (answer : Answer) : Option Reply :=
  if t.replies then some ⟨t.operation, t.correlation, answer⟩ else none

/-- The outcome of a call that has come to an end at once. -/
def finish (t : Ticket) (answer : Answer) : Outcome :=
  match t.reply? answer with
  | some reply => .completed reply
  | none => .noReply

end Ticket

/-- Where the reply of a call goes that ends later. -/
inductive Sink where
  /-- The channel that all messages leave on. -/
  | channel
  /-- The caller, who waits for it. -/
  | caller
  deriving DecidableEq, Repr

namespace Contract

/-- Passes if there is an argument for every parameter, and none is of another type. -/
def checkTypes (c : Contract) : List Parameter → List Json → Except Failure Unit
  | p :: ps, v :: vs =>
    match c.check v p.type with
    | .ok () => c.checkTypes ps vs
    | .error e => .error ⟨.invalidArguments, "argument `" ++ p.name ++ "`: " ++ e.message⟩
  | _, _ => .ok ()

/-- Passes if an operation takes some arguments. -/
def acceptArguments (c : Contract) (operation : Operation) (arguments : List Json) :
    Except Failure Unit :=
  if arguments.length = operation.parameters.length then
    c.checkTypes operation.parameters arguments
  else
    .error ⟨.argumentCount, operation.id ++ " expects " ++ Nat.repr operation.parameters.length
      ++ " argument(s), received " ++ Nat.repr arguments.length⟩

/-- The value of a reply, null for an operation that has none. -/
def acceptResult (c : Contract) (expected : Option BridgeType) (value : Json) : Answer :=
  match expected with
  | none => .ok .null
  | some type =>
    match c.check value type with
    | .ok () => .ok value
    | .error e => .error ⟨.failed, "result does not match the contract: " ++ e.message⟩

end Contract

/-- The fixed part of a dispatcher: the contract, the bindings, and whether there is always
    something to run tasks on. -/
structure Dispatcher where
  contract : Contract
  table : Table
  hasRunner : Bool

/-- A call whose task has not come to an end. -/
structure Pending where
  key : Nat
  ticket : Ticket
  expected : Option BridgeType
  sink : Sink
  task : Task
  isSignaled : Bool

/-- A use of native code. -/
inductive NativeUse where
  /-- The code of an operation was looked for. -/
  | built (operation : MemberId) (succeeded : Bool)
  /-- The code of an operation was run. -/
  | invoked (operation : MemberId) (arguments : List Json)
  deriving Repr

/-- A reply handed to where it goes, with the key of its call. -/
structure Delivery where
  key : Nat
  sink : Sink
  reply : Reply
  deriving Repr

/-- The changing part of a dispatcher. -/
structure Dispatcher.State where
  /-- The code got so far. -/
  codes : List (MemberId × NativeCode)
  /-- The calls that can be canceled, by number. -/
  running : List (CorrelationId × Nat)
  /-- The calls that have not come to an end, in the order in which their tasks began to wait for
      what they wait for now. -/
  pending : List Pending
  /-- The key of the next call with a task. -/
  nextKey : Nat
  /-- The replies handed over so far. -/
  outbox : List Delivery
  /-- The uses of native code so far. -/
  uses : List NativeUse

namespace Dispatcher

namespace State

/-- The state before the first call. -/
def initial : State := ⟨[], [], [], 0, [], []⟩

/-- How often the code of an operation was looked for. -/
def buildCount (s : State) (id : MemberId) : Nat :=
  (s.uses.filter fun
    | .built operation _ => operation = id
    | .invoked _ _ => false).length

/-- How often the code of an operation was run. -/
def runCount (s : State) (id : MemberId) : Nat :=
  (s.uses.filter fun
    | .invoked operation _ => operation = id
    | .built _ _ => false).length

/-- The state after another use of native code. -/
def use (s : State) (u : NativeUse) : State := { s with uses := s.uses ++ [u] }

/-- Gets the code of an operation. It is kept once it is there. -/
def code (s : State) (id : MemberId) (binding : Binding) : State × Except Failure NativeCode :=
  match s.codes.find? fun t => t.1 = id with
  | some (_, t) => (s, .ok t)
  | none =>
    match binding.build (s.buildCount id) with
    | .value t => ({ s.use (.built id true) with codes := (id, t) :: s.codes }, .ok t)
    | .panic text => (s.use (.built id false), .error (Ending.panicFailure text))

/-- Whether a number is taken. -/
def isTaken (s : State) (id : CorrelationId) : Bool :=
  s.running.any fun e => e.1 = id

/-- The numbers that are taken, without one of them. -/
def withoutNumber (s : State) : Option CorrelationId → List (CorrelationId × Nat)
  | some id => s.running.filter fun e => e.1 ≠ id
  | none => s.running

/-- Cancels a call by its number, and says whether there was one to signal. -/
def cancel (s : State) (id : CorrelationId) : State × Bool :=
  match s.running.find? fun e => e.1 = id with
  | none => (s, false)
  | some (_, key) =>
    ({ s with
      running := s.withoutNumber (some id)
      pending := s.pending.map fun p => if p.key = key then { p with isSignaled := true } else p },
     s.pending.any fun p => p.key = key)

/-- Lets a task that waits go on; its call is then behind all others. -/
def resume (s : State) (key : Nat) : Option State :=
  match s.pending.find? fun p => p.key = key with
  | some p =>
    match p.task with
    | .waiting _ next =>
      some { s with
        pending := (s.pending.filter fun q => q.key ≠ key) ++ [{ p with task := next }] }
    | _ => none
  | none => none

end State

/-- A dispatcher, if the contract knows every operation that is bound. -/
def of (c : Contract) (table : Table) (hasRunner : Bool) : Except DispatchError Dispatcher :=
  match table.ids.find? fun id => (c.operation? id).isNone with
  | some id => .error (.unknownOperation id)
  | none => .ok ⟨c, table, hasRunner⟩

/-- A dispatcher for the contract in a document. -/
def ofDocument (bytes : ByteArray) (table : Table) (hasRunner : Bool) :
    Except DispatchError Dispatcher :=
  match Json.readBytes? Contract.reader bytes with
  | some c => of c table hasRunner
  | none => .error .invalidContract

/-- A call that may go to native code. -/
structure Admission where
  ticket : Ticket
  operation : Operation
  binding : Binding

/-- Whether a call may go to native code; what it gives otherwise. A call of an operation that the
    contract does not know is always replied to. -/
def admission (d : Dispatcher) (call : Call) : Except Outcome Admission :=
  match d.contract.operation? call.operation with
  | none =>
    .error (.completed ⟨call.operation, call.correlation, .error ⟨.notImplemented,
      "operation " ++ call.operation ++ " is not part of the contract"⟩⟩)
  | some (_, operation) =>
    let ticket : Ticket :=
      ⟨call.operation, call.correlation, operation.returns ≠ .fireAndForget⟩
    match d.table.get? call.operation with
    | none =>
      .error (ticket.finish (.error ⟨.notImplemented,
        "operation " ++ call.operation ++ " has no native binding"⟩))
    | some binding =>
      match d.contract.acceptArguments operation call.arguments with
      | .error failure => .error (ticket.finish (.error failure))
      | .ok () => .ok ⟨ticket, operation, binding⟩

/-- The failure of a call that cannot be registered, if it cannot. -/
def State.refusal? (s : State) : Option CorrelationId → Option Failure
  | none => none
  | some id =>
    if s.isTaken id then
      some ⟨.invalidArguments, "correlation id " ++ Nat.repr id.toNat ++ " is already in flight"⟩
    else none

/-- Registers a number, if there is one, for the next call with a task. -/
def State.register (s : State) (number : Option CorrelationId) : State :=
  { s with running := s.running ++ number.toList.map fun id => (id, s.nextKey) }

/-- Starts the task of a call. The number of the call is registered before its code is run, and
    taken back if there is no task after all. -/
def spawn (d : Dispatcher) (hasRunner : Bool) (sink : Sink) (a : Admission)
    (start : Nat → List Json → Ending Task) (arguments : List Json) (s : State) :
    State × Outcome :=
  if !(d.hasRunner || hasRunner) then
    (s, a.ticket.finish (.error ⟨.notInitialized,
      "no async runtime is available for asynchronous operations"⟩))
  else
    match s.refusal? a.ticket.correlation with
    | some failure => (s, a.ticket.finish (.error failure))
    | none =>
      let ending := start (s.runCount a.ticket.operation) arguments
      let s := (s.register a.ticket.correlation).use (.invoked a.ticket.operation arguments)
      match ending with
      | .panic text =>
        ({ s with running := s.withoutNumber a.ticket.correlation },
         a.ticket.finish (.error (Ending.panicFailure text)))
      | .value task =>
        ({ s with
          pending := s.pending ++
            [⟨s.nextKey, a.ticket, a.operation.returns.value?, sink, task, false⟩]
          nextKey := s.nextKey + 1 },
         if a.ticket.replies then .deferred else .noReply)

/-- Calls an operation. `hasRunner` says whether there is something to run tasks on right now. -/
def call (d : Dispatcher) (hasRunner : Bool) (sink : Sink) (call : Call) (s : State) :
    State × Outcome :=
  match d.admission call with
  | .error outcome => (s, outcome)
  | .ok a =>
    match s.code call.operation a.binding with
    | (s, .error failure) => (s, a.ticket.finish (.error failure))
    | (s, .ok (.sync run)) =>
      (s.use (.invoked call.operation call.arguments),
       a.ticket.finish
        ((run (s.runCount call.operation) call.arguments).answer.bind
          (d.contract.acceptResult a.operation.returns.value?)))
    | (s, .ok (.async start)) => d.spawn hasRunner sink a start call.arguments s

/-- How a call with a task ends. -/
inductive Conclusion where
  /-- With what its task left. -/
  | answered
  /-- By its cancellation. -/
  | canceled
  deriving DecidableEq, Repr

/-- What comes back from a call that ends in a certain way, if it can. -/
def Conclusion.answer? (w : Conclusion) (p : Pending) : Option Answer :=
  match w, p.task with
  | answered, .ended ending => some ending.answer
  | canceled, _ =>
    if p.isSignaled then some (.error ⟨.canceled, "operation was canceled"⟩) else none
  | _, _ => none

/-- Ends a call. Its number is free again, whichever call it stands for by now. -/
def conclude (d : Dispatcher) (w : Conclusion) (key : Nat) (s : State) : Option State :=
  match s.pending.find? fun p => p.key = key with
  | none => none
  | some p =>
    (w.answer? p).map fun answer =>
      let reply := p.ticket.reply? (answer.bind (d.contract.acceptResult p.expected))
      { s with
        running := s.withoutNumber p.ticket.correlation
        pending := s.pending.filter fun q => q.key ≠ key
        outbox := s.outbox ++ reply.toList.map fun r => ⟨key, p.sink, r⟩ }

end Dispatcher

end PlatformBridge
