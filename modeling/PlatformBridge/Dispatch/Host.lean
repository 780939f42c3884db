import PlatformBridge.Dispatch.Basic
import PlatformBridge.Dispatch.Event

/-!
# The Host

A process holds at most one dispatcher, installed once, and the channel on which its messages leave.
After every request from outside it ends the calls that can end before it takes the next, so no call
has both an answer and a signal. Who opens the gates that tasks wait at says which of them go on.

## Main definitions

* `Host`: A dispatcher, perhaps, and its channel.
* `Host.install`, `Host.call`, `Host.await`, `Host.cancel`, `Host.resume`, `Host.raise`: The
  requests.
-/

namespace PlatformBridge

/-- A process: the dispatcher installed in it, if any, and its channel. -/
structure Host where
  installed : Option (Dispatcher × Dispatcher.State)
  channel : Channel

namespace Dispatcher

/-- Ends a call if it can end. -/
def concludeReady (d : Dispatcher) (s : State) (key : Nat) : State :=
  ((d.conclude .answered key s).orElse fun _ => d.conclude .canceled key s).getD s

/-- Ends every call that can end. -/
def concludeAll (d : Dispatcher) (s : State) : State :=
  (s.pending.map (·.key)).foldl d.concludeReady s

end Dispatcher

namespace Host

/-- A process without a dispatcher. -/
def empty : Host := ⟨none, .new⟩

/-- A process with a dispatcher. -/
def of (d : Dispatcher) : Host := ⟨some (d, .initial), .new⟩

/-- Installs a dispatcher, once. -/
def install (h : Host) (d : Dispatcher) : Except DispatchError Host :=
  if h.installed.isSome then .error .alreadyInitialized
  else .ok { h with installed := some (d, .initial) }

/-- Sends a message; where nobody receives it, it is lost. -/
def deliver (h : Host) (m : Outbound) : Host :=
  match h.channel.send m with
  | .ok channel => { h with channel }
  | .error _ => h

/-- Ends the calls that can end and hands over their replies. Gives the replies to callers who wait.
    -/
def flush (h : Host) (d : Dispatcher) (s : Dispatcher.State) : Host × List Reply :=
  let s := d.concludeAll s
  let replies (sink : Sink) := (s.outbox.filter fun m => m.sink = sink).map (·.reply)
  let h := { h with installed := some (d, { s with outbox := [] }) }
  ((replies .channel).foldl (fun h r => h.deliver (.reply r)) h, replies .caller)

/-- Calls an operation. Before a dispatcher is installed every call fails. -/
def call (h : Host) (hasRunner : Bool) (c : Call) : Host × Outcome :=
  match h.installed with
  | none =>
    (h, .completed ⟨c.operation, c.correlation,
      .error ⟨.notInitialized, "flutnet runtime is not initialized"⟩⟩)
  | some (d, s) =>
    let (s, outcome) := d.call hasRunner .channel c s
    ((h.flush d s).1, outcome)

/-- Calls an operation and waits for its reply. Who waits is run by something that runs tasks. -/
def await (h : Host) (d : Dispatcher) (s : Dispatcher.State) (c : Call) : Host × Option Reply :=
  let (s, outcome) := d.call true .caller c s
  let (h, replies) := h.flush d s
  match outcome with
  | .completed reply => (h, some reply)
  | .noReply => (h, none)
  | .deferred => (h, replies.head?)

/-- Cancels a call by its number. -/
def cancel (h : Host) (d : Dispatcher) (s : Dispatcher.State) (id : CorrelationId) : Host × Bool :=
  let (s, signaled) := s.cancel id
  ((h.flush d s).1, signaled)

/-- Lets the tasks of some calls go on, one after the other. -/
def resume (h : Host) (d : Dispatcher) (s : Dispatcher.State) (keys : List Nat) : Host :=
  (h.flush d (keys.foldl (fun s key => (s.resume key).getD s) s)).1

/-- Raises an event. -/
def raise (h : Host) (d : Dispatcher) (id : MemberId) (payload : Option Json) :
    Except DispatchError Host := do
  return { h with channel := ← d.contract.raise id payload h.channel }

/-- Takes the messages that have come so far. -/
def receive (h : Host) : Host × List Outbound :=
  ({ h with channel := { h.channel with messages := [] } }, h.channel.messages)

end Host

end PlatformBridge
