import PlatformBridge.Dispatch.Error
import PlatformBridge.Wire.Message

/-!
# Events

An event may be raised if the contract declares it, with a payload exactly if it declares one, and
then of the declared type. The channel on which messages leave may have lost its other end; what is
sent on it then is gone.

## Main definitions

* `Contract.notice`: The notice of an event.
* `Channel`: The messages on their way out.
* `Contract.raise`: An event on its way out.
-/

namespace PlatformBridge

namespace Contract

/-- Passes if a payload goes with an event. -/
def checkPayload (c : Contract) (event : Event) : Option Json → Except PayloadError Unit
  | none => if event.payload.isNone then .ok () else .error .missing
  | some value =>
    match event.payload with
    | none => .error .undeclared
    | some type => (c.check value type).mapError .mismatch

/-- The notice of an event. -/
def notice (c : Contract) (id : MemberId) (payload : Option Json) : Except DispatchError Notice :=
  match c.event? id with
  | none => .error (.unknownEvent id)
  | some event =>
    match c.checkPayload event payload with
    | .error e => .error (.invalidEventPayload id e)
    | .ok () => .ok ⟨id, payload⟩

end Contract

/-- A channel on which messages leave, with those that were not received yet. -/
structure Channel where
  isOpen : Bool
  messages : List Outbound

namespace Channel

/-- A channel with nothing in it. -/
def new : Channel := ⟨true, []⟩

/-- Sends a message, if there is still someone to receive it. -/
def send (c : Channel) (m : Outbound) : Except DispatchError Channel :=
  if c.isOpen then .ok { c with messages := c.messages ++ [m] } else .error .channelClosed

/-- The channel after its other end has gone. -/
def close (_ : Channel) : Channel := ⟨false, []⟩

end Channel

/-- Raises an event on a channel. -/
def Contract.raise (c : Contract) (id : MemberId) (payload : Option Json) (channel : Channel) :
    Except DispatchError Channel := do
  channel.send (.event (← c.notice id payload))

end PlatformBridge
