import PlatformBridge.Wire.Conversion

/-!
# Errors of the Native Side

What native code is told when it binds operations or raises events against the contract.

## Main definitions

* `PayloadError`, `DispatchError`: The causes.
-/

namespace PlatformBridge

/-- Why a payload does not go with an event. -/
inductive PayloadError where
  /-- The event has none. -/
  | undeclared
  /-- The event has one, and there is none. -/
  | missing
  | mismatch (error : ConversionError)
  /-- The value cannot be written to the wire, since a key in it is no text. -/
  | unwritable
  deriving DecidableEq, Repr

/-- The message for a value with a key that is no text. -/
def unwritableMessage : String := "key must be a string"

/-- The message of an error. -/
def PayloadError.message : PayloadError → String
  | undeclared => "event declares no payload"
  | missing => "event requires a payload"
  | mismatch error => error.message
  | unwritable => unwritableMessage

/-- What is wrong with a binding, an event, or the order of things. -/
inductive DispatchError where
  | duplicateBinding (operation : MemberId)
  | unknownOperation (operation : MemberId)
  | unknownEvent (event : MemberId)
  | invalidEventPayload (event : MemberId) (error : PayloadError)
  | invalidContract
  | alreadyInitialized
  | channelClosed
  deriving DecidableEq, Repr

/-- The message of an error. -/
def DispatchError.message : DispatchError → String
  | duplicateBinding operation => "operation " ++ operation ++ " is already bound"
  | unknownOperation operation => "operation " ++ operation ++ " is not part of the contract"
  | unknownEvent event => "event " ++ event ++ " is not part of the contract"
  | invalidEventPayload event error =>
    "invalid payload for event " ++ event ++ ": " ++ error.message
  | invalidContract => "invalid contract document"
  | alreadyInitialized => "flutnet runtime is already initialized"
  | channelClosed => "outbound channel closed"

end PlatformBridge
