import PlatformBridge.Contract.Basic
import PlatformBridge.Dart.Expression
import PlatformBridge.Dart.Library

/-!
# Dart Proxies

A service is a class on the Dart side, with a method for each operation and a getter for each event.
The class is first laid out with the names that its members and their parameters get, which have to
be distinct, and then written.

## Main definitions

* `Dart.Proxy`, `Dart.ProxyMethod`, `Dart.ProxyGetter`: The class of a service.
* `Dart.Proxy.ofService`: Its layout.
* `Dart.Proxy.lines`: Its file.
-/

namespace PlatformBridge

namespace Dart

/-- The method of an operation, with the names of its parameters. -/
structure ProxyMethod where
  name : String
  operation : Operation
  parameters : List (String × Parameter)
  deriving DecidableEq, Repr

/-- The getter of an event. -/
structure ProxyGetter where
  name : String
  event : Event
  deriving DecidableEq, Repr

/-- The class of a service. -/
structure Proxy where
  name : String
  service : Service
  methods : List ProxyMethod
  getters : List ProxyGetter
  deriving DecidableEq, Repr

/-- The line that imports a data type into a file of a service or data type. -/
def importLine (name : TypeName) : String := "import '../" ++ dataFile name ++ "';"

namespace ProxyMethod

/-- The method of an operation, unless two of its parameters get one name. -/
def ofOperation (o : Operation) : Except GenerationError ProxyMethod :=
  let named := o.parameters.map fun p => (identifier methodLocals p.name, p)
  (requireDistinct .dart o.id (named.map (·.1))).map fun _ =>
    ⟨identifier inheritedNames o.name, o, named⟩

/-- The parameters with their types. -/
def parameterList (m : ProxyMethod) : String :=
  ", ".intercalate (m.parameters.map fun (name, p) => p.type.inDart ++ " " ++ name)

/-- The call, with the arguments in their wire form. -/
def call (m : ProxyMethod) : String :=
  "callEnvelope(" ++ literal m.operation.id ++ ", <Object?>["
    ++ ", ".intercalate (m.parameters.map fun (name, p) => p.type.dartEncode name 0) ++ "])"

/-- The words for how the operation answers. -/
def shapeText : ReplyMode → String
  | .fireAndForget => "fire-and-forget"
  | .sync _ => "synchronous"
  | .async _ => "asynchronous"

/-- The declaration of the method. -/
def signature (m : ProxyMethod) : String :=
  let arguments := m.name ++ "(" ++ m.parameterList ++ ")"
  match m.operation.returns, m.operation.returns.value? with
  | .fireAndForget, _ => "void " ++ arguments
  | _, none => "Future<void> " ++ arguments ++ " async"
  | _, some value => "Future<" ++ value.inDart ++ "> " ++ arguments ++ " async"

/-- The statements of the method. -/
def body (m : ProxyMethod) : List String :=
  match m.operation.returns, m.operation.returns.value? with
  | .fireAndForget, _ => ["    _transport.post(" ++ m.call ++ ");"]
  | _, none => ["    unwrapReply(await _transport.invoke(" ++ m.call ++ "));"]
  | _, some value => [
      "    final result = unwrapReply(await _transport.invoke(" ++ m.call ++ "));",
      "    return " ++ value.dartDecode "result" 0 ++ ";"]

/-- The lines of the method, a blank one first. -/
def lines (m : ProxyMethod) : List String :=
  ["", "  /// Calls `" ++ m.operation.formalSignature ++ "` ("
      ++ shapeText m.operation.returns ++ " on the native side).",
    "  " ++ m.signature ++ " \x7b"] ++ m.body ++ ["  \x7d"]

end ProxyMethod

namespace ProxyGetter

/-- The getter of an event. -/
def ofEvent (e : Event) : ProxyGetter := ⟨"on" ++ Spelling.pascalCase e.name, e⟩

/-- The lines of the getter, a blank one first. -/
def lines (g : ProxyGetter) : List String :=
  let events := "_transport.events(" ++ literal g.event.id ++ ")"
  ["", "  /// Occurrences of the `" ++ g.event.name ++ "` event."] ++
    match g.event.payload with
    | some type => [
        "  Stream<" ++ type.inDart ++ "> get " ++ g.name ++ " =>",
        "      " ++ events ++ ".map((payload) => " ++ type.dartDecode "payload" 0 ++ ");"]
    | none => ["  Stream<void> get " ++ g.name ++ " => " ++ events ++ ".map((_) \x7b\x7d);"]

end ProxyGetter

namespace Proxy

/-- The class of a service, unless two members, or two parameters of a method, get one name. -/
def ofService (s : Service) : Except GenerationError Proxy := do
  let getters := s.events.map ProxyGetter.ofEvent
  requireDistinct .dart s.name
    ((s.operations.map fun o => identifier inheritedNames o.name) ++ getters.map (·.name))
  return ⟨typeIdentifier s.name, s, ← s.operations.mapM ProxyMethod.ofOperation, getters⟩

/-- The lines of the file after its header. -/
def lines (p : Proxy) : List String :=
  ["", "import '../bridge.dart';"] ++ p.service.dataTypes.toList.map importLine ++ [
    "",
    "/// Proxy for the `" ++ p.service.name ++ "` platform service.",
    "class " ++ p.name ++ " \x7b",
    "  " ++ p.name ++ "(this._transport);",
    "",
    "  final FlutnetTransport _transport;"]
  ++ p.methods.flatMap ProxyMethod.lines ++ p.getters.flatMap ProxyGetter.lines ++ ["\x7d"]

end Proxy

end Dart

end PlatformBridge
