import PlatformBridge.Contract.Basic
import PlatformBridge.Native.Identifier

/-!
# Native Stubs

A service is a trait on the native side, and a function that binds its methods to the ids of the
operations. The stub is first laid out with the names that its methods and their parameters get,
which have to be distinct, and then written. The module root names the modules of all services.

## Main definitions

* `Native.Stub`, `Native.StubMethod`: The stub of a service.
* `Native.Stub.ofService`: Its layout.
* `Native.Stub.lines`: Its file.
* `Native.moduleRoot`: The module root.
-/

namespace PlatformBridge

/-- Whether an operation answers later. -/
def ReplyMode.isAsync : ReplyMode → Bool
  | async _ => true
  | fireAndForget | sync _ => false

namespace Native

/-- The method of an operation, with the names of its parameters. -/
structure StubMethod where
  name : String
  operation : Operation
  parameters : List (String × Parameter)
  deriving DecidableEq, Repr

/-- The stub of a service. -/
structure Stub where
  traitName : String
  service : Service
  methods : List StubMethod
  deriving DecidableEq, Repr

namespace StubMethod

/-- The name of the method of an operation. -/
def nameOf (o : Operation) : String := identifier (Spelling.snakeCase o.name)

/-- The method of an operation, unless two of its parameters get one name. -/
def ofOperation (o : Operation) : Except GenerationError StubMethod :=
  let named := o.parameters.map fun p => (parameterIdentifier p.name, p)
  (requireDistinct .native o.id (named.map (·.1))).map fun _ => ⟨nameOf o, o, named⟩

/-- The type of the value that the method gives. -/
def valueType (m : StubMethod) : String :=
  match m.operation.returns.value? with
  | some value => value.inNative
  | none => "()"

/-- The lines of the method in the trait. -/
def declaration (m : StubMethod) : List String :=
  let parameters := String.join
    (m.parameters.map fun (name, p) => ", " ++ name ++ ": " ++ p.type.inNative)
  let head := "    fn " ++ m.name ++ "(&self" ++ parameters ++ ") -> "
  let result := "Result<" ++ m.valueType ++ ", InvocationError>"
  ["    /// `" ++ m.operation.formalSignature ++ "`",
    if m.operation.returns.isAsync then
      head ++ "impl Future<Output = " ++ result ++ "> + Send;"
    else head ++ result ++ ";"]

/-- The lines that read the arguments, from a number on. -/
def argumentLines (start arguments : String) : Nat → List (String × Parameter) → List String
  | _, [] => []
  | index, (name, p) :: rest =>
    (start ++ "let " ++ name ++ ": " ++ p.type.inNative ++ " = argument(" ++ arguments ++ ", "
      ++ toString index ++ ")?;") :: argumentLines start arguments (index + 1) rest

/-- The lines that bind the method to the id of its operation. -/
def binding (m : StubMethod) : List String :=
  let arguments := if m.parameters.isEmpty then "_args" else "args"
  let call := "&service." ++ m.name ++ "(" ++ ", ".intercalate (m.parameters.map (·.1)) ++ ")"
  [ "    \x7b",
    "        let service = Arc::clone(&service);",
    "        table.register(",
    "            \"" ++ m.operation.id ++ "\","]
  ++ (if m.operation.returns.isAsync then
      ["            OperationBinding::asynchronous(move |" ++ arguments ++ "| \x7b",
        "                let service = Arc::clone(&service);",
        "                async move \x7b"]
      ++ argumentLines "                    " "&args" 0 m.parameters ++ [
        "                    to_value(" ++ call ++ ".await?)",
        "                \x7d",
        "            \x7d),"]
    else
      ["            OperationBinding::sync(move |" ++ arguments ++ "| \x7b"]
      ++ argumentLines "                " "args" 0 m.parameters ++ [
        "                to_value(" ++ call ++ "?)",
        "            \x7d),"])
  ++ ["        )?;", "    \x7d"]

end StubMethod

namespace Stub

/-- The stub of a service, unless two methods, or two parameters of a method, get one name. -/
def ofService (s : Service) : Except GenerationError Stub := do
  requireDistinct .native s.name (s.operations.map StubMethod.nameOf)
  return ⟨typeIdentifier s.name, s, ← s.operations.mapM StubMethod.ofOperation⟩

/-- Whether an operation takes or gives a map. -/
def hasMap (o : Operation) : Bool :=
  o.parameters.any (fun p => p.type.hasMap) || o.returns.value?.any BridgeType.hasMap

/-- Lists of lines with a blank one between each two. -/
def spaced : List (List String) → List String
  | [] => []
  | [lines] => lines
  | lines :: rest => lines ++ "" :: spaced rest

/-- The lines of the file after its header. -/
def lines (t : Stub) : List String :=
  let s := t.service
  [""]
  ++ (if s.operations.any hasMap then ["use std::collections::BTreeMap;"] else [])
  ++ ["use std::sync::Arc;", "", "use flutnet_runtime::DispatchTable;",
    "use flutnet_runtime::InvocationError;", "use flutnet_runtime::OperationBinding;",
    "use flutnet_runtime::RuntimeError;"]
  ++ (if s.operations.any (fun o => !o.parameters.isEmpty) then
      ["use flutnet_runtime::argument;"] else [])
  ++ (if s.operations.isEmpty then [] else ["use flutnet_runtime::to_value;"])
  ++ (if s.dataTypes.toList.isEmpty then []
    else "" :: s.dataTypes.toList.map fun n => "use super::data::" ++ typeIdentifier n ++ ";")
  ++ ["", "/// Native implementation of the `" ++ s.name ++ "` platform service.",
    "pub trait " ++ t.traitName ++ ": Send + Sync + 'static \x7b"]
  ++ spaced (t.methods.map StubMethod.declaration) ++ [
    "\x7d",
    "",
    "/// Binds `service` to the operation ids of `" ++ s.name ++ "`.",
    "///",
    "/// # Errors",
    "///",
    "/// Returns [`RuntimeError::DuplicateBinding`] when an id is already bound.",
    "pub fn register_" ++ fileStem s.name ++ "<T: " ++ t.traitName
      ++ ">(table: &mut DispatchTable, service: Arc<T>) -> Result<(), RuntimeError> \x7b"]
  ++ t.methods.flatMap StubMethod.binding
  ++ (if s.operations.isEmpty then ["    let _ = (table, service);"] else [])
  ++ ["    Ok(())", "\x7d"]

end Stub

/-- The modules of the services and that of the data types, sorted. -/
def modules (c : Contract) : List String :=
  sortNames ("data" :: c.services.map fun s => moduleOf s.name)

/-- The lines of the module root after its header. -/
def moduleRoot (c : Contract) : List String :=
  ["", "//! Native bindings for the `" ++ c.assembly ++ "` assembly.", ""]
  ++ ((modules c).map fun m => "pub mod " ++ m ++ ";") ++ [
    "",
    "/// Validated contract the Dart package was generated from.",
    "pub const CONTRACT_JSON: &str = include_str!(\"contract.json\");"]

end Native

end PlatformBridge
