import PlatformBridge.Files.Store
import PlatformBridge.Library.TypeExpr

/-!
# Declarations

What a tool that inspects a library reports about it: its types with their members, and which of
them are marked to be offered to the other side. A type is marked as a service or as data, a method
as an operation; whether a mark can be honoured is decided later. A file that is too large is
refused without a look at what is in it.

## Main definitions

* `DeclaredType`, `DeclaredMethod`, `DeclaredField`, `DeclaredEvent`: Types and their members.
* `Library`: A library.
* `Library.reader`, `Library.toJson`: Its document.
* `Library.ofBytes`, `Library.load`: The library in a document, and in a file.
-/

namespace PlatformBridge

/-- What a type is declared as. -/
inductive DeclarationKind where
  | classType
  | interface
  | struct
  | enum
  deriving DecidableEq, Repr, Inhabited

/-- Who may use a method. -/
inductive Access where
  | everyone
  | assembly
  | subtypes
  | declaringType
  deriving DecidableEq, Repr, Inhabited

/-- How an argument is passed. -/
inductive Passing where
  | value
  | ref
  | out
  deriving DecidableEq, Repr, Inhabited

/-- A parameter of a method. -/
structure DeclaredParameter where
  name : String
  type : TypeExpr
  mode : Passing
  deriving Repr, Inhabited

/-- A method. -/
structure DeclaredMethod where
  name : String
  access : Access
  isStatic : Bool
  isExtension : Bool
  explicitInterface : Option String
  /-- Whether the method is marked as an operation. -/
  isOperation : Bool
  genericArity : Nat
  parameters : List DeclaredParameter
  returns : TypeExpr
  deriving Repr, Inhabited

/-- A field. -/
structure DeclaredField where
  name : String
  type : TypeExpr
  deriving Repr, Inhabited

/-- An event with the type of its handlers. -/
structure DeclaredEvent where
  name : String
  handler : TypeExpr
  deriving Repr, Inhabited

/-- A type. -/
structure DeclaredType where
  name : TypeName
  kind : DeclarationKind
  base : Option TypeName
  interfaces : List TypeName
  /-- Whether the type is marked as a service. -/
  isService : Bool
  /-- Whether the type is marked as data. -/
  isData : Bool
  methods : List DeclaredMethod
  fields : List DeclaredField
  events : List DeclaredEvent
  members : List String
  deriving Repr, Inhabited

/-- A library. -/
structure Library where
  name : String
  types : List DeclaredType
  deriving Repr, Inhabited

namespace DeclarationKind

/-- The kinds by their names. -/
def names : List (String × DeclarationKind) :=
  [("class", .classType), ("interface", .interface), ("struct", .struct), ("enum", .enum)]

/-- The name of a kind. -/
def text : DeclarationKind → String
  | .classType => "class"
  | .interface => "interface"
  | .struct => "struct"
  | .enum => "enum"

end DeclarationKind

namespace Access

/-- The kinds of access by their names. -/
def names : List (String × Access) :=
  [("public", .everyone), ("internal", .assembly), ("protected", .subtypes),
    ("private", .declaringType)]

/-- The name of a kind of access. -/
def text : Access → String
  | .everyone => "public"
  | .assembly => "internal"
  | .subtypes => "protected"
  | .declaringType => "private"

end Access

namespace Passing

/-- The modes by their names. -/
def names : List (String × Passing) :=
  [("value", .value), ("ref", .ref), ("out", .out)]

/-- The name of a mode. -/
def text : Passing → String
  | .value => "value"
  | .ref => "ref"
  | .out => "out"

/-- What stands before the type of a parameter in a signature. -/
def keyword? : Passing → Option String
  | .value => none
  | .ref => some "ref"
  | .out => some "out"

end Passing

namespace DeclaredParameter

/-- Reads a parameter; it is passed by value unless it says otherwise. -/
def reader : Json.Reader DeclaredParameter :=
  .record ["name", "type", "mode"] fun r => do
    some {
      name := ← r.required "name" .text
      type := ← r.required "type" TypeExpr.reader
      mode := ← r.defaulted "mode" (.name Passing.names) .value }

/-- The document of a parameter. -/
def toJson (p : DeclaredParameter) : Json :=
  .object [("name", .string p.name), ("type", p.type.toJson), ("mode", .string p.mode.text)]

end DeclaredParameter

namespace DeclaredMethod

/-- Reads a method; only its name and what it returns have to be given. -/
def reader : Json.Reader DeclaredMethod :=
  .record ["name", "visibility", "is_static", "is_extension", "explicit_interface", "operation",
      "generic_arity", "parameters", "returns"] fun r => do
    some {
      name := ← r.required "name" .text
      access := ← r.defaulted "visibility" (.name Access.names) .everyone
      isStatic := ← r.defaulted "is_static" .bool false
      isExtension := ← r.defaulted "is_extension" .bool false
      explicitInterface := ← r.defaulted "explicit_interface" (.orNull .text) none
      isOperation := ← r.defaulted "operation" .bool false
      genericArity := ← r.defaulted "generic_arity" (.natBelow 0x100000000) 0
      parameters := ← r.defaulted "parameters" (.list DeclaredParameter.reader) []
      returns := ← r.required "returns" TypeExpr.reader }

/-- The document of a method. -/
def toJson (m : DeclaredMethod) : Json :=
  .object [
    ("name", .string m.name),
    ("visibility", .string m.access.text),
    ("is_static", .bool m.isStatic),
    ("is_extension", .bool m.isExtension),
    ("explicit_interface", .ofOption m.explicitInterface),
    ("operation", .bool m.isOperation),
    ("generic_arity", .ofNat m.genericArity),
    ("parameters", .array (m.parameters.map DeclaredParameter.toJson)),
    ("returns", m.returns.toJson)]

end DeclaredMethod

namespace DeclaredField

/-- Reads a field. -/
def reader : Json.Reader DeclaredField :=
  .record ["name", "type"] fun r => do
    some ⟨← r.required "name" .text, ← r.required "type" TypeExpr.reader⟩

/-- The document of a field. -/
def toJson (f : DeclaredField) : Json :=
  .object [("name", .string f.name), ("type", f.type.toJson)]

end DeclaredField

namespace DeclaredEvent

/-- Reads an event. -/
def reader : Json.Reader DeclaredEvent :=
  .record ["name", "handler"] fun r => do
    some ⟨← r.required "name" .text, ← r.required "handler" TypeExpr.reader⟩

/-- The document of an event. -/
def toJson (e : DeclaredEvent) : Json :=
  .object [("name", .string e.name), ("handler", e.handler.toJson)]

end DeclaredEvent

namespace DeclaredType

/-- Reads a type; only its name and kind have to be given. -/
def reader : Json.Reader DeclaredType :=
  .record ["name", "kind", "base", "interfaces", "service", "data", "methods", "fields", "events",
      "members"] fun r => do
    some {
      name := ← r.required "name" .text
      kind := ← r.required "kind" (.name DeclarationKind.names)
      base := ← r.defaulted "base" (.orNull .text) none
      interfaces := ← r.defaulted "interfaces" (.list .text) []
      isService := ← r.defaulted "service" .bool false
      isData := ← r.defaulted "data" .bool false
      methods := ← r.defaulted "methods" (.list DeclaredMethod.reader) []
      fields := ← r.defaulted "fields" (.list DeclaredField.reader) []
      events := ← r.defaulted "events" (.list DeclaredEvent.reader) []
      members := ← r.defaulted "members" (.list .text) [] }

/-- The document of a type. -/
def toJson (t : DeclaredType) : Json :=
  .object [
    ("name", .string t.name),
    ("kind", .string t.kind.text),
    ("base", .ofOption t.base),
    ("interfaces", .ofStrings t.interfaces),
    ("service", .bool t.isService),
    ("data", .bool t.isData),
    ("methods", .array (t.methods.map DeclaredMethod.toJson)),
    ("fields", .array (t.fields.map DeclaredField.toJson)),
    ("events", .array (t.events.map DeclaredEvent.toJson)),
    ("members", .ofStrings t.members)]

end DeclaredType

namespace Library

/-- Reads the description of a library. -/
def reader : Json.Reader Library :=
  .record ["name", "types"] fun r => do
    some ⟨← r.required "name" .text, ← r.required "types" (.list DeclaredType.reader)⟩

/-- The description of a library. -/
def toJson (a : Library) : Json :=
  .object [("name", .string a.name), ("types", .array (a.types.map DeclaredType.toJson))]

end Library

/-- Why a description cannot be used. -/
inductive LibraryError where
  | unreadable (reason : String)
  | malformed
  | invalid (reason : String)
  deriving DecidableEq, Repr

namespace LibraryError

/-- The message of an error. -/
def message : LibraryError → String
  | unreadable reason => "metadata io error: " ++ reason
  | malformed => "metadata parse error: not a metadata document"
  | invalid reason => "invalid metadata: " ++ reason

end LibraryError

namespace Library

/-- The largest document that is read, in bytes. -/
def maxBytes : Nat := 4 * 1024 * 1024

/-- The library in a document. -/
def ofBytes (bytes : ByteArray) : Except LibraryError Library :=
  match Json.readBytes? reader bytes with
  | some library => .ok library
  | none => .error .malformed

/-- The library that a file describes. -/
def load {m : Type → Type} [Monad m] [FileStore m] (path : Path) :
    ExceptT LibraryError m Library := do
  match ← ExceptT.lift (FileStore.read path) with
  | .error e => throw (.unreadable e.message)
  | .ok bytes =>
    if maxBytes < bytes.size then
      throw (.invalid ("metadata input exceeds " ++ Nat.repr maxBytes ++ " bytes"))
    ExceptT.mk (pure (ofBytes bytes))

end Library

end PlatformBridge
