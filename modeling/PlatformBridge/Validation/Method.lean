import PlatformBridge.Contract.NameSet
import PlatformBridge.Library.Declaration

/-!
# Signatures of Methods

The other side calls an operation by its name alone, so two methods of one name collide whatever
their parameters; the formal signature, with the parameters, tells them apart in messages.

## Main definitions

* `DeclaredMethod.formalSignature`: The signature with its parameters.
* `DeclaredMethod.callParameters`: The parameters that a caller gives.
* `ReturnKind`: What the return type of a method says about its answer.
* `nameClashes`: The names that several methods share.
-/

namespace PlatformBridge

namespace DeclaredMethod

/-- The name that the method is called by. -/
def canonicalSignature (m : DeclaredMethod) : String := m.name

/-- The parameters as they are shown, the receiver of an extension method marked. -/
def parameterTexts (receiver : Bool) : List DeclaredParameter → List String
  | [] => []
  | p :: rest =>
    let keyword := match p.mode.keyword? with
      | some word => word ++ " "
      | none => ""
    ((if receiver then "this " else "") ++ keyword ++ p.type.display)
      :: parameterTexts false rest

/-- The name, the number of type parameters if there are any, and the parameters. -/
def formalSignature (m : DeclaredMethod) : String :=
  let arity := if 0 < m.genericArity then "`" ++ toString m.genericArity else ""
  m.name ++ arity ++ "(" ++ ", ".intercalate (parameterTexts m.isExtension m.parameters) ++ ")"

/-- The parameters that a caller gives; the receiver of an extension method is not one. -/
def callParameters (m : DeclaredMethod) : List DeclaredParameter :=
  if m.isExtension then m.parameters.drop 1 else m.parameters

end DeclaredMethod

/-- What a return type says about the answer of a method. -/
inductive ReturnKind where
  | nothing
  | task
  | taskOf (value : TypeExpr)
  | value (value : TypeExpr)
  deriving Repr

/-- What a return type says. -/
def ReturnKind.of : TypeExpr → ReturnKind
  | .named "System.Void" => nothing
  | .named "System.Threading.Tasks.Task" => task
  | .generic "System.Threading.Tasks.Task`1" [inner] => taskOf inner
  | other => value other

/-- A name that several methods share, with their formal signatures. -/
structure NameClash where
  name : String
  formal : List String
  deriving DecidableEq, Repr

/-- The names that several methods share, sorted. -/
def nameClashes (methods : List DeclaredMethod) : List NameClash :=
  let names := sortNames (methods.map (·.canonicalSignature))
  (names.map fun name =>
      ⟨name, (methods.filter (·.canonicalSignature = name)).map (·.formalSignature)⟩).filter
    fun c => 1 < c.formal.length

end PlatformBridge
