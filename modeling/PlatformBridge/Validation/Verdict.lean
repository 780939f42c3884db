import PlatformBridge.Validation.DataTypes
import PlatformBridge.Validation.Services

/-!
# Validation

The description of a library has to be well formed before anything can be said about it: names are
not blank and no two types have one name. After that validation never stops: what cannot be offered
is left out and told, and the contract holds the rest. Nothing is generated from a contract with
errors in its report.

## Main definitions

* `Library.defect?`: What makes a description unusable.
* `Library.validate`: The contract of a library and the report.
* `Verdict.toContract`: The contract, if nothing stands in the way.
* `Verdict.load`: The contract of the library in a file, with the findings.
-/

namespace PlatformBridge

/-- The contract of a library, without what was refused, and the findings. -/
structure Verdict where
  contract : Contract
  report : Report
  deriving DecidableEq, Repr

/-- The contract, if no finding stands in the way. -/
def Verdict.toContract (o : Verdict) : Except ValidationFailure Contract :=
  match o.report.failure? with
  | some failure => .error failure
  | none => .ok o.contract

/-- Whether a method, field or event has a blank name. -/
def DeclaredType.hasBlankMember (t : DeclaredType) : Bool :=
  t.methods.any (fun m => Text.isBlank m.name)
    || t.fields.any (fun f => Text.isBlank f.name)
    || t.events.any (fun e => Text.isBlank e.name)

namespace Library

/-- The first defect among some types, after types of the given names. -/
def defectAfter? (seen : List TypeName) : List DeclaredType → Option String
  | [] => none
  | t :: rest =>
    if Text.isBlank t.name then some "type name must be non-empty"
    else if seen.contains t.name then some ("duplicate type name: " ++ t.name)
    else if t.hasBlankMember then
      some ("type " ++ t.name ++ " declares a member with an empty name")
    else defectAfter? (t.name :: seen) rest

/-- What makes a description unusable. -/
def defect? (a : Library) : Option String := defectAfter? [] a.types

/-- The contract of a library and the findings: about bases, then about data types, then about
    services. -/
def review (a : Library) : Verdict :=
  let data := (a.types.filter (·.isData)).map a.dataTypeOf
  let services := (a.types.filter a.offersService).map a.serviceOf
  let refused := data.filterMap fun
    | .error d => some d
    | .ok _ => none
  { contract := ⟨a.name, services.map (·.1), data.filterMap (·.toOption)⟩
    report := Report.addAllUnique (a.inheritanceFindings ++ refused) (services.flatMap (·.2)) }

/-- The contract of a library and the findings, if the description is well formed. -/
def validate (a : Library) : Except LibraryError Verdict :=
  match a.defect? with
  | some defect => .error (.invalid defect)
  | none => .ok a.review

end Library

/-- The contract of the library that a file describes, with the findings. -/
def Verdict.load {m : Type → Type} [Monad m] [FileStore m] (path : Path) :
    ExceptT LibraryError m Verdict := do
  let library ← Library.load path
  ExceptT.mk (pure library.validate)

end PlatformBridge
