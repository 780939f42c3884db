import PlatformBridge.Validation.Finding
import PlatformBridge.Validation.Method

/-!
# Services

A type is a service if it is marked as one or a marked interface can be reached from its interfaces.
It offers its own marked methods and events and those of the marked interfaces. A method that
repeats the formal signature of one from another type implements that one and is not a second
operation; two other methods of one name collide. What is found about a member names the type that
declares it, so services that share an interface share the finding.

## Main definitions

* `Library.allInterfaces`: The interfaces of a type, depth first, each once.
* `Library.offersService`: Whether a type is a service.
* `Library.offers`: The methods that can become operations of a service.
* `Library.serviceOf`: The service of a type, with what was found on the way.
-/

namespace PlatformBridge

/-- A method offered by a type, and that type. -/
structure Offer where
  declaring : DeclaredType
  method : DeclaredMethod
  deriving Inhabited

namespace Offer

/-- The method with its declaring type, as messages show it. -/
def subject (c : Offer) : String := c.declaring.name ++ "." ++ c.method.formalSignature

/-- Whether a method cannot be offered, with the finding that says so. An explicit implementation
    belongs to its interface, and what is not public is not offered; members of an interface are. -/
def refusal? (c : Offer) : Option Finding :=
  match c.method.explicitInterface with
  | some interface =>
    some (.of .explicitInterfaceOperation c.subject
      ("explicit implementation of " ++ interface ++ " is not exposed") [] [])
  | none =>
    if c.declaring.kind ≠ .interface && c.method.access ≠ .everyone then
      some (.of .nonPublicOperation c.subject
        "marked operation is not public and is not exposed" [] [])
    else none

/-- Whether a method implements one that another type has put forward. -/
def implementsOneOf (c : Offer) (earlier : List Offer) : Bool :=
  earlier.any fun e => e.declaring.name ≠ c.declaring.name
    && e.method.formalSignature = c.method.formalSignature

end Offer

/-- A parameter of an operation, or what is wrong with it and the types in the way. -/
abbrev CheckedParameter := Except (String × List Obstacle) Parameter

namespace Library

/-- The interfaces met from some pending names, depth first, without those seen before. Each
    interface adds its own list to the pending names at most once, which bounds the fuel. -/
def interfacesFrom (a : Library) : Nat → List TypeName → List TypeName → List DeclaredType
  | 0, _, _ => []
  | _, _, [] => []
  | fuel + 1, seen, name :: pending =>
    if seen.contains name then a.interfacesFrom fuel seen pending
    else
      match a.type? name with
      | some t =>
        if t.kind = .interface then
          t :: a.interfacesFrom fuel (name :: seen) (t.interfaces ++ pending)
        else a.interfacesFrom fuel (name :: seen) pending
      | none => a.interfacesFrom fuel (name :: seen) pending

/-- The interfaces of a type, those of its interfaces included, each once. -/
def allInterfaces (a : Library) (t : DeclaredType) : List DeclaredType :=
  let fuel := t.interfaces.length + (a.types.flatMap (·.interfaces)).length + 1
  a.interfacesFrom fuel [] t.interfaces

/-- The type itself, then its marked interfaces. -/
def offeringTypes (a : Library) (t : DeclaredType) : List DeclaredType :=
  t :: (a.allInterfaces t).filter (·.isService)

/-- Whether a type is offered as a service. -/
def offersService (a : Library) (t : DeclaredType) : Bool :=
  t.kind ≠ .enum && (t.isService || (a.allInterfaces t).any (·.isService))

/-- The marked methods of some types. -/
def markedMethods (sources : List DeclaredType) : List Offer :=
  sources.flatMap fun t => (t.methods.filter (·.isOperation)).map fun m => ⟨t, m⟩

/-- The methods that can become operations, after those already chosen. -/
def chooseOffers (chosen : List Offer) : List Offer → List Offer
  | [] => chosen
  | c :: rest =>
    if c.refusal?.isSome || c.implementsOneOf chosen then chooseOffers chosen rest
    else chooseOffers (chosen ++ [c]) rest

/-- The methods that can become operations of a service. -/
def offers (sources : List DeclaredType) : List Offer :=
  chooseOffers [] (markedMethods sources)

/-- The type that a collision is reported against: the one that declares all of the methods, or the
    service if several do. -/
def clashOwner (service : TypeName) (offers : List Offer) (name : String) : TypeName :=
  let declaring := (offers.filter (·.method.canonicalSignature = name)).map (·.declaring.name)
  match sortNames declaring with
  | [single] => single
  | _ => service

/-- The finding about a collision. -/
def clashFinding (service : TypeName) (offers : List Offer) (c : NameClash) :
    Finding :=
  .of .duplicateOperationName (MemberId.of (clashOwner service offers c.name) c.name)
    (toString c.formal.length ++ " operations share the name `" ++ c.name
      ++ "`; Dart does not support overloading") c.formal []

/-- A parameter of an operation. -/
def checkParameter (a : Library) (p : DeclaredParameter) : CheckedParameter :=
  match p.mode.keyword? with
  | some keyword => .error ("parameter `" ++ p.name ++ "` is passed by " ++ keyword, [])
  | none =>
    match a.bridgeType p.type with
    | .ok type => .ok ⟨p.name, type, p.mode⟩
    | .error causes => .error ("parameter `" ++ p.name ++ "` has an unsupported type", causes)

/-- How an operation answers, or the types in the way. -/
def checkReturn (a : Library) (returns : TypeExpr) : Except (List Obstacle) ReplyMode :=
  match ReturnKind.of returns with
  | .nothing => .ok .fireAndForget
  | .task => .ok (.async none)
  | .taskOf value => (a.bridgeType value).map fun type => .async (some type)
  | .value value => (a.bridgeType value).map .sync

/-- The operation of a method, or the finding that refuses it. -/
def operationOf (a : Library) (service : TypeName) (c : Offer) :
    Except Finding Operation :=
  let m := c.method
  if 0 < m.genericArity then
    .error (.of .invalidOperationSignature c.subject
      "generic methods cannot be expressed in Dart" [] [])
  else
    let checked := m.callParameters.map a.checkParameter
    let returns := a.checkReturn m.returns
    let wrong := checked.filterMap fun
      | .error e => some e
      | .ok _ => none
    match returns, wrong with
    | .ok shape, [] => .ok {
        name := m.name
        id := MemberId.of service m.name
        parameters := checked.filterMap (·.toOption)
        returns := shape
        isStatic := m.isStatic
        canonicalSignature := m.canonicalSignature
        formalSignature := m.formalSignature }
    | _, _ =>
      let (problems, causes) := match returns with
        | .ok _ => ([], [])
        | .error causes => (["return type is unsupported"], causes)
      .error (.of .invalidOperationSignature c.subject
        ("; ".intercalate (wrong.map (·.1) ++ problems)) []
        (wrong.flatMap (·.2) ++ causes))

/-- The event of a service, or the finding that refuses it. -/
def eventOf (a : Library) (service : TypeName) (declaring : DeclaredType)
    (e : DeclaredEvent) : Except Finding Event :=
  let id := MemberId.of service e.name
  let refuse detail causes :=
    .error (.of .unsupportedEventShape (declaring.name ++ "." ++ e.name) detail [] causes)
  match e.handler with
  | .named "System.EventHandler" => .ok ⟨e.name, id, none⟩
  | .generic "System.EventHandler`1" [payload] =>
    match a.bridgeType payload with
    | .ok type => .ok ⟨e.name, id, some type⟩
    | .error causes =>
      refuse ("event payload of " ++ e.handler.display ++ " is unsupported") causes
  | other =>
    refuse ("handler " ++ other.display
      ++ " is not supported; use System.EventHandler or System.EventHandler<T>") []

/-- The events of some types with the types that declare them, the first of each name. -/
def distinctEvents (sources : List DeclaredType) : List (DeclaredType × DeclaredEvent) :=
  (sources.flatMap fun t => t.events.map fun e => (t, e)).foldl
    (fun kept e => if kept.any (·.2.name = e.2.name) then kept else kept ++ [e]) []

/-- The data types that operations and events mention. -/
def mentioned (operations : List Operation) (events : List Event) : NameSet :=
  .ofList (
    (operations.flatMap fun o =>
      (o.parameters.filterMap fun p => p.type.named?)
        ++ (o.returns.value?.bind BridgeType.named?).toList)
    ++ events.filterMap fun e => e.payload.bind BridgeType.named?)

/-- The service of a type, and what was found on the way. -/
def serviceOf (a : Library) (t : DeclaredType) : Service × List Finding :=
  let sources := a.offeringTypes t
  let marked := markedMethods sources
  let chosen := offers sources
  let shared := nameClashes (chosen.map (·.method))
  let alone := chosen.filter fun c => !shared.any (·.name = c.method.canonicalSignature)
  let built := alone.map (a.operationOf t.name)
  let events := (distinctEvents sources).map fun (declaring, e) => a.eventOf t.name declaring e
  let operations := built.filterMap (·.toOption)
  let kept := events.filterMap (·.toOption)
  let refusals {α : Type} (results : List (Except Finding α)) : List Finding :=
    results.filterMap fun
      | .error d => some d
      | .ok _ => none
  ({ name := t.name, operations, events := kept, dataTypes := mentioned operations kept },
    marked.filterMap (·.refusal?) ++ shared.map (clashFinding t.name chosen)
      ++ refusals built ++ refusals events)

end Library

end PlatformBridge
