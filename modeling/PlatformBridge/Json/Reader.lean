import PlatformBridge.Json.Tree

/-!
# Typed Reading of Documents

Readers that turn a document into a value of the domain. A record is an object with known keys, or
an array of its fields in their order; a variant is chosen by a tag. There is one way to fail, since
a document that is not understood is refused whole.

A member of an unknown key is passed over without a look inside, so nothing limits its depth or the
size of its numbers. Where the shape is only known after a look at a tag, the part of the document
is read as a whole first, unknown members included; inside it nothing is left to limit. The
allowance of a reader says which of the two it is in.

## Main definitions

* `Json.Allowance`: How deep a document may still nest.
* `Json.Reader`: A reader of values of a type.
* `Json.Record`: The fields of a record as they were found.
* `Reader.record`, `Reader.tagged`: Readers of records and of tagged variants.
-/

namespace PlatformBridge

namespace Json

/-- How many arrays and objects may still be entered; `none` inside a part already read whole. -/
abbrev Allowance := Option Nat

/-- A reader of values of a type. -/
abbrev Reader (α : Type) := Allowance → Tree → Option α

namespace Allowance

/-- What is left inside an array or object. -/
def enter? : Allowance → Option Allowance
  | none => some none
  | some 0 => none
  | some (n + 1) => some (some n)

end Allowance

/-- The fields of a record as they were found: by key, or by place in an array. -/
structure Record where
  inside : Allowance
  byPlace : Bool
  fields : List (String × Tree)

/-- Members by known keys, each key at most once; other members are left out. -/
def knownMembers? (names : List String) :
    List (Option String × Tree) → Option (List (String × Tree))
  | [] => some []
  | (none, _) :: _ => none
  | (some key, t) :: rest =>
    (knownMembers? names rest).bind fun fields =>
      if names.contains key then
        if (fields.find? fun f => f.1 = key).isSome then none else some ((key, t) :: fields)
      else some fields

namespace Reader

/-- A text. -/
def text : Reader String
  | _, .string s => s
  | _, _ => none

/-- True or false. -/
def bool : Reader Bool
  | _, .bool b => some b
  | _, _ => none

/-- An integer from zero up to below a bound. -/
def natBelow (bound : Nat) : Reader Nat
  | _, .number n =>
    match n.toNumber? with
    | some (.integer i) => if 0 ≤ i && i < bound then some i.toNat else none
    | _ => none
  | _, _ => none

/-- A value of any kind. -/
def json : Reader Json
  | some depth, t => t.toJson? depth
  | none, t => t.toJson? maxDepth

/-- Reads a part of a document whole before the reader sees it. -/
def whole {α : Type} (r : Reader α) : Reader α
  | none, t => r none t
  | some depth, t => (t.toJson? depth).bind fun _ => r none t

/-- Null or a value. -/
def orNull {α : Type} (r : Reader α) : Reader (Option α)
  | _, .null => some none
  | a, t => (r a t).map some

/-- Every item of a list. -/
def items {α : Type} (r : Reader α) (inside : Allowance) : List Tree → Option (List α)
  | [] => some []
  | t :: rest =>
    match r inside t, items r inside rest with
    | some v, some vs => some (v :: vs)
    | _, _ => none

/-- An array whose items are all read the same way. -/
def list {α : Type} (r : Reader α) : Reader (List α)
  | a, .array ts => a.enter?.bind fun inside => items r inside ts
  | _, _ => none

/-- A record with the given fields, an object or an array. -/
def record {α : Type} (names : List String) (body : Record → Option α) : Reader α
  | a, .object members => do
    let inside ← a.enter?
    body ⟨inside, false, ← knownMembers? names members⟩
  | a, .array ts => do
    let inside ← a.enter?
    if names.length < ts.length then none else body ⟨inside, true, names.zip ts⟩
  | _, _ => none

/-- A value given by its name alone: a text, or an object with the name as its only key and nothing
    as its value. -/
def name {α : Type} (values : List (String × α)) : Reader α
  | _, .string (some s) => (values.find? fun v => v.1 = s).map (·.2)
  | a, .object [(some key, t)] => do
    let _ ← a.enter?
    match a, t with
    | _, .null | none, .object [] => (values.find? fun v => v.1 = key).map (·.2)
    | _, _ => none
  | _, _ => none

/-- A tag among the names of the variants; inside a part already read whole the place of the variant
    serves as well. -/
def tagIndex? (names : List String) (a : Allowance) : Tree → Option Nat
  | .string (some s) => names.findIdx? (· = s)
  | .number n =>
    match a, n.toNumber? with
    | none, some (.integer i) => if 0 ≤ i && i < names.length then some i.toNat else none
    | _, _ => none
  | _ => none

/-- The only member of a key, and the other members. -/
def takeMember? (key : String) (members : List (Option String × Tree)) :
    Option (Tree × List (Option String × Tree)) :=
  match members.filter fun m => m.1 = some key with
  | [(_, t)] => some (t, members.filter fun m => m.1 ≠ some key)
  | _ => none

/-- A variant chosen by the member `tag` of an object, or by the first item of an array. What else
    the object or array holds goes to the reader of the variant. -/
def tagged {α : Type} (tag : String) (variants : List (String × Reader α)) : Reader α :=
  fun a => whole (α := α) (fun _ t => do
    let (choice, rest) ← match t with
      | .object members => (takeMember? tag members).map fun (c, rest) => (c, Tree.object rest)
      | .array (c :: rest) => some (c, .array rest)
      | _ => none
    let index ← tagIndex? (variants.map (·.1)) a choice
    let (_, r) ← variants[index]?
    r none rest) a

/-- A variant without fields: nothing may follow the tag in an array. -/
def unit {α : Type} (value : α) : Reader α
  | _, .object _ | _, .array [] => some value
  | _, _ => none

end Reader

namespace Record

/-- A field as it was found. -/
def find? (r : Record) (name : String) : Option Tree :=
  (r.fields.find? fun f => f.1 = name).map (·.2)

/-- A field that has to be there. -/
def required {α : Type} (r : Record) (name : String) (reader : Reader α) : Option α :=
  (r.find? name).bind (reader r.inside)

/-- A field with a value to take when it is not there. -/
def defaulted {α : Type} (r : Record) (name : String) (reader : Reader α) (default : α) :
    Option α :=
  match r.find? name with
  | some t => reader r.inside t
  | none => some default

/-- A field that may be null, and in an object may be left out. -/
def optional {α : Type} (r : Record) (name : String) (reader : Reader α) : Option (Option α) :=
  match r.find? name with
  | some t => reader.orNull r.inside t
  | none => if r.byPlace then none else some none

end Record

/-- Reads a text as a document of a type. -/
def readText? {α : Type} (r : Reader α) (text : String) : Option α :=
  (Tree.ofText? text).bind (r (some maxDepth))

/-- Reads bytes as a document of a type. -/
def readBytes? {α : Type} (r : Reader α) (bytes : ByteArray) : Option α :=
  (Tree.ofBytes? bytes).bind (r (some maxDepth))

end Json

end PlatformBridge
