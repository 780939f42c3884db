/-!
# Type Names and Member Ids

A type goes by its full name: namespaces end in dots, the types that a nested type is declared in
end in a plus sign, and the number of type parameters follows a backtick. An operation or event of a
service goes by its member id, the name of the service and the name of the member with a dot between
them. Names of members are expected to hold no dot, and the last one divides an id.

## Main definitions

* `TypeName.simple`: The name of a type without what surrounds it.
* `MemberId.of`, `MemberId.split?`: Composition and division of ids.
-/

namespace PlatformBridge

/-- The full name of a type. -/
abbrev TypeName := String

/-- The id of an operation or event. -/
abbrev MemberId := String

/-- The part of a text after its last character of a class. -/
def afterLast (p : Char → Bool) (text : List Char) : List Char :=
  (text.reverse.takeWhile fun c => !p c).reverse

/-- The part of a text before its first character of a class. -/
def beforeFirst (p : Char → Bool) (text : List Char) : List Char :=
  text.takeWhile fun c => !p c

namespace TypeName

/-- What the number of type parameters follows. -/
def aritySeparator : Char := '\x60'

/-- The name without namespaces, declaring types and number of type parameters. -/
def simple (name : TypeName) : String :=
  String.ofList (beforeFirst (· = aritySeparator)
    (afterLast (fun c => c = '.' || c = '+') name.toList))

/-- The name without the number of type parameters. -/
def withoutArity (name : TypeName) : String :=
  String.ofList (beforeFirst (· = aritySeparator) name.toList)

end TypeName

namespace MemberId

/-- What stands between the service and the member. -/
def separator : Char := '.'

/-- The id of a member of a service. -/
def of (service : TypeName) (member : String) : MemberId :=
  String.ofList (service.toList ++ separator :: member.toList)

/-- The service and the member of an id. -/
def split? (id : MemberId) : Option (TypeName × String) :=
  let member := afterLast (· = separator) id.toList
  if member.length < id.length then
    some (String.ofList (id.toList.take (id.length - member.length - 1)), String.ofList member)
  else none

end MemberId

end PlatformBridge
