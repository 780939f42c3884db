/-!
# TOML Tables

Values of a settings file, and the rules by which its lines add up to tables. A table can be written
out under a header, come into being as a part of a longer header, or as a part of a dotted key; it
is remembered which, since a header may complete the second but not the third, and a dotted key may
extend the third but not the first.

## Main definitions

* `Toml`: A value.
* `Toml.Node`: A table in the making.
* `Node.assign?`, `Node.openTable?`, `Node.openElement?`: A line with a key, and the two headers.
* `Node.toToml`: The finished value.
-/

namespace PlatformBridge

/-- A value. Numbers, dates and times are all `scalar`, since no setting takes one. -/
inductive Toml where
  | string (s : String)
  | bool (b : Bool)
  | scalar
  | array (items : List Toml)
  | table (members : List (String × Toml))
  deriving Repr, Inhabited

namespace Toml

/-- How a table came into being. -/
inductive Origin where
  /-- Under a header of its own. -/
  | header
  /-- On the way to the table of a header. -/
  | headerPath
  /-- On the way to the value of a dotted key. -/
  | dotted
  deriving DecidableEq, Repr

/-- A table in the making: the values, tables and arrays of tables by their keys. An array of tables
    is its last table, which lines are added to, and those before it in reverse. -/
inductive Node where
  | leaf (value : Toml)
  | table (origin : Origin) (members : List (String × Node))
  | tables (last : List (String × Node)) (earlier : List (List (String × Node)))
  deriving Repr, Inhabited

/-- The members of a table in the making. -/
abbrev Members := List (String × Node)

namespace Node

/-- The node of a key. -/
def find? (members : Members) (key : String) : Option Node :=
  (members.find? fun m => m.1 = key).map (·.2)

/-- The members with the node of a key replaced, or added at the end. -/
def set (key : String) (node : Node) : Members → Members
  | [] => [(key, node)]
  | (k, n) :: rest => if k = key then (k, node) :: rest else (k, n) :: set key node rest

/-- Follows a path of keys from a table and changes the table at its end. Tables that are not there
    come into being with the origin `made`. A dotted key does not enter a table that has a header.
    -/
def update? (made : Origin) (change : Origin → Members → Option (Origin × Members)) :
    List String → Origin → Members → Option (Origin × Members)
  | [], origin, members => change origin members
  | key :: path, origin, members =>
    match find? members key with
    | none => (update? made change path made []).map fun (o, ms) =>
        (origin, set key (.table o ms) members)
    | some (.leaf _) => none
    | some (.tables last earlier) => (update? made change path .header last).map fun (_, ms) =>
        (origin, set key (.tables ms earlier) members)
    | some (.table o ms) =>
      if made = .dotted && o = .header then none
      else (update? made change path o ms).map fun (o, ms) =>
        (origin, set key (.table o ms) members)

/-- Adds a value under a dotted key, given as the keys before the last and the last. -/
def assign? (path : List String) (key : String) (value : Toml) (origin : Origin)
    (members : Members) : Option (Origin × Members) :=
  update? .dotted (fun o ms =>
    if (o == .dotted) == path.isEmpty then none
    else if (find? ms key).isSome then none
    else some (o, set key (.leaf value) ms)) path origin members

/-- Changes the table that the last header opened. -/
def inTable? (header : List String) (change : Origin → Members → Option (Origin × Members))
    (root : Members) : Option Members :=
  (update? .headerPath change header .header root).map (·.2)

/-- Opens a table by a header, given as the keys before the last and the last. -/
def openTable? (path : List String) (key : String) (root : Members) : Option Members :=
  inTable? path (fun o ms =>
    match find? ms key with
    | none => some (o, set key (.table .header []) ms)
    | some (.table .headerPath inner) => some (o, set key (.table .header inner) ms)
    | some _ => none) root

/-- Opens a new table at the end of an array of tables. -/
def openElement? (path : List String) (key : String) (root : Members) : Option Members :=
  inTable? path (fun o ms =>
    match find? ms key with
    | none => some (o, set key (.tables [] []) ms)
    | some (.tables last earlier) => some (o, set key (.tables [] (last :: earlier)) ms)
    | some _ => none) root

mutual

/-- The finished value. -/
def toToml : Node → Toml
  | leaf value => value
  | table _ members => .table (membersToToml members)
  | tables last earlier => .array ((.table (membersToToml last) :: tablesToToml earlier).reverse)

/-- The finished values of members. -/
def membersToToml : List (String × Node) → List (String × Toml)
  | [] => []
  | (key, node) :: rest => (key, toToml node) :: membersToToml rest

/-- The finished tables of a list. -/
def tablesToToml : List (List (String × Node)) → List Toml
  | [] => []
  | members :: rest => .table (membersToToml members) :: tablesToToml rest

end

end Node

end Toml

end PlatformBridge
