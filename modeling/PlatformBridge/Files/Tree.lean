import PlatformBridge.Files.Store

/-!
# File Trees

Files, directories and links in memory. A tree is a flat list of what is at which address, so an
operation changes the entry that it names and leaves every other as it is. A path is walked one
segment at a time from the working directory: every step needs a directory to stand in, `..` goes
up, and a link is walked in place of its name; how many links one walk may take is bounded, which is
what ends it.

## Main definitions

* `Address`, `Entry`, `FileTree`: Trees.
* `FileTree.entry?`, `FileTree.set`, `FileTree.erase`: What is at an address.
* `FileTree.resolve`: Where a path leads.
* `FileTree.listing`: What is below the working directory.
* `FileTree.kind`, `FileTree.read`, `FileTree.write`, `FileTree.replace` and so on: The operations
  that make a tree a file store.
-/

namespace PlatformBridge

/-- Where something is: the names that lead there, innermost first. -/
abbrev Address := List String

/-- What is at an address. -/
inductive Entry where
  | file (bytes : ByteArray)
  | directory
  | link (target : Path)
  deriving Inhabited

/-- The kind of an entry. -/
def Entry.kind : Entry → FileKind
  | file _ => .file
  | directory => .directory
  | link _ => .link

/-- Files, directories and links, seen from a working directory. -/
structure FileTree where
  entries : List (Address × Entry)
  /-- The working directory; it and all above it are always there. -/
  home : Address
  deriving Inhabited

/-- Where a path leads. -/
inductive Place where
  /-- To what is at an address. -/
  | taken (address : Address)
  /-- To a name that is not in use in a directory that is there. -/
  | free (directory : Address) (name : String)
  deriving DecidableEq, Repr

namespace FileTree

/-- The longest name, in bytes. -/
def maxNameBytes : Nat := 255

/-- The longest path, in bytes. -/
def maxPathBytes : Nat := 4095

/-- How many links a walk may take. -/
def maxLinks : Nat := 40

/-- How many bytes the name of a temporary file has more than that of the file it is for. -/
def temporaryNameBytes : Nat := 12

/-- A tree with nothing in its working directory. -/
def empty (home : Address) : FileTree := ⟨[], home⟩

/-- What is at an address. -/
def entry? (t : FileTree) (l : Address) : Option Entry :=
  if l.isSuffixOf t.home then some .directory
  else (t.entries.find? fun e => e.1 = l).map (·.2)

/-- Puts an entry at an address. -/
def set (t : FileTree) (l : Address) (e : Entry) : FileTree :=
  { t with entries := (l, e) :: t.entries.filter (·.1 ≠ l) }

/-- Takes the entry at an address away. -/
def erase (t : FileTree) (l : Address) : FileTree :=
  { t with entries := t.entries.filter (·.1 ≠ l) }

/-- Whether there is a directory at an address. -/
def isDirectoryAt (t : FileTree) (l : Address) : Bool :=
  match t.entry? l with
  | some .directory => true
  | _ => false

/-- Whether something is in the directory at an address: an entry, or the way to the working
    directory. -/
def hasEntryBelow (t : FileTree) (l : Address) : Bool :=
  (l ≠ t.home && l.isSuffixOf t.home) || t.entries.any fun e => !e.1.isEmpty && e.1.tail = l

/-- Where a path starts, looked at from an address. -/
def start (p : Path) (l : Address) : Address := if p.isAbsolute then [] else l

/-- Walks segments from an address. A link at the very end is taken or not; `follow` walks on, from
    a address, what is left once a link is put in place of its name. -/
def walkWith (t : FileTree) (takeLast : Bool)
    (follow : Address → List String → Except FileError Place) :
    Address → List String → Except FileError Place
  | l, [] => .ok (.taken l)
  | l, s :: rest =>
    if !t.isDirectoryAt l then .error .notADirectory
    else if Path.isIdle s then walkWith t takeLast follow l rest
    else if s = ".." then walkWith t takeLast follow l.tail rest
    else if maxNameBytes < Text.byteLength s.toList then .error .nameTooLong
    else match t.entry? (s :: l) with
      | none => if rest.all (· = "") then .ok (.free l s) else .error .notFound
      | some (.link target) =>
        if rest.isEmpty && !takeLast then .ok (.taken (s :: l))
        else follow (start target l) (target.segments ++ rest)
      | some _ => walkWith t takeLast follow (s :: l) rest

/-- Walks segments from an address over a number of links at most. -/
def walk (t : FileTree) (takeLast : Bool) : Nat → Address → List String → Except FileError Place
  | 0 => t.walkWith takeLast fun _ _ => .error .tooManyLinks
  | n + 1 => t.walkWith takeLast (t.walk takeLast n)

/-- Where a path leads. -/
def resolve (t : FileTree) (takeLast : Bool) (p : Path) : Except FileError Place :=
  if p.segments.any fun s => s.toList.any (· = '\x00') then .error .zeroInPath
  else if p.isEmpty then .error .notFound
  else if maxPathBytes < Text.byteLength p.text.toList then .error .nameTooLong
  else t.walk takeLast maxLinks (start p t.home) p.segments

/-- What a path leads to. -/
def find (t : FileTree) (takeLast : Bool) (p : Path) : Except FileError Entry := do
  match ← t.resolve takeLast p with
  | .taken l =>
    match t.entry? l with
    | some e => return e
    | none => throw .notFound
  | .free _ _ => throw .notFound

/-- The kind of what a path leads to. -/
def kind (t : FileTree) (follow : Bool) (p : Path) : Except FileError FileKind :=
  (t.find follow p).map Entry.kind

/-- The content of the file that a path leads to. -/
def read (t : FileTree) (p : Path) : Except FileError ByteArray := do
  match ← t.find true p with
  | .file bytes => return bytes
  | _ => throw .isADirectory

/-- Whether the directory that a path leads to is empty. -/
def isEmpty (t : FileTree) (p : Path) : Except FileError Bool := do
  match ← t.resolve true p with
  | .taken l => if t.isDirectoryAt l then return !t.hasEntryBelow l else throw .notADirectory
  | .free _ _ => throw .notFound

/-- Puts an entry where a path leads to a name that is not in use. -/
def plant (t : FileTree) (p : Path) (e : Entry) : Except FileError FileTree := do
  match ← t.resolve false p with
  | .taken _ => throw .alreadyExists
  | .free l name => return t.set (name :: l) e

/-- Makes a directory. -/
def makeDirectory (t : FileTree) (p : Path) : Except FileError FileTree :=
  t.plant p.withoutSlashes .directory

/-- Gives the file that a path leads to its content. -/
def write (t : FileTree) (p : Path) (bytes : ByteArray) : Except FileError FileTree := do
  match ← t.resolve true p with
  | .taken l =>
    if t.isDirectoryAt l then throw .isADirectory else return t.set l (.file bytes)
  | .free l name =>
    if p.endsWithSlash then throw .isADirectory else return t.set (name :: l) (.file bytes)

/-- Puts a file at an address, unless there is a directory. -/
def replaceAt (t : FileTree) (l : Address) (bytes : ByteArray) : Except FileError FileTree :=
  if maxNameBytes < Text.byteLength (l.headD "").toList + temporaryNameBytes then
    .error .nameTooLong
  else if t.isDirectoryAt l then .error .isADirectory
  else .ok (t.set l (.file bytes))

/-- Puts a file where a path leads. -/
def replace (t : FileTree) (p : Path) (bytes : ByteArray) : Except FileError FileTree := do
  match ← t.resolve false p with
  | .taken l => t.replaceAt l bytes
  | .free l name => t.replaceAt (name :: l) bytes

/-- Removes the file that a path leads to. -/
def remove (t : FileTree) (p : Path) : Except FileError FileTree := do
  match ← t.resolve false p with
  | .taken l => if t.isDirectoryAt l then throw .isADirectory else return t.erase l
  | .free _ _ => throw .notFound

/-- Removes what a path leads to with all that is below it. -/
def removeAll (t : FileTree) (p : Path) : Except FileError FileTree := do
  match ← t.resolve false p with
  | .taken l => return { t with entries := t.entries.filter fun e => !l.isSuffixOf e.1 }
  | .free _ _ => throw .notFound

/-- What is below the working directory, with the paths that lead there. -/
def listing (t : FileTree) : List (Path × Entry) :=
  (t.entries.filter fun e => t.home.isSuffixOf e.1).map fun e =>
    (⟨(e.1.take (e.1.length - t.home.length)).reverse⟩, e.2)

/-- Changes a tree, or leaves it as it is. -/
def update (f : FileTree → Except FileError FileTree) :
    StateM FileTree (Except FileError Unit) := fun t =>
  match f t with
  | .ok t => (.ok (), t)
  | .error e => (.error e, t)

/-- Looks at a tree. -/
def view {α : Type} (f : FileTree → Except FileError α) : StateM FileTree (Except FileError α) :=
  fun t => (f t, t)

instance : FileStore (StateM FileTree) where
  kind follow path := view fun t => t.kind follow path
  read path := view fun t => t.read path
  isEmpty path := view fun t => t.isEmpty path
  makeDirectory path := update fun t => t.makeDirectory path
  write path bytes := update fun t => t.write path bytes
  replace path bytes := update fun t => t.replace path bytes
  remove path := update fun t => t.remove path

end FileTree

end PlatformBridge
