import PlatformBridge.Text.Basic

/-!
# Paths

A path is the list of the texts between its slashes, empty ones included, so that no spelling is
lost: joining the segments with slashes gives the text back. A segment that is empty or `.` leads
nowhere, except that a leading empty one makes the path absolute and a leading `.` is kept as a step
of its own.

## Main definitions

* `Path`, `Path.ofText`, `Path.text`: Paths and their texts.
* `Path.join`: A path taken from the end of another.
* `Path.parent?`, `Path.ancestors`: The paths above a path.
* `Path.isBelow`: Whether a path leads strictly below where it starts.
-/

namespace PlatformBridge

/-- A path, as the texts between its slashes. -/
structure Path where
  segments : List String
  deriving DecidableEq, Repr, Inhabited

namespace Path

/-- The path in a text. -/
def ofText (text : String) : Path :=
  ⟨(Text.split (· = '/') text.toList).map String.ofList⟩

/-- The text of a path. -/
def text (p : Path) : String := "/".intercalate p.segments

/-- Whether a path is the empty text. -/
def isEmpty (p : Path) : Bool :=
  match p.segments with
  | [] | [""] => true
  | _ => false

/-- Whether a path starts with a slash. -/
def isAbsolute (p : Path) : Bool :=
  match p.segments with
  | first :: _ :: _ => first = ""
  | _ => false

/-- Whether a path ends with a slash. -/
def endsWithSlash (p : Path) : Bool := 2 ≤ p.segments.length && p.segments.getLast? = some ""

/-- A path without slashes at its end, as long as something is left. -/
def withoutSlashes (p : Path) : Path :=
  match p.segments.reverse.dropWhile (· = "") with
  | [] => p
  | kept => ⟨kept.reverse⟩

/-- A path taken from the end of another; an absolute one stands for itself. -/
def join (base p : Path) : Path :=
  if p.isAbsolute then p
  else if base.segments.getLast? = some "" then ⟨base.segments.dropLast ++ p.segments⟩
  else ⟨base.segments ++ p.segments⟩

/-- Whether a segment leads nowhere. -/
def isIdle (segment : String) : Bool := segment = "" || segment = "."

/-- Segments, last one first, from the last that leads somewhere on; the first is always kept. -/
def dropIdle : List String → List String
  | [] => []
  | [first] => [first]
  | s :: rest => if isIdle s then dropIdle rest else s :: rest

/-- The path without its last step, if it has one. -/
def parent? (p : Path) : Option Path :=
  match dropIdle p.segments.reverse with
  | [] => none
  | [first] => if first = "" then none else some ⟨[""]⟩
  | _ :: rest =>
    match dropIdle rest with
    | [""] => some ⟨["", ""]⟩
    | above => some ⟨above.reverse⟩

/-- The first so many of a path and the paths above it, innermost first. -/
def ancestorsUpTo : Nat → Path → List Path
  | 0, _ => []
  | n + 1, p =>
    p :: match p.parent? with
      | some above => ancestorsUpTo n above
      | none => []

/-- A path and the paths above it, innermost first. -/
def ancestors (p : Path) : List Path := ancestorsUpTo (p.segments.length + 1) p

/-- Whether a path that is not empty leads strictly below where it starts, and says so without
    detours: it is not absolute, does not start with `.` and has no `..`. -/
def isBelow (p : Path) : Bool :=
  !p.isAbsolute && p.segments.head? ≠ some "." && !p.segments.contains ".."

end Path

end PlatformBridge
