import PlatformBridge.Dispatch.Error
import PlatformBridge.Wire.Message

/-!
# Native Code

Native code as the dispatcher meets it. It may panic at every point where it runs: while the code of
an operation is looked for, while it runs, or, for an operation that answers later, before there is
a task to wait for. A task waits at gates that something else opens, and ends at some point or
never.

Native code has a state of its own, so it may go differently every time. Looking for the code of an
operation and running it are therefore functions of how often that was done before.

## Main definitions

* `Ending`, `Task`: How native code ends, and what is still left of it.
* `NativeCode`, `Binding`: The code of an operation, and how to get it.
* `Table`: The bindings of a program.
-/

namespace PlatformBridge

/-- How a piece of native code ends. A panic has a text or a payload of another kind. -/
inductive Ending (α : Type) where
  | value (a : α)
  | panic (text : Option String)
  deriving Repr

/-- What comes back from the code of an operation. -/
abbrev Answer := Except Failure Json

namespace Ending

/-- A panic as a failure of the operation. -/
def panicFailure (text : Option String) : Failure :=
  ⟨.failed, "operation panicked: " ++ text.getD "unknown panic"⟩

/-- What comes back from code that ends. -/
def answer : Ending Answer → Answer
  | value a => a
  | panic text => .error (panicFailure text)

end Ending

/-- The answer of native code whose value cannot be written to the wire. -/
def Answer.unwritable : Answer :=
  .error ⟨.failed, "result serialization failed: " ++ unwritableMessage⟩

/-- What is left of the code of an operation that answers later. -/
inductive Task where
  | ended (ending : Ending Answer)
  | waiting (gate : String) (next : Task)
  | never
  deriving Repr

/-- The code of an operation, run on the arguments of a call, given how often it was run before. -/
inductive NativeCode where
  /-- Code that answers at once. -/
  | sync (run : Nat → List Json → Ending Answer)
  /-- Code that gives a task that answers later. -/
  | async (start : Nat → List Json → Ending Task)

/-- How to get the code of an operation, given how often this was done before. -/
structure Binding where
  build : Nat → Ending NativeCode

namespace Binding

/-- The binding of code that is there already. -/
def of (code : NativeCode) : Binding := ⟨fun _ => .value code⟩

end Binding

/-- The bindings of a program, in the order of the operations' ids. -/
structure Table where
  entries : List (MemberId × Binding)

namespace Table

/-- No bindings. -/
def empty : Table := ⟨[]⟩

/-- The ids of the operations that are bound. -/
def ids (t : Table) : List MemberId := t.entries.map (·.1)

/-- The number of bindings. -/
def size (t : Table) : Nat := t.entries.length

/-- The binding of an operation. -/
def get? (t : Table) (id : MemberId) : Option Binding :=
  (t.entries.find? fun e => e.1 = id).map (·.2)

/-- Puts a binding in its place among bindings in order. -/
def insertEntry (id : MemberId) (binding : Binding) :
    List (MemberId × Binding) → List (MemberId × Binding)
  | [] => [(id, binding)]
  | e :: rest =>
    if id < e.1 then (id, binding) :: e :: rest else e :: insertEntry id binding rest

/-- Binds an operation that is not bound yet. -/
def add (t : Table) (id : MemberId) (binding : Binding) : Except DispatchError Table :=
  if (t.get? id).isSome then .error (.duplicateBinding id)
  else .ok ⟨insertEntry id binding t.entries⟩

end Table

end PlatformBridge
