import PlatformBridge.Dispatch.Basic
import PlatformBridge.Dispatch.Event

/-!
# Runs of a Dispatcher

A run takes the steps of a dispatcher in any order: calls and cancellations
come from outside, a task goes on when whatever it waits for is there, and a
call ends when its turn comes, which may be long after it could have ended.
Events are raised in between, on a channel whose other end may go away. A run
keeps what happened, the latest first, so that statements about a call can
refer to the past.

Each action is one step of the dispatcher between two points where another
thread may come in. The end of a call is an action of its own for this reason:
the task may have ended, and yet a cancellation may come before the call is
concluded. Which of several possible steps is taken next is left open, and the
runs are all that can come of it.

An action that is impossible in a run, such as to go on with a task that has
ended, is no step. `after` leaves such actions out, so that it gives a run for
every list, and examples are written as lists of actions.

## Main definitions

* `Run`, `Happening`, `MadeCall`: How far a run has come, and what happened in
  it.
* `Action`, `Dispatcher.act`: One step.
* `Dispatcher.Reaches`, `Dispatcher.after`: The runs of a dispatcher, and the
  run of some steps.
* `Dispatcher.alarm`: A small dispatcher.

## Theorems

* `Dispatcher.reaches_after`: A list of actions gives a run.
-/

namespace PlatformBridge

/-- A call that was made, with what it gave at once, and the key of its task if it started one. -/
structure MadeCall where
  call : Call
  sink : Sink
  outcome : Outcome
  key : Option Nat

/-- What happened in one step of a run. -/
inductive Happening where
  /-- A call was made. -/
  | called (made : MadeCall)
  /-- A number was canceled, and a call was signaled or not. -/
  | canceled (id : CorrelationId) (signaled : Bool)
  /-- A task went on. -/
  | resumed (key : Nat)
  /-- A call ended that had a task. -/
  | concluded (key : Nat) (ticket : Ticket)
  /-- An event was raised, and sent or not. -/
  | raised (id : MemberId) (payload : Option Json) (sent : Bool)
  /-- The other end of the channel went away. -/
  | closed

/-- What a step of a run is asked to do. -/
inductive Action where
  | call (hasRunner : Bool) (sink : Sink) (call : Call)
  | cancel (id : CorrelationId)
  | resume (key : Nat)
  | conclude (w : Dispatcher.Conclusion) (key : Nat)
  | raise (id : MemberId) (payload : Option Json)
  | close

/-- How far a run has come, and what happened in it, the latest first. -/
structure Run where
  state : Dispatcher.State
  channel : Channel
  history : List Happening

/-- A run in which nothing has happened. -/
def Run.start : Run := ⟨.initial, .new, []⟩

namespace Dispatcher

variable (d : Dispatcher)

/-- A call as it is made in a state. -/
def made (hasRunner : Bool) (sink : Sink) (call : Call) (s : State) : MadeCall :=
  let after := d.call hasRunner sink call s
  ⟨call, sink, after.2, if s.nextKey < after.1.nextKey then some s.nextKey else none⟩

/-- One step of a run, if it can be taken. -/
def act (r : Run) : Action → Option Run
  | .call hasRunner sink call =>
    some ⟨(d.call hasRunner sink call r.state).1, r.channel,
      .called (d.made hasRunner sink call r.state) :: r.history⟩
  | .cancel id =>
    some ⟨(r.state.cancel id).1, r.channel, .canceled id (r.state.cancel id).2 :: r.history⟩
  | .resume key =>
    (r.state.resume key).map fun state => ⟨state, r.channel, .resumed key :: r.history⟩
  | .conclude w key => do
    let p ← r.state.pending.find? fun p => p.key = key
    let state ← d.conclude w key r.state
    some ⟨state, r.channel, .concluded key p.ticket :: r.history⟩
  | .raise id payload =>
    match d.contract.raise id payload r.channel with
    | .ok channel => some ⟨r.state, channel, .raised id payload true :: r.history⟩
    | .error _ => some ⟨r.state, r.channel, .raised id payload false :: r.history⟩
  | .close => some ⟨r.state, r.channel.close, .closed :: r.history⟩

/-- The runs of a dispatcher. -/
inductive Reaches : Run → Prop where
  | start : Reaches .start
  | act (x : Action) (r r' : Run) (h : Reaches r) (hact : d.act r x = some r') : Reaches r'

/-- The run that takes the steps of a list one after the other, but for those that cannot be
    taken. -/
def after (xs : List Action) : Run := xs.foldl (fun r x => (d.act r x).getD r) .start

/-- What some actions lead to is a run, whether or not all of them are steps. -/
theorem reaches_after (xs : List Action) : d.Reaches (d.after xs) := by
  suffices h : ∀ r, d.Reaches r → d.Reaches (xs.foldl (fun r x => (d.act r x).getD r) r) from
    h .start .start
  induction xs with
  | nil => exact fun r h => h
  | cons x rest ih =>
      intro r h
      refine ih _ ?_
      dsimp only
      cases hact : d.act r x with
      | none => exact h
      | some r' => exact .act x r r' h hact

/-- A service whose one operation gives back a number after a while, while the other, which should
    not answer, panics; and an event that tells a number. -/
def alarmContract : Contract :=
  ⟨"Acme", [⟨"Acme.Alarm",
    [⟨"Wait", "Acme.Alarm.Wait", [⟨"seconds", .primitive .i32, .value⟩],
        .async (some (.primitive .i32)), false, "Wait(System.Int32)", "Wait(System.Int32)"⟩,
      ⟨"Stop", "Acme.Alarm.Stop", [], .fireAndForget, false, "Stop()", "Stop()"⟩],
    [⟨"Rang", "Acme.Alarm.Rang", some (.primitive .i32)⟩], .ofList []⟩], []⟩

/-- A dispatcher for it. -/
def alarm : Dispatcher :=
  ⟨alarmContract,
    ⟨[("Acme.Alarm.Stop", .of (.sync fun _ _ => .panic none)),
      ("Acme.Alarm.Wait", .of (.async fun _ arguments =>
        .value (.waiting "time" (.ended (.value (.ok (arguments.headD .null)))))))]⟩, true⟩

end Dispatcher

end PlatformBridge
