import PlatformBridge.Proofs.Dispatch.Calls

/-!
# Nothing Crosses Unchecked

Native code may do what it likes, answer whatever it likes, and be bound in
either form to any operation. Still, in every run, what reaches it and what
leaves it is what the contract declares. Each way across has its own check, and
what the checks have let through so far is what a run has kept.

There are four ways across. Arguments go in when a call runs native code. A
value comes out in a reply at once, or in one that is handed over later, and
these two are checked in different places of the program. Payloads go out with
events, which native code raises whenever it wants to. For arguments and events
the promise is an invariant that each step keeps. For replies it is read off
the course of the call that they belong to, since the operation to compare with
is that of the call.

Nothing is assumed of native code here. It is a parameter of the dispatcher, and
no hypothesis is about it.

## Main definitions

* `Contract.Bears`: A reply whose value, if it has one, is what its operation
  declares.
* `Dispatcher.SendsDeclared`: Only declared events were sent.
* `Dispatcher.Guards`: What is promised of a run.

## Theorems

* `Dispatcher.takes_of_reaches`: Native code is run on arguments that its
  operation takes.
* `Dispatcher.bears_of_called`, `Dispatcher.bears_of_sent`: Values in replies
  are as declared.
* `Dispatcher.sendsDeclared_of_step`, `Dispatcher.sendsDeclared_of_reaches`: So
  are the events that are sent.
* `Dispatcher.act_raise_of_not_declares`: Other events change nothing.
* `Dispatcher.guards_of_reaches`: The promise is kept in every run.
-/

namespace PlatformBridge

namespace Contract

/-- A value in a reply is what the operation of the reply declares, and null if it declares none. -/
def Bears (c : Contract) (reply : Reply) : Prop :=
  ∀ v, reply.payload = .ok v →
    ∃ service o, c.operation? reply.operation = some (service, o) ∧ c.Fits o.returns.value? v

theorem Allows.bears {c : Contract} {call : Call} {reply : Reply} (h : c.Allows call reply) :
    c.Bears reply := by
  intro v hv
  rw [h.operation]
  exact h.value v hv

end Contract

namespace Dispatcher

variable (d : Dispatcher)

/-- What crosses in a run, in either direction, is what the contract declares. -/
structure Guards (r : Run) : Prop where
  arguments : ∀ id arguments, .invoked id arguments ∈ r.state.uses →
    ∃ service o, d.contract.operation? id = some (service, o) ∧ d.contract.Takes o arguments
  outcomes : ∀ m, .called m ∈ r.history → ∀ reply, m.outcome = .completed reply →
    d.contract.Bears reply
  deliveries : ∀ e ∈ r.state.outbox, d.contract.Bears e.reply
  sent : ∀ id payload, .raised id payload true ∈ r.history → d.contract.Declares ⟨id, payload⟩
  messages : ∀ message ∈ r.channel.messages,
    ∃ id payload, message = .event ⟨id, payload⟩ ∧ .raised id payload true ∈ r.history
  refused : ∀ id payload, ¬ d.contract.Declares ⟨id, payload⟩ →
    d.act r (.raise id payload)
      = some ⟨r.state, r.channel, .raised id payload false :: r.history⟩

/-- Native code is run only on arguments that its operation takes. -/
theorem takes_of_reaches (r : Run) (h : d.Reaches r) (id : MemberId) (arguments : List Json)
    (huse : .invoked id arguments ∈ r.state.uses) :
    ∃ service o, d.contract.operation? id = some (service, o) ∧ d.contract.Takes o arguments := by
  -- A call adds a use only where it was admitted.
  have hcall : ∀ (m : MadeCall) (s s' : State), d.UsesOnly m.call s s' →
      .invoked id arguments ∈ s'.uses → .invoked id arguments ∈ s.uses
        ∨ ∃ service o, d.contract.operation? id = some (service, o)
          ∧ d.contract.Takes o arguments := by
    intro m s s' huses hmem
    refine (huses id arguments hmem).imp_right ?_
    rintro ⟨rfl, rfl, a, ha⟩
    rcases d.of_admission_eq_ok m.call a ha with ⟨⟨service, hfound⟩, htakes, _⟩
    exact ⟨service, a.operation, hfound, htakes⟩
  refine Reaches.induct d (P := fun r => .invoked id arguments ∈ r.state.uses → _) ?_ ?_ r h huse
  · intro huse
    cases huse
  · intro r r' _ hstep ih huse
    cases hstep with
    | ended m s' hended => exact (hcall m _ s' hended.uses huse).elim ih fun h => h
    | started m a task s' hstarted => exact (hcall m _ s' hstarted.uses huse).elim ih fun h => h
    -- No other step runs native code.
    | _ => exact ih huse

/-- A reply at once bears what its operation declares. -/
theorem bears_of_called (r : Run) (h : d.Reaches r) (m : MadeCall) (hm : .called m ∈ r.history)
    (reply : Reply) (hreply : m.outcome = .completed reply) : d.contract.Bears reply := by
  cases hkey : m.key with
  | none =>
      refine ((d.closes_of_reaches r h m hm hkey).allows reply ?_).bears
      rw [hreply]
      rfl
  | some key =>
      rcases d.follows_of_reaches r h m hm key hkey with ⟨a, hfollows⟩
      have hnone := hfollows.reply?_eq_none
      rw [hreply] at hnone
      cases hnone

/-- A reply that was handed over bears what its operation declares. -/
theorem bears_of_sent (r : Run) (h : d.Reaches r) (e : Delivery) (he : e ∈ r.state.outbox) :
    d.contract.Bears e.reply := by
  -- It was handed over for a call, and that call is settled.
  rcases (d.isTraced_of_reaches r h).sent e he with ⟨m, hm, hkey⟩
  rcases d.follows_of_reaches r h m hm e.key hkey with ⟨a, hfollows⟩
  have hdelivery : e ∈ r.state.deliveries e.key := List.mem_filter.mpr ⟨he, decide_eq_true rfl⟩
  rcases hfollows.course with hwaits | hsettles
  · rw [hwaits.silent] at hdelivery
    cases hdelivery
  · rcases hsettles.replied with ⟨answer, hvalue, hdeliveries⟩
    rw [hdeliveries] at hdelivery
    rcases List.mem_map.mp hdelivery with ⟨reply, hreply, heq⟩
    rw [← heq]
    exact (d.allows_of_reply? m.call a hfollows.admitted answer hvalue reply
      (Option.mem_toList.mp hreply)).bears

/-- Only declared events were sent, and nothing else is on the channel. -/
def SendsDeclared (r : Run) : Prop :=
  (∀ id payload, .raised id payload true ∈ r.history → d.contract.Declares ⟨id, payload⟩)
    ∧ ∀ message ∈ r.channel.messages,
      ∃ id payload, message = .event ⟨id, payload⟩ ∧ .raised id payload true ∈ r.history

/-- A step sends what is declared, or nothing: only a raised event adds to what is sent. -/
theorem sendsDeclared_of_step (r r' : Run) (hstep : d.Step r r') (h : d.SendsDeclared r) :
    d.SendsDeclared r' := by
  rcases h with ⟨hdeclared, hmessages⟩
  cases hstep with
  | raised id payload hnew hopen =>
      constructor
      · intro id' payload' hmem
        rcases List.mem_cons.mp hmem with heq | hmem
        · cases heq
          exact hnew
        · exact hdeclared id' payload' hmem
      · intro message hmessage
        rcases List.mem_append.mp hmessage with hmessage | hmessage
        · rcases hmessages message hmessage with ⟨id', payload', heq, hmem⟩
          exact ⟨id', payload', heq, List.mem_cons_of_mem _ hmem⟩
        · exact ⟨id, payload, List.mem_singleton.mp hmessage, List.mem_cons_self⟩
  | closed =>
      refine ⟨fun id payload hmem => hdeclared id payload (by simpa using hmem), ?_⟩
      intro message hmessage
      cases hmessage
  -- No other step sends anything.
  | _ =>
      refine ⟨fun id payload hmem => hdeclared id payload (by simpa using hmem), ?_⟩
      intro message hmessage
      rcases hmessages message hmessage with ⟨id, payload, heq, hmem⟩
      exact ⟨id, payload, heq, List.mem_cons_of_mem _ hmem⟩

/-- Only declared events were sent, and nothing else is on the channel. -/
theorem sendsDeclared_of_reaches (r : Run) (h : d.Reaches r) : d.SendsDeclared r := by
  refine Reaches.induct d ⟨?_, ?_⟩ (fun r r' _ hstep ih => d.sendsDeclared_of_step r r' hstep ih)
    r h
  · intro id payload hmem
    cases hmem
  · intro message hmessage
    cases hmessage

-- An event that is not declared is not sent.
theorem act_raise_of_not_declares (r : Run) (id : MemberId) (payload : Option Json)
    (h : ¬ d.contract.Declares ⟨id, payload⟩) :
    d.act r (.raise id payload)
      = some ⟨r.state, r.channel, .raised id payload false :: r.history⟩ := by
  cases hraise : d.contract.raise id payload r.channel with
  | ok channel =>
      exact absurd ((d.contract.raise_eq_ok_iff id payload r.channel channel).mp hraise).1 h
  | error e => simp only [act, hraise]

/-- In every run, native code is run on arguments that its operation takes, values in replies are as
    declared, only declared events are sent, and the attempt to send another changes nothing. -/
theorem guards_of_reaches (r : Run) (h : d.Reaches r) : d.Guards r where
  arguments := d.takes_of_reaches r h
  outcomes := d.bears_of_called r h
  deliveries := d.bears_of_sent r h
  sent := (d.sendsDeclared_of_reaches r h).1
  messages := (d.sendsDeclared_of_reaches r h).2
  refused := d.act_raise_of_not_declares r

/-- A run in which everything crosses, and an event is raised once with a payload that it does not
    declare. -/
def crossingRun : Run :=
  alarm.after [.call true .caller ⟨"Acme.Alarm.Wait", [.ofNat 5], some 7⟩, .resume 0,
    .conclude .answered 0, .call true .channel ⟨"Acme.Alarm.Wait", [.null], none⟩,
    .raise "Acme.Alarm.Rang" (some (.ofNat 5)), .raise "Acme.Alarm.Rang" none]

/-- Arguments, a value and a payload have crossed in this run, and the payload that was not declared
    has not. -/
theorem guards_of_crossingRun :
    alarm.Reaches crossingRun
      ∧ crossingRun.state.uses
        = [.built "Acme.Alarm.Wait" true, .invoked "Acme.Alarm.Wait" [.ofNat 5]]
      ∧ crossingRun.state.outbox
        = [⟨0, .caller, ⟨"Acme.Alarm.Wait", some 7, .ok (.ofNat 5)⟩⟩]
      ∧ crossingRun.channel.messages = [.event ⟨"Acme.Alarm.Rang", some (.ofNat 5)⟩]
      ∧ alarm.Guards crossingRun := by
  have h : alarm.Reaches crossingRun := alarm.reaches_after _
  exact ⟨h, rfl, rfl, rfl, alarm.guards_of_reaches crossingRun h⟩

end Dispatcher

end PlatformBridge
