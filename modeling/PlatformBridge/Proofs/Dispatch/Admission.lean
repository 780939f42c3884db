import PlatformBridge.Dispatch.Basic
import PlatformBridge.Dispatch.Event
import PlatformBridge.Proofs.Results

/-!
# What May Cross

What a contract allows in each direction: arguments for native code, values in
replies, payloads of events. These are statements about the contract alone. A
call reaches native code only after it was admitted, so an admission is where
the arguments of a call are known to be allowed, and where the operation is
found that all later replies to the call are compared with.

A reply of a failure is allowed for every operation that replies; a reply with
a value has to carry what the operation declares. `Allows` says both, and
`Closes` says it of the outcome of a call that is over at once, where there may
also be no reply at all.

What a call asks for may be unknown to the contract. Such a call is told so, and
its reply cannot be compared with an operation that there is not. `Allows` is
stated for the operations that the contract finds under the name, so that it
covers these replies too.

The ticket of a call repeats what the call is known by and says whether it
replies. It is made once, when the call is admitted, and is all that the end of
a call has of its beginning. So the lemmas about replies are about tickets
first, and about calls by `of_admission_eq_ok`.

## Main definitions

* `Contract.Takes`: Arguments that an operation takes.
* `Contract.Fits`: A value for a declared type, null where none is declared.
* `Contract.Allows`, `Contract.Closes`: A reply that a call may get, an outcome
  it may end with.
* `Contract.Declares`: The notice of an event, with a payload as it is
  declared.

## Theorems

* `Contract.acceptArguments_eq_ok_iff`, `Contract.fits_of_acceptResult`: What
  passes a check fits.
* `Contract.notice_eq_ok_iff`, `Contract.raise_eq_ok_iff`: A notice is made,
  and an event goes out, only as the contract declares it.
* `Ticket.reply?_eq_some_iff`, `Ticket.reply?_finish`: The replies of a ticket.
* `Dispatcher.of_admission_eq_ok`: What is known about a call that is admitted.
* `Dispatcher.allows_of_reply?`: The replies of an admitted call are allowed,
  if their values fit.
* `Dispatcher.closes_of_finish`, `Dispatcher.closes_of_admission_eq_error`: How
  a call may end at once, whether it is admitted or not.
-/

namespace PlatformBridge

/-- The reply in an outcome, if there is one. -/
def Outcome.reply? : Outcome → Option Reply
  | completed reply => some reply
  | noReply => none
  | deferred => none

namespace Contract

variable (c : Contract)

/-- The arguments are as many as the parameters, and each is of the type of its parameter. -/
structure Takes (o : Operation) (arguments : List Json) : Prop where
  length : arguments.length = o.parameters.length
  types : ∀ e ∈ o.parameters.zip arguments, c.check e.2 e.1.type = .ok ()

/-- A value is of a declared type, or null if none is declared. -/
def Fits (expected : Option BridgeType) (value : Json) : Prop :=
  match expected with
  | none => value = .null
  | some type => c.check value type = .ok ()

/-- A reply goes with a call: it repeats what the call is known by, the operation of the call does
    reply if the contract knows it, and a value in it is what that operation declares. -/
structure Allows (call : Call) (reply : Reply) : Prop where
  operation : reply.operation = call.operation
  correlation : reply.correlation = call.correlation
  replies : ∀ service o, c.operation? call.operation = some (service, o) →
    o.returns ≠ .fireAndForget
  value : ∀ v, reply.payload = .ok v →
    ∃ service o, c.operation? call.operation = some (service, o) ∧ c.Fits o.returns.value? v

/-- An outcome that a call ends with: nothing is to come, and the reply in it, if any, is allowed.
    -/
structure Closes (call : Call) (outcome : Outcome) : Prop where
  ends : outcome ≠ .deferred
  allows : ∀ reply, outcome.reply? = some reply → c.Allows call reply

/-- A notice is that of an event of the contract, and has a payload exactly if the event declares
    one, of the type that it declares. -/
def Declares (n : Notice) : Prop :=
  ∃ event, c.event? n.event = some event ∧ n.payload.isSome = event.payload.isSome
    ∧ ∀ value type, n.payload = some value → event.payload = some type →
      c.check value type = .ok ()

/-- Arguments are checked one by one, each against the type of its parameter. -/
theorem checkTypes_eq_ok_iff (parameters : List Parameter) : ∀ arguments,
    c.checkTypes parameters arguments = .ok ()
      ↔ ∀ e ∈ parameters.zip arguments, c.check e.2 e.1.type = .ok () := by
  induction parameters with
  | nil =>
      intro arguments
      simp only [checkTypes, List.zip_nil_left, List.not_mem_nil, false_implies, implies_true]
  | cons p rest ih =>
      intro arguments
      cases arguments with
      | nil => simp only [checkTypes, List.zip_nil_right, List.not_mem_nil, false_implies,
          implies_true]
      | cons v values =>
          rw [checkTypes, List.zip_cons_cons, List.forall_mem_cons, ← ih values]
          cases c.check v p.type with
          | ok u => simp only [true_and]
          | error e => simp only [reduceCtorEq, false_and]

/-- Arguments are accepted if the operation takes them. -/
theorem acceptArguments_eq_ok_iff (o : Operation) (arguments : List Json) :
    c.acceptArguments o arguments = .ok () ↔ c.Takes o arguments := by
  unfold acceptArguments
  by_cases hlength : arguments.length = o.parameters.length
  · rw [if_pos hlength, checkTypes_eq_ok_iff]
    exact ⟨fun htypes => ⟨hlength, htypes⟩, fun htakes => htakes.types⟩
  · rw [if_neg hlength]
    constructor
    · intro h
      cases h
    · exact fun htakes => absurd htakes.length hlength

/-- The value of an answer that passes the check fits. -/
theorem fits_of_acceptResult (expected : Option BridgeType) (answer : Answer) (v : Json)
    (h : answer.bind (c.acceptResult expected) = .ok v) : c.Fits expected v := by
  rcases Results.bind_eq_ok.mp h with ⟨value, _, haccept⟩
  unfold acceptResult at haccept
  unfold Fits
  cases expected with
  | none =>
      cases haccept
      rfl
  | some type =>
      simp only at haccept ⊢
      split at haccept
      · rename_i hcheck
        cases haccept
        exact hcheck
      · cases haccept

/-- A payload is there if one is declared, and is of the declared type. -/
theorem checkPayload_eq_ok_iff (event : Event) (payload : Option Json) :
    c.checkPayload event payload = .ok ()
      ↔ payload.isSome = event.payload.isSome
        ∧ ∀ value type, payload = some value → event.payload = some type →
          c.check value type = .ok () := by
  cases payload with
  | none =>
      cases hdeclared : event.payload with
      | none => simp [checkPayload, hdeclared]
      | some type => simp [checkPayload, hdeclared]
  | some value =>
      cases hdeclared : event.payload with
      | none => simp [checkPayload, hdeclared]
      | some type =>
          simp only [checkPayload, hdeclared, Results.mapError_eq_ok, Option.isSome_some,
            Option.some.injEq, true_and]
          constructor
          · rintro hcheck _ _ rfl rfl
            exact hcheck
          · exact fun h => h value type rfl rfl

/-- A notice is made only of what the contract declares, and as it was asked for. -/
theorem notice_eq_ok_iff (id : MemberId) (payload : Option Json) (n : Notice) :
    c.notice id payload = .ok n ↔ n = ⟨id, payload⟩ ∧ c.Declares ⟨id, payload⟩ := by
  unfold notice Declares
  cases c.event? id with
  | none => simp
  | some event =>
      simp only [Option.some.injEq, exists_eq_left', ← checkPayload_eq_ok_iff]
      cases c.checkPayload event payload with
      | ok u => simp [eq_comm]
      | error e => simp

/-- What is sent when an event is raised. -/
theorem raise_eq_ok_iff (id : MemberId) (payload : Option Json)
    (channel channel' : Channel) :
    c.raise id payload channel = .ok channel'
      ↔ c.Declares ⟨id, payload⟩ ∧ channel.isOpen = true
        ∧ channel'
          = { channel with messages := channel.messages ++ [.event ⟨id, payload⟩] } := by
  unfold raise
  simp only [Results.bind_eq_ok, notice_eq_ok_iff, Channel.send]
  constructor
  · rintro ⟨n, ⟨rfl, hdeclared⟩, hsend⟩
    split at hsend
    · rename_i hopen
      cases hsend
      exact ⟨hdeclared, hopen, rfl⟩
    · cases hsend
  · rintro ⟨hdeclared, hopen, rfl⟩
    exact ⟨⟨id, payload⟩, ⟨rfl, hdeclared⟩, if_pos hopen⟩

end Contract

namespace Ticket

-- A reply repeats the ticket, and there is none for a ticket without replies.
theorem reply?_eq_some_iff (t : Ticket) (answer : Answer) (reply : Reply) :
    t.reply? answer = some reply
      ↔ t.replies = true ∧ reply = ⟨t.operation, t.correlation, answer⟩ := by
  unfold reply?
  cases t.replies with
  | true => simp [eq_comm]
  | false => simp

theorem finish_ne_deferred (t : Ticket) (answer : Answer) : t.finish answer ≠ .deferred := by
  unfold finish
  cases t.reply? answer <;> simp

theorem reply?_finish (t : Ticket) (answer : Answer) :
    (t.finish answer).reply? = t.reply? answer := by
  unfold finish
  cases t.reply? answer <;> rfl

end Ticket

namespace Dispatcher

variable (d : Dispatcher)

/-- An operation is found for a call that is admitted, it takes the arguments, and the ticket says
    whether it replies. -/
theorem of_admission_eq_ok (call : Call) (a : Admission) (h : d.admission call = .ok a) :
    (∃ service, d.contract.operation? call.operation = some (service, a.operation))
      ∧ d.contract.Takes a.operation call.arguments
      ∧ a.ticket
        = ⟨call.operation, call.correlation, a.operation.returns ≠ .fireAndForget⟩ := by
  unfold admission at h
  split at h
  · cases h
  · rename_i service o hfound
    simp only at h
    split at h
    · cases h
    · split at h
      · cases h
      · rename_i u haccept
        cases h
        exact ⟨⟨service, hfound⟩, (d.contract.acceptArguments_eq_ok_iff o _).mp haccept, rfl⟩

-- The replies of a ticket that was made out for a call and its operation.
theorem allows_of_ticket (call : Call) (service : Service) (o : Operation)
    (hfound : d.contract.operation? call.operation = some (service, o)) (answer : Answer)
    (hvalue : ∀ v, answer = .ok v → d.contract.Fits o.returns.value? v) (reply : Reply)
    (h : (Ticket.mk call.operation call.correlation
      (decide (o.returns ≠ .fireAndForget))).reply? answer = some reply) :
    d.contract.Allows call reply := by
  rcases (Ticket.reply?_eq_some_iff _ answer reply).mp h with ⟨hreplies, rfl⟩
  refine ⟨rfl, rfl, fun service' o' hfound' => ?_, fun v hv => ⟨service, o, hfound, hvalue v hv⟩⟩
  rw [hfound] at hfound'
  cases hfound'
  exact of_decide_eq_true hreplies

/-- A reply to a call that was admitted is allowed, if its value fits. -/
theorem allows_of_reply? (call : Call) (a : Admission) (ha : d.admission call = .ok a)
    (answer : Answer) (hvalue : ∀ v, answer = .ok v → d.contract.Fits a.operation.returns.value? v)
    (reply : Reply) (h : a.ticket.reply? answer = some reply) : d.contract.Allows call reply := by
  rcases d.of_admission_eq_ok call a ha with ⟨⟨service, hfound⟩, _, hticket⟩
  rw [hticket] at h
  exact d.allows_of_ticket call service a.operation hfound answer hvalue reply h

/-- A call that was admitted may end at once with an answer whose value fits. -/
theorem closes_of_finish (call : Call) (a : Admission) (ha : d.admission call = .ok a)
    (answer : Answer)
    (hvalue : ∀ v, answer = .ok v → d.contract.Fits a.operation.returns.value? v) :
    d.contract.Closes call (a.ticket.finish answer) := by
  refine ⟨Ticket.finish_ne_deferred _ _, fun reply hreply => ?_⟩
  rw [Ticket.reply?_finish] at hreply
  exact d.allows_of_reply? call a ha answer hvalue reply hreply

-- Every value of a failure fits, since it has none.
theorem closes_of_finish_error (call : Call) (a : Admission) (ha : d.admission call = .ok a)
    (failure : Failure) : d.contract.Closes call (a.ticket.finish (.error failure)) := by
  refine d.closes_of_finish call a ha (.error failure) fun v hv => ?_
  cases hv

/-- A call that is not admitted ends at once, and its reply is allowed. -/
theorem closes_of_admission_eq_error (call : Call) (outcome : Outcome)
    (h : d.admission call = .error outcome) : d.contract.Closes call outcome := by
  -- Failures of an operation that the contract knows go out by its ticket.
  have hfailed : ∀ service o, d.contract.operation? call.operation = some (service, o) →
      ∀ (failure : Failure) (reply : Reply),
        ((Ticket.mk call.operation call.correlation
          (decide (o.returns ≠ .fireAndForget))).finish (.error failure)).reply? = some reply →
        d.contract.Allows call reply := by
    intro service o hfound failure reply hreply
    rw [Ticket.reply?_finish] at hreply
    have hvalue : ∀ v, (.error failure : Answer) = .ok v → d.contract.Fits o.returns.value? v := by
      intro v hv
      cases hv
    exact d.allows_of_ticket call service o hfound (.error failure) hvalue reply hreply
  unfold admission at h
  split at h
  · rename_i hunknown
    cases h
    refine ⟨nofun, fun reply hreply => ?_⟩
    cases hreply
    refine ⟨rfl, rfl, fun service o hfound => ?_, fun v hv => ?_⟩
    · rw [hunknown] at hfound
      cases hfound
    · cases hv
  · rename_i service o hfound
    simp only at h
    split at h
    · cases h
      exact ⟨Ticket.finish_ne_deferred _ _, hfailed service o hfound _⟩
    · split at h
      · cases h
        exact ⟨Ticket.finish_ne_deferred _ _, hfailed service o hfound _⟩
      · cases h

end Dispatcher

end PlatformBridge
