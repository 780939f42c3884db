import PlatformBridge.Proofs.Dispatch.Admission
import PlatformBridge.Proofs.Dispatch.Run

/-!
# What a Step May Do

All that later proofs use of a step is in `Dispatcher.Step`. A call is the step
with many ways to go: it ends at once and leaves the waiting calls alone, or it
begins to wait. A cancellation finds its number or does not. A task that goes
on puts its call behind the others, and a call that is concluded leaves with
what is handed over for it.

`Step` is a relation with one rule for each of these, and with what is known in
each case as premises. Every invariant of runs is proved by its rules, and by
`Reaches.induct`, and none of them opens the functions of the dispatcher. If one
of these functions changes, it is the lemma about it here that has to be proved
again.

Two calls that differ in how their code was got go the same way, which is what
`SameCalls` is for: it forgets native code, and leaves all that a step does to
calls. The register is looked at once more, in `withoutNumber_register`. A call
registers its number before its code is run, and takes it back if the code
panics; the number was free before, so this leaves no trace.

## Main definitions

* `Pending.signal`: A waiting call after a signal.
* `Dispatcher.State.SameCalls`: States that differ in native code only.
* `Dispatcher.State.add`, `.signal`, `.requeue`, `.settle`: States after a
  step.
* `Dispatcher.UsesOnly`: What native code a call may have run.
* `Dispatcher.Ended`, `Dispatcher.Started`, `Dispatcher.Goes`: The two ways a
  call may go.
* `Dispatcher.Step`: What a step may do.

## Theorems

* `Dispatcher.State.withoutNumber_register`: A number taken back at once leaves
  no trace.
* `Dispatcher.State.sameCalls_code`: Getting a code is nothing to the calls.
* `Dispatcher.State.cancel_cases`, `Dispatcher.State.resume_eq_some`,
  `Dispatcher.conclude_eq_some_iff`: The steps one by one.
* `Dispatcher.goes_of_failure`, `Dispatcher.goes_spawn`,
  `Dispatcher.goes_call`: The ways of a call.
* `Dispatcher.step_of_act_eq_some`: A step of a run does nothing else.
* `Dispatcher.Reaches.induct`: What all steps keep holds in all runs.
-/

namespace PlatformBridge

namespace Pending

/-- A waiting call after a signal to a key. -/
def signal (key : Nat) (p : Pending) : Pending :=
  if p.key = key then { p with isSignaled := true } else p

@[simp] theorem key_signal (key : Nat) (p : Pending) : (p.signal key).key = p.key := by
  unfold signal
  split <;> rfl

-- Other calls are not touched.
theorem signal_of_ne (key : Nat) (p : Pending) (h : p.key ≠ key) : p.signal key = p := if_neg h

-- What is not signaled afterwards was not meant.
theorem ne_of_isSignaled_signal_eq_false (key : Nat) (p : Pending)
    (h : (p.signal key).isSignaled = false) : p.key ≠ key := by
  intro hkey
  rw [signal, if_pos hkey] at h
  cases h

end Pending

namespace Dispatcher

namespace State

/-- The calls that wait are the same in two states, and so is what was handed over. -/
structure SameCalls (s s' : State) : Prop where
  running : s'.running = s.running
  pending : s'.pending = s.pending
  nextKey : s'.nextKey = s.nextKey
  outbox : s'.outbox = s.outbox

/-- The state in which one more call waits. -/
def add (s : State) (p : Pending) : State :=
  { s with
    running := s.running ++ p.ticket.correlation.toList.map fun id => (id, p.key)
    pending := s.pending ++ [p]
    nextKey := s.nextKey + 1 }

/-- The state after a signal to a key, by a number that is free again. -/
def signal (s : State) (id : CorrelationId) (key : Nat) : State :=
  { s with
    running := s.withoutNumber (some id)
    pending := s.pending.map (·.signal key) }

/-- The state in which a call waits behind all others, with what is left of its task. -/
def requeue (s : State) (p : Pending) (next : Task) : State :=
  { s with pending := (s.pending.filter fun q => q.key ≠ p.key) ++ [{ p with task := next }] }

/-- The state after the end of a call that waited, with its reply handed over. -/
def settle (s : State) (p : Pending) (reply : Option Reply) : State :=
  { s with
    running := s.withoutNumber p.ticket.correlation
    pending := s.pending.filter fun q => q.key ≠ p.key
    outbox := s.outbox ++ reply.toList.map fun r => ⟨p.key, p.sink, r⟩ }

theorem sameCalls_refl (s : State) : s.SameCalls s := ⟨rfl, rfl, rfl, rfl⟩

theorem SameCalls.trans {s s' s'' : State} (h : s.SameCalls s') (h' : s'.SameCalls s'') :
    s.SameCalls s'' :=
  ⟨h'.running.trans h.running, h'.pending.trans h.pending, h'.nextKey.trans h.nextKey,
    h'.outbox.trans h.outbox⟩

theorem SameCalls.add {s s' : State} (h : s.SameCalls s') (p : Pending) :
    (s.add p).SameCalls (s'.add p) := by
  constructor
  · simp only [State.add, h.running]
  · simp only [State.add, h.pending]
  · simp only [State.add, h.nextKey]
  · simp only [State.add, h.outbox]

/-- Whether a number is free does not depend on native code. -/
theorem SameCalls.refusal? {s s' : State} (h : s.SameCalls s') (number : Option CorrelationId) :
    s.refusal? number = s'.refusal? number := by
  cases number with
  | none => rfl
  | some id =>
      unfold State.refusal? isTaken
      rw [h.running]

theorem sameCalls_use (s : State) (u : NativeUse) : s.SameCalls (s.use u) := ⟨rfl, rfl, rfl, rfl⟩

/-- A number that was free before it was registered is taken back without a trace. -/
theorem withoutNumber_register (s : State) (number : Option CorrelationId)
    (hfree : s.refusal? number = none) : (s.register number).withoutNumber number = s.running := by
  cases number with
  | none => exact List.append_nil _
  | some id =>
      have huntaken : s.isTaken id = false := by
        rw [State.refusal?] at hfree
        split at hfree
        · cases hfree
        · rename_i huntaken
          exact Bool.eq_false_iff.mpr huntaken
      have hothers : s.running.filter (fun e => e.1 ≠ id) = s.running :=
        List.filter_eq_self.mpr fun e he => decide_eq_true fun heq =>
          Bool.false_ne_true
            (huntaken.symm.trans (List.any_eq_true.mpr ⟨e, he, decide_eq_true heq⟩))
      rw [withoutNumber, register, List.filter_append, hothers]
      simp

/-- Getting the code of an operation is nothing to the calls that wait, and runs nothing. -/
theorem sameCalls_code (s : State) (id : MemberId) (binding : Binding) :
    s.SameCalls (s.code id binding).1
      ∧ ∀ other arguments, .invoked other arguments ∈ (s.code id binding).1.uses →
        .invoked other arguments ∈ s.uses := by
  unfold code
  cases s.codes.find? fun t => t.1 = id with
  | some found => exact ⟨s.sameCalls_refl, fun _ _ hmem => hmem⟩
  | none =>
      cases binding.build (s.buildCount id) with
      | value code =>
          refine ⟨⟨rfl, rfl, rfl, rfl⟩, fun other arguments hmem => ?_⟩
          simpa [use] using hmem
      | panic text =>
          refine ⟨s.sameCalls_use _, fun other arguments hmem => ?_⟩
          simpa [use] using hmem

/-- A cancellation signals the call that a number stands for, if the number is taken. -/
theorem cancel_cases (s : State) (id : CorrelationId) :
    (s.cancel id = (s, false) ∧ ∀ key, (id, key) ∉ s.running)
      ∨ ∃ key, (id, key) ∈ s.running
        ∧ s.cancel id = (s.signal id key, s.pending.any fun p => p.key = key) := by
  unfold cancel
  cases hfind : s.running.find? fun e => e.1 = id with
  | none =>
      refine Or.inl ⟨rfl, fun key hmem => ?_⟩
      have hne := List.find?_eq_none.mp hfind (id, key) hmem
      simp at hne
  | some found =>
      rcases found with ⟨id', key⟩
      have hid : id' = id := by simpa using List.find?_some hfind
      subst hid
      exact Or.inr ⟨key, List.mem_of_find?_eq_some hfind, rfl⟩

/-- The call that is found under a key waits, and has this key. -/
theorem find?_key_eq_some (s : State) (key : Nat) (p : Pending)
    (h : s.pending.find? (fun q => q.key = key) = some p) : p ∈ s.pending ∧ p.key = key :=
  ⟨List.mem_of_find?_eq_some h, by simpa using List.find?_some h⟩

/-- A task goes on where it waits at a gate. -/
theorem resume_eq_some (s s' : State) (key : Nat) (h : s.resume key = some s') :
    ∃ p gate next, p ∈ s.pending ∧ p.key = key ∧ p.task = .waiting gate next
      ∧ s' = s.requeue p next := by
  unfold resume at h
  split at h
  · rename_i p hfind
    split at h
    · rename_i gate next htask
      rcases s.find?_key_eq_some key p hfind with ⟨hmem, rfl⟩
      cases h
      exact ⟨p, gate, next, hmem, rfl, htask, rfl⟩
    · cases h
  · cases h

end State

variable (d : Dispatcher)

/-- A call that waits is concluded with an answer that is there for the way it ends. -/
theorem conclude_eq_some_iff (w : Conclusion) (key : Nat) (s s' : State) :
    d.conclude w key s = some s'
      ↔ ∃ p answer, s.pending.find? (fun q => q.key = key) = some p ∧ w.answer? p = some answer
        ∧ s' = s.settle p
          (p.ticket.reply? (answer.bind (d.contract.acceptResult p.expected))) := by
  unfold conclude
  cases hfind : s.pending.find? fun q => q.key = key with
  | none => simp only [reduceCtorEq, false_and, exists_false]
  | some p =>
      rcases s.find?_key_eq_some key p hfind with ⟨_, rfl⟩
      simp only [Option.map_eq_some_iff]
      constructor
      · rintro ⟨answer, hanswer, rfl⟩
        exact ⟨p, answer, rfl, hanswer, rfl⟩
      · rintro ⟨q, answer, hq, hanswer, rfl⟩
        cases hq
        exact ⟨answer, hanswer, rfl⟩

/-- A call ran native code only on the arguments of a call that was admitted. -/
def UsesOnly (call : Call) (s s' : State) : Prop :=
  ∀ id arguments, .invoked id arguments ∈ s'.uses → .invoked id arguments ∈ s.uses
    ∨ id = call.operation ∧ arguments = call.arguments ∧ ∃ a, d.admission call = .ok a

/-- A call has ended at once. -/
structure Ended (m : MadeCall) (s s' : State) : Prop where
  same : s.SameCalls s'
  closes : d.contract.Closes m.call m.outcome
  key : m.key = none
  uses : d.UsesOnly m.call s s'

/-- A call has begun to wait for its task. -/
structure Started (m : MadeCall) (a : Admission) (task : Task) (s s' : State) : Prop where
  admitted : d.admission m.call = .ok a
  free : s.refusal? a.ticket.correlation = none
  same : (s.add ⟨s.nextKey, a.ticket, a.operation.returns.value?, m.sink, task, false⟩).SameCalls s'
  outcome : m.outcome = if a.ticket.replies then .deferred else .noReply
  key : m.key = some s.nextKey
  uses : d.UsesOnly m.call s s'

/-- What a step of a run may do. -/
inductive Step : Run → Run → Prop where
  | ended (r : Run) (m : MadeCall) (s' : State) (h : d.Ended m r.state s') :
    Step r ⟨s', r.channel, .called m :: r.history⟩
  | started (r : Run) (m : MadeCall) (a : Admission) (task : Task) (s' : State)
      (h : d.Started m a task r.state s') :
    Step r ⟨s', r.channel, .called m :: r.history⟩
  | missed (r : Run) (id : CorrelationId) (hfree : ∀ key, (id, key) ∉ r.state.running) :
    Step r ⟨r.state, r.channel, .canceled id false :: r.history⟩
  | signaled (r : Run) (id : CorrelationId) (key : Nat) (hmem : (id, key) ∈ r.state.running) :
    Step r ⟨r.state.signal id key, r.channel,
      .canceled id (r.state.pending.any fun p => p.key = key) :: r.history⟩
  | resumed (r : Run) (p : Pending) (gate : String) (next : Task) (hmem : p ∈ r.state.pending)
      (htask : p.task = .waiting gate next) :
    Step r ⟨r.state.requeue p next, r.channel, .resumed p.key :: r.history⟩
  | concluded (r : Run) (w : Conclusion) (p : Pending) (answer : Answer)
      (hmem : p ∈ r.state.pending) (hanswer : w.answer? p = some answer) :
    Step r ⟨r.state.settle p
        (p.ticket.reply? (answer.bind (d.contract.acceptResult p.expected))),
      r.channel, .concluded p.key p.ticket :: r.history⟩
  | raised (r : Run) (id : MemberId) (payload : Option Json)
      (hdeclared : d.contract.Declares ⟨id, payload⟩) (hopen : r.channel.isOpen = true) :
    Step r ⟨r.state, { r.channel with messages := r.channel.messages ++ [.event ⟨id, payload⟩] },
      .raised id payload true :: r.history⟩
  | lost (r : Run) (id : MemberId) (payload : Option Json)
      (hrefused : ¬ (d.contract.Declares ⟨id, payload⟩ ∧ r.channel.isOpen = true)) :
    Step r ⟨r.state, r.channel, .raised id payload false :: r.history⟩
  | closed (r : Run) : Step r ⟨r.state, r.channel.close, .closed :: r.history⟩

theorem usesOnly_refl (call : Call) (s : State) : d.UsesOnly call s s :=
  fun _ _ hmem => Or.inl hmem

/-- A call that was admitted runs native code on its own arguments. -/
theorem usesOnly_use (call : Call) (a : Admission) (ha : d.admission call = .ok a) (s : State) :
    d.UsesOnly call s (s.use (.invoked call.operation call.arguments)) := by
  intro id arguments hmem
  rcases List.mem_append.mp hmem with hbefore | hnew
  · exact Or.inl hbefore
  · cases List.mem_singleton.mp hnew
    exact Or.inr ⟨rfl, rfl, a, ha⟩

/-- How a call goes that finds a state and leaves another with an outcome: it ends at once, or it
    begins to wait. -/
def Goes (sink : Sink) (call : Call) (s : State) (after : State × Outcome) : Prop :=
  d.Ended ⟨call, sink, after.2, none⟩ s after.1
    ∨ ∃ a task, d.Started ⟨call, sink, after.2, some s.nextKey⟩ a task s after.1

-- Getting the code of its operation first makes no difference to how a call goes.
theorem Goes.of_code {sink : Sink} {call : Call} {s : State} {after : State × Outcome}
    (binding : Binding) (h : d.Goes sink call (s.code call.operation binding).1 after) :
    d.Goes sink call s after := by
  have hcode := (s.sameCalls_code call.operation binding).1
  have huses {s'} (h : d.UsesOnly call (s.code call.operation binding).1 s') :
      d.UsesOnly call s s' := by
    intro id arguments hmem
    rcases h id arguments hmem with hbefore | hcall
    · exact Or.inl ((s.sameCalls_code _ binding).2 id arguments hbefore)
    · exact Or.inr hcall
  rcases h with hended | ⟨a, task, hstarted⟩
  · exact Or.inl ⟨hcode.trans hended.same, hended.closes, rfl, huses hended.uses⟩
  · refine Or.inr ⟨a, task, hstarted.admitted, ?_, ?_, hstarted.outcome, rfl,
      huses hstarted.uses⟩
    · rw [← hstarted.free]
      exact hcode.refusal? _
    · have hsame := hstarted.same
      rw [hcode.nextKey] at hsame
      exact (hcode.add _).trans hsame

-- What fails before the code of the operation is run leaves the state as it was.
theorem goes_of_failure (sink : Sink) (call : Call) (a : Admission) (ha : d.admission call = .ok a)
    (s : State) (failure : Failure) :
    d.Goes sink call s (s, a.ticket.finish (.error failure)) :=
  Or.inl ⟨s.sameCalls_refl, d.closes_of_finish_error call a ha failure, rfl, d.usesOnly_refl call s⟩

/-- Code that answers later ends its call at once if there is no task, and else the call waits. -/
theorem goes_spawn (hasRunner : Bool) (sink : Sink) (call : Call) (a : Admission)
    (ha : d.admission call = .ok a) (start : Nat → List Json → Ending Task) (s : State) :
    d.Goes sink call s (d.spawn hasRunner sink a start call.arguments s) := by
  have hoperation : a.ticket.operation = call.operation := by
    rw [(d.of_admission_eq_ok call a ha).2.2]
  unfold spawn
  split
  · exact d.goes_of_failure sink call a ha s _
  · split
    · exact d.goes_of_failure sink call a ha s _
    · rename_i hfree
      simp only [hoperation]
      split
      · exact Or.inl ⟨⟨s.withoutNumber_register _ hfree, rfl, rfl, rfl⟩,
          d.closes_of_finish_error call a ha _, rfl, d.usesOnly_use call a ha s⟩
      · rename_i task _
        exact Or.inr ⟨a, task, ha, hfree, ⟨rfl, rfl, rfl, rfl⟩, rfl, rfl,
          d.usesOnly_use call a ha s⟩

/-- A call ends at once or begins to wait. -/
theorem goes_call (hasRunner : Bool) (sink : Sink) (call : Call) (s : State) :
    d.Goes sink call s (d.call hasRunner sink call s) := by
  unfold Dispatcher.call
  cases ha : d.admission call with
  | error outcome =>
      exact Or.inl ⟨s.sameCalls_refl, d.closes_of_admission_eq_error call outcome ha, rfl,
        d.usesOnly_refl call s⟩
  | ok a =>
      simp only
      refine Goes.of_code d a.binding ?_
      rcases s.code call.operation a.binding with ⟨s₁, code⟩
      cases code with
      | error failure => exact d.goes_of_failure sink call a ha s₁ failure
      | ok code =>
          cases code with
          | sync run =>
              refine Or.inl ⟨s₁.sameCalls_use _, ?_, rfl, d.usesOnly_use call a ha s₁⟩
              exact d.closes_of_finish call a ha _ fun v hv =>
                d.contract.fits_of_acceptResult _ _ v hv
          | async start => exact d.goes_spawn hasRunner sink call a ha start s₁

/-- A step does nothing else. -/
theorem step_of_act_eq_some (x : Action) (r r' : Run) (h : d.act r x = some r') :
    d.Step r r' := by
  -- Each action is one step or one of two, by what it finds in the state.
  cases x with
  | call hasRunner sink call =>
      cases h
      rcases d.goes_call hasRunner sink call r.state with hended | ⟨a, task, hstarted⟩
      · simp only [made, hended.same.nextKey, Nat.lt_irrefl, if_false]
        exact .ended r _ _ hended
      · simp only [made, hstarted.same.nextKey, State.add, Nat.lt_succ_self, if_true]
        exact .started r _ a task _ hstarted
  | cancel id =>
      cases h
      rcases r.state.cancel_cases id with ⟨hcancel, hfree⟩ | ⟨key, hmem, hcancel⟩
      · rw [hcancel]
        exact .missed r id hfree
      · rw [hcancel]
        exact .signaled r id key hmem
  | resume key =>
      rcases Option.map_eq_some_iff.mp h with ⟨s', hresume, rfl⟩
      rcases r.state.resume_eq_some s' key hresume with ⟨p, gate, next, hmem, rfl, htask, rfl⟩
      exact .resumed r p gate next hmem htask
  | conclude w key =>
      simp only [act, Option.bind_eq_bind, Option.bind_eq_some_iff, Option.some.injEq] at h
      rcases h with ⟨p, hfind, s', hconclude, rfl⟩
      rcases (d.conclude_eq_some_iff w key _ s').mp hconclude with
        ⟨q, answer, hq, hanswer, rfl⟩
      rw [hfind] at hq
      cases hq
      rcases r.state.find?_key_eq_some key p hfind with ⟨hmem, rfl⟩
      exact .concluded r w p answer hmem hanswer
  | raise id payload =>
      simp only [act] at h
      split at h
      · rename_i channel hraise
        cases h
        rcases (d.contract.raise_eq_ok_iff id payload _ channel).mp hraise with
          ⟨hdeclared, hopen, rfl⟩
        exact .raised r id payload hdeclared hopen
      · rename_i e hraise
        cases h
        refine .lost r id payload fun hallowed => ?_
        have hsent := (d.contract.raise_eq_ok_iff id payload r.channel _).mpr
          ⟨hallowed.1, hallowed.2, rfl⟩
        rw [hsent] at hraise
        cases hraise
  | close =>
      cases h
      exact .closed r

/-- What holds at the start and is kept by every step holds in every run. -/
theorem Reaches.induct {P : Run → Prop} (hstart : P .start)
    (hstep : ∀ r r', d.Reaches r → d.Step r r' → P r → P r') (r : Run) (h : d.Reaches r) :
    P r := by
  induction h with
  | start => exact hstart
  | act x r r' h hact ih => exact hstep r r' h (d.step_of_act_eq_some x r r' hact) ih

end Dispatcher

end PlatformBridge
