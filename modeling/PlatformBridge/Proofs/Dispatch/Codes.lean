import PlatformBridge.Proofs.Dispatch.Signals

/-!
# The Code of an Operation

The code of an operation is looked for by the first call that may go to native
code, and kept. The attempt may panic; then the call fails, nothing is kept,
and the next such call makes another attempt. As the binding is asked
differently every time, what there is at any point in a run depends on all
attempts so far.

What a call does about the code of its operation is in `Dispatcher.Obtains`,
and nothing else in a run touches the codes. So the attempts at an operation
are a number of panics, perhaps with one success behind them, and then the code
that is kept is the one that this success gave. A code that is kept stays, and
therefore whatever ran before for the operation ran by this code.

A call is cut in two for this, at the point where it has its code. `enter` is
what comes after that, and `enter_cases` says that it neither makes an attempt
nor changes a code. All that is left to be looked at is how the code was got,
and for that there are three rules in `Obtains`, besides the one for calls that
do not come so far.

The attempts are counted by looking at the uses of native code, which a state
keeps in order. The number of the next attempt is part of what a binding is
asked for, so a binding may panic as often as it likes before it gives a code,
and may give another code each time. That it is asked no more after a success
is what makes the code of an operation one code.

## Main definitions

* `Binding.Tried`: The attempts at a binding, and what they have led to.
* `Dispatcher.State.attempts`, `Dispatcher.State.code?`: What a state knows of
  an operation.
* `Dispatcher.State.keep`: The state after an attempt that has given a code.
* `Dispatcher.enter`: How a call goes on when it has a code.
* `Dispatcher.Admits`: A call that may go to native code.
* `Dispatcher.Obtains`: What a call does about the code of its operation.
* `Dispatcher.IsTried`: The attempts in a state have led to its codes.
* `Dispatcher.RunsBy`, `Dispatcher.KeepsCodes`: What is promised of a run.

## Theorems

* `Binding.Tried.count_le_one`: No more than one attempt succeeds.
* `Dispatcher.State.code_of_some`, `Dispatcher.State.code_of_none`: Getting a
  code.
* `Dispatcher.admission_eq_ok_iff`: When a call is admitted.
* `Dispatcher.obtains_call`: A call does nothing else about a code.
* `Dispatcher.enter_cases`: What comes after a code is there.
* `Dispatcher.Obtains.isTried`, `Dispatcher.Obtains.code?_eq`,
  `Dispatcher.Obtains.attempts_eq_append`, `Dispatcher.Obtains.spares`: What a
  call leaves.
* `Dispatcher.call_of_panic`: A call whose attempt panics.
* `Dispatcher.isTried_of_reaches`: The attempts in a run have led to the codes
  that are kept.
* `Dispatcher.code?_of_leads`: Codes that are kept stay.
* `Dispatcher.runsBy_of_leads`: What ran in a run ran by the code that is kept.
* `Dispatcher.keepsCodes_of_reaches`: The promise is kept in every run.
-/

namespace PlatformBridge

/-- The attempts at a binding, each with whether it succeeded, and the code that they have led to.
    Without a binding there are none, and after a success there are no more. -/
inductive Binding.Tried (binding : Option Binding) : List Bool → Option NativeCode → Prop where
  | never : Tried binding [] none
  | panicked (attempts : List Bool) (h : Tried binding attempts none) (b : Binding)
      (hb : binding = some b) (text : Option String)
      (hbuild : b.build attempts.length = .panic text) : Tried binding (attempts ++ [false]) none
  | succeeded (attempts : List Bool) (h : Tried binding attempts none) (b : Binding)
      (hb : binding = some b) (t : NativeCode) (hbuild : b.build attempts.length = .value t) :
      Tried binding (attempts ++ [true]) (some t)

namespace Binding.Tried

variable {binding : Option Binding} {attempts : List Bool}

-- As long as there is no code, no attempt has succeeded.
theorem not_mem_of_none (h : Tried binding attempts none) : true ∉ attempts := by
  generalize hnone : (none : Option NativeCode) = found at h
  induction h with
  | never => exact List.not_mem_nil
  | panicked attempts h b hb text hbuild ih => simpa using ih rfl
  | succeeded attempts h b hb t hbuild ih => cases hnone

/-- Where there is a code, an attempt has succeeded. -/
theorem mem_of_some {t : NativeCode} (h : Tried binding attempts (some t)) : true ∈ attempts := by
  cases h with
  | succeeded attempts h b hb t hbuild => exact List.mem_append_right _ List.mem_cons_self

/-- No more than one attempt succeeds. -/
theorem count_le_one {found : Option NativeCode} (h : Tried binding attempts found) :
    attempts.count true ≤ 1 := by
  cases h with
  | never => exact Nat.zero_le 1
  | panicked attempts h b hb text hbuild => simp [List.count_eq_zero.mpr h.not_mem_of_none]
  | succeeded attempts h b hb t hbuild => simp [List.count_eq_zero.mpr h.not_mem_of_none]

end Binding.Tried

/-- Whether an attempt at the code of an operation succeeded, if a use is one. -/
def NativeUse.attempt? (id : MemberId) : NativeUse → Option Bool
  | built operation succeeded => if operation = id then some succeeded else none
  | invoked _ _ => none

namespace Dispatcher

namespace State

/-- The attempts at the code of an operation, in order, each with whether it succeeded. -/
def attempts (s : State) (id : MemberId) : List Bool := s.uses.filterMap (·.attempt? id)

/-- The code of an operation, if it is kept. -/
def code? (s : State) (id : MemberId) : Option NativeCode :=
  (s.codes.find? fun t => t.1 = id).map (·.2)

/-- The state after an attempt that has given the code of an operation. -/
def keep (s : State) (id : MemberId) (t : NativeCode) : State :=
  { s.use (.built id true) with codes := (id, t) :: s.codes }

variable (s : State)

/-- The number of an attempt is how many there were before. -/
theorem buildCount_eq (id : MemberId) : s.buildCount id = (s.attempts id).length := by
  rw [buildCount, attempts, List.length_filterMap_eq_countP, List.countP_eq_length_filter]
  congr 2
  funext u
  cases u with
  | built operation succeeded => by_cases hid : operation = id <;> simp [NativeUse.attempt?, hid]
  | invoked operation arguments => rfl

@[simp] theorem attempts_built (id other : MemberId) (succeeded : Bool) :
    (s.use (.built id succeeded)).attempts other
      = s.attempts other ++ if id = other then [succeeded] else [] := by
  by_cases hid : id = other <;> simp [attempts, use, NativeUse.attempt?, hid]

@[simp] theorem code?_use (u : NativeUse) (id : MemberId) : (s.use u).code? id = s.code? id := rfl

@[simp] theorem attempts_keep (id other : MemberId) (t : NativeCode) :
    (s.keep id t).attempts other = s.attempts other ++ if id = other then [true] else [] :=
  s.attempts_built id other true

@[simp] theorem code?_keep (id other : MemberId) (t : NativeCode) :
    (s.keep id t).code? other = if id = other then some t else s.code? other := by
  by_cases hid : id = other <;> simp [code?, keep, hid]

-- Looking for a code runs none.
@[simp] theorem runCount_built (id other : MemberId) (succeeded : Bool) :
    (s.use (.built id succeeded)).runCount other = s.runCount other := by
  simp [runCount, use]

@[simp] theorem runCount_keep (id other : MemberId) (t : NativeCode) :
    (s.keep id t).runCount other = s.runCount other :=
  s.runCount_built id other true

theorem runCount_invoked_of_ne (id other : MemberId) (arguments : List Json) (h : id ≠ other) :
    (s.use (.invoked id arguments)).runCount other = s.runCount other := by
  simp [runCount, use, h]

-- A code that is kept is got without an attempt.
theorem code_of_some (id : MemberId) (binding : Binding) (t : NativeCode)
    (h : s.code? id = some t) : s.code id binding = (s, .ok t) := by
  rcases Option.map_eq_some_iff.mp h with ⟨found, hfind, rfl⟩
  rw [code, hfind]

/-- Without a code there is an attempt, and the code it gives is kept. -/
theorem code_of_none (id : MemberId) (binding : Binding) (h : s.code? id = none) :
    s.code id binding = match binding.build (s.attempts id).length with
      | .value t => (s.keep id t, .ok t)
      | .panic text => (s.use (.built id false), .error (Ending.panicFailure text)) := by
  rw [code, Option.map_eq_none_iff.mp h, buildCount_eq]
  rfl

end State

variable (d : Dispatcher)

/-- A call may go to native code: the contract knows its operation, which takes the arguments, and
    the operation is bound. -/
structure Admits (call : Call) (o : Operation) (b : Binding) : Prop where
  known : ∃ service, d.contract.operation? call.operation = some (service, o)
  bound : d.table.get? call.operation = some b
  takes : d.contract.Takes o call.arguments

/-- How a call that is admitted goes on when it has the code of its operation. -/
def enter (hasRunner : Bool) (sink : Sink) (a : Admission) (call : Call) (s : State) :
    NativeCode → State × Outcome
  | .sync run =>
    (s.use (.invoked call.operation call.arguments),
     a.ticket.finish
      ((run (s.runCount call.operation) call.arguments).answer.bind
        (d.contract.acceptResult a.operation.returns.value?)))
  | .async start => d.spawn hasRunner sink a start call.arguments s

/-- What a call that finds a state does about the code of its operation, and how it goes on. -/
inductive Obtains (hasRunner : Bool) (sink : Sink) (call : Call) (s : State) :
    State × Outcome → Prop where
  | refused (outcome : Outcome) (h : d.admission call = .error outcome) :
    Obtains hasRunner sink call s (s, outcome)
  | panicked (a : Admission) (ha : d.admission call = .ok a) (text : Option String)
      (hnone : s.code? call.operation = none)
      (hbuild : a.binding.build (s.attempts call.operation).length = .panic text) :
    Obtains hasRunner sink call s
      (s.use (.built call.operation false), a.ticket.finish (.error (Ending.panicFailure text)))
  | succeeded (a : Admission) (ha : d.admission call = .ok a) (t : NativeCode)
      (hnone : s.code? call.operation = none)
      (hbuild : a.binding.build (s.attempts call.operation).length = .value t) :
    Obtains hasRunner sink call s (d.enter hasRunner sink a call (s.keep call.operation t) t)
  | kept (a : Admission) (ha : d.admission call = .ok a) (t : NativeCode)
      (hsome : s.code? call.operation = some t) :
    Obtains hasRunner sink call s (d.enter hasRunner sink a call s t)

/-- A call goes on by a code, in the state in which it has got it. -/
def RunsBy (hasRunner : Bool) (sink : Sink) (call : Call) (s : State) (t : NativeCode) : Prop :=
  ∃ a, d.admission call = .ok a ∧ d.call hasRunner sink call s
    = d.enter hasRunner sink a call (s.code call.operation a.binding).1 t

/-- What is promised of the codes in a run: what was tried, that what ran is what is kept, and what
    the next call does. -/
structure KeepsCodes (r : Run) : Prop where
  tried : ∀ id, Binding.Tried (d.table.get? id) (r.state.attempts id) (r.state.code? id)
  once : ∀ id, (r.state.attempts id).count true ≤ 1
  ran : ∀ id x before after, d.act before x = some after → d.Leads after r →
    after.state.runCount id ≠ before.state.runCount id →
    ∃ hasRunner sink call t, x = .call hasRunner sink call ∧ call.operation = id
      ∧ r.state.code? id = some t ∧ d.RunsBy hasRunner sink call before.state t
  panics : ∀ hasRunner sink call o b text, d.Admits call o b →
    r.state.code? call.operation = none →
    b.build (r.state.attempts call.operation).length = .panic text →
    d.call hasRunner sink call r.state
      = (r.state.use (.built call.operation false),
        if o.returns = .fireAndForget then .noReply
        else .completed ⟨call.operation, call.correlation,
          .error ⟨.failed, "operation panicked: " ++ text.getD "unknown panic"⟩⟩)
  tries : ∀ hasRunner sink call o b, d.Admits call o b →
    true ∉ r.state.attempts call.operation → ∃ succeeded,
    (d.call hasRunner sink call r.state).1.attempts call.operation
      = r.state.attempts call.operation ++ [succeeded]
  spares : ∀ hasRunner sink call, true ∈ r.state.attempts call.operation →
    (d.call hasRunner sink call r.state).1.codes = r.state.codes
      ∧ ∀ id, (d.call hasRunner sink call r.state).1.attempts id = r.state.attempts id
  refuses : ∀ hasRunner sink call, (¬ ∃ o b, d.Admits call o b) →
    (d.call hasRunner sink call r.state).1 = r.state

/-- A call is admitted if it may go to native code, with a ticket that repeats it. -/
theorem admission_eq_ok_iff (call : Call) (a : Admission) :
    d.admission call = .ok a ↔ d.Admits call a.operation a.binding
      ∧ a.ticket = ⟨call.operation, call.correlation, a.operation.returns ≠ .fireAndForget⟩ := by
  constructor
  · intro h
    rcases d.of_admission_eq_ok call a h with ⟨hknown, htakes, hticket⟩
    refine ⟨⟨hknown, ?_, htakes⟩, hticket⟩
    unfold admission at h
    split at h
    · cases h
    · split at h
      · cases h
      · rename_i b hbound
        split at h
        · cases h
        · cases h
          exact hbound
  · rcases a with ⟨ticket, o, b⟩
    rintro ⟨⟨⟨service, hfound⟩, hbound, htakes⟩, hticket⟩
    simp only at hfound hbound htakes hticket
    simp only [admission, hfound, hbound, (d.contract.acceptArguments_eq_ok_iff o _).mpr htakes,
      hticket]

variable {d} in
/-- A call that may go to native code is admitted. -/
theorem Admits.admission_eq {call : Call} {o : Operation} {b : Binding} (h : d.Admits call o b) :
    d.admission call
      = .ok ⟨⟨call.operation, call.correlation, o.returns ≠ .fireAndForget⟩, o, b⟩ :=
  (d.admission_eq_ok_iff call _).mpr ⟨h, rfl⟩

/-- A call does nothing else about the code of its operation. -/
theorem obtains_call (hasRunner : Bool) (sink : Sink) (call : Call) (s : State) :
    d.Obtains hasRunner sink call s (d.call hasRunner sink call s) := by
  unfold Dispatcher.call
  cases ha : d.admission call with
  | error outcome => exact .refused outcome ha
  | ok a =>
      cases hcode : s.code? call.operation with
      | some t =>
          simp only [s.code_of_some call.operation a.binding t hcode]
          cases t with
          | sync run => exact .kept a ha (.sync run) hcode
          | async start => exact .kept a ha (.async start) hcode
      | none =>
          simp only [s.code_of_none call.operation a.binding hcode]
          cases hbuild : a.binding.build (s.attempts call.operation).length with
          | panic text => exact .panicked a ha text hcode hbuild
          | value t =>
              cases t with
              | sync run => exact .succeeded a ha (.sync run) hcode hbuild
              | async start => exact .succeeded a ha (.async start) hcode hbuild

/-- Going on with a code keeps the codes, makes no attempt, and runs nothing but the operation. -/
theorem enter_cases (hasRunner : Bool) (sink : Sink) (call : Call) (a : Admission)
    (ha : d.admission call = .ok a) (s : State) (t : NativeCode) :
    (d.enter hasRunner sink a call s t).1.codes = s.codes
      ∧ ((d.enter hasRunner sink a call s t).1.uses = s.uses
        ∨ (d.enter hasRunner sink a call s t).1.uses
          = s.uses ++ [.invoked call.operation call.arguments]) := by
  cases t with
  | sync run => exact ⟨rfl, Or.inr rfl⟩
  | async start =>
      have hoperation : a.ticket.operation = call.operation := by
        rw [((d.admission_eq_ok_iff call a).mp ha).2]
      simp only [enter, spawn, hoperation]
      split
      · exact ⟨rfl, Or.inl rfl⟩
      · split
        · exact ⟨rfl, Or.inl rfl⟩
        · split <;> exact ⟨rfl, Or.inr rfl⟩

section Enter

variable (hasRunner : Bool) (sink : Sink) (call : Call) (a : Admission)
  (ha : d.admission call = .ok a) (s : State) (t : NativeCode)

include ha

theorem code?_enter (id : MemberId) :
    (d.enter hasRunner sink a call s t).1.code? id = s.code? id := by
  rw [State.code?, (d.enter_cases hasRunner sink call a ha s t).1, State.code?]

theorem attempts_enter (id : MemberId) :
    (d.enter hasRunner sink a call s t).1.attempts id = s.attempts id := by
  rcases (d.enter_cases hasRunner sink call a ha s t).2 with huses | huses
  · rw [State.attempts, huses, State.attempts]
  · rw [State.attempts, huses, List.filterMap_append, State.attempts]
    exact List.append_nil _

theorem runCount_enter_of_ne (id : MemberId) (hid : call.operation ≠ id) :
    (d.enter hasRunner sink a call s t).1.runCount id = s.runCount id := by
  rcases (d.enter_cases hasRunner sink call a ha s t).2 with huses | huses
  · rw [State.runCount, huses, State.runCount]
  · rw [State.runCount, huses]
    exact s.runCount_invoked_of_ne _ _ _ hid

end Enter

-- All but a call leaves native code alone.
theorem same_or_call (x : Action) (r r' : Run) (h : d.act r x = some r') :
    (r'.state.codes = r.state.codes ∧ r'.state.uses = r.state.uses)
      ∨ ∃ hasRunner sink call, x = .call hasRunner sink call
        ∧ r'.state = (d.call hasRunner sink call r.state).1 := by
  -- Only a call obtains code, and the other actions do not touch what is kept.
  cases x with
  | call hasRunner sink call =>
      cases h
      exact Or.inr ⟨hasRunner, sink, call, rfl, rfl⟩
  | cancel id =>
      cases h
      rcases r.state.cancel_cases id with ⟨hcancel, _⟩ | ⟨key, _, hcancel⟩
      · simp only [hcancel, and_self, true_or]
      · simp only [hcancel, State.signal, and_self, true_or]
  | resume key =>
      rcases Option.map_eq_some_iff.mp h with ⟨s', hresume, rfl⟩
      rcases r.state.resume_eq_some s' key hresume with ⟨p, gate, next, _, _, _, rfl⟩
      exact Or.inl ⟨rfl, rfl⟩
  | conclude w key =>
      simp only [act, Option.bind_eq_bind, Option.bind_eq_some_iff, Option.some.injEq] at h
      rcases h with ⟨p, _, s', hconclude, rfl⟩
      rcases (d.conclude_eq_some_iff w key _ s').mp hconclude with ⟨q, answer, _, _, rfl⟩
      exact Or.inl ⟨rfl, rfl⟩
  | raise id payload =>
      simp only [act] at h
      split at h <;> cases h <;> exact Or.inl ⟨rfl, rfl⟩
  | close =>
      cases h
      exact Or.inl ⟨rfl, rfl⟩

/-- The attempts in a state have led to the codes in it. -/
def IsTried (s : State) : Prop :=
  ∀ id, Binding.Tried (d.table.get? id) (s.attempts id) (s.code? id)

section Obtains

variable {d} {hasRunner : Bool} {sink : Sink} {call : Call} {s : State} {after : State × Outcome}

/-- A call leaves a state in which the attempts have led to the codes. -/
theorem Obtains.isTried (hobtains : d.Obtains hasRunner sink call s after) (h : d.IsTried s) :
    d.IsTried after.1 := by
  intro id
  have hid := h id
  cases hobtains with
  | refused outcome hrefused => exact hid
  | panicked a ha text hnone hbuild =>
      have hbound := ((d.admission_eq_ok_iff call a).mp ha).1.bound
      -- The attempt is one at the operation of the call, and at no other.
      by_cases hcall : call.operation = id
      · subst hcall
        rw [hnone] at hid
        simpa [hnone] using hid.panicked _ _ hbound text hbuild
      · simpa [hcall] using hid
  | succeeded a ha t hnone hbuild =>
      have hbound := ((d.admission_eq_ok_iff call a).mp ha).1.bound
      rw [d.attempts_enter hasRunner sink call a ha, d.code?_enter hasRunner sink call a ha]
      by_cases hcall : call.operation = id
      · subst hcall
        rw [hnone] at hid
        simpa using hid.succeeded _ _ hbound t hbuild
      · simpa [hcall] using hid
  | kept a ha t hsome =>
      rw [d.attempts_enter hasRunner sink call a ha, d.code?_enter hasRunner sink call a ha]
      exact hid

/-- A call keeps every code that is there. -/
theorem Obtains.code?_eq (hobtains : d.Obtains hasRunner sink call s after) (id : MemberId)
    (t : NativeCode) (h : s.code? id = some t) : after.1.code? id = some t := by
  cases hobtains with
  | refused outcome hrefused => exact h
  | panicked a ha text hnone hbuild => exact h
  | succeeded a ha t' hnone hbuild =>
      rw [d.code?_enter hasRunner sink call a ha, State.code?_keep, if_neg, h]
      -- The operation of the call had no code.
      rintro rfl
      rw [hnone] at h
      cases h
  | kept a ha t' hsome =>
      rw [d.code?_enter hasRunner sink call a ha]
      exact h

/-- A call that is not admitted leaves everything as it was. -/
theorem Obtains.state_eq (hobtains : d.Obtains hasRunner sink call s after)
    (h : ¬ ∃ o b, d.Admits call o b) : after.1 = s := by
  cases hobtains with
  | refused outcome hrefused => rfl
  | panicked a ha => exact absurd ⟨_, _, ((d.admission_eq_ok_iff call a).mp ha).1⟩ h
  | succeeded a ha => exact absurd ⟨_, _, ((d.admission_eq_ok_iff call a).mp ha).1⟩ h
  | kept a ha => exact absurd ⟨_, _, ((d.admission_eq_ok_iff call a).mp ha).1⟩ h

/-- Without a code, a call that is admitted makes one more attempt. -/
theorem Obtains.attempts_eq_append (hobtains : d.Obtains hasRunner sink call s after)
    (o : Operation) (b : Binding) (h : d.Admits call o b) (hnone : s.code? call.operation = none) :
    ∃ succeeded, after.1.attempts call.operation
      = s.attempts call.operation ++ [succeeded] := by
  cases hobtains with
  | refused outcome hrefused =>
      rw [h.admission_eq] at hrefused
      cases hrefused
  | panicked a ha text _ hbuild => exact ⟨false, by simp⟩
  | succeeded a ha t _ hbuild =>
      exact ⟨true, by simp [d.attempts_enter hasRunner sink call a ha]⟩
  | kept a ha t hsome =>
      rw [hnone] at hsome
      cases hsome

/-- With a code, a call makes no attempt and changes no code. -/
theorem Obtains.spares (hobtains : d.Obtains hasRunner sink call s after) (t : NativeCode)
    (hsome : s.code? call.operation = some t) :
    after.1.codes = s.codes ∧ ∀ id, after.1.attempts id = s.attempts id := by
  cases hobtains with
  | refused outcome hrefused => exact ⟨rfl, fun id => rfl⟩
  | panicked a ha text hnone hbuild =>
      rw [hnone] at hsome
      cases hsome
  | succeeded a ha t' hnone hbuild =>
      rw [hnone] at hsome
      cases hsome
  | kept a ha t' _ =>
      exact ⟨(d.enter_cases hasRunner sink call a ha s t').1,
        d.attempts_enter hasRunner sink call a ha s t'⟩

end Obtains

/-- A call whose attempt panics fails, and nothing comes of the attempt but that it was made. -/
theorem call_of_panic (hasRunner : Bool) (sink : Sink) (call : Call) (s : State) (o : Operation)
    (b : Binding) (h : d.Admits call o b) (text : Option String)
    (hnone : s.code? call.operation = none)
    (hbuild : b.build (s.attempts call.operation).length = .panic text) :
    d.call hasRunner sink call s
      = (s.use (.built call.operation false),
        if o.returns = .fireAndForget then .noReply
        else .completed ⟨call.operation, call.correlation,
          .error ⟨.failed, "operation panicked: " ++ text.getD "unknown panic"⟩⟩) := by
  rw [Dispatcher.call, h.admission_eq]
  simp only [s.code_of_none call.operation b hnone, hbuild, Ticket.finish, Ticket.reply?,
    Ending.panicFailure]
  by_cases hforget : o.returns = .fireAndForget <;> simp [hforget]

/-- In every run the attempts have led to the codes that are kept. -/
theorem isTried_of_reaches (r : Run) (h : d.Reaches r) : d.IsTried r.state := by
  induction h with
  | start => exact fun id => .never
  | act x r r' h hact ih =>
      rcases d.same_or_call x r r' hact with ⟨hcodes, huses⟩ | ⟨hasRunner, sink, call, _, hcall⟩
      · intro id
        rw [State.attempts, State.code?, hcodes, huses]
        exact ih id
      · rw [hcall]
        exact (d.obtains_call hasRunner sink call r.state).isTried ih

/-- A code that is kept in a run is kept in all that follow. -/
theorem code?_of_leads {r r' : Run} (hleads : d.Leads r r') (id : MemberId) (t : NativeCode)
    (h : r.state.code? id = some t) : r'.state.code? id = some t := by
  induction hleads with
  | refl r => exact h
  | act x r r' r'' _ hact ih =>
      rcases d.same_or_call x r' r'' hact with ⟨hcodes, _⟩ | ⟨hasRunner, sink, call, _, hcall⟩
      · rw [State.code?, hcodes]
        exact ih h
      · rw [hcall]
        exact (d.obtains_call hasRunner sink call r'.state).code?_eq id t (ih h)

/-- A call that runs native code is one of the operation whose code it runs, and the code is kept.
    -/
theorem runsBy_of_runCount_ne (hasRunner : Bool) (sink : Sink) (call : Call) (s : State)
    (id : MemberId) (h : (d.call hasRunner sink call s).1.runCount id ≠ s.runCount id) :
    call.operation = id ∧ ∃ t, (d.call hasRunner sink call s).1.code? id = some t
      ∧ d.RunsBy hasRunner sink call s t := by
  have hobtains := d.obtains_call hasRunner sink call s
  generalize hafter : d.call hasRunner sink call s = after at h hobtains
  -- A call enters native code in two of the four ways in which it can obtain it.
  cases hobtains with
  | refused outcome hrefused => exact absurd rfl h
  | panicked a ha text hnone hbuild => exact absurd (s.runCount_built _ _ _) h
  | succeeded a ha t hnone hbuild =>
      have hid : call.operation = id := by
        by_contra hne
        rw [d.runCount_enter_of_ne hasRunner sink call a ha _ t id hne, s.runCount_keep] at h
        exact h rfl
      refine ⟨hid, t, ?_, a, ha, ?_⟩
      · rw [d.code?_enter hasRunner sink call a ha, State.code?_keep, if_pos hid]
      · rw [hafter, s.code_of_none _ _ hnone, hbuild]
  | kept a ha t hsome =>
      have hid : call.operation = id := by
        by_contra hne
        exact h (d.runCount_enter_of_ne hasRunner sink call a ha s t id hne)
      refine ⟨hid, t, ?_, a, ha, ?_⟩
      · rw [d.code?_enter hasRunner sink call a ha, ← hid, hsome]
      · rw [hafter, s.code_of_some _ _ t hsome]

/-- What ran for an operation on the way to a run ran by the code that the run keeps. -/
theorem runsBy_of_leads (id : MemberId) (x : Action) (before after r : Run)
    (hact : d.act before x = some after) (hleads : d.Leads after r)
    (hruns : after.state.runCount id ≠ before.state.runCount id) :
    ∃ hasRunner sink call t, x = .call hasRunner sink call ∧ call.operation = id
      ∧ r.state.code? id = some t ∧ d.RunsBy hasRunner sink call before.state t := by
  rcases d.same_or_call x before after hact with
    ⟨_, huses⟩ | ⟨hasRunner, sink, call, rfl, hcall⟩
  · rw [State.runCount, huses] at hruns
    exact absurd rfl hruns
  · rw [hcall] at hruns
    rcases d.runsBy_of_runCount_ne hasRunner sink call before.state id hruns with
      ⟨hid, t, hkept, hby⟩
    rw [← hcall] at hkept
    exact ⟨hasRunner, sink, call, t, rfl, hid, d.code?_of_leads hleads id t hkept, hby⟩

/-- In every run the code of an operation is got at most once. Whatever ran for the operation ran by
    this code. A call whose attempt at it panics fails and leaves nothing, so that the next one
    tries again; and a call that is not admitted tries nothing. -/
theorem keepsCodes_of_reaches (r : Run) (h : d.Reaches r) : d.KeepsCodes r := by
  have htried := d.isTried_of_reaches r h
  have hobtains hasRunner sink call := d.obtains_call hasRunner sink call r.state
  refine ⟨htried, fun id => (htried id).count_le_one, ?_, ?_, ?_, ?_, ?_⟩
  · intro id x before after hact hleads hruns
    exact d.runsBy_of_leads id x before after r hact hleads hruns
  · intro hasRunner sink call o b text hadmits hnone hbuild
    exact d.call_of_panic hasRunner sink call r.state o b hadmits text hnone hbuild
  · intro hasRunner sink call o b hadmits hnever
    refine (hobtains hasRunner sink call).attempts_eq_append o b hadmits ?_
    cases hcode : r.state.code? call.operation with
    | none => rfl
    | some t => exact absurd (hcode ▸ htried call.operation).mem_of_some hnever
  · intro hasRunner sink call honce
    cases hcode : r.state.code? call.operation with
    | none => exact absurd honce (hcode ▸ htried call.operation).not_mem_of_none
    | some t => exact (hobtains hasRunner sink call).spares t hcode
  · intro hasRunner sink call hrefused
    exact (hobtains hasRunner sink call).state_eq hrefused

/-- A dispatcher for alarms that cannot be set before the second attempt. -/
def unready : Dispatcher :=
  ⟨alarmContract,
    ⟨[("Acme.Alarm.Wait", ⟨fun attempts => if attempts = 0 then .panic (some "not ready")
      else .value (.sync fun _ arguments => .value (.ok (arguments.headD .null)))⟩)]⟩, true⟩

/-- A run in which the first attempt panics, two calls are not admitted, and the second attempt
    gives the code by which two calls run. -/
def unreadyRun : Run :=
  unready.after [.call true .channel (waitCall 5),
    .call true .channel ⟨"Acme.Alarm.Stop", [], none⟩,
    .call true .channel ⟨"Acme.Alarm.Wait", [.null], none⟩, .call true .channel (waitCall 6),
    .call true .channel (waitCall 7)]

/-- The attempt that panics runs nothing, the calls that are not admitted make none, and the code of
    the second attempt is used twice. -/
theorem keepsCodes_of_unreadyRun :
    unready.Reaches unreadyRun
      ∧ unreadyRun.state.uses
        = [.built "Acme.Alarm.Wait" false, .built "Acme.Alarm.Wait" true,
          .invoked "Acme.Alarm.Wait" [.ofNat 6], .invoked "Acme.Alarm.Wait" [.ofNat 7]]
      ∧ unready.KeepsCodes unreadyRun := by
  have h : unready.Reaches unreadyRun := unready.reaches_after _
  exact ⟨h, rfl, unready.keepsCodes_of_reaches unreadyRun h⟩

end Dispatcher

end PlatformBridge
