import PlatformBridge.Proofs.Dispatch.Registry

/-!
# The Course of a Call

A call that starts a task gets a key, which no other call gets. From then on it
waits, with nothing handed over for it, until the one step in which it is
concluded; what is handed over there is all it ever gets. Other steps make no
difference to it, so its course is followed by the key alone.

A call cannot be followed by its number. Numbers are chosen by the other side,
may be used again, and are freed before the call is over. The key is the
dispatcher's own, and `IsTraced` says what makes it fit for this: each key that
occurs anywhere is that of one call in the history, and the next one is new.

What is kept of a waiting call changes in two respects only, its task and its
signal. `awaited` is the rest of it. Most steps leave the awaited calls as they
are, although a task may have gone on or a signal may have come, and these
steps are `Quiet`. So there are three kinds of steps to be looked at and not
one for each action. `SameFor` is the same idea for a single key, and a step is
either that or concludes the call of the key.

`Follows` is then an invariant with two states, waiting and settled, for each
call with a task, and `follows_of_step` is the only place where a call goes
from one to the other.

## Main definitions

* `Awaited`, `Pending.awaited`: What a waiting call keeps until its end.
* `Run.Quiet`, `Run.SameFor`: Steps in which no call with a task begins or
  ends, and what a step leaves alone of one call.
* `Run.HasMade`, `Run.IsTraced`: Every key that occurs is that of one call that
  was made.
* `Dispatcher.Waits`, `Dispatcher.Settles`: A call before and after its end.
* `Dispatcher.Follows`: What is known of a call with a task.

## Theorems

* `Dispatcher.State.mem_awaited_add`, `Dispatcher.State.awaited_signal`,
  `Dispatcher.State.mem_awaited_settle`: What steps do to the awaited calls.
* `Dispatcher.quiet_or_started_or_concluded`: The kinds of steps.
* `Dispatcher.isTraced_of_step`, `Dispatcher.isTraced_of_reaches`: The keys of
  all runs are traced.
* `Dispatcher.called_cases`: The calls that were made by the end of a step.
* `Dispatcher.closes_of_reaches`: A call without a task has ended.
* `Dispatcher.sameFor_or_concluded`: What a step does to one call.
* `Dispatcher.waits_of_started`, `Dispatcher.settles_of_settle`: Where a course
  begins and ends.
* `Dispatcher.follows_of_step`, `Dispatcher.follows_of_reaches`: A call with a
  task waits or is settled.
-/

namespace PlatformBridge

/-- What a waiting call keeps until its end: all but its task and the signal. -/
structure Awaited where
  key : Nat
  ticket : Ticket
  expected : Option BridgeType
  sink : Sink

/-- What a waiting call keeps until its end. -/
def Pending.awaited (p : Pending) : Awaited := ⟨p.key, p.ticket, p.expected, p.sink⟩

theorem Pending.awaited_signal (key : Nat) (p : Pending) :
    (p.signal key).awaited = p.awaited := by
  unfold signal
  split <;> rfl

/-- The key of a task that was started. -/
def Happening.key? : Happening → Option Nat
  | called made => made.key
  | _ => none

namespace Dispatcher

namespace State

/-- What the waiting calls keep until their ends. -/
def awaited (s : State) : List Awaited := s.pending.map (·.awaited)

/-- What was handed over for the call with a key. -/
def deliveries (s : State) (key : Nat) : List Delivery := s.outbox.filter fun e => e.key = key

variable (s : State)

/-- One more call waits. -/
theorem mem_awaited_add (p : Pending) (e : Awaited) :
    e ∈ (s.add p).awaited ↔ e ∈ s.awaited ∨ e = p.awaited := by
  simp only [awaited, add, List.map_append, List.map_cons, List.map_nil, List.mem_append,
    List.mem_singleton]

/-- A signal does not change what a call keeps. -/
theorem awaited_signal (id : CorrelationId) (key : Nat) :
    (s.signal id key).awaited = s.awaited := by
  simp only [awaited, signal, List.map_map, Function.comp_def, Pending.awaited_signal]

/-- One call has left, and it is the only one of its key. -/
theorem mem_awaited_settle (p : Pending) (reply : Option Reply) (e : Awaited) :
    e ∈ (s.settle p reply).awaited ↔ e ∈ s.awaited ∧ e.key ≠ p.key := by
  simp only [awaited, settle, List.mem_map, List.mem_filter, decide_eq_true_eq]
  constructor
  · rintro ⟨q, ⟨hq, hkey⟩, rfl⟩
    exact ⟨⟨q, hq, rfl⟩, hkey⟩
  · rintro ⟨⟨q, hq, rfl⟩, hkey⟩
    exact ⟨q, ⟨hq, hkey⟩, rfl⟩

-- The end of a call adds its reply to what was handed over for it.
theorem deliveries_settle (p : Pending) (reply : Option Reply) :
    (s.settle p reply).deliveries p.key
      = s.deliveries p.key ++ reply.toList.map fun r => ⟨p.key, p.sink, r⟩ := by
  rw [deliveries, settle, List.filter_append, deliveries]
  congr 1
  rw [List.filter_eq_self]
  intro e he
  rcases List.mem_map.mp he with ⟨r, _, rfl⟩
  exact decide_eq_true rfl

variable {s}

-- What a call keeps is known by its key.
theorem IsRegular.eq_awaited (h : s.IsRegular) (p : Pending) (hp : p ∈ s.pending) (e : Awaited)
    (he : e ∈ s.awaited) (hkey : e.key = p.key) : e = p.awaited := by
  rcases List.mem_map.mp he with ⟨q, hq, rfl⟩
  rw [h.eq_of_key q p hq hp hkey]

theorem IsRegular.mem_awaited_requeue (h : s.IsRegular) (p : Pending) (hp : p ∈ s.pending)
    (next : Task) (e : Awaited) : e ∈ (s.requeue p next).awaited ↔ e ∈ s.awaited := by
  simp only [awaited, State.requeue, List.map_append, List.mem_append, List.map_cons, List.map_nil,
    List.mem_singleton, List.mem_map, List.mem_filter, decide_eq_true_eq]
  constructor
  · rintro (⟨q, ⟨hq, _⟩, rfl⟩ | rfl)
    · exact ⟨q, hq, rfl⟩
    · exact ⟨p, hp, rfl⟩
  · rintro ⟨q, hq, rfl⟩
    by_cases hkey : q.key = p.key
    · rw [h.eq_of_key q p hq hp hkey]
      exact Or.inr rfl
    · exact Or.inl ⟨q, ⟨hq, hkey⟩, rfl⟩

end State

end Dispatcher

namespace Run

/-- A step in which no call with a task begins or ends. -/
structure Quiet (r r' : Run) : Prop where
  awaited : ∀ e, e ∈ r'.state.awaited ↔ e ∈ r.state.awaited
  outbox : r'.state.outbox = r.state.outbox
  nextKey : r'.state.nextKey = r.state.nextKey
  history : ∃ x, r'.history = x :: r.history ∧ x.key? = none ∧ ∀ key t, x ≠ .concluded key t

/-- A step leaves alone what there is of the call with a key. -/
structure SameFor (key : Nat) (r r' : Run) : Prop where
  awaited : ∀ e : Awaited, e.key = key → (e ∈ r'.state.awaited ↔ e ∈ r.state.awaited)
  deliveries : r'.state.deliveries key = r.state.deliveries key
  concluded : ∀ t, .concluded key t ∈ r'.history ↔ .concluded key t ∈ r.history

/-- A call was made whose task has a key. -/
def HasMade (r : Run) (key : Nat) : Prop := ∃ m, .called m ∈ r.history ∧ m.key = some key

/-- Every key that occurs is that of one call, and the next key is that of none. -/
structure IsTraced (r : Run) : Prop where
  below : ∀ key, r.HasMade key → key < r.state.nextKey
  awaited : ∀ e ∈ r.state.awaited, r.HasMade e.key
  concluded : ∀ key t, .concluded key t ∈ r.history → r.HasMade key
  sent : ∀ e ∈ r.state.outbox, r.HasMade e.key
  once : (r.history.filterMap Happening.key?).Nodup

theorem hasMade_iff (r : Run) (key : Nat) :
    r.HasMade key ↔ key ∈ r.history.filterMap Happening.key? := by
  rw [List.mem_filterMap]
  constructor
  · rintro ⟨m, hm, hkey⟩
    exact ⟨.called m, hm, hkey⟩
  · rintro ⟨x, hx, hkey⟩
    cases x with
    | called m => exact ⟨m, hx, hkey⟩
    | canceled id signaled => cases hkey
    | resumed key => cases hkey
    | concluded key t => cases hkey
    | raised id payload sent => cases hkey
    | closed => cases hkey

-- What happens next makes no key unmade.
theorem hasMade_iff_of_cons (r r' : Run) (x : Happening) (h : r'.history = x :: r.history)
    (key : Nat) : r'.HasMade key ↔ x.key? = some key ∨ r.HasMade key := by
  rw [hasMade_iff, hasMade_iff, h, List.filterMap_cons]
  cases x.key? with
  | none => simp only [reduceCtorEq, false_or]
  | some key' => simp only [List.mem_cons, Option.some.injEq, eq_comm]

/-- Where nothing has happened there are no keys. -/
theorem isTraced_start : start.IsTraced := by
  refine ⟨?_, ?_, ?_, ?_, List.nodup_nil⟩
  · rintro key ⟨m, hm, _⟩
    cases hm
  · intro e he
    cases he
  · intro key t hmem
    cases hmem
  · intro e he
    cases he

-- At most one key is new, and that is the next one.
theorem IsTraced.cons {r r' : Run} (h : r.IsTraced) (x : Happening)
    (hhistory : r'.history = x :: r.history)
    (hkey : x.key? = none ∧ r'.state.nextKey = r.state.nextKey
      ∨ x.key? = some r.state.nextKey ∧ r'.state.nextKey = r.state.nextKey + 1)
    (hawaited : ∀ e ∈ r'.state.awaited, e ∈ r.state.awaited ∨ r'.HasMade e.key)
    (hconcluded : ∀ key t, x = .concluded key t → r'.HasMade key)
    (hsent : ∀ e ∈ r'.state.outbox, e ∈ r.state.outbox ∨ r'.HasMade e.key) : r'.IsTraced := by
  have hmade := r.hasMade_iff_of_cons r' x hhistory
  -- Only the keys of calls that were made can grow by a step, and every other part follows from
  -- this.
  refine ⟨?_, ?_, ?_, ?_, ?_⟩
  · intro key hhas
    rcases hkey with ⟨hnone, hnext⟩ | ⟨hsome, hnext⟩
    · rw [hmade, hnone] at hhas
      rw [hnext]
      exact h.below key (hhas.resolve_left (Option.some_ne_none key).symm)
    · rw [hmade, hsome, Option.some.injEq] at hhas
      rw [hnext]
      rcases hhas with rfl | hhas
      · exact Nat.lt_succ_self _
      · exact Nat.lt_succ_of_lt (h.below key hhas)
  · intro e he
    exact (hawaited e he).elim (fun he => (hmade _).mpr (Or.inr (h.awaited e he))) id
  · intro key t hmem
    rw [hhistory, List.mem_cons] at hmem
    rcases hmem with heq | hmem
    · exact hconcluded key t heq.symm
    · exact (hmade key).mpr (Or.inr (h.concluded key t hmem))
  · intro e he
    exact (hsent e he).elim (fun he => (hmade _).mpr (Or.inr (h.sent e he))) id
  · rw [hhistory, List.filterMap_cons]
    rcases hkey with ⟨hnone, _⟩ | ⟨hsome, _⟩
    · rw [hnone]
      exact h.once
    · rw [hsome]
      refine List.nodup_cons.mpr ⟨fun hmem => ?_, h.once⟩
      exact Nat.lt_irrefl _ (h.below _ ((r.hasMade_iff _).mpr hmem))

end Run

namespace Dispatcher

variable (d : Dispatcher)

/-- A step is quiet, or a call begins to wait, or a call that waits comes to its end. -/
theorem quiet_or_started_or_concluded (r r' : Run) (h : r.state.IsRegular)
    (hstep : d.Step r r') :
    r.Quiet r'
      ∨ (∃ m a task, d.Started m a task r.state r'.state ∧ r'.history = .called m :: r.history)
      ∨ ∃ (p : Pending) (answer : Answer), p ∈ r.state.pending
        ∧ r'.state = r.state.settle p
          (p.ticket.reply? (answer.bind (d.contract.acceptResult p.expected)))
        ∧ r'.history = .concluded p.key p.ticket :: r.history := by
  -- Two of the kinds of steps are the ones that are named, and all others are quiet.
  cases hstep with
  | ended m s' hended =>
      refine Or.inl ⟨fun e => ?_, hended.same.outbox, hended.same.nextKey,
        .called m, rfl, hended.key, nofun⟩
      simp only [State.awaited, hended.same.pending]
  | started m a task s' hstarted => exact Or.inr (Or.inl ⟨m, a, task, hstarted, rfl⟩)
  | missed id hfree => exact Or.inl ⟨fun e => Iff.rfl, rfl, rfl, _, rfl, rfl, nofun⟩
  | signaled id key hmem =>
      refine Or.inl ⟨fun e => ?_, rfl, rfl, _, rfl, rfl, nofun⟩
      simp only [State.awaited_signal]
  | resumed p gate next hmem htask =>
      exact Or.inl ⟨h.mem_awaited_requeue p hmem next, rfl, rfl, _, rfl, rfl, nofun⟩
  | concluded w p answer hmem hanswer => exact Or.inr (Or.inr ⟨p, answer, hmem, rfl, rfl⟩)
  | raised id payload hdeclared hopen =>
      exact Or.inl ⟨fun e => Iff.rfl, rfl, rfl, _, rfl, rfl, nofun⟩
  | lost id payload hrefused => exact Or.inl ⟨fun e => Iff.rfl, rfl, rfl, _, rfl, rfl, nofun⟩
  | closed => exact Or.inl ⟨fun e => Iff.rfl, rfl, rfl, _, rfl, rfl, nofun⟩

/-- What is kept of a call that has just begun to wait. -/
def begun (m : MadeCall) (a : Admission) (key : Nat) : Awaited :=
  ⟨key, a.ticket, a.operation.returns.value?, m.sink⟩

theorem Started.mem_awaited {d : Dispatcher} {m : MadeCall} {a : Admission} {task : Task}
    {s s' : State} (h : d.Started m a task s s') (e : Awaited) :
    e ∈ s'.awaited ↔ e ∈ s.awaited ∨ e = begun m a s.nextKey := by
  rw [State.awaited, h.same.pending]
  exact s.mem_awaited_add _ e

/-- A step keeps the keys traced: the one it may add is new, and it takes others from where they
    were. -/
theorem isTraced_of_step (r r' : Run) (hregular : r.state.IsRegular) (hstep : d.Step r r')
    (h : r.IsTraced) : r'.IsTraced := by
  rcases d.quiet_or_started_or_concluded r r' hregular hstep with
    hquiet | ⟨m, a, task, hstarted, hhistory⟩ | ⟨p, answer, hp, hstate, hhistory⟩
  · rcases hquiet.history with ⟨x, hhistory, hkey, hconcluded⟩
    refine h.cons x hhistory (Or.inl ⟨hkey, hquiet.nextKey⟩) ?_ ?_ ?_
    · exact fun e he => Or.inl ((hquiet.awaited e).mp he)
    · exact fun key t heq => absurd heq (hconcluded key t)
    · exact fun e he => Or.inl (hquiet.outbox ▸ he)
  · have hmade : r'.HasMade r.state.nextKey :=
      (r.hasMade_iff_of_cons r' _ hhistory _).mpr (Or.inl hstarted.key)
    refine h.cons _ hhistory (Or.inr ⟨hstarted.key, hstarted.same.nextKey⟩) ?_ ?_ ?_
    · intro e he
      rcases (hstarted.mem_awaited e).mp he with he | rfl
      · exact Or.inl he
      · exact Or.inr hmade
    · exact fun key t heq => nomatch heq
    · exact fun e he => Or.inl (hstarted.same.outbox ▸ he)
  -- The call that is concluded was awaited, so its key was that of a call.
  · have hmade : r'.HasMade p.key :=
      (r.hasMade_iff_of_cons r' _ hhistory _).mpr (Or.inr (h.awaited _ (List.mem_map_of_mem hp)))
    have hnext : r'.state.nextKey = r.state.nextKey := by
      rw [hstate]
      rfl
    refine h.cons _ hhistory (Or.inl ⟨rfl, hnext⟩) ?_ ?_ ?_
    · intro e he
      rw [hstate, State.mem_awaited_settle] at he
      exact Or.inl he.1
    · intro key t heq
      cases heq
      exact hmade
    · intro e he
      rw [hstate] at he
      rcases List.mem_append.mp he with he | he
      · exact Or.inl he
      · rcases List.mem_map.mp he with ⟨reply, _, rfl⟩
        exact Or.inr hmade

/-- The keys of all runs are traced. -/
theorem isTraced_of_reaches (r : Run) (h : d.Reaches r) : r.IsTraced :=
  Reaches.induct d Run.isTraced_start
    (fun r r' h hstep ih => d.isTraced_of_step r r' (d.isRegular_of_reaches r h) hstep ih) r h

/-- A call that was made by the end of a step was made before, or in this step. -/
theorem called_cases (r r' : Run) (hstep : d.Step r r') (m : MadeCall)
    (hm : .called m ∈ r'.history) :
    .called m ∈ r.history ∨ d.Ended m r.state r'.state
      ∨ ∃ a task, d.Started m a task r.state r'.state ∧ r'.history = .called m :: r.history := by
  cases hstep with
  | ended m' s' hended =>
      rcases List.mem_cons.mp hm with heq | hm
      · cases heq
        exact Or.inr (Or.inl hended)
      · exact Or.inl hm
  | started m' a task s' hstarted =>
      rcases List.mem_cons.mp hm with heq | hm
      · cases heq
        exact Or.inr (Or.inr ⟨a, task, hstarted, rfl⟩)
      · exact Or.inl hm
  | _ =>
      simp only [List.mem_cons, reduceCtorEq, false_or] at hm
      exact Or.inl hm

/-- A call without a task has ended. -/
theorem closes_of_reaches (r : Run) (h : d.Reaches r) (m : MadeCall) (hm : .called m ∈ r.history)
    (hkey : m.key = none) : d.contract.Closes m.call m.outcome := by
  refine Reaches.induct d (P := fun r => .called m ∈ r.history →
    d.contract.Closes m.call m.outcome) ?_ ?_ r h hm
  · intro hm
    cases hm
  · intro r r' _ hstep ih hm
    rcases d.called_cases r r' hstep m hm with hm | hended | ⟨a, task, hstarted, _⟩
    · exact ih hm
    · exact hended.closes
    · rw [hstarted.key] at hkey
      cases hkey

/-- A call waits: nothing was handed over for it, and it was not concluded. -/
structure Waits (m : MadeCall) (a : Admission) (key : Nat) (r : Run) : Prop where
  awaited : begun m a key ∈ r.state.awaited
  silent : r.state.deliveries key = []
  unconcluded : ∀ t, .concluded key t ∉ r.history

/-- A call is settled: what was handed over for it is the reply to one answer, whose value fits, if
    the call gets a reply. -/
structure Settles (m : MadeCall) (a : Admission) (key : Nat) (r : Run) : Prop where
  gone : ∀ e ∈ r.state.awaited, e.key ≠ key
  concluded : .concluded key a.ticket ∈ r.history
  replied : ∃ answer : Answer, (∀ v, answer = .ok v → d.contract.Fits a.operation.returns.value? v)
    ∧ r.state.deliveries key
      = (a.ticket.reply? answer).toList.map fun reply => ⟨key, m.sink, reply⟩

/-- What is known of a call with a task. -/
structure Follows (m : MadeCall) (a : Admission) (key : Nat) (r : Run) : Prop where
  admitted : d.admission m.call = .ok a
  outcome : m.outcome = if a.ticket.replies then .deferred else .noReply
  course : Waits m a key r ∨ d.Settles m a key r

section Follows

variable {d : Dispatcher} {m : MadeCall} {a : Admission} {key : Nat} {r : Run}

-- A call with a task has no reply in its outcome.
theorem Follows.reply?_eq_none (h : d.Follows m a key r) : m.outcome.reply? = none := by
  rw [h.outcome]
  split <;> rfl

/-- A call that waits under a key goes by what it was called with. -/
theorem Follows.correlation_eq (h : d.Follows m a key r) (hregular : r.state.IsRegular)
    (p : Pending) (hp : p ∈ r.state.pending) (hkey : p.key = key) :
    p.ticket.correlation = m.call.correlation := by
  rcases h.course with hwaits | hsettles
  · have hsame : begun m a key = p.awaited :=
      hregular.eq_awaited p hp _ hwaits.awaited hkey.symm
    have hticket : a.ticket = p.ticket := congrArg Awaited.ticket hsame
    rw [← hticket, (d.of_admission_eq_ok m.call a h.admitted).2.2]
  · exact absurd hkey (hsettles.gone p.awaited (List.mem_map_of_mem hp))

end Follows

-- What a step leaves alone of a call does not change its course.
theorem Waits.of_sameFor {m : MadeCall} {a : Admission} {key : Nat} {r r' : Run}
    (h : Waits m a key r) (hsame : Run.SameFor key r r') : Waits m a key r' := by
  refine ⟨(hsame.awaited _ rfl).mpr h.awaited, hsame.deliveries.trans h.silent, fun t hmem => ?_⟩
  exact h.unconcluded t ((hsame.concluded t).mp hmem)

variable {d} in
theorem Settles.of_sameFor {m : MadeCall} {a : Admission} {key : Nat} {r r' : Run}
    (h : d.Settles m a key r) (hsame : Run.SameFor key r r') : d.Settles m a key r' := by
  refine ⟨fun e he hkey => ?_, (hsame.concluded _).mpr h.concluded, ?_⟩
  · exact h.gone e ((hsame.awaited e hkey).mp he) hkey
  · rw [hsame.deliveries]
    exact h.replied

-- The call that is concluded gets its one reply in this step.
theorem settles_of_settle (m : MadeCall) (a : Admission) (r r' : Run) (hregular : r.state.IsRegular)
    (p : Pending) (answer : Answer) (hp : p ∈ r.state.pending) (h : Waits m a p.key r)
    (hstate : r'.state = r.state.settle p
      (p.ticket.reply? (answer.bind (d.contract.acceptResult p.expected))))
    (hhistory : r'.history = .concluded p.key p.ticket :: r.history) :
    d.Settles m a p.key r' := by
  -- What waits under the key is what began to wait under it.
  have hsame : begun m a p.key = p.awaited := hregular.eq_awaited p hp _ h.awaited rfl
  have hticket : a.ticket = p.ticket := congrArg Awaited.ticket hsame
  have hexpected : a.operation.returns.value? = p.expected := congrArg Awaited.expected hsame
  have hsink : m.sink = p.sink := congrArg Awaited.sink hsame
  refine ⟨?_, ?_, answer.bind (d.contract.acceptResult p.expected), ?_, ?_⟩
  · intro e he
    rw [hstate, State.mem_awaited_settle] at he
    exact he.2
  · rw [hhistory, hticket]
    exact List.mem_cons_self
  · rw [hexpected]
    exact fun v hv => d.contract.fits_of_acceptResult p.expected answer v hv
  · rw [hstate, hticket, hsink, State.deliveries_settle, h.silent, List.nil_append]

/-- A step leaves a call alone unless it concludes it. -/
theorem sameFor_or_concluded (r r' : Run) (hregular : r.state.IsRegular) (hstep : d.Step r r')
    (key : Nat) (hbelow : key < r.state.nextKey) :
    Run.SameFor key r r'
      ∨ ∃ (p : Pending) (answer : Answer), p ∈ r.state.pending ∧ p.key = key
        ∧ r'.state = r.state.settle p
          (p.ticket.reply? (answer.bind (d.contract.acceptResult p.expected)))
        ∧ r'.history = .concluded p.key p.ticket :: r.history := by
  rcases d.quiet_or_started_or_concluded r r' hregular hstep with
    hquiet | ⟨m, a, task, hstarted, hhistory⟩ | ⟨p, answer, hp, hstate, hhistory⟩
  · rcases hquiet.history with ⟨x, hhistory, _, hconcluded⟩
    refine Or.inl ⟨fun e _ => hquiet.awaited e, ?_, fun t => ?_⟩
    · rw [State.deliveries, hquiet.outbox, State.deliveries]
    · rw [hhistory, List.mem_cons]
      exact or_iff_right fun heq => hconcluded key t heq.symm
  · refine Or.inl ⟨fun e hkey => ?_, ?_, fun t => ?_⟩
    · rw [hstarted.mem_awaited]
      refine or_iff_left fun heq => ?_
      rw [heq] at hkey
      exact Nat.ne_of_gt hbelow hkey
    · rw [State.deliveries, hstarted.same.outbox]
      rfl
    · rw [hhistory, List.mem_cons]
      exact or_iff_right nofun
  -- A call that is concluded is this one, or its end changes nothing for this one.
  · by_cases hkey : p.key = key
    · exact Or.inr ⟨p, answer, hp, hkey, hstate, hhistory⟩
    · refine Or.inl ⟨fun e he => ?_, ?_, fun t => ?_⟩
      · rw [hstate, State.mem_awaited_settle, he]
        exact and_iff_left (Ne.symm hkey)
      · rw [hstate, State.deliveries, State.settle, List.filter_append]
        refine (congrArg _ (List.filter_eq_nil_iff.mpr fun e he => ?_)).trans (List.append_nil _)
        rcases List.mem_map.mp he with ⟨reply, _, rfl⟩
        simpa using hkey
      · rw [hhistory, List.mem_cons]
        refine or_iff_right fun heq => hkey ?_
        cases heq
        rfl

/-- A call that has just begun waits: nothing has ever been heard of its key. -/
theorem waits_of_started (r r' : Run) (htraced : r.IsTraced) (m : MadeCall) (a : Admission)
    (task : Task) (hstarted : d.Started m a task r.state r'.state)
    (hhistory : r'.history = .called m :: r.history) : Waits m a r.state.nextKey r' := by
  have hunmade : ¬ r.HasMade r.state.nextKey := fun hmade =>
    Nat.lt_irrefl _ (htraced.below _ hmade)
  refine ⟨(hstarted.mem_awaited _).mpr (Or.inr rfl), ?_, fun t hmem => ?_⟩
  · rw [State.deliveries, hstarted.same.outbox, List.filter_eq_nil_iff]
    intro e he hkey
    exact hunmade (of_decide_eq_true hkey ▸ htraced.sent e he)
  · rw [hhistory] at hmem
    simp only [List.mem_cons, reduceCtorEq, false_or] at hmem
    exact hunmade (htraced.concluded _ t hmem)

/-- One step further in the course of a call. -/
theorem follows_of_step (r r' : Run) (hregular : r.state.IsRegular) (htraced : r.IsTraced)
    (hstep : d.Step r r') (m : MadeCall) (a : Admission) (key : Nat)
    (hmade : r.HasMade key) (h : d.Follows m a key r) : d.Follows m a key r' := by
  refine ⟨h.admitted, h.outcome, ?_⟩
  rcases d.sameFor_or_concluded r r' hregular hstep key (htraced.below key hmade) with
    hsame | ⟨p, answer, hp, rfl, hstate, hhistory⟩
  · exact h.course.imp (fun hwaits => hwaits.of_sameFor hsame)
      (fun hsettles => hsettles.of_sameFor hsame)
  · rcases h.course with hwaits | hsettles
    · exact Or.inr (d.settles_of_settle m a r r' hregular p answer hp hwaits hstate hhistory)
    -- A settled call is gone, so it cannot be concluded again.
    · exact absurd rfl (hsettles.gone p.awaited (List.mem_map_of_mem hp))

/-- A call with a task waits or is settled. -/
theorem follows_of_reaches (r : Run) (h : d.Reaches r) (m : MadeCall) (hm : .called m ∈ r.history)
    (key : Nat) (hkey : m.key = some key) : ∃ a, d.Follows m a key r := by
  refine Reaches.induct d (P := fun r => .called m ∈ r.history → ∃ a, d.Follows m a key r)
    ?_ ?_ r h hm
  · intro hm
    cases hm
  · intro r r' hreaches hstep ih hm
    have hregular := d.isRegular_of_reaches r hreaches
    have htraced := d.isTraced_of_reaches r hreaches
    rcases d.called_cases r r' hstep m hm with hm | hended | ⟨a, task, hstarted, hhistory⟩
    · exact (ih hm).imp fun a h =>
        d.follows_of_step r r' hregular htraced hstep m a key ⟨m, hm, hkey⟩ h
    · rw [hended.key] at hkey
      cases hkey
    · rw [hstarted.key, Option.some.injEq] at hkey
      cases hkey
      exact ⟨a, hstarted.admitted, hstarted.outcome,
        Or.inl (d.waits_of_started r r' htraced m a task hstarted hhistory)⟩

end Dispatcher

end PlatformBridge
