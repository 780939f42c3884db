import PlatformBridge.Proofs.Dispatch.Cancellation
import PlatformBridge.Proofs.Dispatch.Replies

/-!
# What a Signal Does

A cancellation that finds its call says so, and the reply to the call should
then tell of the cancellation. The signal does not end the call, though. The
call ends in a step of its own, and if its task has come to an end by then,
before the cancellation or after it, that step may take what the task left in
place of the signal.

So what holds is less. A signal stays until the call is concluded, and as long
as it is there the call can be concluded by it. A call that is concluded by its
signal tells of the cancellation, and one that is concluded otherwise had a
task that had ended, and replies with what the task left.

The statement is about all runs that go on from the one in which the call was
canceled, so `Leads` is a relation between runs, and the induction is along it.
It has two cases at every step, as the call is still signaled or is concluded
in this step, and a third one once the call is concluded, where nothing is
added to it. Which of the two answers is taken is up to the step. That both can
be is shown by a run in which the task has ended before the cancellation.

## Main definitions

* `Dispatcher.Leads`, `Dispatcher.canceledRun`: Runs that go on from others.
* `Dispatcher.IsSignaled`: A call that waits with a signal.
* `Dispatcher.Hands`, `Dispatcher.ConcludedBy`: How such a call ends, and with
  what.

## Theorems

* `Dispatcher.signaled_or_concluded_of_step`: A signal stays until its call is
  concluded.
* `Dispatcher.exists_conclude_of_act`, `Dispatcher.hands_of_answer?`,
  `Dispatcher.hands_of_act`: The end of a call with a signal.
* `Dispatcher.replies_eq_of_step`: After its end nothing is added to a call.
* `Dispatcher.signaled_or_concludedBy`: A call with a signal in all later runs.
* `Dispatcher.signaled_of_leads`: What becomes of a call that a cancellation has
  found.
* `Dispatcher.exists_answer_after_signal`: A call that is canceled and answers.
-/

namespace PlatformBridge

namespace Dispatcher

variable (d : Dispatcher)

/-- The runs that go on from a run. -/
inductive Leads : Run → Run → Prop where
  | refl (r : Run) : Leads r r
  | act (x : Action) (r r' r'' : Run) (h : Leads r r') (hact : d.act r' x = some r'') : Leads r r''

/-- A run with one more cancellation. -/
def canceledRun (r : Run) (id : CorrelationId) : Run :=
  ⟨(r.state.cancel id).1, r.channel, .canceled id (r.state.cancel id).2 :: r.history⟩

/-- A call waits with a signal: there is no reply to it, and it can be concluded by the signal. -/
structure IsSignaled (m : MadeCall) (key : Nat) (r : Run) : Prop where
  waits : ∃ p ∈ r.state.pending, p.key = key ∧ p.isSignaled = true
  concludable : (d.conclude .canceled key r.state).isSome = true
  silent : m.replies r = []

/-- What comes back from a call that waits in a run and is concluded in a certain way: that it was
    canceled, or what its task left, which has ended. -/
inductive Hands (key : Nat) (r : Run) : Conclusion → Answer → Prop where
  | canceled : Hands key r .canceled (.error ⟨.canceled, "operation was canceled"⟩)
  | answered (p : Pending) (ending : Ending Answer) (hp : p ∈ r.state.pending) (hkey : p.key = key)
      (htask : p.task = .ended ending) :
      Hands key r .answered (ending.answer.bind (d.contract.acceptResult p.expected))

/-- A call was concluded in a certain way on the way from a run to another, and what came back is
    its one reply. -/
structure ConcludedBy (m : MadeCall) (key : Nat) (r r' : Run) (w : Conclusion) (answer : Answer) :
    Prop where
  concluded : ∃ before after, d.Leads r before ∧ d.Hands key before w answer
    ∧ d.act before (.conclude w key) = some after ∧ d.Leads after r'
  replies : m.replies r' = [⟨m.call.operation, m.call.correlation, answer⟩]

variable {d}

theorem Leads.reaches {r r' : Run} (h : d.Leads r r') (hreaches : d.Reaches r) : d.Reaches r' := by
  induction h with
  | refl r => exact hreaches
  | act x r r' r'' _ hact ih => exact .act x r' r'' (ih hreaches) hact

variable (d)

-- A call that waits with a signal has all that belongs to it.
theorem isSignaled_of_pending (r : Run) (h : d.Reaches r) (m : MadeCall)
    (hm : .called m ∈ r.history) (p : Pending) (hp : p ∈ r.state.pending)
    (hkey : m.key = some p.key) (hsignal : p.isSignaled = true) : d.IsSignaled m p.key r := by
  have hregular := d.isRegular_of_reaches r h
  rcases d.follows_of_reaches r h m hm p.key hkey with ⟨a, hfollows⟩
  refine ⟨⟨p, hp, rfl, hsignal⟩, ?_, ?_⟩
  · rw [d.isSome_conclude_iff .canceled r.state hregular p hp, Conclusion.answer?, if_pos hsignal]
    rfl
  · rcases hfollows.course with hwaits | hsettles
    · rw [hfollows.replies_eq hkey, hwaits.silent, List.map_nil]
    · exact absurd rfl (hsettles.gone p.awaited (List.mem_map_of_mem hp))

/-- A signal stays until its call is concluded. -/
theorem signaled_or_concluded_of_step (r r' : Run) (hregular : r.state.IsRegular)
    (hstep : d.Step r r') (p : Pending) (hp : p ∈ r.state.pending) (hsignal : p.isSignaled = true) :
    (∃ q ∈ r'.state.pending, q.key = p.key ∧ q.isSignaled = true)
      ∨ r'.history = .concluded p.key p.ticket :: r.history := by
  -- A signal stays with the call, and only the step that concludes the call takes it away.
  cases hstep with
  | ended m s' hended => exact Or.inl ⟨p, hended.same.pending ▸ hp, rfl, hsignal⟩
  | started m a task s' hstarted =>
      refine Or.inl ⟨p, ?_, rfl, hsignal⟩
      rw [hstarted.same.pending]
      exact List.mem_append_left _ hp
  | missed id hfree => exact Or.inl ⟨p, hp, rfl, hsignal⟩
  | signaled id key hmem =>
      refine Or.inl ⟨p.signal key, List.mem_map_of_mem hp, p.key_signal key, ?_⟩
      rw [Pending.signal]
      split
      · rfl
      · exact hsignal
  | resumed q gate next hmem htask =>
      by_cases hkey : p.key = q.key
      · cases hregular.eq_of_key p q hp hmem hkey
        exact Or.inl ⟨_, List.mem_append_right _ List.mem_cons_self, rfl, hsignal⟩
      · refine Or.inl ⟨p, List.mem_append_left _ (List.mem_filter.mpr ⟨hp, ?_⟩), rfl, hsignal⟩
        simpa using hkey
  | concluded w q answer hmem hanswer =>
      by_cases hkey : p.key = q.key
      · cases hregular.eq_of_key p q hp hmem hkey
        exact Or.inr rfl
      · refine Or.inl ⟨p, List.mem_filter.mpr ⟨hp, ?_⟩, rfl, hsignal⟩
        simpa using hkey
  | raised id payload hdeclared hopen => exact Or.inl ⟨p, hp, rfl, hsignal⟩
  | lost id payload hrefused => exact Or.inl ⟨p, hp, rfl, hsignal⟩
  | closed => exact Or.inl ⟨p, hp, rfl, hsignal⟩

/-- Every step adds one thing to what happened. -/
theorem exists_history_of_step (r r' : Run) (hstep : d.Step r r') :
    ∃ x, r'.history = x :: r.history := by
  cases hstep <;> exact ⟨_, rfl⟩

-- Only one kind of step concludes a call.
theorem exists_conclude_of_act (x : Action) (r r' : Run) (h : d.act r x = some r') (key : Nat)
    (t : Ticket) (hhistory : r'.history = .concluded key t :: r.history) :
    ∃ w, x = .conclude w key := by
  -- Every action leaves a mark of its own in the history, and this one is left by a conclusion.
  cases x with
  | conclude w key' =>
      simp only [act, Option.bind_eq_bind, Option.bind_eq_some_iff, Option.some.injEq] at h
      rcases h with ⟨p, _, s', _, rfl⟩
      cases hhistory
      exact ⟨w, rfl⟩
  | call hasRunner sink call =>
      cases h
      cases hhistory
  | cancel id =>
      cases h
      cases hhistory
  | resume key' =>
      rcases Option.map_eq_some_iff.mp h with ⟨s', _, rfl⟩
      cases hhistory
  | raise id payload =>
      simp only [act] at h
      split at h <;> cases h <;> cases hhistory
  | close =>
      cases h
      cases hhistory

-- Of a canceled call nothing is left to be checked.
theorem hands_of_answer? (r : Run) (w : Conclusion) (p : Pending) (hp : p ∈ r.state.pending)
    (answer : Answer) (h : w.answer? p = some answer) :
    d.Hands p.key r w (answer.bind (d.contract.acceptResult p.expected)) := by
  cases w with
  | canceled =>
      simp only [Conclusion.answer?, Option.ite_none_right_eq_some, Option.some.injEq] at h
      rw [← h.2]
      exact .canceled
  | answered =>
      cases htask : p.task with
      | ended ending =>
          simp only [Conclusion.answer?, htask, Option.some.injEq] at h
          rw [← h]
          exact .answered p ending hp rfl htask
      | waiting gate next => simp only [Conclusion.answer?, htask, reduceCtorEq] at h
      | never => simp only [Conclusion.answer?, htask, reduceCtorEq] at h

/-- A call that is concluded replies with what comes back from it then. -/
theorem hands_of_act (r r' : Run) (h : d.Reaches r) (m : MadeCall) (hm : .called m ∈ r.history)
    (hdeferred : m.outcome = .deferred) (w : Conclusion) (key : Nat) (hkey : m.key = some key)
    (hact : d.act r (.conclude w key) = some r') :
    ∃ answer, d.Hands key r w answer
      ∧ m.replies r' = [⟨m.call.operation, m.call.correlation, answer⟩] := by
  have hregular := d.isRegular_of_reaches r h
  have hreaches : d.Reaches r' := .act _ r r' h hact
  simp only [act, Option.bind_eq_bind, Option.bind_eq_some_iff, Option.some.injEq] at hact
  rcases hact with ⟨p, hfind, s', hconclude, rfl⟩
  rcases (d.conclude_eq_some_iff w key _ s').mp hconclude with ⟨q, answer, hq, hanswer, rfl⟩
  cases hfind.symm.trans hq
  rcases r.state.find?_key_eq_some key p hfind with ⟨hp, rfl⟩
  rcases d.follows_of_reaches r h m hm p.key hkey with ⟨a, hfollows⟩
  have hmade := d.follows_of_reaches _ hreaches m (List.mem_cons_of_mem _ hm) p.key hkey
  rcases hmade with ⟨_, hfollows'⟩
  -- The call still waits before the action, since it is among those that are pending.
  rcases hfollows.course with hwaits | hsettles
  · have hsame : begun m a p.key = p.awaited := hregular.eq_awaited p hp _ hwaits.awaited rfl
    have hticket : p.ticket = a.ticket := (congrArg Awaited.ticket hsame).symm
    have hreplies : a.ticket.replies = true := by
      by_contra hnot
      have houtcome := hfollows.outcome
      rw [if_neg hnot, hdeferred] at houtcome
      cases houtcome
    refine ⟨_, d.hands_of_answer? r w p hp answer hanswer, ?_⟩
    rw [hfollows'.replies_eq hkey, State.deliveries_settle, hwaits.silent, hticket,
      (a.ticket.reply?_eq_some_iff _ _).mpr ⟨hreplies, rfl⟩,
      (d.of_admission_eq_ok m.call a hfollows.admitted).2.2]
    rfl
  · exact absurd rfl (hsettles.gone p.awaited (List.mem_map_of_mem hp))

/-- After its end nothing is added to a call. -/
theorem replies_eq_of_step (r r' : Run) (h : d.Reaches r) (hstep : d.Step r r') (m : MadeCall)
    (hm : .called m ∈ r.history) (key : Nat) (hkey : m.key = some key)
    (hreplied : m.replies r ≠ []) : m.replies r' = m.replies r := by
  rcases d.follows_of_reaches r h m hm key hkey with ⟨a, hfollows⟩
  have hbelow := (d.isTraced_of_reaches r h).below key ⟨m, hm, hkey⟩
  rcases hfollows.course with hwaits | hsettles
  · rw [hfollows.replies_eq hkey, hwaits.silent] at hreplied
    exact absurd rfl hreplied
  · rcases d.sameFor_or_concluded r r' (d.isRegular_of_reaches r h) hstep key hbelow with
      hsame | ⟨p, _, hp, rfl, _⟩
    · simp only [MadeCall.replies, hkey, Option.toList_some, List.flatMap_singleton,
        hsame.deliveries]
    · exact absurd rfl (hsettles.gone p.awaited (List.mem_map_of_mem hp))

/-- What happened is not forgotten in later runs. -/
theorem called_of_leads {r r' : Run} (h : d.Leads r r') (m : MadeCall)
    (hm : .called m ∈ r.history) : .called m ∈ r'.history := by
  induction h with
  | refl r => exact hm
  | act x r r' r'' _ hact ih =>
      rcases d.exists_history_of_step r' r'' (d.step_of_act_eq_some x r' r'' hact) with ⟨y, hy⟩
      rw [hy]
      exact List.mem_cons_of_mem y (ih hm)

/-- A call with a signal waits with it, or was concluded and has its reply. -/
theorem signaled_or_concludedBy (r : Run) (h : d.Reaches r) (m : MadeCall)
    (hm : .called m ∈ r.history) (hdeferred : m.outcome = .deferred) (key : Nat)
    (hkey : m.key = some key) (hsignaled : d.IsSignaled m key r) (r' : Run)
    (hleads : d.Leads r r') :
    d.IsSignaled m key r' ∨ ∃ w answer, d.ConcludedBy m key r r' w answer := by
  induction hleads with
  | refl _ => exact Or.inl hsignaled
  | act x _ r₁ r₂ hleads hact ih =>
      have hreaches := hleads.reaches h
      have hmade := d.called_of_leads hleads m hm
      have hstep := d.step_of_act_eq_some x r₁ r₂ hact
      rcases ih h hm hsignaled with hwaits | ⟨w, answer, hconcluded⟩
      · rcases hwaits.waits with ⟨p, hp, rfl, hsignal⟩
        rcases d.signaled_or_concluded_of_step r₁ r₂ (d.isRegular_of_reaches r₁ hreaches) hstep p hp
          hsignal with ⟨q, hq, hsame, hstays⟩ | hhistory
        · have hcalled := d.called_of_leads (.act x _ r₁ r₂ hleads hact) m hm
          rw [← hsame] at hkey ⊢
          exact Or.inl (d.isSignaled_of_pending r₂ (.act x r₁ r₂ hreaches hact) m hcalled q hq hkey
            hstays)
        · rcases d.exists_conclude_of_act x r₁ r₂ hact p.key p.ticket hhistory with ⟨w, rfl⟩
          rcases d.hands_of_act r₁ r₂ hreaches m hmade hdeferred w p.key hkey hact with
            ⟨answer, hhands, hreply⟩
          exact Or.inr ⟨w, answer, ⟨r₁, r₂, hleads, hhands, hact, .refl r₂⟩, hreply⟩
      -- Once it is concluded, nothing that follows adds to its replies.
      · rcases hconcluded.concluded with ⟨before, after, hbefore, hhands, hturn, hafter⟩
        refine Or.inr ⟨w, answer, ⟨before, after, hbefore, hhands, hturn,
          .act x _ r₁ r₂ hafter hact⟩, ?_⟩
        rw [← hconcluded.replies]
        refine d.replies_eq_of_step r₁ r₂ hreaches hstep m hmade key hkey ?_
        rw [hconcluded.replies]
        exact List.cons_ne_nil _ _

-- A call with a task whose operation answers got nothing at once.
theorem Follows.outcome_eq_deferred {d : Dispatcher} {m : MadeCall} {a : Admission} {key : Nat}
    {r : Run} (h : d.Follows m a key r)
    (hreplies : ∀ service o, d.contract.operation? m.call.operation = some (service, o) →
      o.returns ≠ .fireAndForget) : m.outcome = .deferred := by
  rcases d.of_admission_eq_ok m.call a h.admitted with ⟨⟨service, hfound⟩, _⟩
  rw [h.outcome, if_pos]
  by_contra hsilent
  have hforgets := (h.replies_eq_false_iff service a.operation hfound).mp
    (Bool.eq_false_iff.mpr hsilent)
  exact hreplies service a.operation hfound hforgets

/-- A cancellation that finds a call says so. From then on the call waits with a signal, by which it
    can be concluded; and once it is concluded it has one reply, which tells of the cancellation if
    it was concluded by the signal, and else is what its task left, which had ended. -/
theorem signaled_of_leads (r : Run) (h : d.Reaches r) (m : MadeCall) (hm : .called m ∈ r.history)
    (hreplies : ∀ service o, d.contract.operation? m.call.operation = some (service, o) →
      o.returns ≠ .fireAndForget)
    (p : Pending) (hkey : m.key = some p.key) (id : CorrelationId)
    (hcancel : r.state.IsCancelable p id) (r' : Run) (hleads : d.Leads (canceledRun r id) r') :
    d.act r (.cancel id) = some (canceledRun r id) ∧ (r.state.cancel id).2 = true
      ∧ (d.IsSignaled m p.key r'
        ∨ ∃ w answer, d.ConcludedBy m p.key (canceledRun r id) r' w answer) := by
  rcases d.follows_of_reaches r h m hm p.key hkey with ⟨a, hfollows⟩
  have hdeferred := hfollows.outcome_eq_deferred hreplies
  have hstart : d.Reaches (canceledRun r id) := .act (.cancel id) r _ h rfl
  have hcalled : .called m ∈ (canceledRun r id).history := List.mem_cons_of_mem _ hm
  have hsignaled := d.isSignaled_of_pending _ hstart m hcalled _ hcancel.signals hkey rfl
  exact ⟨rfl, hcancel.answers,
    d.signaled_or_concludedBy _ hstart m hcalled hdeferred p.key hkey hsignaled r' hleads⟩

/-- A call whose task has ended before it is canceled. -/
def late : List Action := [.call true .channel (waitCall 5), .resume 0]

/-- The call, as it was made. -/
def lateCall : MadeCall := ⟨waitCall 5, .channel, .deferred, some 0⟩

/-- The call, as it waits to be concluded. -/
def latePending : Pending :=
  ⟨0, ⟨"Acme.Alarm.Wait", some 7, true⟩, some (.primitive .i32), .channel,
    .ended (.value (.ok (.ofNat 5))), false⟩

theorem isCancelable_latePending : (alarm.after late).state.IsCancelable latePending 7 :=
  (alarm.isRegular_of_reaches _ (alarm.reaches_after late)).isCancelable latePending
    List.mem_cons_self 7 List.mem_cons_self

theorem lateCall_replies (service : Service) (o : Operation)
    (h : alarm.contract.operation? lateCall.call.operation = some (service, o)) :
    o.returns ≠ .fireAndForget := by
  cases h
  decide

/-- The run in which the call is canceled and then concluded in a certain way. -/
def lateRun (w : Conclusion) : Run := alarm.after (late ++ [.cancel 7, .conclude w 0])

theorem leads_lateRun_canceled :
    alarm.Leads (canceledRun (alarm.after late) 7) (lateRun .canceled) :=
  .act (.conclude .canceled 0) _ _ _ (.refl _) rfl

/-- A call whose task has ended is canceled, and concluded by the signal. -/
theorem signaled_of_late :
    alarm.Reaches (alarm.after late)
      ∧ .called lateCall ∈ (alarm.after late).history
      ∧ (alarm.after late).state.IsCancelable latePending 7
      ∧ (alarm.IsSignaled lateCall 0 (lateRun .canceled)
        ∨ ∃ w answer, alarm.ConcludedBy lateCall 0 (canceledRun (alarm.after late) 7)
          (lateRun .canceled) w answer)
      ∧ lateCall.replies (lateRun .canceled)
        = [⟨"Acme.Alarm.Wait", some 7, .error ⟨.canceled, "operation was canceled"⟩⟩] := by
  have h := alarm.reaches_after late
  have hm : .called lateCall ∈ (alarm.after late).history :=
    List.mem_cons_of_mem _ List.mem_cons_self
  exact ⟨h, hm, isCancelable_latePending,
    (alarm.signaled_of_leads _ h lateCall hm lateCall_replies latePending rfl 7
      isCancelable_latePending _ leads_lateRun_canceled).2.2, rfl⟩

/-- The cancellation finds the call, and still the call replies with what its task left. -/
theorem exists_answer_after_signal :
    alarm.Reaches (alarm.after late)
      ∧ .called lateCall ∈ (alarm.after late).history
      ∧ latePending ∈ (alarm.after late).state.pending ∧ lateCall.key = some latePending.key
      ∧ (∀ service o, alarm.contract.operation? lateCall.call.operation = some (service, o) →
        o.returns ≠ .fireAndForget)
      ∧ (alarm.after late).state.IsCancelable latePending 7
      ∧ ((alarm.after late).state.cancel 7).2 = true
      ∧ alarm.Leads (canceledRun (alarm.after late) 7) (lateRun .answered)
      ∧ lateCall.replies (lateRun .answered) = [⟨"Acme.Alarm.Wait", some 7, .ok (.ofNat 5)⟩] := by
  refine ⟨alarm.reaches_after late, List.mem_cons_of_mem _ List.mem_cons_self, List.mem_cons_self,
    rfl, lateCall_replies, isCancelable_latePending, rfl, ?_, rfl⟩
  exact .act (.conclude .answered 0) _ _ _ (.refl _) rfl

end Dispatcher

end PlatformBridge
