import PlatformBridge.Proofs.Dispatch.Cancellation

/-!
# No Number Stays Taken

A number is registered in one place, when a call with a task is made, and is
freed in three: by a cancellation, where the code of the operation panics
before there is a task, and by the end of a call. All of them go by the number
and not by the call, so a number may be freed early. It is never freed late.
What stands in the registry was put there by a call that has not come to its
end, so nothing is left once all calls have, whatever the order in which they
were made, canceled and concluded. A call that replies at once leaves the
registry as it found it, whichever way it fails.

The first part is read off the invariant: a number stands for a call that
waits, and a call that waits was made and is not settled. The second part is
about a single call in any state, and is not limited to states of runs.

## Main definitions

* `Run.HasSettled`: A call has come to its end.

## Theorems

* `Dispatcher.Waits.not_hasSettled`: A call that waits is not settled.
* `Dispatcher.exists_unsettled_of_running`: Whose number is taken.
* `Dispatcher.sameCalls_of_completed`: What a call leaves that replies at once.
* `Dispatcher.registry_of_reaches`: The registry in every run.
-/

namespace PlatformBridge

/-- A call has come to its end: it never had a task, or its task was concluded. -/
def Run.HasSettled (r : Run) (m : MadeCall) : Prop :=
  ∀ key, m.key = some key → ∃ t, .concluded key t ∈ r.history

namespace Dispatcher

variable (d : Dispatcher)

-- A call that waits is not settled.
theorem Waits.not_hasSettled {m : MadeCall} {a : Admission} {key : Nat} {r : Run}
    (h : Waits m a key r) (hkey : m.key = some key) : ¬ r.HasSettled m := by
  intro hsettled
  rcases hsettled key hkey with ⟨t, hconcluded⟩
  exact h.unconcluded t hconcluded

/-- A number is taken by a call that was made with it and has not come to its end. -/
theorem exists_unsettled_of_running (r : Run) (h : d.Reaches r) (id : CorrelationId) (key : Nat)
    (hmem : (id, key) ∈ r.state.running) : ∃ m, .called m ∈ r.history ∧ m.key = some key
      ∧ m.call.correlation = some id ∧ ¬ r.HasSettled m := by
  have hregular := d.isRegular_of_reaches r h
  rcases hregular.owned id key hmem with ⟨p, hp, rfl, hnumber, _⟩
  have hawaited : p.awaited ∈ r.state.awaited := List.mem_map_of_mem hp
  rcases (d.isTraced_of_reaches r h).awaited p.awaited hawaited with ⟨m, hm, hkey⟩
  rcases d.follows_of_reaches r h m hm p.key hkey with ⟨a, hfollows⟩
  refine ⟨m, hm, hkey, (hfollows.correlation_eq hregular p hp rfl).symm.trans hnumber, ?_⟩
  rcases hfollows.course with hwaits | hsettles
  · exact hwaits.not_hasSettled hkey
  -- A call whose task still waits has not been concluded.
  · exact absurd rfl (hsettles.gone p.awaited hawaited)

/-- A call that replies at once leaves all calls that wait as they were, with their numbers. -/
theorem sameCalls_of_completed (hasRunner : Bool) (sink : Sink) (call : Call) (s : State)
    (reply : Reply) (h : (d.call hasRunner sink call s).2 = .completed reply) :
    s.SameCalls (d.call hasRunner sink call s).1 := by
  rcases d.goes_call hasRunner sink call s with hended | ⟨a, task, hstarted⟩
  · exact hended.same
  -- A call that waits gives no reply yet.
  · have houtcome := hstarted.outcome
    rw [h] at houtcome
    split at houtcome <;> cases houtcome

/-- In every run, each number that is taken is that of a call which has not come to its end, so no
    number is taken once all calls have. A call that replies at once leaves the numbers as they
    were, whatever the state in which it is made. -/
theorem registry_of_reaches (r : Run) (h : d.Reaches r) :
    (∀ id key, (id, key) ∈ r.state.running → ∃ m, .called m ∈ r.history ∧ m.key = some key
        ∧ m.call.correlation = some id ∧ ¬ r.HasSettled m)
      ∧ ((∀ m, .called m ∈ r.history → r.HasSettled m) → r.state.running = [])
      ∧ ∀ hasRunner sink call (s : State) reply,
        (d.call hasRunner sink call s).2 = .completed reply →
        (d.call hasRunner sink call s).1.running = s.running := by
  refine ⟨d.exists_unsettled_of_running r h, fun hsettled => ?_,
    fun hasRunner sink call s reply hreply =>
      (d.sameCalls_of_completed hasRunner sink call s reply hreply).running⟩
  refine List.eq_nil_iff_forall_not_mem.mpr fun ⟨id, key⟩ hmem => ?_
  rcases d.exists_unsettled_of_running r h id key hmem with ⟨m, hm, _, _, hunsettled⟩
  exact hunsettled (hsettled m hm)

/-- Both calls of the reused number come to their ends. -/
def reuseToTheEnd : Run :=
  alarm.after (reuse ++ [.conclude .canceled 0, .resume 1, .conclude .answered 1])

/-- While its second call waits, the reused number is that of the second call; in the end it is free
    again. -/
theorem registry_of_reuse :
    alarm.Reaches (alarm.after reuse) ∧ alarm.Reaches reuseToTheEnd
      ∧ (∃ m, .called m ∈ (alarm.after reuse).history ∧ m.key = some 1
        ∧ m.call.correlation = some 7 ∧ ¬ (alarm.after reuse).HasSettled m)
      ∧ (∀ m, .called m ∈ reuseToTheEnd.history → reuseToTheEnd.HasSettled m)
      ∧ reuseToTheEnd.state.running = [] := by
  have hwaiting : alarm.Reaches (alarm.after reuse) := alarm.reaches_after _
  have hend : alarm.Reaches reuseToTheEnd := alarm.reaches_after _
  have hmem : ((7 : CorrelationId), 1) ∈ (alarm.after reuse).state.running := List.mem_cons_self
  -- The two calls with a task are concluded in the end, and there are no others.
  have hconcluded : ∀ key ∈ [0, 1],
      .concluded key ⟨"Acme.Alarm.Wait", some 7, true⟩ ∈ reuseToTheEnd.history := by
    intro key hkey
    simp only [List.mem_cons, List.not_mem_nil, or_false] at hkey
    rcases hkey with rfl | rfl
    · exact List.mem_cons_of_mem _ (List.mem_cons_of_mem _ List.mem_cons_self)
    · exact List.mem_cons_self
  have hkeys : ∀ key, key ∈ reuseToTheEnd.history.filterMap Happening.key? → key ∈ [0, 1] := by
    intro key hkey
    exact List.mem_reverse.mp hkey
  have hsettled : ∀ m, .called m ∈ reuseToTheEnd.history → reuseToTheEnd.HasSettled m := by
    intro m hm key hkey
    have hmade := (reuseToTheEnd.hasMade_iff key).mp ⟨m, hm, hkey⟩
    exact ⟨_, hconcluded key (hkeys key hmade)⟩
  exact ⟨hwaiting, hend, (alarm.registry_of_reaches _ hwaiting).1 7 1 hmem, hsettled,
    (alarm.registry_of_reaches _ hend).2.1 hsettled⟩

end Dispatcher

end PlatformBridge
