import PlatformBridge.Proofs.Dispatch.Calls

/-!
# Which Calls Can Be Canceled

A call that waits under a number should be canceled by that number. It can,
unless another call with the same number came to its end in the meantime: the
end of a call frees its number whichever call it stands for by then. Two calls
with one number wait at the same time where the first of them was canceled,
which frees the number at once, and was not yet concluded when the second one
was made. The end of the first then takes the second off the list of those that
can be canceled.

So whether a call can be canceled does not depend on the state alone, and the
condition is about the past: no call of the number has ended since this one was
made. `endsSince` reads it off the history. `OwnsItsNumber` states this of all
waiting calls at once, and every step keeps it in both directions: only the end
of a call with the number takes it from a call that has no signal, and a call
that has lost its number does not get it back. That the owner of a number is
the one that a cancellation finds is a matter of the registry alone.

## Main definitions

* `Happening.endsSince`: The calls that ended since a call was made.
* `Dispatcher.State.IsCancelable`: A call that waits is found by its number and
  signaled.
* `Dispatcher.OwnsItsNumber`: When a waiting call owns its number.

## Theorems

* `Dispatcher.State.IsRegular.isCancelable`: The owner of a number is canceled
  by it.
* `Dispatcher.ownsItsNumber_of_step`, `Dispatcher.ownsItsNumber_of_reaches`:
  When a call that waits owns its number.
* `Dispatcher.isCancelable_iff`: When a call that waits can be canceled.
* `Dispatcher.exists_not_isCancelable`: A call that waits and cannot be
  canceled.
-/

namespace PlatformBridge

/-- The tickets of the calls that ended after the call with a key was made, by what happened, the
    latest first. -/
def Happening.endsSince (key : Nat) : List Happening → List Ticket
  | [] => []
  | x :: before =>
    if x.key? = some key then []
    else match x with
      | .concluded _ ticket => ticket :: endsSince key before
      | _ => endsSince key before

namespace Dispatcher

/-- A call that waits is canceled by a number: it owns the number, and a cancellation says that
    there was a call, and signals this one. -/
structure State.IsCancelable (s : State) (p : Pending) (id : CorrelationId) : Prop where
  owns : (id, p.key) ∈ s.running
  answers : (s.cancel id).2 = true
  signals : { p with isSignaled := true } ∈ (s.cancel id).1.pending

variable (d : Dispatcher)

-- The owner of a number is canceled by it.
theorem State.IsRegular.isCancelable {s : State} (h : s.IsRegular) (p : Pending)
    (hp : p ∈ s.pending) (id : CorrelationId) (howns : (id, p.key) ∈ s.running) :
    s.IsCancelable p id := by
  rcases s.cancel_cases id with ⟨_, hfree⟩ | ⟨key, hmem, hcancel⟩
  · exact absurd howns (hfree p.key)
  · cases h.key_unique id key p.key hmem howns
    refine ⟨howns, ?_, ?_⟩
    · rw [hcancel]
      exact List.any_eq_true.mpr ⟨p, hp, decide_eq_true rfl⟩
    · rw [hcancel]
      exact List.mem_map.mpr ⟨p, hp, if_pos rfl⟩

theorem State.mem_running_add (s : State) (p : Pending) (id : CorrelationId) (key : Nat) :
    (id, key) ∈ (s.add p).running
      ↔ (id, key) ∈ s.running ∨ p.ticket.correlation = some id ∧ key = p.key := by
  simp only [State.add, List.mem_append, List.mem_map, Option.mem_toList, Prod.mk.injEq]
  refine or_congr_right ⟨?_, ?_⟩
  · rintro ⟨id', hid, rfl, rfl⟩
    exact ⟨hid, rfl⟩
  · rintro ⟨hid, rfl⟩
    exact ⟨id, hid, rfl, rfl⟩

/-- A call that waits without a signal owns its number as long as no other call with the number
    ends. -/
def OwnsItsNumber (r : Run) : Prop :=
  ∀ p ∈ r.state.pending, p.isSignaled = false → ∀ id, p.ticket.correlation = some id →
    ((id, p.key) ∈ r.state.running
      ↔ ∀ t ∈ Happening.endsSince p.key r.history, t.correlation ≠ some id)

/-- A step takes the number from a call only where a call of this number ends. -/
theorem ownsItsNumber_of_step (r r' : Run) (hregular : r.state.IsRegular) (hstep : d.Step r r')
    (h : OwnsItsNumber r) : OwnsItsNumber r' := by
  intro p hp hsignal id hnumber
  cases hstep with
  | ended m s' hended =>
      rw [hended.same.pending] at hp
      rw [hended.same.running, h p hp hsignal id hnumber]
      simp only [Happening.endsSince, Happening.key?, hended.key, reduceCtorEq, if_false]
  | started m a task s' hstarted =>
      rw [hstarted.same.pending] at hp
      rw [hstarted.same.running]
      rcases List.mem_append.mp hp with hp | hp
      · -- The number of the new call goes with the new key.
        have hne : r.state.nextKey ≠ p.key := Nat.ne_of_gt (hregular.below p hp)
        rw [State.mem_running_add, h p hp hsignal id hnumber]
        simp only [Happening.endsSince, Happening.key?, hstarted.key, Option.some.injEq, hne,
          if_false, hne.symm, and_false, or_false]
      · cases List.mem_singleton.mp hp
        rw [State.mem_running_add]
        simp only [Happening.endsSince, Happening.key?, hstarted.key, if_true, List.not_mem_nil,
          false_implies, implies_true, iff_true]
        exact Or.inr ⟨hnumber, trivial⟩
  | missed id' hfree => exact h p hp hsignal id hnumber
  | signaled id' key hmem =>
      rcases List.mem_map.mp hp with ⟨q, hq, rfl⟩
      have hother := q.ne_of_isSignaled_signal_eq_false key hsignal
      rw [q.signal_of_ne key hother] at hsignal hnumber ⊢
      refine Iff.trans ?_ (h q hq hsignal id hnumber)
      refine (r.state.mem_withoutNumber (some id') (id, q.key)).trans (and_iff_left_of_imp ?_)
      -- The owner of the number that is canceled is the call that is signaled.
      rintro howns hsame
      cases hsame
      exact hother (hregular.key_unique id q.key key howns hmem)
  | resumed q gate next hmem htask =>
      rcases List.mem_append.mp hp with hp | hp
      · exact h p (List.mem_filter.mp hp).1 hsignal id hnumber
      · cases List.mem_singleton.mp hp
        exact h q hmem hsignal id hnumber
  | concluded w q answer hmem hanswer =>
      have hbefore := h p (List.mem_filter.mp hp).1 hsignal id hnumber
      refine (r.state.mem_withoutNumber q.ticket.correlation (id, p.key)).trans ?_
      rw [hbefore]
      simp only [Happening.endsSince, Happening.key?, reduceCtorEq, if_false, List.forall_mem_cons,
        and_comm, ne_eq]
  | raised id' payload hdeclared hopen => exact h p hp hsignal id hnumber
  | lost id' payload hrefused => exact h p hp hsignal id hnumber
  | closed => exact h p hp hsignal id hnumber

/-- In every run, a call that waits without a signal owns its number just if no call with the number
    has ended since. -/
theorem ownsItsNumber_of_reaches (r : Run) (h : d.Reaches r) : OwnsItsNumber r := by
  refine Reaches.induct d ?_ (fun r r' h hstep ih => ?_) r h
  · intro p hp
    cases hp
  · exact d.ownsItsNumber_of_step r r' (d.isRegular_of_reaches r h) hstep ih

/-- A call that waits without a signal can be canceled by its number exactly if no call with that
    number has ended since it was made. -/
theorem isCancelable_iff (r : Run) (h : d.Reaches r) (m : MadeCall) (hm : .called m ∈ r.history)
    (p : Pending) (hp : p ∈ r.state.pending) (hkey : m.key = some p.key)
    (hsignal : p.isSignaled = false) (id : CorrelationId) (hnumber : m.call.correlation = some id) :
    r.state.IsCancelable p id
      ↔ ∀ t ∈ Happening.endsSince p.key r.history, t.correlation ≠ some id := by
  have hregular := d.isRegular_of_reaches r h
  rcases d.follows_of_reaches r h m hm p.key hkey with ⟨a, hfollows⟩
  have hticket : p.ticket.correlation = some id :=
    (hfollows.correlation_eq hregular p hp rfl).trans hnumber
  rw [← d.ownsItsNumber_of_reaches r h p hp hsignal id hticket]
  exact ⟨fun hcancelable => hcancelable.owns, hregular.isCancelable p hp id⟩

/-- A call of the alarm under a number. -/
def waitCall (seconds : Nat) : Call := ⟨"Acme.Alarm.Wait", [.ofNat seconds], some 7⟩

/-- A call is canceled, and its number is used again before the canceled call is concluded. -/
def reuse : List Action :=
  [.call true .channel (waitCall 5), .cancel 7, .call true .channel (waitCall 6)]

/-- The second call, as it was made. -/
def secondCall : MadeCall := ⟨waitCall 6, .channel, .deferred, some 1⟩

/-- The second call, as it waits. -/
def secondPending : Pending :=
  ⟨1, ⟨"Acme.Alarm.Wait", some 7, true⟩, some (.primitive .i32), .channel,
    .waiting "time" (.ended (.value (.ok (.ofNat 6)))), false⟩

/-- The number is used again while the first call has not ended, and stands for the second one. -/
theorem isCancelable_of_reuse :
    alarm.Reaches (alarm.after reuse)
      ∧ .called secondCall ∈ (alarm.after reuse).history
      ∧ secondPending ∈ (alarm.after reuse).state.pending
      ∧ (alarm.after reuse).state.IsCancelable secondPending 7 := by
  have h : alarm.Reaches (alarm.after reuse) := alarm.reaches_after reuse
  have hm : .called secondCall ∈ (alarm.after reuse).history := List.mem_cons_self
  have hp : secondPending ∈ (alarm.after reuse).state.pending :=
    List.mem_cons_of_mem _ List.mem_cons_self
  have hends : Happening.endsSince 1 (alarm.after reuse).history = [] := rfl
  refine ⟨h, hm, hp, ?_⟩
  refine (alarm.isCancelable_iff _ h secondCall hm secondPending hp rfl rfl 7 rfl).mpr ?_
  intro t ht
  rw [show secondPending.key = 1 from rfl, hends] at ht
  cases ht

/-- The second call waits, has no signal and was not concluded. When the first one is concluded, no
    number is taken any more, and a cancellation finds nothing. -/
theorem exists_not_isCancelable :
    let r := alarm.after (reuse ++ [.conclude .canceled 0])
    alarm.Reaches r
      ∧ .called secondCall ∈ r.history
      ∧ secondCall.outcome = .deferred ∧ secondCall.call.correlation = some 7
      ∧ secondPending ∈ r.state.pending ∧ secondCall.key = some secondPending.key
      ∧ secondPending.isSignaled = false
      ∧ r.state.running = [] ∧ (r.state.cancel 7).2 = false
      ∧ ¬ r.state.IsCancelable secondPending 7 := by
  intro r
  have hrunning : r.state.running = [] := rfl
  refine ⟨alarm.reaches_after _, List.mem_cons_of_mem _ List.mem_cons_self, rfl, rfl,
    List.mem_cons_self, rfl, rfl, hrunning, rfl, fun hcancelable => ?_⟩
  have howns := hcancelable.owns
  rw [hrunning] at howns
  cases howns

end Dispatcher

end PlatformBridge
