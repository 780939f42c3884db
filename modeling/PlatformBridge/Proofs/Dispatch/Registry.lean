import Mathlib.Data.List.Nodup
import PlatformBridge.Proofs.Dispatch.Step

/-!
# The Numbers in Use

A number is taken while a call that waits can be canceled by it. It stands for
one call, which has that number and no signal yet, so a cancellation by a
number that is taken meets a call. This holds in every run, whatever the order
of its steps. What does not hold is that every waiting call with a number is
found under it; that depends on the past.

`IsRegular` is the invariant that all later modules start from. It has the
facts about keys too, that they are distinct and below the next one, because
the facts about numbers cannot be kept without them: a number stands for a key.

Each operation on states has its own lemma, and the step lemma puts them
together. Signals are where the invariant is tight. A signal frees the number
of the call that it goes to, and if it did not, the number would stand for a
call that is signaled already.

## Main definitions

* `Dispatcher.State.IsRegular`: Keys and numbers are used once, and numbers by
  calls that wait.

## Theorems

* `Dispatcher.State.mem_withoutNumber`: What a freed number leaves.
* `Dispatcher.State.refusal?_eq_none_iff`: When a number is free.
* `Dispatcher.State.IsRegular.eq_of_key`,
  `Dispatcher.State.IsRegular.key_unique`: What keys and numbers stand for.
* `Dispatcher.State.IsRegular.add`, `.signal`, `.requeue`, `.settle`: What
  steps keep.
* `Dispatcher.isRegular_of_step`, `Dispatcher.isRegular_of_reaches`: The states
  of all runs are regular.
-/

namespace PlatformBridge

namespace Dispatcher

namespace State

/-- Keys and numbers are used once, and every number that is taken is that of a call that waits and
    is not signaled. -/
structure IsRegular (s : State) : Prop where
  below : ∀ p ∈ s.pending, p.key < s.nextKey
  keys : (s.pending.map (·.key)).Nodup
  numbers : (s.running.map (·.1)).Nodup
  owned : ∀ id key, (id, key) ∈ s.running →
    ∃ p ∈ s.pending, p.key = key ∧ p.ticket.correlation = some id ∧ p.isSignaled = false

variable (s : State)

/-- Freeing a number takes off all that stands for it, and nothing else. -/
theorem mem_withoutNumber (number : Option CorrelationId) (e : CorrelationId × Nat) :
    e ∈ s.withoutNumber number ↔ e ∈ s.running ∧ number ≠ some e.1 := by
  cases number with
  | none => simp [withoutNumber]
  | some id =>
      rw [withoutNumber, List.mem_filter, decide_eq_true_eq, ne_eq, ne_eq, Option.some.injEq,
        eq_comm (a := id)]

theorem withoutNumber_sublist (number : Option CorrelationId) :
    (s.withoutNumber number).Sublist s.running := by
  cases number with
  | none => exact List.Sublist.refl _
  | some id => exact List.filter_sublist

-- A call is not refused if nothing stands under its number.
theorem refusal?_eq_none_iff (number : Option CorrelationId) :
    s.refusal? number = none ↔ ∀ id key, number = some id → (id, key) ∉ s.running := by
  cases number with
  | none => simp [refusal?]
  | some id =>
      rw [State.refusal?]
      constructor
      · intro h id' key hid hmem
        cases hid
        have htaken : s.isTaken id = true :=
          List.any_eq_true.mpr ⟨(id, key), hmem, decide_eq_true rfl⟩
        rw [if_pos htaken] at h
        cases h
      · intro h
        refine if_neg fun htaken => ?_
        rcases List.any_eq_true.mp htaken with ⟨⟨id', key⟩, hmem, hid⟩
        exact h id' key (congrArg some (of_decide_eq_true hid).symm) hmem

-- A call is known by its key.
theorem IsRegular.eq_of_key {s : State} (h : s.IsRegular) (p q : Pending) (hp : p ∈ s.pending)
    (hq : q ∈ s.pending) (hkey : p.key = q.key) : p = q :=
  List.inj_on_of_nodup_map h.keys hp hq hkey

-- A number stands for one call.
theorem IsRegular.key_unique {s : State} (h : s.IsRegular) (id : CorrelationId) (key key' : Nat)
    (hmem : (id, key) ∈ s.running) (hmem' : (id, key') ∈ s.running) : key = key' :=
  congrArg Prod.snd (List.inj_on_of_nodup_map h.numbers hmem hmem' rfl)

theorem isRegular_initial : initial.IsRegular := by
  refine ⟨?_, List.nodup_nil, List.nodup_nil, ?_⟩
  · intro p hp
    cases hp
  · intro id key hmem
    cases hmem

theorem IsRegular.of_sameCalls {s s' : State} (h : s.IsRegular) (hsame : s.SameCalls s') :
    s'.IsRegular := by
  refine ⟨?_, ?_, ?_, ?_⟩
  · rw [hsame.pending, hsame.nextKey]
    exact h.below
  · rw [hsame.pending]
    exact h.keys
  · rw [hsame.running]
    exact h.numbers
  · rw [hsame.running, hsame.pending]
    exact h.owned

/-- A call that begins to wait has a new key, and its number was free. -/
theorem IsRegular.add {s : State} (h : s.IsRegular) (p : Pending) (hkey : p.key = s.nextKey)
    (hfree : s.refusal? p.ticket.correlation = none) (hsignal : p.isSignaled = false) :
    (s.add p).IsRegular := by
  have hnumber := (s.refusal?_eq_none_iff _).mp hfree
  refine ⟨?_, ?_, ?_, ?_⟩
  · intro q hq
    rcases List.mem_append.mp hq with hq | hq
    · exact Nat.lt_succ_of_lt (h.below q hq)
    · rw [List.mem_singleton.mp hq, hkey]
      exact Nat.lt_succ_self _
  -- The new key is above all keys that are waiting.
  · have hfresh : p.key ∉ s.pending.map (·.key) := by
      intro hmem
      rcases List.mem_map.mp hmem with ⟨q, hq, hqkey⟩
      have hlt := h.below q hq
      omega
    simp only [State.add, List.map_append, List.map_cons, List.map_nil]
    exact List.nodup_append.mpr ⟨h.keys, List.nodup_singleton _, by grind⟩
  · simp only [State.add, List.map_append, List.map_map]
    cases hcorrelation : p.ticket.correlation with
    | none => simpa using h.numbers
    | some id =>
        have hnot : id ∉ s.running.map (·.1) := by
          intro hmem
          rcases List.mem_map.mp hmem with ⟨⟨id', key⟩, he, rfl⟩
          exact hnumber id' key hcorrelation he
        exact List.nodup_append.mpr ⟨h.numbers, List.nodup_singleton _, by grind⟩
  · intro id key hmem
    rcases List.mem_append.mp hmem with hmem | hmem
    · rcases h.owned id key hmem with ⟨q, hq, howns⟩
      exact ⟨q, List.mem_append_left _ hq, howns⟩
    · rcases List.mem_map.mp hmem with ⟨id', hid, heq⟩
      cases heq
      exact ⟨p, List.mem_append_right _ List.mem_cons_self, rfl, Option.mem_toList.mp hid, hsignal⟩

/-- A signal frees the number of the call that it goes to. -/
theorem IsRegular.signal {s : State} (h : s.IsRegular) (id : CorrelationId) (key : Nat)
    (hmem : (id, key) ∈ s.running) : (s.signal id key).IsRegular := by
  refine ⟨?_, ?_, ?_, ?_⟩
  · intro p hp
    rcases List.mem_map.mp hp with ⟨q, hq, rfl⟩
    rw [Pending.key_signal]
    exact h.below q hq
  · have hkeys : (s.signal id key).pending.map (·.key) = s.pending.map (·.key) := by
      simp only [State.signal, List.map_map, Function.comp_def, Pending.key_signal]
    rw [hkeys]
    exact h.keys
  · exact h.numbers.sublist ((s.withoutNumber_sublist (some id)).map _)
  · intro id' key' hmem'
    rcases (s.mem_withoutNumber (some id) _).mp hmem' with ⟨hbefore, hid⟩
    rcases h.owned id' key' hbefore with ⟨q, hq, hqkey, hqnumber, hqsignal⟩
    -- The owner of another number is not the call that is signaled.
    have hother : q.key ≠ key := by
      intro hsame
      rcases h.owned id key hmem with ⟨p, hp, hpkey, hpnumber, _⟩
      rw [h.eq_of_key q p hq hp (hsame.trans hpkey.symm), hpnumber] at hqnumber
      exact hid hqnumber
    refine ⟨q, List.mem_map.mpr ⟨q, hq, q.signal_of_ne key hother⟩, hqkey, hqnumber, hqsignal⟩

-- The call moves to the end; what the invariant reads of it stays.
theorem IsRegular.requeue {s : State} (h : s.IsRegular) (p : Pending) (hp : p ∈ s.pending)
    (next : Task) : (s.requeue p next).IsRegular := by
  have hrest : ∀ q ∈ s.pending.filter (fun q => q.key ≠ p.key), q ∈ s.pending ∧ q.key ≠ p.key := by
    intro q hq
    simpa using List.mem_filter.mp hq
  -- The call goes to the end with the same key, number and signal, so only its place has changed.
  refine ⟨?_, ?_, h.numbers, ?_⟩
  · intro q hq
    rcases List.mem_append.mp hq with hq | hq
    · exact h.below q (hrest q hq).1
    · rw [List.mem_singleton.mp hq]
      exact h.below p hp
  · simp only [State.requeue, List.map_append, List.map_cons, List.map_nil]
    refine List.nodup_append.mpr
      ⟨h.keys.sublist (List.filter_sublist.map _), List.nodup_singleton _, ?_⟩
    intro key hkey key' hkey'
    rcases List.mem_map.mp hkey with ⟨q, hq, rfl⟩
    rw [List.mem_singleton.mp hkey']
    exact (hrest q hq).2
  · intro id key hmem
    rcases h.owned id key hmem with ⟨q, hq, hqkey, howns⟩
    by_cases hkey : q.key = p.key
    · cases h.eq_of_key q p hq hp hkey
      exact ⟨{ p with task := next }, List.mem_append_right _ List.mem_cons_self, hqkey, howns⟩
    · exact ⟨q, List.mem_append_left _ (List.mem_filter.mpr ⟨hq, by simpa using hkey⟩), hqkey,
        howns⟩

/-- The end of a call takes its number off, so no number is left that stands for a call which has
    gone. -/
theorem IsRegular.settle {s : State} (h : s.IsRegular) (p : Pending) (hp : p ∈ s.pending)
    (reply : Option Reply) : (s.settle p reply).IsRegular := by
  refine ⟨?_, h.keys.sublist (List.filter_sublist.map _),
    h.numbers.sublist ((s.withoutNumber_sublist p.ticket.correlation).map _), ?_⟩
  · intro q hq
    exact h.below q (List.mem_filter.mp hq).1
  · intro id key hmem
    rcases (s.mem_withoutNumber p.ticket.correlation _).mp hmem with ⟨hbefore, hid⟩
    rcases h.owned id key hbefore with ⟨q, hq, hqkey, hqnumber, hqsignal⟩
    -- The call that ends has another number, so it is not the owner of this one.
    have hother : q.key ≠ p.key := by
      intro hsame
      rw [h.eq_of_key q p hq hp hsame] at hqnumber
      exact hid hqnumber
    exact ⟨q, List.mem_filter.mpr ⟨hq, by simpa using hother⟩, hqkey, hqnumber, hqsignal⟩

end State

variable (d : Dispatcher)

/-- Every step keeps keys and numbers in order. -/
theorem isRegular_of_step (r r' : Run) (hstep : d.Step r r') (h : r.state.IsRegular) :
    r'.state.IsRegular := by
  cases hstep with
  | ended m s' hended => exact h.of_sameCalls hended.same
  | started m a task s' hstarted =>
      exact (h.add _ rfl hstarted.free rfl).of_sameCalls hstarted.same
  | missed id hfree => exact h
  | signaled id key hmem => exact h.signal id key hmem
  | resumed p gate next hmem htask => exact h.requeue p hmem next
  | concluded w p answer hmem hanswer => exact h.settle p hmem _
  | raised id payload hdeclared hopen => exact h
  | lost id payload hrefused => exact h
  | closed => exact h

/-- The states of all runs are regular. -/
theorem isRegular_of_reaches (r : Run) (h : d.Reaches r) : r.state.IsRegular :=
  Reaches.induct d State.isRegular_initial
    (fun r r' _ hstep ih => d.isRegular_of_step r r' hstep ih) r h

end Dispatcher

end PlatformBridge
