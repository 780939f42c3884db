import PlatformBridge.Proofs.Dispatch.Calls

/-!
# One Reply to a Call

However the steps of a run are ordered, no call gets two replies, and every
reply goes to its call. A call that gave its reply at once gets no other. A
call that gave none at first gets its one reply where it is concluded, by the
sink it came with. A call of an operation that does not answer gets none,
whichever way it goes.

Replies are counted over both places where they can be, in the outcome of a
call and among what was handed over for its key. A call without a task has no
key, so nothing was handed over for it, and its outcome is known from when it
was made. A call with a task has no reply in its outcome, and its course says
what was handed over: nothing while it waits, and one reply once it is settled.

That a call can come to its end at all is part of the promise. A call that waits
can be concluded whenever an answer is there for the way in which it ends, and
then only in this way.

## Main definitions

* `MadeCall.replies`: The replies to a call in a run.
* `Dispatcher.RepliesOnce`: What is promised of them.

## Theorems

* `Dispatcher.isSome_conclude_iff`: When a call that waits can be concluded.
* `Dispatcher.Follows.replies_eq`, `Dispatcher.Follows.replies_eq_false_iff`:
  The replies to a call with a task.
* `Dispatcher.repliesOnce_of_closes`, `Dispatcher.repliesOnce_of_waits`,
  `Dispatcher.repliesOnce_of_settles`: The three places where a call may be.
* `Dispatcher.repliesOnce_of_reaches`: The promise is kept in every run.
-/

namespace PlatformBridge

/-- The replies to a call so far: one in its outcome, and what was handed over for its task. -/
def MadeCall.replies (m : MadeCall) (r : Run) : List Reply :=
  m.outcome.reply?.toList
    ++ m.key.toList.flatMap fun key => (r.state.deliveries key).map (·.reply)

namespace Dispatcher

variable (d : Dispatcher)

/-- A call gets at most one reply, which repeats what it is known by. -/
structure RepliesOnce (m : MadeCall) (r : Run) : Prop where
  once : (m.replies r).length ≤ 1
  addressed : ∀ reply ∈ m.replies r,
    reply.operation = m.call.operation ∧ reply.correlation = m.call.correlation
  /-- A reply at once is the only one, and there is no task to give another. -/
  completed : ∀ reply, m.outcome = .completed reply → m.replies r = [reply] ∧ m.key = none
  /-- Without a reply at once there is a task. Before it is concluded there is no reply, and it can
      be concluded in every way that its answer and the signal allow; afterwards there is one. -/
  deferred : m.outcome = .deferred → ∃ key, m.key = some key
    ∧ ((∀ t, .concluded key t ∉ r.history) ∧ m.replies r = []
        ∧ (∃ p ∈ r.state.pending, p.key = key
          ∧ ∀ w : Conclusion, (d.conclude w key r.state).isSome = (w.answer? p).isSome)
      ∨ (∃ t, .concluded key t ∈ r.history)
        ∧ ∃ reply, r.state.deliveries key = [⟨key, m.sink, reply⟩] ∧ m.replies r = [reply])
  /-- Nothing is heard of an operation that does not answer. -/
  silent : ∀ service o, d.contract.operation? m.call.operation = some (service, o) →
    o.returns = .fireAndForget → m.outcome = .noReply ∧ m.replies r = []

-- A call that waits is found by its key.
theorem State.IsRegular.find?_key {s : State} (h : s.IsRegular) (p : Pending)
    (hp : p ∈ s.pending) : s.pending.find? (fun q => q.key = p.key) = some p := by
  cases hfind : s.pending.find? fun q => q.key = p.key with
  | none =>
      have hne := List.find?_eq_none.mp hfind p hp
      simp at hne
  | some q =>
      rcases s.find?_key_eq_some p.key q hfind with ⟨hq, hkey⟩
      rw [h.eq_of_key q p hq hp hkey]

/-- A call that waits can be concluded with an answer that is there, and in no other way. -/
theorem isSome_conclude_iff (w : Conclusion) (s : State) (h : s.IsRegular) (p : Pending)
    (hp : p ∈ s.pending) : (d.conclude w p.key s).isSome = (w.answer? p).isSome := by
  rw [conclude, h.find?_key p hp]
  exact Option.isSome_map

-- A call without a task ended when it was made.
theorem repliesOnce_of_closes (m : MadeCall) (r : Run) (hkey : m.key = none)
    (h : d.contract.Closes m.call m.outcome) : d.RepliesOnce m r := by
  have hreplies : m.replies r = m.outcome.reply?.toList := by
    rw [MadeCall.replies, hkey]
    exact List.append_nil _
  refine ⟨?_, ?_, ?_, ?_, ?_⟩
  · rw [hreplies]
    cases m.outcome.reply? <;> simp
  · intro reply hreply
    rw [hreplies, Option.mem_toList] at hreply
    have hallows := h.allows reply hreply
    exact ⟨hallows.operation, hallows.correlation⟩
  · intro reply hcompleted
    rw [hreplies, hcompleted]
    exact ⟨rfl, hkey⟩
  · exact fun hdeferred => absurd hdeferred h.ends
  · intro service o hfound hforgets
    -- A reply would be one to an operation that does reply.
    cases houtcome : m.outcome with
    | completed reply =>
        have hallows := h.allows reply (by rw [houtcome]; rfl)
        exact absurd hforgets (hallows.replies service o hfound)
    | noReply =>
        rw [hreplies, houtcome]
        exact ⟨rfl, rfl⟩
    | deferred => exact absurd houtcome h.ends

-- A call with a task has no reply in its outcome.
theorem Follows.replies_eq {d : Dispatcher} {m : MadeCall} {a : Admission} {key : Nat} {r : Run}
    (h : d.Follows m a key r) (hkey : m.key = some key) :
    m.replies r = (r.state.deliveries key).map (·.reply) := by
  rw [MadeCall.replies, h.reply?_eq_none, hkey]
  exact List.append_nil _

-- It replies unless its operation does not answer.
theorem Follows.replies_eq_false_iff {d : Dispatcher} {m : MadeCall} {a : Admission} {key : Nat}
    {r : Run} (h : d.Follows m a key r) (service : Service) (o : Operation)
    (hfound : d.contract.operation? m.call.operation = some (service, o)) :
    a.ticket.replies = false ↔ o.returns = .fireAndForget := by
  rcases d.of_admission_eq_ok m.call a h.admitted with ⟨⟨service', hfound'⟩, _, hticket⟩
  rw [hfound] at hfound'
  cases hfound'
  rw [hticket]
  exact decide_eq_false_iff_not.trans not_not

/-- A call that waits has no reply yet. -/
theorem repliesOnce_of_waits (m : MadeCall) (a : Admission) (key : Nat) (r : Run)
    (hregular : r.state.IsRegular) (hkey : m.key = some key) (hfollows : d.Follows m a key r)
    (h : Waits m a key r) : d.RepliesOnce m r := by
  -- Nothing has been handed over for a call that waits.
  have hreplies : m.replies r = [] := by
    rw [hfollows.replies_eq hkey, h.silent, List.map_nil]
  refine ⟨?_, ?_, ?_, ?_, ?_⟩
  · rw [hreplies]
    exact Nat.zero_le 1
  · intro reply hreply
    rw [hreplies] at hreply
    cases hreply
  · intro reply hcompleted
    have hnone := hfollows.reply?_eq_none
    rw [hcompleted] at hnone
    cases hnone
  · intro _
    rcases List.mem_map.mp h.awaited with ⟨p, hp, hawaited⟩
    have hpkey : p.key = key := congrArg Awaited.key hawaited
    refine ⟨key, hkey, Or.inl ⟨h.unconcluded, hreplies, p, hp, hpkey, fun w => ?_⟩⟩
    rw [← hpkey]
    exact d.isSome_conclude_iff w r.state hregular p hp
  · intro service o hfound hforgets
    have hsilent := (hfollows.replies_eq_false_iff service o hfound).mpr hforgets
    rw [hfollows.outcome, hsilent]
    exact ⟨rfl, hreplies⟩

/-- A call that is settled has the reply that it was settled with. -/
theorem repliesOnce_of_settles (m : MadeCall) (a : Admission) (key : Nat) (r : Run)
    (hkey : m.key = some key) (hfollows : d.Follows m a key r) (h : d.Settles m a key r) :
    d.RepliesOnce m r := by
  rcases h.replied with ⟨answer, hvalue, hdeliveries⟩
  have hreplies : m.replies r = (a.ticket.reply? answer).toList := by
    rw [hfollows.replies_eq hkey, hdeliveries, List.map_map]
    exact List.map_id _
  refine ⟨?_, ?_, ?_, ?_, ?_⟩
  · rw [hreplies]
    exact Option.length_toList_le
  · intro reply hreply
    rw [hreplies, Option.mem_toList] at hreply
    have hallows := d.allows_of_reply? m.call a hfollows.admitted answer hvalue reply hreply
    exact ⟨hallows.operation, hallows.correlation⟩
  · intro reply hcompleted
    have hnone := hfollows.reply?_eq_none
    rw [hcompleted] at hnone
    cases hnone
  · intro hdeferred
    have houtcome := hfollows.outcome
    rw [hdeferred] at houtcome
    refine ⟨key, hkey, Or.inr ⟨⟨a.ticket, h.concluded⟩, ?_⟩⟩
    split at houtcome
    · rename_i hanswers
      have hreply := (a.ticket.reply?_eq_some_iff answer _).mpr ⟨hanswers, rfl⟩
      rw [hreplies, hdeliveries, hreply]
      exact ⟨_, rfl, rfl⟩
    · cases houtcome
  · intro service o hfound hforgets
    have hsilent := (hfollows.replies_eq_false_iff service o hfound).mpr hforgets
    rw [hreplies, hfollows.outcome, Ticket.reply?, hsilent]
    exact ⟨rfl, rfl⟩

/-- In every run, every call gets at most one reply, where and when it is due; no two calls share a
    key, and whatever was handed over was handed over for a call. -/
theorem repliesOnce_of_reaches (r : Run) (h : d.Reaches r) :
    (∀ m, .called m ∈ r.history → d.RepliesOnce m r)
      ∧ (r.history.filterMap Happening.key?).Nodup
      ∧ ∀ e ∈ r.state.outbox, ∃ m, .called m ∈ r.history ∧ m.key = some e.key := by
  have htraced := d.isTraced_of_reaches r h
  refine ⟨fun m hm => ?_, htraced.once, htraced.sent⟩
  cases hkey : m.key with
  | none => exact d.repliesOnce_of_closes m r hkey (d.closes_of_reaches r h m hm hkey)
  | some key =>
      rcases d.follows_of_reaches r h m hm key hkey with ⟨a, hfollows⟩
      rcases hfollows.course with hwaits | hsettles
      · exact d.repliesOnce_of_waits m a key r (d.isRegular_of_reaches r h) hkey hfollows hwaits
      · exact d.repliesOnce_of_settles m a key r hkey hfollows hsettles

/-- A run with a call that is answered and one that is not, though both go wrong. -/
def alarmRun : Run :=
  alarm.after [.call true .channel ⟨"Acme.Alarm.Wait", [.ofNat 5], some 7⟩,
    .call true .channel ⟨"Acme.Alarm.Stop", [], some 7⟩, .resume 0, .cancel 7,
    .conclude .canceled 0]

theorem repliesOnce_of_alarmRun :
    alarm.Reaches alarmRun
      ∧ (alarmRun.state.outbox.map fun e => (e.key, e.reply.operation, e.reply.correlation))
        = [(0, "Acme.Alarm.Wait", some 7)]
      ∧ (∀ m, .called m ∈ alarmRun.history → alarm.RepliesOnce m alarmRun) := by
  have h : alarm.Reaches alarmRun := alarm.reaches_after _
  exact ⟨h, by decide +kernel, (alarm.repliesOnce_of_reaches alarmRun h).1⟩

end Dispatcher

end PlatformBridge
