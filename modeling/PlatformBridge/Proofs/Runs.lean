/-!
# Runs

Steps that act on a state and give a value or an error, and what a success of
several of them in a row says about each: the next one starts from where the
one before it ends. What is said here about two steps carries over to one
step for each item of a list.

A step that fails has a state as well. A row fails where the first of its
steps does, and what the steps before that have done is done. That is why
`bind_eq_error` and `exists_of_forM_eq_error` tell the state in which the
step that failed was taken. The file system is such a state, and a write that
is refused leaves behind whatever had been written by then.

## Theorems

* `run_bind`: What two steps in a row come to.
* `bind_eq_ok`, `bind_unit_eq_ok`, `bind_eq_error`: A row of two steps, by
  its outcome.
* `pure_eq_ok`, `ofExcept_eq_ok`, `throw_ne_ok`: Single steps.
* `forM_nil_eq_ok`, `forM_cons_eq_ok`: One step for each item of a list.
* `exists_of_forM_eq_error`: Where a list of steps fails.
-/

namespace PlatformBridge

namespace Runs

variable {σ ε α β ι : Type} {s s' : σ}

/-- The second of two steps is taken if the first succeeds, from where it ends. -/
theorem run_bind (x : ExceptT ε (StateM σ) α) (f : α → ExceptT ε (StateM σ) β) :
    (x >>= f).run s = match x.run s with
      | (.ok a, s₁) => (f a).run s₁
      | (.error e, s₁) => (.error e, s₁) := by
  change (ExceptT.bindCont f (x.run s).1).run (x.run s).2 = _
  rcases x.run s with ⟨_ | _, _⟩ <;> rfl

/-- Two steps in a row succeed when both do, the second from where the first ends. -/
theorem bind_eq_ok {x : ExceptT ε (StateM σ) α} {f : α → ExceptT ε (StateM σ) β} {b : β} :
    (x >>= f).run s = (.ok b, s')
      ↔ ∃ a s₁, x.run s = (.ok a, s₁) ∧ (f a).run s₁ = (.ok b, s') := by
  rw [run_bind]
  rcases x.run s with ⟨e | a, s₁⟩
  · constructor
    · intro h
      cases h
    · rintro ⟨a, s₁', h, _⟩
      cases h
  · constructor
    · intro h
      exact ⟨a, s₁, rfl, h⟩
    · rintro ⟨a', s₁', h, hf⟩
      cases h
      exact hf

/-- The same if the first gives nothing. -/
theorem bind_unit_eq_ok {x : ExceptT ε (StateM σ) Unit} {f : Unit → ExceptT ε (StateM σ) β}
    {b : β} : (x >>= f).run s = (.ok b, s')
      ↔ ∃ s₁, x.run s = (.ok (), s₁) ∧ (f ()).run s₁ = (.ok b, s') := by
  rw [bind_eq_ok]
  constructor
  · rintro ⟨⟨⟩, s₁, h⟩
    exact ⟨s₁, h⟩
  · rintro ⟨s₁, h⟩
    exact ⟨(), s₁, h⟩

/-- Two steps in a row fail where the first of them fails. -/
theorem bind_eq_error {x : ExceptT ε (StateM σ) α} {f : α → ExceptT ε (StateM σ) β} {e : ε} :
    (x >>= f).run s = (.error e, s')
      ↔ x.run s = (.error e, s')
        ∨ ∃ a s₁, x.run s = (.ok a, s₁) ∧ (f a).run s₁ = (.error e, s') := by
  rw [run_bind]
  rcases x.run s with ⟨e' | a, s₁⟩
  · constructor
    · intro h
      cases h
      exact Or.inl rfl
    · rintro (h | ⟨a, s₁', h, _⟩)
      · cases h
        rfl
      · cases h
  · constructor
    · intro h
      exact Or.inr ⟨a, s₁, rfl, h⟩
    · rintro (h | ⟨a', s₁', h, hf⟩)
      · cases h
      · cases h
        exact hf

/-- A value that is given changes nothing. -/
theorem pure_eq_ok {a b : α} :
    (pure a : ExceptT ε (StateM σ) α).run s = (.ok b, s') ↔ a = b ∧ s = s' := by
  constructor
  · intro h
    cases h
    exact ⟨rfl, rfl⟩
  · rintro ⟨rfl, rfl⟩
    rfl

/-- A result that is given changes nothing. -/
theorem ofExcept_eq_ok {r : Except ε α} {a : α} :
    (ExceptT.mk (pure r) : ExceptT ε (StateM σ) α).run s = (.ok a, s') ↔ r = .ok a ∧ s = s' := by
  constructor
  · intro h
    cases h
    exact ⟨rfl, rfl⟩
  · rintro ⟨rfl, rfl⟩
    rfl

/-- A step that is refused gives no value. -/
theorem throw_ne_ok {e : ε} {a : α} :
    (throw e : ExceptT ε (StateM σ) α).run s ≠ (.ok a, s') := by
  intro h
  cases h

theorem forM_nil_eq_ok {f : ι → ExceptT ε (StateM σ) Unit} :
    (([] : List ι).forM f).run s = (.ok (), s') ↔ s = s' := by
  rw [List.forM, pure_eq_ok, eq_self, true_and]

/-- One step for each item of a list: that of the first item, then those of the others. -/
theorem forM_cons_eq_ok {f : ι → ExceptT ε (StateM σ) Unit} {x : ι} {xs : List ι} :
    ((x :: xs).forM f).run s = (.ok (), s')
      ↔ ∃ s₁, (f x).run s = (.ok (), s₁) ∧ (xs.forM f).run s₁ = (.ok (), s') := by
  rw [List.forM, bind_unit_eq_ok]

/-- Of steps for the items of a list one is the first that fails. -/
theorem exists_of_forM_eq_error {f : ι → ExceptT ε (StateM σ) Unit} {xs : List ι} {e : ε}
    (h : (xs.forM f).run s = (.error e, s')) : ∃ done x rest s₁, xs = done ++ x :: rest
      ∧ (done.forM f).run s = (.ok (), s₁) ∧ (f x).run s₁ = (.error e, s') := by
  induction xs generalizing s with
  | nil => cases h
  | cons x rest ih =>
      rw [List.forM, bind_eq_error] at h
      rcases h with h | ⟨⟨⟩, s₁, hx, h⟩
      · exact ⟨[], x, rest, s, rfl, forM_nil_eq_ok.mpr rfl, h⟩
      · rcases ih h with ⟨done, y, rest', s₂, rfl, hdone, hy⟩
        exact ⟨x :: done, y, rest', s₂, rfl, forM_cons_eq_ok.mpr ⟨s₁, hx, hdone⟩, hy⟩

end Runs

end PlatformBridge
