import Mathlib.Data.List.Forall2

/-!
# Results

Steps that give a value or an error, and what a success or a failure of
several of them in a row says about each. Every partial function of the
library is such a row, so its inversion lemma starts from one of these.

The lemmas about two steps come in two kinds, since a row is opened from
both ends. `bind_eq_ok` takes a success apart into two, and `bind_eq_error`
says which of the two failed. Most functions raise objections before they do
anything. For these `unless_eq_ok` and `unless_bind_eq_ok` hand over the
condition, and nothing about the error, because what would come behind an
objection that is raised makes no difference.

Where a whole list is worked through, the values of a row are a map over its
items, provided that a step gives the same value at every number. Proofs
about nested data then compare two functions on the same items, and never two
lists of their own. The proviso is there because a step is told the number of
its item. It needs the number for the place that its error names, so the
number shows in errors and in nothing else. `mapM_eq_ok` is the counterpart
for rows whose steps are not told a number.

Validation does not stop at an error but sorts the results of a list into
values and errors, which is the other use of results here. The errors are
picked by a function that is a parameter, as there is none in the library
that they could be picked by. All that is asked of it is what it does with a
value and with an error.

## Main definitions

* `inRow`: One step for each item of a list.

## Theorems

* `bind_eq_ok`, `bind_eq_error`: A row of two steps, by its outcome.
* `exists_eq_ok_of_isOk`: The value of a success.
* `unless_eq_ok`, `unless_bind_eq_ok`: An objection in front of other steps.
* `map_eq_ok`, `map_eq_error`, `mapError_eq_ok`: A step whose value or error
  is changed afterwards.
* `inRow_of_ok`: A row succeeds when every step does.
* `exists_of_inRow_eq_ok`: The values of a row are a map over its items.
* `inRow_keyed_of_ok`, `exists_of_inRow_keyed_eq_ok`: The same for values
  under keys.
* `exists_of_inRow_eq_error`: An error of a row is that of a step.
* `mapM_eq_ok`, `exists_mapM_eq_ok_iff`: The values of a list of steps.
* `exists_of_mem_of_mapM_eq_ok`, `mem_of_mapM_eq_ok`: Values and items find
  each other.
* `map_of_mapM_eq_ok`: What values keep of their items.
* `mem_filterMap_toOption`, `mem_filterMap_error`: Values and errors among
  some results.
* `exists_of_filterMap_error_eq_nil`, `filterMap_error_of_ok`: A list has no
  errors just if every item has a value.
* `filterMap_toOption_of_ok`: Without errors no value is left out.
* `filterMap_error_of_map`: Errors of results whose values are changed.
* `map_filterMap_toOption_sublist`, `map_filterMap_error_sublist`: Keys of
  values and of errors.
-/

namespace PlatformBridge

namespace Results

variable {ε α β : Type}

/-- Two steps in a row succeed when both do. -/
theorem bind_eq_ok {x : Except ε α} {f : α → Except ε β} {b : β} :
    (x >>= f) = .ok b ↔ ∃ a, x = .ok a ∧ f a = .ok b := by
  cases x with
  | error e =>
      constructor
      · intro h
        cases h
      · rintro ⟨a, ha, _⟩
        cases ha
  | ok a =>
      constructor
      · intro h
        exact ⟨a, rfl, h⟩
      · rintro ⟨a', ha, h⟩
        cases ha
        exact h

/-- A success has a value. -/
theorem exists_eq_ok_of_isOk {x : Except ε α} (h : x.isOk = true) : ∃ a, x = .ok a := by
  cases x with
  | error e => cases h
  | ok a => exact ⟨a, rfl⟩

/-- Two steps in a row fail where the first of them fails. -/
theorem bind_eq_error {x : Except ε α} {f : α → Except ε β} {e : ε} :
    (x >>= f) = .error e ↔ x = .error e ∨ ∃ a, x = .ok a ∧ f a = .error e := by
  cases x with
  | error e' =>
      constructor
      · intro h
        cases h
        exact Or.inl rfl
      · rintro (h | ⟨a, ha, _⟩)
        · cases h
          rfl
        · cases ha
  | ok a =>
      constructor
      · intro h
        exact Or.inr ⟨a, rfl, h⟩
      · rintro (h | ⟨a', ha, h⟩)
        · cases h
        · cases ha
          exact h

section Objections

variable {c : Prop} [Decidable c] {e : ε}

/-- Behind an objection that may be raised, a row succeeds if it is not raised. -/
theorem unless_eq_ok {x : Except ε β} {b : β} :
    (if c then throw e else x) = .ok b ↔ ¬ c ∧ x = .ok b := by
  by_cases hc : c
  · rw [if_pos hc]
    exact iff_of_false nofun fun h => h.1 hc
  · rw [if_neg hc, and_iff_right hc]

/-- What would come behind an objection makes no difference. -/
theorem unless_bind_eq_ok {f : α → Except ε β} {x : Except ε β} {b : β} :
    (if c then throw e >>= f else x) = .ok b ↔ ¬ c ∧ x = .ok b :=
  unless_eq_ok

end Objections

/-- A changed value comes from a value. -/
theorem map_eq_ok {x : Except ε α} {f : α → β} {b : β} :
    Except.map f x = .ok b ↔ ∃ a, x = .ok a ∧ f a = b := by
  cases x with
  | error e => simp only [Except.map, reduceCtorEq, false_and, exists_false]
  | ok a => simp only [Except.map, Except.ok.injEq, exists_eq_left']

/-- Changing the value leaves an error as it is. -/
theorem map_eq_error {x : Except ε α} {f : α → β} {e : ε} :
    Except.map f x = .error e ↔ x = .error e := by
  cases x with
  | error e' => simp only [Except.map, Except.error.injEq]
  | ok a => simp only [Except.map, reduceCtorEq]

/-- Changing the error leaves a value as it is. -/
theorem mapError_eq_ok {ε' : Type} {x : Except ε α} {f : ε → ε'} {a : α} :
    x.mapError f = .ok a ↔ x = .ok a := by
  cases x with
  | error e =>
      constructor
      · intro h
        cases h
      · intro h
        cases h
  | ok a' =>
      constructor
      · intro h
        cases h
        rfl
      · intro h
        cases h
        rfl

/-- Steps taken on one item after the other, each with the number of its item from a first one on.
    The values are kept in order, and the first error ends the row. -/
def inRow {ι : Type} (step : Nat → ι → Except ε β) : Nat → List ι → Except ε (List β)
  | _, [] => .ok []
  | index, x :: rest => do
    let y ← step index x
    return y :: (← inRow step (index + 1) rest)

/-- A row succeeds when every step does. -/
theorem inRow_of_ok {ι : Type} (step : Nat → ι → Except ε β) (G : ι → β) (xs : List ι)
    (h : ∀ x ∈ xs, ∀ i, step i x = .ok (G x)) :
    ∀ index, inRow step index xs = .ok (xs.map G) := by
  induction xs with
  | nil =>
      intro index
      rfl
  | cons x rest ih =>
      intro index
      have hrest := ih (fun y hy => h y (List.mem_cons_of_mem x hy)) (index + 1)
      simp only [inRow, bind_eq_ok]
      exact ⟨G x, h x List.mem_cons_self index, rest.map G, hrest, rfl⟩

/-- The values of a row are a map over its items, if the number of an item does not matter to its
    step. -/
theorem exists_of_inRow_eq_ok {ι : Type} [Inhabited β] (step : Nat → ι → Except ε β)
    (xs : List ι) (steady : ∀ x ∈ xs, ∀ i j y, step i x = .ok y → step j x = .ok y)
    (index : Nat) (ys : List β) (h : inRow step index xs = .ok ys) :
    ∃ G : ι → β, ys = xs.map G ∧ ∀ x ∈ xs, ∀ i, step i x = .ok (G x) := by
  refine ⟨fun x => (step 0 x).toOption.getD default, ?_⟩
  induction xs generalizing index ys with
  | nil =>
      simp only [inRow, Except.ok.injEq] at h
      subst h
      exact ⟨rfl, fun x hx => absurd hx List.not_mem_nil⟩
  | cons x rest ih =>
      simp only [inRow, bind_eq_ok] at h
      rcases h with ⟨y, hy, ys', hys, hcons⟩
      cases hcons
      rcases ih (fun z hz => steady z (List.mem_cons_of_mem x hz)) (index + 1) ys' hys with
        ⟨hmap, hrest⟩
      -- The value at number zero is the value at any other.
      have hx : ∀ i, step i x = .ok ((step 0 x).toOption.getD default) := by
        intro i
        have h0 : step 0 x = .ok y := steady x List.mem_cons_self index 0 y hy
        rw [h0]
        exact steady x List.mem_cons_self index i y hy
      constructor
      · have hfirst : (step 0 x).toOption.getD default = y := by
          have h0 := hx index
          rw [hy, Except.ok.injEq] at h0
          exact h0.symm
        rw [List.map_cons, hfirst, ← hmap]
      · intro z hz
        rcases List.mem_cons.mp hz with rfl | hz
        · exact hx
        · exact hrest z hz

/-- A row of values under keys succeeds when every step does. -/
theorem inRow_keyed_of_ok {ι : Type} (key : ι → String) (step : ι → Except ε β) (G : ι → β)
    (xs : List ι) (h : ∀ x ∈ xs, step x = .ok (G x)) (index : Nat) :
    inRow (fun _ x => (step x).map fun y => (key x, y)) index xs
      = .ok (xs.map fun x => (key x, G x)) := by
  refine inRow_of_ok _ (fun x => (key x, G x)) xs (fun x hx i => ?_) index
  rw [h x hx]
  rfl

/-- The values of a row under keys are a map over its items, with the keys of the items. -/
theorem exists_of_inRow_keyed_eq_ok {ι : Type} [Inhabited β] (key : ι → String)
    (step : ι → Except ε β) (xs : List ι) (index : Nat) (out : List (String × β))
    (h : inRow (fun _ x => (step x).map fun y => (key x, y)) index xs = .ok out) :
    ∃ G : ι → β, out = xs.map (fun x => (key x, G x)) ∧ ∀ x ∈ xs, step x = .ok (G x) := by
  rcases exists_of_inRow_eq_ok _ xs (fun _ _ _ _ _ => id) index out h with ⟨P, hmap, hP⟩
  -- Each pair of the row is the key of its item with a value of the step.
  have hpair : ∀ x ∈ xs, step x = .ok (P x).2 ∧ P x = (key x, (P x).2) := by
    intro x hx
    rcases map_eq_ok.mp (hP x hx 0) with ⟨y, hy, heq⟩
    rw [← heq]
    exact ⟨hy, rfl⟩
  refine ⟨fun x => (P x).2, ?_, fun x hx => (hpair x hx).1⟩
  rw [hmap]
  exact List.map_congr_left fun x hx => (hpair x hx).2

/-- An error of a row is that of one of its steps. -/
theorem exists_of_inRow_eq_error {ι : Type} (step : Nat → ι → Except ε β) (xs : List ι)
    (index : Nat) (e : ε) (h : inRow step index xs = .error e) :
    ∃ x ∈ xs, ∃ i, step i x = .error e := by
  induction xs generalizing index with
  | nil => cases h
  | cons x rest ih =>
      simp only [inRow, bind_eq_error] at h
      rcases h with hx | ⟨y, _, hrest | ⟨ys, _, hpure⟩⟩
      · exact ⟨x, List.mem_cons_self, index, hx⟩
      · rcases ih (index + 1) hrest with ⟨z, hz, i, hi⟩
        exact ⟨z, List.mem_cons_of_mem x hz, i, hi⟩
      · cases hpure

section Steps

variable {ι : Type} (f : ι → Except ε β) (xs : List ι)

/-- A list of steps gives the value of each, if all of them succeed. -/
theorem mapM_eq_ok (ys : List β) :
    xs.mapM f = .ok ys ↔ List.Forall₂ (fun x y => f x = .ok y) xs ys := by
  induction xs generalizing ys with
  | nil =>
      rw [List.mapM_nil, List.forall₂_nil_left_iff]
      constructor
      · intro h
        cases h
        rfl
      · rintro rfl
        rfl
  | cons x rest ih =>
      rw [List.mapM_cons, bind_eq_ok, List.forall₂_cons_left_iff]
      constructor
      · rintro ⟨y, hy, h⟩
        rcases bind_eq_ok.mp h with ⟨ys', hys, hcons⟩
        cases hcons
        exact ⟨y, ys', hy, (ih ys').mp hys, rfl⟩
      · rintro ⟨y, ys', hy, hys, rfl⟩
        exact ⟨y, hy, bind_eq_ok.mpr ⟨ys', (ih ys').mpr hys, rfl⟩⟩

/-- There are values for a list just if there is one for each item. This says when a list of steps
    succeeds, where nothing is to be said of what it gives. -/
theorem exists_mapM_eq_ok_iff :
    (∃ ys, xs.mapM f = .ok ys) ↔ ∀ x ∈ xs, ∃ y, f x = .ok y := by
  simp only [mapM_eq_ok]
  induction xs with
  | nil => simp
  | cons x rest ih =>
      rw [List.forall_mem_cons, ← ih]
      constructor
      · rintro ⟨_ | ⟨y, ys⟩, h⟩
        · cases h
        · exact ⟨⟨y, (List.forall₂_cons.mp h).1⟩, ys, (List.forall₂_cons.mp h).2⟩
      · rintro ⟨⟨y, hy⟩, ys, hys⟩
        exact ⟨y :: ys, .cons hy hys⟩

/-- Every value of a list of steps is that of one of its items. -/
theorem exists_of_mem_of_mapM_eq_ok (ys : List β) (hys : xs.mapM f = .ok ys) (y : β)
    (hy : y ∈ ys) : ∃ x ∈ xs, f x = .ok y := by
  rw [mapM_eq_ok] at hys
  induction hys with
  | nil => cases hy
  | cons hx _ ih =>
      rcases List.mem_cons.mp hy with rfl | hy
      · exact ⟨_, List.mem_cons_self, hx⟩
      · rcases ih hy with ⟨x, hmem, hx⟩
        exact ⟨x, List.mem_cons_of_mem _ hmem, hx⟩

/-- Every item of a list of steps has its value among the values. -/
theorem mem_of_mapM_eq_ok (ys : List β) (hys : xs.mapM f = .ok ys) (x : ι) (hx : x ∈ xs) (y : β)
    (hy : f x = .ok y) : y ∈ ys := by
  rw [mapM_eq_ok] at hys
  induction hys with
  | nil => cases hx
  | cons hfirst _ ih =>
      rcases List.mem_cons.mp hx with rfl | hx
      · rw [hfirst] at hy
        cases hy
        exact List.mem_cons_self
      · exact List.mem_cons_of_mem _ (ih hx)

/-- What every value has from its item, all values have from their items. -/
theorem map_of_mapM_eq_ok {κ : Type} (key : β → κ) (source : ι → κ)
    (h : ∀ x y, f x = .ok y → key y = source x) (ys : List β) (hys : xs.mapM f = .ok ys) :
    ys.map key = xs.map source := by
  rw [mapM_eq_ok] at hys
  induction hys with
  | nil => rfl
  | cons hx _ ih => rw [List.map_cons, h _ _ hx, ih, List.map_cons]

end Steps

section Lists

variable {ι : Type} (results : List (Except ε α))

-- The code tells the errors of a list apart by matching in place, so these lemmas are about any
-- function that does this.
variable (error? : Except ε α → Option ε) (herror : ∀ e, error? (.error e) = some e)
variable (hok : ∀ a, error? (.ok a) = none)

/-- The values among some results are those that some result is a success with. -/
theorem mem_filterMap_toOption (value : α) :
    value ∈ results.filterMap (·.toOption) ↔ .ok value ∈ results := by
  rw [List.mem_filterMap]
  constructor
  · rintro ⟨result, hmem, hvalue⟩
    cases result with
    | error e => cases hvalue
    | ok a =>
        cases hvalue
        exact hmem
  · intro hmem
    exact ⟨.ok value, hmem, rfl⟩

include herror hok in
/-- The errors among some results are those that some result is a failure with. -/
theorem mem_filterMap_error (e : ε) : e ∈ results.filterMap error? ↔ .error e ∈ results := by
  rw [List.mem_filterMap]
  constructor
  · rintro ⟨result, hmem, he⟩
    cases result with
    | error e' =>
        rw [herror, Option.some.injEq] at he
        exact he ▸ hmem
    | ok a =>
        rw [hok] at he
        cases he
  · intro hmem
    exact ⟨.error e, hmem, herror e⟩

include herror hok in
/-- Without errors, every item of a list has a value. -/
theorem exists_of_filterMap_error_eq_nil (f : ι → Except ε α) (xs : List ι)
    (h : (xs.map f).filterMap error? = []) : ∀ x ∈ xs, ∃ a, f x = .ok a := by
  intro x hx
  cases hresult : f x with
  | ok a => exact ⟨a, rfl⟩
  | error e =>
      have hmem := (mem_filterMap_error (xs.map f) error? herror hok e).mpr
        (hresult ▸ List.mem_map_of_mem hx)
      rw [h] at hmem
      exact absurd hmem List.not_mem_nil

include hok in
/-- If every item of a list has a value, there are no errors. -/
theorem filterMap_error_of_ok (f : ι → Except ε α) (G : ι → α) (xs : List ι)
    (h : ∀ x ∈ xs, f x = .ok (G x)) : (xs.map f).filterMap error? = [] := by
  rw [List.map_congr_left h, List.filterMap_map, List.filterMap_eq_nil_iff]
  exact fun x _ => hok (G x)

include hok in
/-- Changing the values of a list leaves its errors as they are. -/
theorem filterMap_error_of_map (f g : ι → Except ε α) (change : ι → α → α)
    (h : ∀ x, f x = (g x).map (change x)) (xs : List ι) :
    (xs.map f).filterMap error? = (xs.map g).filterMap error? := by
  rw [List.filterMap_map, List.filterMap_map]
  refine congrArg (fun errors => xs.filterMap errors) (funext fun x => ?_)
  rw [Function.comp_apply, Function.comp_apply, h x]
  cases g x with
  | error e => rfl
  | ok a => exact (hok _).trans (hok a).symm

/-- If every item of a list has a value, no value is left out. -/
theorem filterMap_toOption_of_ok (f : ι → Except ε α) (G : ι → α) (xs : List ι)
    (h : ∀ x ∈ xs, f x = .ok (G x)) : (xs.map f).filterMap (·.toOption) = xs.map G := by
  rw [List.map_congr_left h, List.filterMap_map, ← List.filterMap_eq_map]
  rfl

/-- Values that keep the keys of their items have no other keys, and in the order of the items. -/
theorem map_filterMap_toOption_sublist (f : ι → Except ε α) (key : α → String)
    (source : ι → String) (h : ∀ x a, f x = .ok a → key a = source x) (xs : List ι) :
    List.Sublist (((xs.map f).filterMap (·.toOption)).map key) (xs.map source) := by
  induction xs with
  | nil => exact .slnil
  | cons x rest ih =>
      rw [List.map_cons, List.map_cons, List.filterMap_cons]
      cases hx : f x with
      | error e => exact ih.cons (source x)
      | ok a =>
          simp only [Except.toOption, List.map_cons, h x a hx]
          exact ih.cons_cons (source x)

include herror hok in
/-- Errors that keep the keys of their items have no other keys, and in the order of the items. -/
theorem map_filterMap_error_sublist (f : ι → Except ε α) (key : ε → String)
    (source : ι → String) (h : ∀ x e, f x = .error e → key e = source x) (xs : List ι) :
    List.Sublist (((xs.map f).filterMap error?).map key) (xs.map source) := by
  induction xs with
  | nil => exact .slnil
  | cons x rest ih =>
      rw [List.map_cons, List.map_cons, List.filterMap_cons]
      cases hx : f x with
      | error e =>
          simp only [herror, List.map_cons, h x e hx]
          exact ih.cons_cons (source x)
      | ok a =>
          simp only [hok]
          exact ih.cons (source x)

end Lists

end Results

end PlatformBridge
