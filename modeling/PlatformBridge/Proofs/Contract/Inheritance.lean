import Mathlib.Logic.Function.Iterate
import PlatformBridge.Proofs.Contract.Lookup

/-!
# Inheritance in a Contract

All fields of a composite are gathered on a walk along bases. Nothing checks a
contract that is read from a document: it may define a name twice, name a base
that is not defined or is an enumeration, and have bases in a circle. The
fields are the right ones even then.

The walk is described in two ways that have nothing in common with how it is
computed. `advance` is one turn of a loop that remembers the names it has seen.
A turn that does not end the loop meets a name that was not seen before and is
defined, so there are no more turns than data types, and one. `Ancestry` says
what is met and not how: composites with distinct names, each the base of the
one before it, up to a place from where no other can be met. There is just one
such line.

A walk that starts at the base of a composite meets the same composites as the
walk from the composite itself, unless it comes back to it, where the other
one would end. `Climbs` is the path alone, and tells whether it comes back.

`Ancestry` has the names that were met as a parameter. It is what makes
`ancestry_cons_iff` an equivalence: a line without its first composite is a
line again, from the base and with one name more that was met. Uniqueness and
existence are inductions by it, the first over the line and the second over the
fuel of the computed walk, which lasts because each link uses up a name.

## Main definitions

* `Contract.Composite`, `Contract.Defines`: Composites by name, and the first
  definition of a name.
* `Contract.Climbs`: Following bases leads from a place over some composites
  to another place.
* `Contract.Ancestry`: The composites that are met by following bases.
* `Contract.Walk`, `Contract.advance`: The state of the loop, and a turn of
  it.
* `Contract.unmet`: How many names are left to be met.

## Theorems

* `Contract.composite?_eq_some_iff_defines`, `Contract.composite?_eq_none_iff`:
  Lookups and definitions.
* `Contract.ancestry_nil_iff`, `Contract.ancestry_cons_iff`: A line by its
  first composite.
* `Contract.Ancestry.unique`, `Contract.exists_ancestry`: There is one line.
* `Contract.Ancestry.met_cons`: Names that are not on a line.
* `Contract.advance_cases`: What a turn does.
* `Contract.met_iterate_advance`, `Contract.next_iterate_advance`: What some
  turns of the loop meet, and that it ends.
* `Contract.Ancestry.fieldsWithInherited_eq`,
  `Contract.fieldsWithInherited_eq_append`: The fields by the line, and by the
  base.
* `Contract.fieldsWithInherited_by_ancestry`: All fields of a name, in every
  contract.
-/

namespace PlatformBridge

namespace Contract

variable (c : Contract)

/-- A composite by its name, with its own fields and its base. -/
structure Composite where
  name : TypeName
  fields : List Field
  base : Option TypeName
  deriving DecidableEq, Repr

/-- The definition of a composite. -/
def Composite.definition (k : Composite) : DataType := ⟨k.name, .composite k.fields k.base⟩

/-- A definition is the one that counts for its name: there is none of this name before it. -/
def Defines (d : DataType) : Prop :=
  ∃ before after, c.dataTypes = before ++ d :: after ∧ ∀ e ∈ before, e.name ≠ d.name

/-- Following bases leads from a place over some composites to another place. A place is a name, or
    the end behind a composite without a base. -/
inductive Climbs : Option TypeName → List Composite → Option TypeName → Prop where
  | stay (place : Option TypeName) : Climbs place [] place
  | step (k : Composite) (line : List Composite) (place : Option TypeName)
      (hk : c.Defines k.definition) (hrest : Climbs k.base line place) :
      Climbs (some k.name) (k :: line) place

/-- The composites that are met by following bases from a place, when some names were met before:
    they lead to a name that was met, or that is no composite, or to the end, and none of them is
    met twice. -/
structure Ancestry (met : List TypeName) (start : Option TypeName) (line : List Composite) :
    Prop where
  path : ∃ place, c.Climbs start line place ∧ ∀ name ∈ place,
    name ∈ met ∨ name ∈ line.map (·.name)
      ∨ ∀ fields base, ¬ c.Defines ⟨name, .composite fields base⟩
  nodup : (line.map (·.name)).Nodup
  fresh : ∀ k ∈ line, k.name ∉ met

/-- The state of the loop: the names that were seen, the own fields of the composites that were met,
    and the name that comes next, unless the loop is at its end. -/
structure Walk where
  seen : List TypeName
  met : List (List Field)
  next : Option TypeName
  deriving DecidableEq, Repr

namespace Walk

/-- Where the loop starts. -/
def start (name : TypeName) : Walk := ⟨[], [], some name⟩

/-- What the loop has gathered: the fields of the composites, those of the last one first. -/
def fields (w : Walk) : List Field := w.met.reverse.flatten

end Walk

/-- A turn of the loop. At its end nothing is left to be done. -/
def advance (w : Walk) : Walk :=
  match w.next with
  | none => w
  | some name =>
    if name ∈ w.seen then { w with next := none }
    else match c.composite? name with
      | none => { w with seen := name :: w.seen, next := none }
      | some (fields, base) => ⟨name :: w.seen, w.met ++ [fields], base⟩

section Definitions

theorem defines_iff (d : DataType) : c.Defines d ↔ c.dataType? d.name = some d := by
  rw [Defines, dataType?, List.find?_eq_some_iff_append, decide_eq_true rfl,
    and_iff_right rfl]
  simp only [Bool.not_eq_true', decide_eq_false_iff_not, ne_eq]

/-- A name is found as a composite just if this is the first definition of it. -/
theorem composite?_eq_some_iff_defines (name : TypeName) (fields : List Field)
    (base : Option TypeName) :
    c.composite? name = some (fields, base) ↔ c.Defines ⟨name, .composite fields base⟩ := by
  rw [composite?_eq_some_iff, defines_iff]

/-- A name that is not found as a composite is not defined as one. -/
theorem composite?_eq_none_iff (name : TypeName) :
    c.composite? name = none ↔ ∀ fields base, ¬ c.Defines ⟨name, .composite fields base⟩ := by
  rw [Option.eq_none_iff_forall_ne_some, Prod.forall]
  simp only [ne_eq, composite?_eq_some_iff_defines]

/-- There is one definition that counts for a name. -/
theorem Composite.eq_of_defines {c : Contract} {k k' : Composite} (h : c.Defines k.definition)
    (h' : c.Defines k'.definition) (hname : k.name = k'.name) : k = k' := by
  rcases k with ⟨name, fields, base⟩
  rcases k' with ⟨name', fields', base'⟩
  cases hname
  have hsame := (c.composite?_eq_some_iff_defines _ _ _).mpr h
  rw [(c.composite?_eq_some_iff_defines _ _ _).mpr h'] at hsame
  cases hsame
  rfl

end Definitions

section Paths

variable {c}

/-- A path leads to each composite on it. -/
theorem Climbs.exists_of_mem {start place : Option TypeName} {line : List Composite}
    (h : c.Climbs start line place) :
    ∀ k ∈ line, ∃ before, c.Climbs start before (some k.name) := by
  induction h with
  | stay place => exact nofun
  | step k line place hk _ ih =>
      refine List.forall_mem_cons.mpr ⟨⟨[], .stay _⟩, fun k' hk' => ?_⟩
      rcases ih k' hk' with ⟨before, hbefore⟩
      exact ⟨k :: before, .step k before _ hk hbefore⟩

variable {met : List TypeName} {start : Option TypeName}

/-- No composite is met just if there is none to be met from here. -/
theorem ancestry_nil_iff : c.Ancestry met start [] ↔
    ∀ name ∈ start, name ∈ met ∨ ∀ fields base, ¬ c.Defines ⟨name, .composite fields base⟩ := by
  constructor
  · intro h name hname
    rcases h.path with ⟨place, hpath, hend⟩
    cases hpath
    exact (hend name hname).imp_right fun h => h.resolve_left List.not_mem_nil
  · intro h
    refine ⟨⟨start, .stay start, fun name hname => ?_⟩, List.nodup_nil, nofun⟩
    exact (h name hname).imp_right Or.inr

/-- A composite is met first if it is what the walk starts from, and the others from its base on,
    where it was met before. -/
theorem ancestry_cons_iff {k : Composite} {line : List Composite} :
    c.Ancestry met start (k :: line) ↔ start = some k.name ∧ c.Defines k.definition
      ∧ k.name ∉ met ∧ c.Ancestry (k.name :: met) k.base line := by
  -- The name of the first composite counts as met for the others, and as on the line for all.
  have hmove : ∀ name, (name ∈ met ∨ name ∈ (k :: line).map (·.name)
        ∨ ∀ fields base, ¬ c.Defines ⟨name, .composite fields base⟩)
      ↔ (name ∈ k.name :: met ∨ name ∈ line.map (·.name)
        ∨ ∀ fields base, ¬ c.Defines ⟨name, .composite fields base⟩) := by
    intro name
    rw [List.map_cons, List.mem_cons, List.mem_cons, or_assoc, or_assoc, or_left_comm]
  constructor
  · rintro ⟨⟨place, hpath, hend⟩, hnodup, hfresh⟩
    cases hpath with
    | step _ _ _ hk hrest =>
        rw [List.map_cons, List.nodup_cons] at hnodup
        rw [List.forall_mem_cons] at hfresh
        refine ⟨rfl, hk, hfresh.1, ⟨place, hrest, fun name hname => ?_⟩, hnodup.2, fun k' hk' => ?_⟩
        · exact (hmove name).mp (hend name hname)
        · rw [List.mem_cons, not_or]
          exact ⟨fun heq => hnodup.1 (heq ▸ List.mem_map_of_mem hk'), hfresh.2 k' hk'⟩
  · rintro ⟨rfl, hk, hmet, ⟨place, hpath, hend⟩, hnodup, hfresh⟩
    refine ⟨⟨place, .step k line place hk hpath, fun name hname => ?_⟩, ?_, ?_⟩
    · exact (hmove name).mpr (hend name hname)
    · rw [List.map_cons, List.nodup_cons]
      refine ⟨fun hmem => ?_, hnodup⟩
      rcases List.mem_map.mp hmem with ⟨k', hk', hname⟩
      exact hfresh k' hk' (hname ▸ List.mem_cons_self)
    · exact List.forall_mem_cons.mpr ⟨hmet, fun k' hk' hmem =>
        hfresh k' hk' (List.mem_cons_of_mem _ hmem)⟩

/-- There is one line only. -/
theorem Ancestry.unique {line line' : List Composite} (h : c.Ancestry met start line)
    (h' : c.Ancestry met start line') : line = line' := by
  -- Where one line ends, the other cannot go on.
  have hend : ∀ {met start} {k : Composite} {line}, c.Ancestry met start [] →
      ¬ c.Ancestry met start (k :: line) := by
    intro met start k line hnil hcons
    rcases ancestry_cons_iff.mp hcons with ⟨rfl, hk, hmet, _⟩
    exact (ancestry_nil_iff.mp hnil _ rfl).elim hmet fun hnone => hnone _ _ hk
  induction line generalizing met start line' with
  | nil =>
      cases line' with
      | nil => rfl
      | cons k' line' => exact absurd h' (hend h)
  | cons k line ih =>
      cases line' with
      | nil => exact absurd h (hend h')
      | cons k' line' =>
          rcases ancestry_cons_iff.mp h with ⟨rfl, hk, _, hrest⟩
          rcases ancestry_cons_iff.mp h' with ⟨hname, hk', _, hrest'⟩
          cases Composite.eq_of_defines hk hk' (Option.some.inj hname)
          rw [ih hrest hrest']

/-- A name that is not on a line might as well have been met before. -/
theorem Ancestry.met_cons {line : List Composite} (h : c.Ancestry met start line) (name : TypeName)
    (hname : ∀ k ∈ line, k.name ≠ name) : c.Ancestry (name :: met) start line := by
  rcases h with ⟨⟨place, hpath, hend⟩, hnodup, hfresh⟩
  refine ⟨⟨place, hpath, fun n hn => ?_⟩, hnodup, fun k hk => ?_⟩
  · exact (hend n hn).imp_left (List.mem_cons_of_mem name)
  · exact fun hmem => (List.mem_cons.mp hmem).elim (hname k hk) (hfresh k hk)

end Paths

section Loop

/-- How many data types have names that were not met. -/
def unmet (met : List TypeName) : Nat := (c.dataTypes.filter fun d => d.name ∉ met).length

theorem unmet_nil_lt : c.unmet [] < c.dataTypes.length + 1 :=
  Nat.lt_succ_of_le (List.length_filter_le _ _)

/-- A composite that was not met is one of these. -/
theorem unmet_cons_lt (met : List TypeName) (name : TypeName) (hname : name ∉ met)
    (fields : List Field) (base : Option TypeName)
    (h : c.composite? name = some (fields, base)) : c.unmet (name :: met) < c.unmet met :=
  length_filter_not_mem_cons_lt (fun d : DataType => d.name) c.dataTypes met _
    (c.mem_of_composite?_eq_some name fields base h) hname

/-- What a turn does where the loop is not at its end: it ends, or meets a composite. -/
theorem advance_cases (w : Walk) (name : TypeName) (hnext : w.next = some name) :
    ((name ∈ w.seen ∨ c.composite? name = none)
        ∧ (c.advance w).met = w.met ∧ (c.advance w).next = none)
      ∨ ∃ fields base, name ∉ w.seen ∧ c.composite? name = some (fields, base)
        ∧ c.advance w = ⟨name :: w.seen, w.met ++ [fields], base⟩ := by
  unfold advance
  rw [hnext]
  dsimp only
  by_cases hseen : name ∈ w.seen
  · rw [if_pos hseen]
    exact Or.inl ⟨Or.inl hseen, rfl, rfl⟩
  · rw [if_neg hseen]
    rcases hfound : c.composite? name with _ | ⟨fields, base⟩
    · exact Or.inl ⟨Or.inr rfl, rfl, rfl⟩
    · exact Or.inr ⟨fields, base, hseen, rfl, rfl⟩

/-- Once it is at its end the loop stays there. -/
theorem advance_of_next_eq_none (w : Walk) (h : w.next = none) : c.advance w = w := by
  unfold advance
  rw [h]

/-- Some turns of the loop meet what the chain of bases of that length has. -/
theorem met_iterate_advance (turns : Nat) : ∀ w : Walk, (c.advance^[turns] w).met
    = w.met ++ (w.next.toList.flatMap (c.chain turns w.seen)).map (·.2) := by
  induction turns with
  | zero =>
      intro w
      simp [chain]
  | succ turns ih =>
      intro w
      rw [Function.iterate_succ_apply, ih]
      cases hnext : w.next with
      | none => simp [c.advance_of_next_eq_none w hnext, hnext]
      | some name =>
          rcases c.advance_cases w name hnext with
            ⟨hend, hmet, hdone⟩ | ⟨fields, base, hnew, hfound, hturn⟩
          · simp [hmet, hdone, c.chain_eq_nil _ _ _ hend]
          · simp [hturn, c.chain_succ turns w.seen name hnew fields base hfound]

/-- The loop is at its end after more turns than there are data types that were not seen. -/
theorem next_iterate_advance (turns : Nat) :
    ∀ w : Walk, c.unmet w.seen < turns → (c.advance^[turns] w).next = none := by
  induction turns with
  | zero => exact fun w h => absurd h (Nat.not_lt_zero _)
  | succ turns ih =>
      intro w h
      have hdone : ∀ w : Walk, w.next = none → (c.advance^[turns] w).next = none := by
        intro w hw
        rw [Function.iterate_fixed (c.advance_of_next_eq_none w hw)]
        exact hw
      rw [Function.iterate_succ_apply]
      cases hnext : w.next with
      | none =>
          rw [c.advance_of_next_eq_none w hnext]
          exact hdone w hnext
      | some name =>
          rcases c.advance_cases w name hnext with
            ⟨_, _, hend⟩ | ⟨fields, base, hnew, hfound, hturn⟩
          · exact hdone _ hend
          · have hfewer := c.unmet_cons_lt w.seen name hnew fields base hfound
            exact ih _ (hturn ▸ by dsimp only; omega)

/-- There is a line from every place, and the chain of bases has the fields of it. -/
theorem exists_ancestry (fuel : Nat) :
    ∀ (met : List TypeName) (start : Option TypeName), c.unmet met < fuel →
      ∃ line, c.Ancestry met start line
        ∧ (start.toList.flatMap (c.chain fuel met)).map (·.2) = line.map (·.fields) := by
  induction fuel with
  | zero => exact fun met start h => absurd h (Nat.not_lt_zero _)
  | succ fuel ih =>
      intro met start h
      cases start with
      | none => exact ⟨[], ancestry_nil_iff.mpr nofun, rfl⟩
      | some name =>
          rw [Option.toList_some, List.flatMap_singleton]
          -- The loop ends at a name that was met or defines no composite; otherwise one name less
          -- is left to be met.
          by_cases hend : name ∈ met ∨ c.composite? name = none
          · refine ⟨[], ancestry_nil_iff.mpr fun n hn => ?_, ?_⟩
            · cases hn
              exact hend.imp_right (c.composite?_eq_none_iff name).mp
            · rw [c.chain_eq_nil _ _ _ hend]
              rfl
          · rw [not_or, ← ne_eq, Option.ne_none_iff_exists', Prod.exists] at hend
            rcases hend with ⟨hnew, fields, base, hfound⟩
            have hfewer := c.unmet_cons_lt met name hnew fields base hfound
            rcases ih (name :: met) base (by omega) with ⟨line, hline, hfields⟩
            refine ⟨⟨name, fields, base⟩ :: line, ancestry_cons_iff.mpr ⟨rfl, ?_, hnew, hline⟩, ?_⟩
            · exact (c.composite?_eq_some_iff_defines name fields base).mp hfound
            · rw [c.chain_succ fuel met name hnew fields base hfound, List.map_cons, List.map_cons,
                hfields]

end Loop

section Fields

/-- All fields of a name are those of the composites on its line, from the last one to the first. -/
theorem Ancestry.fieldsWithInherited_eq {c : Contract} {name : TypeName} {line : List Composite}
    (h : c.Ancestry [] (some name) line) :
    c.fieldsWithInherited name = line.reverse.flatMap (·.fields) := by
  rcases c.exists_ancestry _ [] (some name) c.unmet_nil_lt with ⟨line', hline', hfields⟩
  rw [Option.toList_some, List.flatMap_singleton, ← h.unique hline'] at hfields
  rw [fieldsWithInherited, List.flatMap_def, List.flatMap_def, List.map_reverse, List.map_reverse,
    hfields]

/-- The fields of a composite come after those of its base, if bases do not lead back to it. -/
theorem fieldsWithInherited_eq_append (k : Composite) (hk : c.Defines k.definition)
    (hnever : ∀ line, ¬ c.Climbs k.base line (some k.name)) :
    c.fieldsWithInherited k.name = k.base.toList.flatMap c.fieldsWithInherited ++ k.fields := by
  rcases c.exists_ancestry _ [] k.base (Nat.lt_succ_self _) with ⟨line, hline, _⟩
  -- The walk from the base meets the same composites when it comes from the composite itself.
  have hself : c.Ancestry [] (some k.name) (k :: line) := by
    refine ancestry_cons_iff.mpr ⟨rfl, hk, List.not_mem_nil, hline.met_cons k.name ?_⟩
    intro k' hk' hname
    rcases hline.path with ⟨place, hpath, _⟩
    rcases hpath.exists_of_mem k' hk' with ⟨before, hbefore⟩
    exact hnever before (hname ▸ hbefore)
  rw [hself.fieldsWithInherited_eq, List.reverse_cons, List.flatMap_append, List.flatMap_singleton]
  congr 1
  cases hbase : k.base with
  | none =>
      rw [hbase] at hline
      cases hline.unique (ancestry_nil_iff.mpr nofun)
      rfl
  | some base =>
      rw [hbase] at hline
      rw [Option.toList_some, List.flatMap_singleton, hline.fieldsWithInherited_eq]

end Fields

/-- All fields of a name, in a contract that nothing was checked of. The loop that gathers them is
    at its end after one turn for each data type and one more. There is one line of distinct
    composites to be met by following bases from the name, and their fields are what is gathered,
    those of the last one first. And if bases do not lead from the base of a composite back to it,
    then its fields come after all fields of its base. -/
theorem fieldsWithInherited_by_ancestry (name : TypeName) :
    ((c.advance^[c.dataTypes.length + 1] (Walk.start name)).next = none
        ∧ (c.advance^[c.dataTypes.length + 1] (Walk.start name)).fields
          = c.fieldsWithInherited name)
      ∧ (∃! line, c.Ancestry [] (some name) line)
      ∧ (∀ line, c.Ancestry [] (some name) line →
        c.fieldsWithInherited name = line.reverse.flatMap (·.fields))
      ∧ ∀ fields base, c.Defines ⟨name, .composite fields base⟩ →
        (∀ line, ¬ c.Climbs base line (some name)) →
        c.fieldsWithInherited name = base.toList.flatMap c.fieldsWithInherited ++ fields := by
  refine ⟨⟨c.next_iterate_advance _ _ c.unmet_nil_lt, ?_⟩, ?_,
    fun line h => h.fieldsWithInherited_eq,
    fun fields base => c.fieldsWithInherited_eq_append ⟨name, fields, base⟩⟩
  · rw [Walk.fields, met_iterate_advance, fieldsWithInherited]
    simp [Walk.start, List.flatMap_def]
  · rcases c.exists_ancestry _ [] (some name) c.unmet_nil_lt with ⟨line, hline, _⟩
    exact ⟨line, hline, fun line' hline' => hline'.unique hline⟩

/-- A composite that is defined twice and whose bases lead into a circle, and one whose base is an
    enumeration. -/
def tangledContract : Contract := ⟨"Acme", [], [
  ⟨"Acme.Leaf", .composite [⟨"Color", .primitive .string⟩] (some "Acme.Branch")⟩,
  ⟨"Acme.Branch", .composite [⟨"Length", .primitive .f64⟩] (some "Acme.Root")⟩,
  ⟨"Acme.Leaf", .enumeration ["Green"]⟩,
  ⟨"Acme.Root", .composite [⟨"Depth", .primitive .i32⟩] (some "Acme.Branch")⟩,
  ⟨"Acme.Moss", .composite [⟨"Spread", .primitive .f32⟩] (some "Acme.Mood")⟩,
  ⟨"Acme.Mood", .enumeration []⟩]⟩

/-- In this contract a name counts by its first definition, the circle is left after one round, and
    the enumeration ends a line. -/
theorem fieldsWithInherited_of_tangledContract :
    (tangledContract.fieldsWithInherited "Acme.Leaf").map (·.name) = ["Depth", "Length", "Color"]
      ∧ (tangledContract.fieldsWithInherited "Acme.Root").map (·.name) = ["Length", "Depth"]
      ∧ (tangledContract.fieldsWithInherited "Acme.Moss").map (·.name) = ["Spread"]
      ∧ (∃ line, tangledContract.Ancestry [] (some "Acme.Leaf") line)
      ∧ tangledContract.fieldsWithInherited "Acme.Leaf"
        = tangledContract.fieldsWithInherited "Acme.Branch" ++ [⟨"Color", .primitive .string⟩] := by
  have hleaf := (tangledContract.fieldsWithInherited_by_ancestry "Acme.Leaf").2
  have hbranch : tangledContract.Defines
      (Composite.mk "Acme.Branch" [⟨"Length", .primitive .f64⟩] (some "Acme.Root")).definition :=
    (defines_iff _ _).mpr rfl
  have hroot : tangledContract.Defines
      (Composite.mk "Acme.Root" [⟨"Depth", .primitive .i32⟩] (some "Acme.Branch")).definition :=
    (defines_iff _ _).mpr rfl
  -- The branch and the root lead to each other only, so the leaf is not met from either.
  have hcircle : ∀ start line place, tangledContract.Climbs start line place →
      start = some "Acme.Branch" ∨ start = some "Acme.Root" → place ≠ some "Acme.Leaf" := by
    intro start line place h
    induction h with
    | stay place =>
        rintro (rfl | rfl)
        · decide
        · decide
    | step k line place hk _ ih =>
        rintro (hname | hname)
        · cases Composite.eq_of_defines hk hbranch (Option.some.inj hname)
          exact ih (Or.inr rfl)
        · cases Composite.eq_of_defines hk hroot (Option.some.inj hname)
          exact ih (Or.inl rfl)
  refine ⟨by decide, by decide, by decide, hleaf.1.exists, ?_⟩
  exact hleaf.2.2 _ (some "Acme.Branch") ((defines_iff _ _).mpr rfl) fun line hline =>
    hcircle _ _ _ hline (Or.inl rfl) rfl

end Contract

end PlatformBridge
