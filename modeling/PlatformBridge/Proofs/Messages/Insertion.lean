import PlatformBridge.Command.Run
import PlatformBridge.Proofs.Contract.Lookup
import PlatformBridge.Proofs.Messages.Replacement
import PlatformBridge.Proofs.Messages.Templates
import PlatformBridge.Proofs.Text.Letters

/-!
# Arguments of Messages

What becomes of the arguments of a message. One would have them all put into
the template at once, as `fill` does. The messages are made in turns instead,
one for each argument, and a turn goes over all of the text that is there by
then. So what one argument has put in is searched for the placeholders of the
arguments behind it, as if it had been a part of the template.

That is all that goes wrong. A turn cannot find a placeholder that is partly
in a value and partly behind it, since there is no blank in a placeholder and
there is one behind every hole. So after every turn the text is the template
filled with the values so far, each of them changed by the arguments behind
its own, and the message is the template filled with what the values come to.
As no turn removes a blank, changed values cannot make up for each other: the
message is as it should be only if every value in it is.

The induction over the turns is `inserted_shown`. Its statement is about a
template whose holes are filled in part, with arguments that came before, and
one turn takes the first of those that are left. `settled` is what the values
have become when no argument is left, and whether that is what they were is a
question about each value on its own.

For values without braces this question is easy: what they put in makes no new
placeholder, so a text is left alone just if it has none of the placeholders
to begin with. The summary of a validation has counts behind the name of the
library, and counts are numbers. This gives the condition for its first line
exactly, in terms of the name.

## Main definitions

* `Messages.inserted`: A text after the turns of some arguments.
* `Messages.settled`: The values after the turns of the arguments behind their
  own.
* `Verdict.counts`: What the summary counts.

## Theorems

* `Messages.replaces_shown`: One turn fills the holes of a name, and changes
  the values before.
* `Messages.inserted_shown`, `Messages.compose_eq_fill`: All turns.
* `Messages.lookup_settled`: What one value comes to.
* `Messages.compose_eq_fill_iff`: When a message is the template with the
  arguments as they are.
* `Messages.inserted_eq_self`, `Messages.inserted_eq_self_iff`: When values
  change nothing.
* `Messages.compose_eq_fill_of_perm`: When the order does not matter.
* `Messages.summary_eq_fill`, `Messages.exists_text_eq`: The summary, and
  where it stands.
* `Messages.insertion_of_compose`: The arguments of messages, and those of the
  summary.
* `Messages.exists_compose_ne_fill`: A summary that is not as it should be.
-/

namespace PlatformBridge

namespace Messages

variable {arguments : List (String × String)} {name value : String}

section Turns

theorem brace_mem_placeholder (name : String) : '{' ∈ (placeholder name).toList := by
  rw [toList_placeholder]
  exact List.mem_cons_self

theorem placeholder_ne_nil (name : String) : (placeholder name).toList ≠ [] :=
  List.ne_nil_of_mem (brace_mem_placeholder name)

/-- One turn keeps the rules of replacing. -/
theorem replaces_replace (name value text : String) :
    Replaces (placeholder name).toList value.toList text.toList
      (replace (placeholder name) value text).toList :=
  (replace_eq_iff _ _ _ _ (placeholder_ne_nil name)).mp rfl

/-- There is no blank in a placeholder, which is what keeps it from reaching behind a hole. -/
theorem blank_not_mem_placeholder (hname : IsWord name) : ' ' ∉ (placeholder name).toList := by
  simp only [toList_placeholder, List.mem_cons, List.mem_append, List.not_mem_nil, or_false, not_or]
  exact ⟨by decide, fun h => (hname _ h).2.2 rfl, by decide⟩

/-- A placeholder ends in a brace, so what reaches out of a value reaches behind the next blank. -/
theorem placeholder_isPrefix_of_append (hname : IsWord name) {after right : List Char}
    (hright : ∀ before, before <+: right → '}' ∈ before → ' ' ∈ before)
    (h : (placeholder name).toList <+: after ++ right) : (placeholder name).toList <+: after := by
  rcases List.prefix_or_prefix_of_prefix h (List.prefix_append after right)
    with hwithin | ⟨more, hmore⟩
  · exact hwithin
  · rw [← hmore, List.prefix_append_right_inj] at h
    have hend : more <:+ ('{' :: name.toList) ++ ['}'] := by
      rw [List.cons_append, ← toList_placeholder, ← hmore]
      exact List.suffix_append after more
    rcases List.suffix_concat_iff.mp hend with rfl | ⟨start, rfl, -⟩
    · rw [← hmore, List.append_nil]
    · have hblank := hright _ h (List.mem_append_right start List.mem_cons_self)
      exact absurd (hmore ▸ List.mem_append_right after hblank) (blank_not_mem_placeholder hname)

/-- Braces do not stand in words, so one placeholder cannot start within another. -/
theorem not_placeholder_isPrefix (hname : IsWord name) {other : String} (hother : IsWord other)
    (hne : other ≠ name) (right : List Char) {after : List Char}
    (hafter : after <:+ (placeholder other).toList) (hnil : after ≠ []) :
    ¬ (placeholder name).toList <+: after ++ right := by
  intro h
  rw [toList_placeholder] at h hafter
  rcases List.suffix_cons_iff.mp hafter with rfl | hlater
  · rcases h with ⟨rest, hrest⟩
    simp only [List.cons_append, List.append_assoc, List.nil_append, List.cons.injEq,
      true_and] at hrest
    have hcount : ∀ word, IsWord word → word.toList.count '}' = 0 :=
      fun word hword => List.count_eq_zero.mpr fun hmem => (hword _ hmem).2.1 rfl
    have heq := eq_of_append_cons_eq '}' hrest
      ((hcount name hname).trans (hcount other hother).symm)
    exact hne (String.toList_inj.mp heq).symm
  · rcases List.exists_cons_of_ne_nil hnil with ⟨c, more, rfl⟩
    rw [List.cons_append, List.cons_prefix_cons] at h
    have hmem := hlater.subset List.mem_cons_self
    rw [← h.1, List.mem_append] at hmem
    rcases hmem with hword | hlast
    · exact (hother _ hword).1 rfl
    · exact absurd hlast (by decide)

theorem lookup_map_value (f : String → String) (arguments : List (String × String))
    (name : String) :
    (arguments.map fun a => (a.1, f a.2)).lookup name = (arguments.lookup name).map f := by
  induction arguments with
  | nil => rfl
  | cons a rest ih =>
      rw [List.map_cons, List.lookup_cons, List.lookup_cons]
      cases name == a.1 with
      | true => rfl
      | false => exact ih

/-- One turn fills the holes of its name, and changes the values that are there already. -/
theorem replaces_shown {ps : List Piece} (hps : WellSpaced ps) (hname : IsWord name)
    (arguments : List (String × String)) :
    Replaces (placeholder name).toList value.toList (ps.flatMap (Piece.shown arguments))
      (ps.flatMap (Piece.shown
        (arguments.map (fun a => (a.1, replace (placeholder name) value a.2))
          ++ [(name, value)]))) := by
  induction ps with
  | nil => exact .nil
  | cons p rest ih =>
      rw [List.flatMap_cons, List.flatMap_cons]
      -- Letters stay, and a hole has a value already, is the one that is filled now, or is left for
      -- later.
      cases p with
      | letter c =>
          refine .kept c _ _ (fun h => hps.1 ?_) (ih hps.2)
          rw [toList_placeholder] at h
          exact (List.cons_prefix_cons.mp h).1.symm
      | hole other =>
          rcases hps with ⟨hother, hguarded, hrest⟩
          simp only [Piece.shown, List.lookup_append, lookup_map_value]
          cases arguments.lookup other with
          | some written =>
              exact (replaces_replace name value written).append (ih hrest) fun after _ _ =>
                placeholder_isPrefix_of_append hname fun before => hguarded.blank_mem before
          | none =>
              by_cases hne : other = name
              · simp only [hne, List.lookup_cons, beq_self_eq_true]
                exact .found _ _ (ih hrest)
              · simp only [List.lookup_cons, beq_eq_false_iff_ne.mpr hne, List.lookup_nil]
                exact (ih hrest).skip _ fun after hafter hnil =>
                  not_placeholder_isPrefix hname hother hne _ hafter hnil

/-- A text after the turns of some arguments. -/
def inserted (arguments : List (String × String)) (text : String) : String :=
  arguments.foldl (fun text a => replace (placeholder a.1) a.2 text) text

/-- The arguments with the values that they come to in the turns of the arguments behind them. -/
def settled : List (String × String) → List (String × String)
  | [] => []
  | (name, value) :: rest => (name, inserted rest value) :: settled rest

/-- The turns of some arguments after those of others. -/
theorem inserted_shown {ps : List Piece} (hps : WellSpaced ps) (arguments : List (String × String))
    (hwords : ∀ a ∈ arguments, IsWord a.1) (before : List (String × String)) :
    inserted arguments (String.ofList (ps.flatMap (Piece.shown before)))
      = String.ofList (ps.flatMap (Piece.shown
          (before.map (fun a => (a.1, inserted arguments a.2)) ++ settled arguments))) := by
  induction arguments generalizing before with
  | nil =>
      simp only [inserted, settled, List.foldl_nil, List.append_nil, List.map_id']
  | cons a rest ih =>
      rcases a with ⟨name, value⟩
      rw [List.forall_mem_cons] at hwords
      have hturn :
          replace (placeholder name) value (String.ofList (ps.flatMap (Piece.shown before)))
          = String.ofList (ps.flatMap (Piece.shown (before.map
              (fun a => (a.1, replace (placeholder name) value a.2)) ++ [(name, value)]))) := by
        rw [replace_eq_iff _ _ _ _ (placeholder_ne_nil name), String.toList_ofList,
          String.toList_ofList]
        exact replaces_shown hps hwords.1 before
      rw [inserted, List.foldl_cons, hturn]
      refine (ih hwords.2 _).trans ?_
      rw [List.map_append, List.map_map, List.append_assoc]
      rfl

/-- A message is its template filled with what the values come to. -/
theorem compose_eq_fill {key template : String} (htemplate : (key, template) ∈ templates)
    (hwords : ∀ a ∈ arguments, IsWord a.1) :
    compose key arguments = fill (settled arguments) template := by
  have hspaced := wellSpaced_templates _ htemplate
  have hfound := find?_key_of_nodup (·.1) templates nodup_templates _ htemplate
  have hstart : compose key arguments = inserted arguments template := by
    rw [compose, hfound]
    rfl
  rw [hstart, fill]
  refine Eq.trans ?_ (inserted_shown hspaced arguments hwords [])
  rw [← fill, fill_nil]

end Turns

section Exactness

-- What is looked up is the first argument of a name.
theorem lookup_eq_some_iff : arguments.lookup name = some value
    ↔ ∃ before after, arguments = before ++ (name, value) :: after ∧ ∀ a ∈ before, a.1 ≠ name := by
  simp only [List.lookup_eq_some_iff, bne_iff_ne, ne_comm]

-- With distinct names, no other argument has the name of one.
theorem ne_of_nodup {before after : List (String × String)}
    (h : ((before ++ (name, value) :: after).map (·.1)).Nodup) :
    ∀ a ∈ before ++ after, a.1 ≠ name := by
  rw [List.map_append, List.map_cons, List.nodup_middle, List.nodup_cons, ← List.map_append] at h
  exact fun a ha heq => h.1 (List.mem_map.mpr ⟨a, ha, heq⟩)

theorem lookup_eq_some_iff_mem (h : (arguments.map (·.1)).Nodup) :
    arguments.lookup name = some value ↔ (name, value) ∈ arguments := by
  constructor
  · intro hlookup
    rcases lookup_eq_some_iff.mp hlookup with ⟨before, after, rfl, -⟩
    exact List.mem_append_right before List.mem_cons_self
  · intro hmem
    rcases List.append_of_mem hmem with ⟨before, after, rfl⟩
    exact lookup_eq_some_iff.mpr
      ⟨before, after, rfl, fun a ha => ne_of_nodup h a (List.mem_append_left after ha)⟩

/-- The first value of a name comes to what the arguments behind it make of it. -/
theorem lookup_settled {before : List (String × String)} (hfirst : ∀ a ∈ before, a.1 ≠ name)
    (after : List (String × String)) :
    (settled (before ++ (name, value) :: after)).lookup name = some (inserted after value) := by
  induction before with
  | nil => simp only [List.nil_append, settled, List.lookup_cons, beq_self_eq_true]
  | cons a rest ih =>
      rw [List.forall_mem_cons] at hfirst
      simp only [List.cons_append, settled, List.lookup_cons, beq_eq_false_iff_ne.mpr hfirst.1.symm]
      exact ih hfirst.2

theorem lookup_settled_eq_none (h : arguments.lookup name = none) :
    (settled arguments).lookup name = none := by
  induction arguments with
  | nil => rfl
  | cons a rest ih =>
      rw [List.lookup_cons] at h
      rw [settled, List.lookup_cons]
      cases hname : name == a.1 with
      | true => simp only [hname, reduceCtorEq] at h
      | false =>
          rw [hname] at h
          exact ih h

/-- No turn removes a blank, since there is none in a placeholder. -/
theorem count_le_count_inserted (hwords : ∀ a ∈ arguments, IsWord a.1) (text : String) :
    text.toList.count ' ' ≤ (inserted arguments text).toList.count ' ' := by
  induction arguments generalizing text with
  | nil => exact Nat.le_refl _
  | cons a rest ih =>
      rw [List.forall_mem_cons] at hwords
      have hblank := blank_not_mem_placeholder hwords.1
      exact ((replaces_replace a.1 a.2 text).count_le_count ' ' hblank).trans (ih hwords.2 _)

/-- A blank in a value stays there. -/
theorem count_shown_le_settled (hwords : ∀ a ∈ arguments, IsWord a.1) (p : Piece) :
    (p.shown arguments).count ' ' ≤ (p.shown (settled arguments)).count ' ' := by
  cases p with
  | letter c => exact Nat.le_refl _
  | hole name =>
      rw [Piece.shown, Piece.shown]
      cases hlookup : arguments.lookup name with
      | none => rw [lookup_settled_eq_none hlookup]
      | some value =>
          rcases lookup_eq_some_iff.mp hlookup with ⟨before, after, rfl, hfirst⟩
          rw [lookup_settled hfirst]
          refine count_le_count_inserted (fun a ha => hwords a ?_) value
          exact List.mem_append_right before (List.mem_cons_of_mem _ ha)

/-- A message is its template with the arguments as they are if and only if no argument that it
    shows is changed by those behind it. -/
theorem compose_eq_fill_iff {key template : String} (htemplate : (key, template) ∈ templates)
    (hdistinct : (arguments.map (·.1)).Nodup) (hwords : ∀ a ∈ arguments, IsWord a.1) :
    compose key arguments = fill arguments template
      ↔ ∀ before name value after, arguments = before ++ (name, value) :: after →
          .hole name ∈ pieces template → inserted after value = value := by
  rw [compose_eq_fill htemplate hwords, fill, fill, String.ofList_inj]
  constructor
  · rintro h before name value after rfl hhole
    have hfirst : ∀ a ∈ before, a.1 ≠ name :=
      fun a ha => ne_of_nodup hdistinct a (List.mem_append_left after ha)
    -- Two texts from one template are equal only if every hole is filled alike.
    have hshown := shown_injective (wellSpaced_templates _ htemplate)
      (fun p _ => count_shown_le_settled hwords p) h.symm _ hhole
    rw [Piece.shown, Piece.shown, lookup_settled hfirst,
      lookup_eq_some_iff.mpr ⟨before, after, rfl, hfirst⟩] at hshown
    exact (String.toList_inj.mp hshown).symm
  · intro h
    refine List.flatMap_congr fun p hp => ?_
    cases p with
    | letter c => rfl
    | hole name =>
        rw [Piece.shown, Piece.shown]
        cases hlookup : arguments.lookup name with
        | none => rw [lookup_settled_eq_none hlookup]
        | some value =>
            rcases lookup_eq_some_iff.mp hlookup with ⟨before, after, rfl, hfirst⟩
            rw [lookup_settled hfirst, h before name value after rfl hp]

/-- A text without the placeholder of an argument stays as it is in the turn of this argument. -/
theorem replace_placeholder_eq_self {text : String}
    (h : ¬ (placeholder name).toList <:+: text.toList) :
    replace (placeholder name) value text = text :=
  (replace_eq_iff _ _ _ _ (placeholder_ne_nil name)).mpr (replaces_self h)

/-- Arguments whose placeholders do not occur in a text leave it as it is. -/
theorem inserted_eq_self (text : String)
    (h : ∀ a ∈ arguments, ¬ (placeholder a.1).toList <:+: text.toList) :
    inserted arguments text = text := by
  induction arguments with
  | nil => rfl
  | cons a rest ih =>
      rw [List.forall_mem_cons] at h
      rw [inserted, List.foldl_cons, replace_placeholder_eq_self h.1]
      exact ih h.2

/-- Values without braces do not add any, so there is one less for good when a placeholder is found.
    -/
theorem count_inserted_le (hplain : ∀ a ∈ arguments, '{' ∉ a.2.toList) (text : String) :
    (inserted arguments text).toList.count '{' ≤ text.toList.count '{' := by
  induction arguments generalizing text with
  | nil => exact Nat.le_refl _
  | cons a rest ih =>
      rw [List.forall_mem_cons] at hplain
      exact (ih hplain.2 _).trans ((replaces_replace a.1 a.2 text).count_ge_count '{' hplain.1)

/-- Arguments without braces leave a text as it is if and only if none of their placeholders occurs
    in it. -/
theorem inserted_eq_self_iff (hplain : ∀ a ∈ arguments, '{' ∉ a.2.toList) (text : String) :
    inserted arguments text = text
      ↔ ∀ a ∈ arguments, ¬ (placeholder a.1).toList <:+: text.toList := by
  refine ⟨fun h => ?_, inserted_eq_self text⟩
  induction arguments with
  | nil => exact fun a ha => absurd ha List.not_mem_nil
  | cons a rest ih =>
      rw [List.forall_mem_cons] at hplain ⊢
      rw [inserted, List.foldl_cons] at h
      have hoccurs : ¬ (placeholder a.1).toList <:+: text.toList := by
        intro hoccurs
        have hfewer := (replaces_replace a.1 a.2 text).count_lt_count '{'
          (brace_mem_placeholder a.1) hplain.1 hoccurs
        have hnotmore := count_inserted_le hplain.2 (replace (placeholder a.1) a.2 text)
        rw [inserted, h] at hnotmore
        exact absurd hnotmore (Nat.not_le_of_lt hfewer)
      rw [replace_placeholder_eq_self hoccurs] at h
      exact ⟨hoccurs, ih hplain.2 h⟩

/-- Values that have no placeholder of another argument in them are put in as they are, and the
    order of the arguments does not matter. -/
theorem compose_eq_fill_of_perm {key template : String} (htemplate : (key, template) ∈ templates)
    (hdistinct : (arguments.map (·.1)).Nodup) (hwords : ∀ a ∈ arguments, IsWord a.1)
    (hvalues : ∀ name value, (name, value) ∈ arguments → .hole name ∈ pieces template →
      ∀ a ∈ arguments, a.1 ≠ name → ¬ (placeholder a.1).toList <:+: value.toList)
    (order : List (String × String)) (hperm : order.Perm arguments) :
    compose key order = fill arguments template := by
  have hnodup : (order.map (·.1)).Nodup := (hperm.map (·.1)).nodup_iff.mpr hdistinct
  -- No value holds the placeholder of another argument, so each is shown as it is in any order.
  have hverbatim : compose key order = fill order template := by
    refine (compose_eq_fill_iff htemplate hnodup fun a ha => hwords a (hperm.subset ha)).mpr ?_
    rintro before name value after rfl hhole
    refine inserted_eq_self value fun a ha => ?_
    have hmem : (name, value) ∈ arguments :=
      hperm.subset (List.mem_append_right before List.mem_cons_self)
    have hbehind : a ∈ arguments :=
      hperm.subset (List.mem_append_right before (List.mem_cons_of_mem _ ha))
    exact hvalues name value hmem hhole a hbehind
      (ne_of_nodup hnodup a (List.mem_append_right before ha))
  -- With distinct names the order does not matter for what is looked up.
  have hlookup : ∀ name, order.lookup name = arguments.lookup name := fun name => by
    refine Option.ext fun value => ?_
    rw [lookup_eq_some_iff_mem hnodup, lookup_eq_some_iff_mem hdistinct, hperm.mem_iff]
  rw [hverbatim, fill, fill]
  congr 1
  refine List.flatMap_congr fun p _ => ?_
  cases p with
  | letter c => rfl
  | hole name => rw [Piece.shown, Piece.shown, hlookup]

/-- Values without braces come to what they are: there is no placeholder in them for others to find.
    -/
theorem settled_eq_self (hplain : ∀ a ∈ arguments, '{' ∉ a.2.toList) :
    settled arguments = arguments := by
  induction arguments with
  | nil => rfl
  | cons a rest ih =>
      rw [List.forall_mem_cons] at hplain
      have hvalue : inserted rest a.2 = a.2 := inserted_eq_self a.2 fun b _ hoccurs =>
        hplain.1 (hoccurs.subset (brace_mem_placeholder b.1))
      rw [settled, hvalue, ih hplain.2]

end Exactness

end Messages

/-- What the summary counts. -/
def Verdict.counts (o : Verdict) : List (String × String) := [
  ("services", Nat.repr o.contract.services.length),
  ("operations", Nat.repr (o.contract.services.flatMap (·.operations)).length),
  ("data_types", Nat.repr o.contract.dataTypes.length)]

namespace Messages

/-- Counts are written in digits, so there is no brace in them. -/
theorem brace_not_mem_counts (o : Verdict) : ∀ a ∈ o.counts, '{' ∉ a.2.toList := by
  have hrepr : ∀ n : Nat, '{' ∉ n.repr.toList := fun n h =>
    absurd (Text.isAlphanum_repr n _ h) (by decide)
  simp only [Verdict.counts, List.forall_mem_cons, hrepr, not_false_eq_true, true_and,
    List.not_mem_nil, false_implies, implies_true]

/-- The summary has the counts as they are, and the name of the library as the counts leave it. -/
theorem summary_eq_fill {o : Verdict} {template : String}
    (htemplate : ("validate.summary", template) ∈ templates) :
    compose "validate.summary" (("assembly", o.contract.assembly) :: o.counts)
      = fill (("assembly", inserted o.counts o.contract.assembly) :: o.counts) template := by
  have hwords : ∀ a ∈ ("assembly", o.contract.assembly) :: o.counts, IsWord a.1 := by
    simp only [Verdict.counts, List.forall_mem_cons, List.not_mem_nil, false_implies,
      implies_true, and_true]
    decide
  rw [compose_eq_fill htemplate hwords, settled, settled_eq_self (brace_not_mem_counts o)]

/-- The text of a verdict starts with the summary. -/
theorem exists_text_eq (o : Verdict) :
    ∃ findings, o.text
      = compose "validate.summary" (("assembly", o.contract.assembly) :: o.counts) ++ "\n"
        ++ findings := by
  rw [Verdict.text, List.map_cons, String.join_cons]
  exact ⟨_, rfl⟩

/-- What becomes of the arguments of a message. Their values are put in as the arguments behind them
    leave them, and nothing else of the template is changed; the message is the template with the
    arguments as they are if and only if none that it shows is changed by those behind it. Without
    placeholders in the values this holds in any order. The text of a verdict starts with the
    summary, which has the name of the library as the counts leave it; this is the name if and only
    if there is no placeholder of a count in it. -/
theorem insertion_of_compose (key template : String) (arguments : List (String × String))
    (htemplate : (key, template) ∈ templates) (hdistinct : (arguments.map (·.1)).Nodup)
    (hwords : ∀ a ∈ arguments, IsWord a.1) :
    compose key arguments = fill (settled arguments) template
      ∧ (compose key arguments = fill arguments template
        ↔ ∀ before name value after, arguments = before ++ (name, value) :: after →
            .hole name ∈ pieces template → inserted after value = value)
      ∧ ((∀ name value, (name, value) ∈ arguments → .hole name ∈ pieces template →
          ∀ a ∈ arguments, a.1 ≠ name → ¬ (placeholder a.1).toList <:+: value.toList) →
        ∀ order : List (String × String), order.Perm arguments →
          compose key order = fill arguments template)
      ∧ (key = "validate.summary" → ∀ o : Verdict,
        (∃ findings, o.text
          = fill (("assembly", inserted o.counts o.contract.assembly) :: o.counts) template
            ++ "\n" ++ findings)
        ∧ (inserted o.counts o.contract.assembly = o.contract.assembly
          ↔ ∀ a ∈ o.counts, ¬ (placeholder a.1).toList <:+: o.contract.assembly.toList)) := by
  refine ⟨compose_eq_fill htemplate hwords, compose_eq_fill_iff htemplate hdistinct hwords,
    compose_eq_fill_of_perm htemplate hdistinct hwords, ?_⟩
  rintro rfl o
  refine ⟨?_, inserted_eq_self_iff (brace_not_mem_counts o) o.contract.assembly⟩
  rw [← summary_eq_fill htemplate]
  exact exists_text_eq o

/-- Values that are written like placeholders are put in as they are behind the arguments they name,
    and a library that is called like the placeholder of its services is shown as their number. -/
theorem insertion_of_placeholders :
    compose "pack.ok" [("count", "3"), ("package", "\x7bcount\x7d"), ("path", "\x7bpackage\x7d")]
        = "Wrote 3 artifacts for \x7bcount\x7d to \x7bpackage\x7d"
      ∧ ∃ findings, Verdict.text ⟨⟨"\x7bservices\x7d", [], []⟩, []⟩
          = "0: 0 service(s), 0 operation(s), 0 data type(s)" ++ "\n" ++ findings := by
  have hpacked := insertion_of_compose "pack.ok"
    "Wrote \x7bcount\x7d artifacts for \x7bpackage\x7d to \x7bpath\x7d"
    [("count", "3"), ("package", "\x7bcount\x7d"), ("path", "\x7bpackage\x7d")]
    (by decide +kernel) (by decide +kernel) (by decide +kernel)
  have hsummary := insertion_of_compose "validate.summary"
    ("\x7bassembly\x7d: \x7bservices\x7d service(s), \x7boperations\x7d operation(s), "
      ++ "\x7bdata_types\x7d data type(s)") [] (by decide +kernel) List.nodup_nil nofun
  refine ⟨hpacked.1.trans (by decide +kernel), ?_⟩
  rcases (hsummary.2.2.2 rfl ⟨⟨"\x7bservices\x7d", [], []⟩, []⟩).1 with ⟨findings, hfindings⟩
  exact ⟨findings, hfindings.trans (congrArg (· ++ "\n" ++ findings) (by decide +kernel))⟩

/-- The summary of a library that is called like the placeholder of its services is not the template
    with the name in it, but would be if the name came last. -/
theorem exists_compose_ne_fill :
    ∃ template arguments order, ("validate.summary", template) ∈ templates
      ∧ (arguments.map (·.1)).Nodup ∧ (∀ a ∈ arguments, IsWord a.1)
      ∧ compose "validate.summary" arguments ≠ fill arguments template
      ∧ order.Perm arguments ∧ compose "validate.summary" order = fill arguments template := by
  refine ⟨"\x7bassembly\x7d: \x7bservices\x7d service(s), \x7boperations\x7d operation(s), "
      ++ "\x7bdata_types\x7d data type(s)",
    [("assembly", "\x7bservices\x7d"), ("services", "1"), ("operations", "2"),
      ("data_types", "3")],
    [("services", "1"), ("operations", "2"), ("data_types", "3"),
      ("assembly", "\x7bservices\x7d")], ?_⟩
  decide +kernel

end Messages

end PlatformBridge
