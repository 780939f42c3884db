import Mathlib.Data.List.Basic
import PlatformBridge.Messages

/-!
# Templates of Messages

A template is made of letters and of holes, each with the name of the argument
that belongs there. `fill` puts all arguments in at once: every hole is filled
with the value of its name, and nothing else is changed. This is what one
takes a message for, and the module on insertion says how far it is one.

The templates of the tool are well spaced. The names in their holes are words,
and there is a blank between any two holes, before any closing brace. Because
of these blanks, the values can be told from the filled template if one knows
how many blanks are in each of them: the first value ends before a certain
blank, and so on.

That the templates are well spaced is decided by running through them, and
nothing else is ever used of what they say. A template that is added to the
tool, or put in other words, leaves everything as it is, as long as this check
still passes. One with two holes next to each other would not pass, and would
not deserve to, since its values could not be told apart.

## Main definitions

* `Messages.Piece`, `Messages.pieces`: The letters and holes of a template.
* `Messages.fill`: A template with all of its holes filled at once.
* `Messages.IsWord`: Names without blanks and braces.
* `Messages.Guarded`, `Messages.WellSpaced`: Between any two holes there is a
  blank.

## Theorems

* `Messages.shown_piecesFrom`, `Messages.fill_nil`: Without arguments, a
  template is what it was.
* `Messages.wellSpaced_templates`, `Messages.nodup_templates`: The templates
  of the tool.
* `Messages.Guarded.blank_mem`: Behind a hole, there is a blank before a
  closing brace.
* `Messages.Guarded.eq_of_append_eq`: Where the value of a hole ends.
* `Messages.shown_injective`: Values of as many blanks can be told from the
  filled template.
-/

namespace PlatformBridge

namespace Messages

section Pieces

/-- A template consists of letters and of holes with a name. -/
inductive Piece where
  | letter (c : Char)
  | hole (name : String)
  deriving DecidableEq

/-- The pieces of a text, with what was read of a name before it. -/
def piecesFrom : Option (List Char) → List Char → List Piece
  | none, [] => []
  -- A brace that is never closed does not open a hole.
  | some name, [] => ('{' :: name).map .letter
  | none, c :: text =>
    if c = '{' then piecesFrom (some []) text else .letter c :: piecesFrom none text
  | some name, c :: text =>
    if c = '}' then .hole (String.ofList name) :: piecesFrom none text
    else piecesFrom (some (name ++ [c])) text

/-- The pieces of a template. -/
def pieces (template : String) : List Piece := piecesFrom none template.toList

/-- A piece with values in its holes. A hole without a value is its placeholder. -/
def Piece.shown (arguments : List (String × String)) : Piece → List Char
  | .letter c => [c]
  | .hole name => ((arguments.lookup name).getD (placeholder name)).toList

/-- A template with the value of its name in every hole, and nothing else changed. -/
def fill (arguments : List (String × String)) (template : String) : String :=
  String.ofList ((pieces template).flatMap (Piece.shown arguments))

theorem toList_placeholder (name : String) :
    (placeholder name).toList = '{' :: (name.toList ++ ['}']) := by
  simp only [placeholder, String.toList_append]
  rfl

/-- The pieces of a text, with every hole shown as its placeholder, are the text. -/
theorem shown_piecesFrom (name? : Option (List Char)) (text : List Char) :
    (piecesFrom name? text).flatMap (Piece.shown [])
      = (match name? with | none => [] | some name => '{' :: name) ++ text := by
  -- The brace that was met and not yet closed is carried along with the name behind it.
  induction text generalizing name? with
  | nil =>
      cases name? with
      | none => rfl
      | some name =>
          rw [piecesFrom, List.flatMap_map, List.append_nil]
          exact List.flatMap_singleton' _
  | cons c text ih =>
      cases name? with
      | none =>
          rw [piecesFrom]
          split
          · next hc => rw [ih, hc]; rfl
          · rw [List.flatMap_cons, ih]; rfl
      | some name =>
          rw [piecesFrom]
          split
          · next hc =>
              rw [List.flatMap_cons, ih, hc]
              simp only [Piece.shown, List.lookup_nil, Option.getD_none, toList_placeholder,
                String.toList_ofList, List.cons_append, List.append_assoc, List.nil_append]
          · rw [ih]
            simp only [List.cons_append, List.append_assoc, List.nil_append]

/-- Without arguments, a template is what it was. -/
theorem fill_nil (template : String) : fill [] template = template := by
  rw [fill, pieces, shown_piecesFrom, List.nil_append, String.ofList_toList]

end Pieces

section Spacing

/-- Names without blanks and braces, as identifiers are. -/
def IsWord (name : String) : Prop := ∀ c ∈ name.toList, c ≠ '{' ∧ c ≠ '}' ∧ c ≠ ' '

/-- A blank comes before the next hole and before the next closing brace. -/
def Guarded : List Piece → Prop
  | [] => True
  | .letter c :: rest => c = ' ' ∨ c ≠ '}' ∧ Guarded rest
  | .hole _ :: _ => False

/-- Between any two holes there is a blank, and no letter opens another hole. -/
def WellSpaced : List Piece → Prop
  | [] => True
  | .letter c :: rest => c ≠ '{' ∧ WellSpaced rest
  | .hole name :: rest => IsWord name ∧ Guarded rest ∧ WellSpaced rest

instance (name : String) : Decidable (IsWord name) := List.decidableBAll _ name.toList

instance decidableGuarded : (ps : List Piece) → Decidable (Guarded ps)
  | [] => .isTrue trivial
  | .letter c :: rest =>
    have := decidableGuarded rest
    inferInstanceAs (Decidable (c = ' ' ∨ c ≠ '}' ∧ Guarded rest))
  | .hole _ :: _ => .isFalse id

instance decidableWellSpaced : (ps : List Piece) → Decidable (WellSpaced ps)
  | [] => .isTrue trivial
  | .letter c :: rest =>
    have := decidableWellSpaced rest
    inferInstanceAs (Decidable (c ≠ '{' ∧ WellSpaced rest))
  | .hole name :: rest =>
    have := decidableWellSpaced rest
    inferInstanceAs (Decidable (IsWord name ∧ Guarded rest ∧ WellSpaced rest))

/-- The templates of the tool are well spaced. -/
theorem wellSpaced_templates : ∀ m ∈ templates, WellSpaced (pieces m.2) := by decide +kernel

/-- No key has two templates. -/
theorem nodup_templates : (templates.map (·.1)).Nodup := by decide +kernel

variable {arguments others : List (String × String)} {ps : List Piece}

/-- Behind a hole, there is a blank before a closing brace, whatever is in the other holes. -/
theorem Guarded.blank_mem (h : Guarded ps) (before : List Char)
    (hbefore : before <+: ps.flatMap (Piece.shown arguments)) (hbrace : '}' ∈ before) :
    ' ' ∈ before := by
  induction ps generalizing before with
  | nil =>
      rw [List.prefix_nil.mp hbefore] at hbrace
      exact absurd hbrace List.not_mem_nil
  | cons p rest ih =>
      cases p with
      | hole name => exact h.elim
      | letter c =>
          rcases List.exists_cons_of_ne_nil (List.ne_nil_of_mem hbrace) with ⟨d, more, rfl⟩
          rw [List.flatMap_cons, Piece.shown, List.singleton_append, List.cons_prefix_cons]
            at hbefore
          rcases hbefore with ⟨rfl, hmore⟩
          rcases h with rfl | ⟨hd, hrest⟩
          · exact List.mem_cons_self
          · have hbrace : '}' ∈ more := (List.mem_cons.mp hbrace).resolve_left hd.symm
            exact List.mem_cons_of_mem d (ih hrest more hmore hbrace)

/-- Of two texts with as many of a letter, none goes beyond that letter behind the other. -/
theorem eq_of_append_cons_eq {xs ys xs' ys' : List Char} (c : Char)
    (h : xs ++ c :: xs' = ys ++ c :: ys') (hcount : xs.count c = ys.count c) : xs = ys := by
  rcases List.append_eq_append_iff.mp h with ⟨more, rfl, hmore⟩ | ⟨more, rfl, hmore⟩
  all_goals
    cases more with
    | nil => rw [List.append_nil]
    | cons d more =>
        rw [List.cons_append, List.cons.injEq] at hmore
        rw [List.count_append, List.count_cons, ← hmore.1] at hcount
        simp only [beq_self_eq_true, if_true] at hcount
        omega

/-- The blank behind a hole shows where its value ends. The induction is on what stands before it.
    -/
theorem Guarded.eq_of_append_eq (h : Guarded ps) (value other : List Char)
    (heq : value ++ ps.flatMap (Piece.shown arguments)
      = other ++ ps.flatMap (Piece.shown others))
    (hcount : value.count ' ' = other.count ' ') : value = other := by
  induction ps generalizing value other with
  | nil => rwa [List.flatMap_nil, List.flatMap_nil, List.append_nil, List.append_nil] at heq
  | cons p rest ih =>
      cases p with
      | hole name => exact h.elim
      | letter c =>
          simp only [List.flatMap_cons, Piece.shown, List.singleton_append] at heq
          rcases h with rfl | ⟨-, hrest⟩
          · exact eq_of_append_cons_eq ' ' heq hcount
          · have hlonger : value ++ [c] = other ++ [c] := by
              refine ih hrest _ _ ?_ ?_
              · rw [List.append_assoc, List.append_assoc]
                exact heq
              · rw [List.count_append, List.count_append, hcount]
            exact List.append_cancel_right hlonger

/-- Values with no more blanks make a text with no more blanks. -/
theorem count_shown_le
    (hle : ∀ p ∈ ps, (p.shown arguments).count ' ' ≤ (p.shown others).count ' ') :
    (ps.flatMap (Piece.shown arguments)).count ' '
      ≤ (ps.flatMap (Piece.shown others)).count ' ' := by
  induction ps with
  | nil => exact Nat.le_refl _
  | cons p rest ih =>
      rw [List.forall_mem_cons] at hle
      rw [List.flatMap_cons, List.flatMap_cons, List.count_append, List.count_append]
      exact Nat.add_le_add hle.1 (ih hle.2)

/-- What is in the holes can be told from the filled template: if two fillings read the same, and no
    value of the first has more blanks than that of the second, their values are the same. -/
theorem shown_injective (hps : WellSpaced ps)
    (hle : ∀ p ∈ ps, (p.shown arguments).count ' ' ≤ (p.shown others).count ' ')
    (h : ps.flatMap (Piece.shown arguments) = ps.flatMap (Piece.shown others)) :
    ∀ p ∈ ps, p.shown arguments = p.shown others := by
  induction ps with
  | nil => exact fun p hp => absurd hp List.not_mem_nil
  | cons p rest ih =>
      rw [List.forall_mem_cons] at hle ⊢
      rw [List.flatMap_cons, List.flatMap_cons] at h
      have hpiece : p.shown arguments = p.shown others := by
        cases p with
        | letter c => rfl
        | hole name =>
            -- Nowhere are there fewer blanks, and all together there are as many.
            have hcount := congrArg (List.count ' ') h
            have hrest := count_shown_le hle.2
            have hhole := hle.1
            rw [List.count_append, List.count_append] at hcount
            exact hps.2.1.eq_of_append_eq _ _ h (by omega)
      have hspaced : WellSpaced rest := by
        cases p with
        | letter c => exact hps.2
        | hole name => exact hps.2.2
      rw [hpiece] at h
      exact ⟨hpiece, ih hspaced hle.2 (List.append_cancel_left h)⟩

end Spacing

end Messages

end PlatformBridge
