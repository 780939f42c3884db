import PlatformBridge.Proofs.Bundle.Output

/-!
# How Writing Fails

Each part of writing fails for a few causes, and most of them leave the tree as
it is: an operation that fails changes nothing, and a look changes nothing at
all. What is left of a write that fails is what the parts before the one that
failed have done.

The lemmas here go the same way as those about success, part by part, but each
of them names the error besides the tree. Several errors may come of one part,
so the conclusions are disjunctions over its causes, and whoever wants to know
about one kind of error strikes out the others.

## Theorems

* `Output.attempt_eq_error`: An operation that fails.
* `Output.of_attempt_update_eq_error`, `Output.of_attempt_view_eq_error`: It
  leaves the tree as it is.
* `Output.of_prepare_eq_error`, `Output.of_removeListed_eq_error`,
  `Output.of_put_eq_error`: The parts of writing.
* `Output.exists_of_eachOf_eq_error`: The first file that is not put in place.
* `Output.of_write_eq_error`, `Verdict.of_write_eq_error`: The part that fails
  is rendering, making ready, removing or putting in place.
-/

namespace PlatformBridge

namespace Output

open Runs

variable {t t' : FileTree} {e : BundleError}

/-- An operation that fails is told with the path that it was about. -/
theorem attempt_eq_error {α : Type} (path : Path)
    (operation : StateM FileTree (Except FileError α)) :
    (attempt path operation).run t = (.error e, t')
      ↔ ∃ cause, operation t = (.error cause, t') ∧ .ofFile path cause = e := by
  change ((operation t).1.mapError (BundleError.ofFile path), (operation t).2) = _ ↔ _
  rcases operation t with ⟨result, t₁⟩
  constructor
  · intro h
    cases result with
    | error cause =>
        cases h
        exact ⟨cause, rfl, rfl⟩
    | ok a => cases h
  · rintro ⟨cause, h, rfl⟩
    cases h
    rfl

/-- An operation that fails leaves the tree as it is. -/
theorem of_attempt_update_eq_error (path : Path) (f : FileTree → Except FileError FileTree)
    (h : (attempt path (FileTree.update f)).run t = (.error e, t')) :
    t = t' ∧ ∃ cause, f t = .error cause ∧ .ofFile path cause = e := by
  rcases (attempt_eq_error path _).mp h with ⟨cause, hrun, he⟩
  rw [FileTree.update] at hrun
  cases hf : f t with
  | ok t₁ =>
      rw [hf] at hrun
      cases hrun
  | error cause' =>
      rw [hf] at hrun
      rcases Prod.mk.inj hrun with ⟨hcause, ht⟩
      cases hcause
      exact ⟨ht, cause, rfl, he⟩

/-- A look leaves the tree as it is. -/
theorem of_attempt_view_eq_error {α : Type} (path : Path) (f : FileTree → Except FileError α)
    (h : (attempt path (FileTree.view f)).run t = (.error e, t')) :
    t = t' ∧ ∃ cause, .ofFile path cause = e := by
  rcases (attempt_eq_error path _).mp h with ⟨cause, hrun, he⟩
  exact ⟨(Prod.mk.inj hrun).2, cause, he⟩

theorem throw_eq_error {α : Type} {cause : BundleError} :
    (throw cause : Action α).run t = (.error e, t') ↔ cause = e ∧ t = t' := by
  constructor
  · intro h
    cases h
    exact ⟨rfl, rfl⟩
  · rintro ⟨rfl, rfl⟩
    rfl

theorem ofExcept_eq_error {α : Type} {r : Except BundleError α} :
    (ExceptT.mk (pure r) : Action α).run t = (.error e, t') ↔ r = .error e ∧ t = t' := by
  constructor
  · intro h
    cases h
    exact ⟨rfl, rfl⟩
  · rintro ⟨rfl, rfl⟩
    rfl

/-- A text that is not safe to follow is told as it is, and nothing was done. -/
theorem pathOf_eq_error (text : String) : (pathOf text : Action Path).run t = (.error e, t')
    ↔ (∃ g, pathBelow text = .error g ∧ .generation g = e) ∧ t = t' := by
  rw [pathOf, ofExcept_eq_error]
  cases pathBelow text with
  | error g => simp [Except.mapError]
  | ok path => simp [Except.mapError]

variable (dir : Path)

/-- A directory that is not made ready is left as it is, unless it is missing and cannot be made. -/
theorem of_prepare_eq_error (overwrite : Bool)
    (h : (prepare dir overwrite : Action (Option Manifest)).run t = (.error e, t')) :
    t = t' ∧ (e = .outputPath dir.text ∨ e = .targetNotEmpty dir.text
      ∨ ∃ cause, .ofFile dir cause = e)
    ∨ dir.isEmpty = false ∧ t.kind false dir = .error .notFound ∧ ∃ cause,
        (FileStore.createDirectories dir : StateM FileTree _) t = (.error cause, t')
        ∧ .ofFile dir cause = e := by
  unfold prepare at h
  cases hdir : dir.isEmpty with
  | true =>
      rw [hdir] at h
      rcases throw_eq_error.mp h with ⟨rfl, rfl⟩
      exact Or.inl ⟨rfl, Or.inl rfl⟩
  | false =>
      rw [hdir, if_neg Bool.false_ne_true] at h
      simp only [kind_bind] at h
      -- The cases are those of the code: what is found at the directory, and then what is in it.
      cases hkind : t.kind false dir with
      | error cause =>
          rw [hkind] at h
          cases cause with
          | notFound =>
              rcases bind_eq_error.mp h with h | ⟨_, t₁, _, h⟩
              -- Only a directory that has to be made can leave something behind.
              · exact Or.inr ⟨rfl, rfl, (attempt_eq_error dir _).mp h⟩
              · cases h
          | _ =>
              rcases throw_eq_error.mp h with ⟨rfl, rfl⟩
              exact Or.inl ⟨rfl, Or.inr (Or.inr ⟨_, rfl⟩)⟩
      | ok k =>
          rw [hkind] at h
          cases k with
          | directory =>
              rcases bind_eq_error.mp h with h | ⟨empty, t₁, hempty, h⟩
              · rcases of_attempt_view_eq_error dir _ h with ⟨rfl, hcause⟩
                exact Or.inl ⟨rfl, Or.inr (Or.inr hcause)⟩
              · rcases (attempt_isEmpty_eq_ok dir dir empty).mp hempty with ⟨_, rfl⟩
                cases empty with
                | true => cases h
                | false =>
                    cases overwrite with
                    | true => cases h
                    | false =>
                        rcases throw_eq_error.mp h with ⟨rfl, rfl⟩
                        exact Or.inl ⟨rfl, Or.inr (Or.inl rfl)⟩
          | _ =>
              rcases throw_eq_error.mp h with ⟨rfl, rfl⟩
              exact Or.inl ⟨rfl, Or.inl rfl⟩

section Files

variable (text : String)

/-- A listed file that is not removed is left as it is, and so is everything else. -/
theorem of_removeListed_eq_error
    (h : (removeListed dir text : Action Unit).run t = (.error e, t')) :
    t = t' ∧ ((∃ g, pathBelow text = .error g ∧ .generation g = e) ∨ ∃ path,
      pathBelow text = .ok path ∧ (e = .outputPath (dir.join path).text
        ∨ ∃ cause, .ofFile (dir.join path) cause = e)) := by
  unfold removeListed at h
  rcases bind_eq_error.mp h with h | ⟨path, t₁, hpath, h⟩
  · rcases (pathOf_eq_error text).mp h with ⟨hg, rfl⟩
    exact ⟨rfl, Or.inl hg⟩
  · rcases (pathOf_eq_ok text path).mp hpath with ⟨hsafe, rfl⟩
    simp only [kind_bind] at h
    refine (?_ : t = t' ∧ _).imp_right fun he => Or.inr ⟨path, hsafe, he⟩
    cases hkind : t.kind false (dir.join path) with
    | error cause =>
        rw [hkind] at h
        cases cause with
        | notFound => cases h
        | _ =>
            rcases throw_eq_error.mp h with ⟨rfl, rfl⟩
            exact ⟨rfl, Or.inr ⟨_, rfl⟩⟩
    | ok k =>
        rw [hkind] at h
        cases k with
        | file =>
            rcases of_attempt_update_eq_error _ _ h with ⟨rfl, cause, _, he⟩
            exact ⟨rfl, Or.inr ⟨cause, he⟩⟩
        | _ =>
            rcases throw_eq_error.mp h with ⟨rfl, rfl⟩
            exact ⟨rfl, Or.inl rfl⟩

/-- A file is not put in place if a directory for it cannot be made, or for what is there. -/
theorem of_put_eq_error (path : Path)
    (h : (put dir path text : Action Unit).run t = (.error e, t')) :
    (∃ cause, (FileStore.createDirectories ((dir.join path).parent?.getD dir) :
        StateM FileTree _) t = (.error cause, t')
      ∧ .ofFile ((dir.join path).parent?.getD dir) cause = e)
    ∨ (FileStore.createDirectories ((dir.join path).parent?.getD dir) :
        StateM FileTree _) t = (.ok (), t')
      ∧ (t'.kind false (dir.join path) = .ok .link ∧ e = .outputPath (dir.join path).text
        ∨ ∃ cause, t'.replace (dir.join path) text.toUTF8 = .error cause
          ∧ .ofFile (dir.join path) cause = e) := by
  unfold put at h
  rcases bind_eq_error.mp h with h | ⟨⟨⟩, t₁, hcreate, h⟩
  · exact Or.inl ((attempt_eq_error _ _).mp h)
  · rw [attempt_eq_ok] at hcreate
    simp only [kind_bind] at h
    right
    by_cases hkind : t₁.kind false (dir.join path) = .ok .link
    · rw [hkind] at h
      rcases throw_eq_error.mp h with ⟨rfl, rfl⟩
      exact ⟨hcreate, Or.inl ⟨hkind, rfl⟩⟩
    -- Anything but a link is replaced, whether there is a file or nothing.
    · have hreplace : (attempt (dir.join path)
          (FileStore.replace (dir.join path) text.toUTF8) : Action Unit).run t₁
          = (.error e, t') := by
        cases hlook : t₁.kind false (dir.join path) with
        | error cause =>
            rw [hlook] at h
            exact h
        | ok k =>
            rw [hlook] at h hkind
            cases k with
            | link => exact absurd rfl hkind
            | _ => exact h
      rcases of_attempt_update_eq_error _ _ hreplace with ⟨rfl, hcause⟩
      exact ⟨hcreate, Or.inr hcause⟩

end Files

section Each

variable (act : Path → String → Action Unit)

/-- Of the files that something is done with one is the first with which it is not. -/
theorem exists_of_eachOf_eq_error (items : List (String × String))
    (h : (eachOf act items).run t = (.error e, t')) : ∃ done i rest t₁, items = done ++ i :: rest
      ∧ (eachOf act done).run t = (.ok (), t₁)
      ∧ ((∃ g, pathBelow i.1 = .error g ∧ .generation g = e) ∧ t₁ = t'
        ∨ ∃ path, pathBelow i.1 = .ok path ∧ (act path i.2).run t₁ = (.error e, t')) := by
  rcases exists_of_forM_eq_error h with ⟨done, i, rest, t₁, rfl, hdone, hi⟩
  refine ⟨done, i, rest, t₁, rfl, hdone, ?_⟩
  rcases bind_eq_error.mp hi with hi | ⟨path, t₂, hpath, hi⟩
  · exact Or.inl ((pathOf_eq_error i.1).mp hi)
  · rcases (pathOf_eq_ok i.1 path).mp hpath with ⟨hsafe, rfl⟩
    exact Or.inr ⟨path, hsafe, hi⟩

end Each

variable (b : Bundle) (overwrite : Bool)

/-- A package that is not written has failed in one of the parts of writing. -/
theorem of_write_eq_error (h : (write b dir overwrite : Action Unit).run t = (.error e, t')) :
    (prepare dir overwrite : Action (Option Manifest)).run t = (.error e, t')
    ∨ ∃ old? t₁, (prepare dir overwrite : Action (Option Manifest)).run t = (.ok old?, t₁)
      ∧ (((b.stale old?).forM (removeListed dir) : Action Unit).run t₁ = (.error e, t')
        ∨ ∃ t₂ manifest,
          ((b.stale old?).forM (removeListed dir) : Action Unit).run t₁ = (.ok (), t₂)
          ∧ (eachOf (put dir) (b.contents manifest)).run t₂ = (.error e, t')) := by
  rcases b.manifest.exists_indentedCanonical? with ⟨manifest, htext⟩
  have hall := forEachFile_eq (put dir) b manifest ((b.manifestText_eq_ok manifest).mpr htext)
  rcases bind_eq_error.mp h with h | ⟨old?, t₁, hprepare, h⟩
  · exact Or.inl h
  · refine Or.inr ⟨old?, t₁, hprepare, ?_⟩
    cases old? with
    | none =>
        change (forEachFile b (put dir) : Action Unit).run t₁ = _ at h
        rw [hall] at h
        exact Or.inr ⟨t₁, manifest, forM_nil_eq_ok.mpr rfl, h⟩
    | some old =>
        change (clearListed dir old b >>= fun _ => forEachFile b (put dir) : Action Unit).run t₁ = _
          at h
        rw [hall, clearListed_eq] at h
        rcases bind_eq_error.mp h with h | ⟨_, t₂, hremoved, h⟩
        · exact Or.inl h
        · exact Or.inr ⟨t₂, manifest, hremoved, h⟩

end Output

/-- What fails is the rendering, before the directory is looked at, or the writing. -/
theorem Verdict.of_write_eq_error {t t' : FileTree} {e : BundleError} (o : Verdict)
    (package : PackageIdentity) (dir : Path) (overwrite : Bool)
    (h : (o.write package dir overwrite : Output.Action Manifest).run t = (.error e, t')) :
    o.bundle package = .error e ∧ t = t' ∨ ∃ b, o.bundle package = .ok b
      ∧ (Output.write b dir overwrite : Output.Action Unit).run t = (.error e, t') := by
  rcases Runs.bind_eq_error.mp h with h | ⟨b, t₁, hb, h⟩
  · exact Or.inl (Output.ofExcept_eq_error.mp h)
  · rcases Runs.ofExcept_eq_ok.mp hb with ⟨hbundle, rfl⟩
    rcases Runs.bind_eq_error.mp h with h | ⟨_, _, _, h⟩
    · exact Or.inr ⟨b, hbundle, h⟩
    · cases h

end PlatformBridge
