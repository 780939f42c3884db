import PlatformBridge.Proofs.Files.Changes

/-!
# What Stands in the Way

A path is refused, rather than followed or found to lead nowhere, if a file
is where it needs a directory. So where no file is in the way nothing is
refused, whatever else may fail. No file is in the way of a path that is
followed, and none has been met by a walk down that finds something missing.

What counts as a refusal is a cause that says of what is there that it is no
place for a directory or a file. A name that is too long is none, and neither
is something that is missing. A path is not followed for these either, but
they say nothing of what is there.

`Clear` is weaker than `Passes`: the directories of a path need not be there,
as long as nothing else is. Whoever makes the missing ones relies on it, so
it has to survive when directories are added, which is `ChangesOnly.clear`.
That a path goes down is asked for wherever something is missing. A path that
goes up again from a missing directory leads past it, and what is in the way
there is not seen before the directory is made.

## Main definitions

* `FileError.IsRefusal`: A cause that refuses what is there.
* `FileTree.Clear`: Segments without a file in the way.

## Theorems

* `FileTree.clear_append`: Segments after segments.
* `FileTree.clear_of_passes`, `FileTree.clear_of_missing`: Segments that can
  be walked, and segments below what is missing.
* `FileTree.ChangesOnly.clear`: What new directories do.
* `FileTree.walkWith_not_isRefusal`, `FileTree.resolve_not_isRefusal`,
  `FileTree.replace_not_isRefusal`: Where no file is in the way, nothing is
  refused.
* `FileTree.clear_of_walkWith_eq_notFound`,
  `FileTree.clear_of_resolve_eq_notFound`,
  `FileTree.clear_of_kind_eq_notFound`: No file is in the way of what is found
  to be missing.
* `FileTree.clear_of_resolve_eq_ok`: Nor of what is followed.
-/

namespace PlatformBridge

/-- A cause that refuses what is there as no place for a directory or a file. -/
def FileError.IsRefusal (e : FileError) : Prop :=
  e = .notADirectory ∨ e = .denied ∨ e = .noTemporaryName

namespace FileTree

/-- No file stands in the way of segments from an address, but that there may be one at their end.
    -/
def Clear (t : FileTree) : Address → List String → Prop
  | _, [] => True
  | l, s :: rest => (∀ bytes, t.entry? l ≠ some (.file bytes)) ∧ t.Clear (Path.step l s) rest

variable {t t' : FileTree}

/-- Segments one after the other are clear if the first are, and the others from where those lead.
    -/
theorem clear_append (l : Address) (segments others : List String) :
    t.Clear l (segments ++ others)
      ↔ t.Clear l segments ∧ t.Clear (Path.goal l segments) others := by
  induction segments generalizing l with
  | nil => simp only [List.nil_append, Clear, true_and]; rfl
  | cons s rest ih => simp only [List.cons_append, Clear, ih, and_assoc]; rfl

/-- Segments that can be walked are clear. -/
theorem clear_of_passes (l : Address) (segments : List String) (h : t.Passes l segments) :
    t.Clear l segments := by
  induction segments generalizing l with
  | nil => trivial
  | cons s rest ih =>
      refine ⟨fun bytes hfile => ?_, ih _ h.2.2⟩
      rw [h.1] at hfile
      cases hfile

/-- New directories are in nobody's way. -/
theorem ChangesOnly.clear (h : t.ChangesOnly (fun _ => False) t') (l : Address)
    (segments : List String) (hclear : t.Clear l segments) : t'.Clear l segments := by
  induction segments generalizing l with
  | nil => trivial
  | cons s rest ih =>
      exact ⟨fun bytes hfile => hclear.1 bytes ((h.file_iff l id bytes).mp hfile), ih _ hclear.2⟩

section Walk

variable (takeLast : Bool) (follow : Address → List String → Except FileError Place)
variable (h : t.IsPlain)

include h

/-- Nothing is in the way below an address that is not in use. -/
theorem clear_of_missing (l : Address) (segments : List String) (hup : ".." ∉ segments)
    (hmissing : t.entry? l = none) : t.Clear l segments := by
  induction segments generalizing l with
  | nil => trivial
  | cons s rest ih =>
      rw [List.mem_cons, not_or] at hup
      refine ⟨fun bytes hfile => ?_, ih _ hup.2 ?_⟩
      · rw [hmissing] at hfile
        cases hfile
      · unfold Path.step
        split
        · exact hmissing
        · rw [if_neg (Ne.symm hup.1)]
          refine Option.eq_none_iff_forall_ne_some.mpr fun e he => ?_
          rw [h.inDirectories s l e he] at hmissing
          cases hmissing

/-- What is there and is no file is a directory. -/
theorem directory_of_not_file (l : Address) (e : Entry) (hentry : t.entry? l = some e)
    (hfile : ∀ bytes, t.entry? l ≠ some (.file bytes)) : t.entry? l = some .directory := by
  cases e with
  | file bytes => exact absurd hentry (hfile bytes)
  | directory => exact hentry
  | link target => exact absurd hentry (h.noLinks l target)

/-- A walk without a file in the way is not refused. -/
theorem walkWith_not_isRefusal (segments : List String) (l : Address)
    (hclear : t.Clear l segments) (e : Entry) (hl : t.entry? l = some e) (cause : FileError)
    (hwalk : t.walkWith takeLast follow l segments = .error cause) : ¬ cause.IsRefusal := by
  induction segments generalizing l e with
  | nil => cases hwalk
  | cons s rest ih =>
      have hdirectory := directory_of_not_file h l e hl hclear.1
      by_cases hlength : Text.byteLength s.toList ≤ maxNameBytes
      · cases hnext : t.entry? (Path.step l s) with
        | none =>
            rw [walkWith_cons_of_missing takeLast follow h l s rest hdirectory hlength hnext]
              at hwalk
            split at hwalk
            · cases hwalk
            · cases hwalk
              simp [FileError.IsRefusal]
        | some e' =>
            rw [walkWith_cons takeLast follow h l s rest hdirectory hlength e' hnext] at hwalk
            exact ih _ hclear.2 e' hnext hwalk
      · rw [walkWith_cons_of_long takeLast follow l s rest hdirectory hlength] at hwalk
        cases hwalk
        simp [FileError.IsRefusal]

/-- A walk down that finds something missing has met no file. -/
theorem clear_of_walkWith_eq_notFound (segments : List String) (l : Address)
    (hup : ".." ∉ segments) (hwalk : t.walkWith takeLast follow l segments = .error .notFound) :
    t.Clear l segments := by
  induction segments generalizing l with
  | nil => trivial
  | cons s rest ih =>
      by_cases hdirectory : t.entry? l = some .directory
      · refine ⟨fun bytes hfile => ?_, ?_⟩
        · rw [hdirectory] at hfile
          cases hfile
        · by_cases hlength : Text.byteLength s.toList ≤ maxNameBytes
          · have hrest : ".." ∉ rest := fun hmem => hup (List.mem_cons_of_mem s hmem)
            cases hnext : t.entry? (Path.step l s) with
            | none => exact clear_of_missing h _ rest hrest hnext
            | some e =>
                rw [walkWith_cons takeLast follow h l s rest hdirectory hlength e hnext] at hwalk
                exact ih _ hrest hwalk
          · rw [walkWith_cons_of_long takeLast follow l s rest hdirectory hlength] at hwalk
            cases hwalk
      · rw [walkWith_cons_of_not_directory takeLast follow l s rest hdirectory] at hwalk
        cases hwalk

end Walk

section Paths

variable (h : t.IsPlain) (p : Path)

/-- A path that cannot be followed for its text is not refused; any other is walked. -/
theorem resolve_eq_error (takeLast : Bool) (cause : FileError)
    (hresolve : t.resolve takeLast p = .error cause) :
    ¬ cause.IsRefusal ∧ (p.isEmpty = false → cause ≠ .notFound)
    ∨ t.walk takeLast maxLinks (start p t.home) p.segments = .error cause := by
  unfold resolve at hresolve
  split at hresolve
  · cases hresolve
    exact Or.inl ⟨by simp [FileError.IsRefusal], fun _ => by simp⟩
  · split at hresolve
    · rename_i hempty
      cases hresolve
      refine Or.inl ⟨by simp [FileError.IsRefusal], fun hpresent => ?_⟩
      rw [hempty] at hpresent
      cases hpresent
    · split at hresolve
      · cases hresolve
        exact Or.inl ⟨by simp [FileError.IsRefusal], fun _ => by simp⟩
      · exact Or.inr hresolve

include h in
/-- A path without a file in the way is not refused. -/
theorem resolve_not_isRefusal (takeLast : Bool) (hclear : t.Clear (start p t.home) p.segments)
    (cause : FileError) (hresolve : t.resolve takeLast p = .error cause) : ¬ cause.IsRefusal := by
  rcases resolve_eq_error p takeLast cause hresolve with ⟨hcause, _⟩ | hwalk
  · exact hcause
  · rw [show maxLinks = 39 + 1 from rfl, walk] at hwalk
    exact walkWith_not_isRefusal takeLast _ h _ _ hclear _ (entry?_start p) cause hwalk

include h in
/-- Nothing is in the way of a path that is followed. -/
theorem clear_of_resolve_eq_ok (takeLast : Bool) (place : Place)
    (hresolve : t.resolve takeLast p = .ok place) : t.Clear (start p t.home) p.segments := by
  cases (ends_of_resolve h p takeLast place hresolve).2 with
  | taken e hpasses _ => exact clear_of_passes _ _ hpasses
  | free d name front blanks hsegments hblanks hpasses hgoal _ hmissing =>
      rw [hsegments, clear_append, hgoal]
      refine ⟨clear_of_passes _ _ hpasses, clear_of_missing h _ blanks (fun hmem => ?_) hmissing⟩
      exact absurd (hblanks _ hmem) (by decide)

include h in
/-- Nothing is in the way of a path that is found to lead nowhere, if it goes down from a directory.
    -/
theorem clear_of_resolve_eq_notFound (takeLast : Bool) (hpresent : p.isEmpty = false)
    (front names : List String) (hsegments : p.segments = front ++ names) (hup : ".." ∉ names)
    (hpasses : t.Passes (start p t.home) front)
    (hdirectory : t.entry? (Path.goal (start p t.home) front) = some .directory)
    (hresolve : t.resolve takeLast p = .error .notFound) :
    t.Clear (start p t.home) p.segments := by
  rcases resolve_eq_error p takeLast _ hresolve with ⟨_, hne⟩ | hwalk
  · exact absurd rfl (hne hpresent)
  · rw [show maxLinks = 39 + 1 from rfl, walk, hsegments,
      walkWith_append takeLast _ h _ front names _ hpasses hdirectory] at hwalk
    rw [hsegments, clear_append]
    exact ⟨clear_of_passes _ _ hpasses, clear_of_walkWith_eq_notFound takeLast _ h _ _ hup hwalk⟩

include h in
/-- Nothing is in the way of a path down that is found to lead to nothing. -/
theorem clear_of_kind_eq_notFound (takeLast : Bool) (hpresent : p.isEmpty = false)
    (hup : ".." ∉ p.segments) (hkind : t.kind takeLast p = .error .notFound) :
    t.Clear (start p t.home) p.segments := by
  rw [kind, Results.map_eq_error, find, Results.bind_eq_error] at hkind
  rcases hkind with hresolve | ⟨place, hresolve, _⟩
  · exact clear_of_resolve_eq_notFound h p takeLast hpresent [] _ rfl hup trivial (entry?_start p)
      hresolve
  · exact clear_of_resolve_eq_ok h p takeLast place hresolve

end Paths

/-- A file is not refused where no file is in the way. -/
theorem replace_not_isRefusal (h : t.IsPlain) (p : Path)
    (hclear : t.Clear (start p t.home) p.segments) (bytes : ByteArray) (cause : FileError)
    (hreplace : t.replace p bytes = .error cause) : ¬ cause.IsRefusal := by
  have hat : ∀ l, t.replaceAt l bytes = .error cause → ¬ cause.IsRefusal := by
    intro l hl
    unfold replaceAt at hl
    split at hl
    · cases hl
      simp [FileError.IsRefusal]
    · split at hl
      · cases hl
        simp [FileError.IsRefusal]
      · cases hl
  rcases Results.bind_eq_error.mp hreplace with hresolve | ⟨place, _, hplace⟩
  · exact resolve_not_isRefusal h p false hclear cause hresolve
  · cases place with
    | taken l => exact hat l hplace
    | free l name => exact hat _ hplace

end FileTree

end PlatformBridge
