import PlatformBridge.Proofs.Files.Clearance

/-!
# Making Directories

Whoever makes a directory may have to make those above it, and may fail at
any of them, so it can happen that some are made before one is not. Where no
file is in the way, none of them is refused. Where a file is in the way of
names below a directory that is there, it is met before anything is made. So
nothing is left behind by a refusal unless a path goes up again from what is
missing.

The directories above a path form a chain, and the chain is made from its
first member, which is tried before those above it: only if something is
missing are they made, and then it is tried again. `made_cons` is this
recursion with the actions gone, as a function from a tree to an outcome and
a tree. `of_made_eq_error` and `of_made_eq_ok` invert it, and the results
below are inductions over the chain by these two.

The chain is cut from the text of a path, so its members are known by
`parent?` only, and what holds of a path has to be handed up from one to the
next. `clear_parent` does this for being clear. In
`createDirectories_of_not_clear` the induction goes the other way, from the
file that is met upwards, and all that comes before it fails as well.

## Main definitions

* `FileTree.Made`: The outcome of making directories.

## Theorems

* `FileTree.changesOnly_of_made`: Making directories changes no file.
* `FileTree.made_cons`: The first of a chain of directories and those behind
  it.
* `FileTree.of_made_eq_error`, `FileTree.of_made_eq_ok`: What an outcome says
  about them.
* `FileTree.clear_parent`, `FileTree.clear_of_mem_ancestorsUpTo`: The paths
  above a clear path.
* `FileTree.made_not_isRefusal`, `FileTree.createDirectories_not_isRefusal`:
  Making directories where no file is in the way.
* `FileTree.createDirectories_of_not_clear`: Making directories where one is.
* `FileTree.entry?_of_createDirectories`: What was made is there.
* `FileTree.exists_parent`: The path above a path, which is the one to be
  made.
-/

namespace PlatformBridge

namespace FileTree

variable {t t' : FileTree}


/-- The outcome of making directories. -/
abbrev Made (paths : List Path) (t : FileTree) : Except FileError Unit × FileTree :=
  (FileStore.createChain paths : StateM FileTree (Except FileError Unit)) t

/-- Directories that are made change no file, however far it went. -/
theorem changesOnly_of_made (h : t.IsPlain) (named : Address → Prop) (paths : List Path)
    (result : Except FileError Unit) (hmade : Made paths t = (result, t')) :
    t.ChangesOnly named t' := by
  have hchanges := touches_createChain named paths t h
  change t.ChangesOnly named (Made paths t).2 at hchanges
  rwa [hmade] at hchanges

variable (p : Path) (above : List Path)

/-- Making a directory where there is one already will do. -/
theorem look_apply (cause : FileError) : (do
    if ← FileStore.isDirectory p then return .ok () else return .error cause :
      StateM FileTree (Except FileError Unit)) t
    = (if t.kind true p = .ok .directory then .ok () else .error cause, t) := by
  have hlook : (FileStore.isDirectory p : StateM FileTree Bool) t
      = (decide (t.kind true p = .ok .directory), t) := by
    have hkind : (FileStore.kind true p : StateM FileTree (Except FileError FileKind)) t
        = (t.kind true p, t) := rfl
    rw [FileStore.isDirectory, bind_apply _ _ _ _ hkind]
    cases t.kind true p with
    | error cause => rfl
    | ok k => cases k <;> rfl
  rw [bind_apply _ _ _ _ hlook]
  by_cases hkind : t.kind true p = .ok .directory
  · rw [decide_eq_true hkind, if_pos rfl, if_pos hkind]
    rfl
  · rw [decide_eq_false hkind, if_neg Bool.false_ne_true, if_neg hkind]
    rfl

/-- What comes after a directory is made goes on from the tree that has it. -/
theorem makeDirectory_bind (f : Except FileError Unit → StateM FileTree (Except FileError Unit)) :
    ((FileStore.makeDirectory p : StateM FileTree _) >>= f) t = match t.makeDirectory p with
      | .ok t₁ => f (.ok ()) t₁
      | .error cause => f (.error cause) t := by
  change f (update (fun t => t.makeDirectory p) t).1 (update (fun t => t.makeDirectory p) t).2 = _
  rw [update]
  cases t.makeDirectory p <;> rfl

/-- The first of a chain is made where it can be, after those behind it if they are missing. -/
theorem made_cons (hpresent : p.isEmpty = false) : Made (p :: above) t =
    match t.makeDirectory p with
    | .ok t₁ => (.ok (), t₁)
    | .error .notFound =>
      match Made above t with
      | (.error cause, t₁) => (.error cause, t₁)
      | (.ok (), t₁) =>
        match t₁.makeDirectory p with
        | .ok t₂ => (.ok (), t₂)
        | .error cause => (if t₁.kind true p = .ok .directory then .ok () else .error cause, t₁)
    | .error cause => (if t.kind true p = .ok .directory then .ok () else .error cause, t) := by
  rw [Made, FileStore.createChain, if_neg (Bool.eq_false_iff.mp hpresent), makeDirectory_bind]
  -- A directory is made at once, or after those above it, or was there already.
  cases t.makeDirectory p with
  | ok t₁ => rfl
  | error cause =>
      cases cause with
      | notFound =>
          change ((FileStore.createChain above : StateM FileTree _) >>= _) t = _
          rcases hchain : Made above t with ⟨⟨cause⟩ | ⟨⟨⟩⟩, t₁⟩
          · rw [bind_apply _ _ _ _ hchain]
            rfl
          · rw [bind_apply _ _ _ _ hchain]
            refine (makeDirectory_bind p _).trans ?_
            cases hagain : t₁.makeDirectory p with
            | ok t₂ => simp only [hagain]; rfl
            | error cause => simp only [hagain]; exact look_apply p cause
      | _ => exact look_apply p _

/-- The empty path is there already. -/
theorem made_of_isEmpty (hempty : p.isEmpty = true) : Made (p :: above) t = (.ok (), t) := by
  rw [Made, FileStore.createChain, if_pos hempty]
  rfl

/-- What fails although a directory is looked for fails for its own cause. -/
theorem of_look_eq_error (cause cause' : FileError)
    (h : ((if t.kind true p = .ok .directory then .ok () else .error cause, t) :
      Except FileError Unit × FileTree) = (.error cause', t')) : t = t' ∧ cause = cause' := by
  split at h
  · cases h
  · cases h
    exact ⟨rfl, rfl⟩

/-- A chain of directories is not made because one of those behind the first is not made, or the
    first itself. -/
theorem of_made_eq_error (cause : FileError) (h : Made (p :: above) t = (.error cause, t')) :
    p.isEmpty = false ∧ (t = t' ∧ t.makeDirectory p = .error cause
      ∨ Made above t = (.error cause, t')
      ∨ Made above t = (.ok (), t') ∧ t'.makeDirectory p = .error cause) := by
  cases hpresent : p.isEmpty with
  | true =>
      rw [made_of_isEmpty p above hpresent] at h
      cases h
  | false =>
      refine ⟨rfl, ?_⟩
      -- The error is that of the first attempt, of a directory above, or of the second attempt.
      rw [made_cons p above hpresent] at h
      split at h
      · cases h
      · split at h
        · rename_i hchain
          cases h
          exact Or.inr (Or.inl hchain)
        · rename_i hchain
          split at h
          · cases h
          · rename_i hagain
            rcases of_look_eq_error p _ _ h with ⟨rfl, rfl⟩
            exact Or.inr (Or.inr ⟨hchain, hagain⟩)
      · rename_i hfirst
        rcases of_look_eq_error p _ _ h with ⟨rfl, rfl⟩
        exact Or.inl ⟨rfl, hfirst⟩

/-- A chain of directories is made once the first is made, or is there. -/
theorem of_made_eq_ok (hpresent : p.isEmpty = false) (h : Made (p :: above) t = (.ok (), t')) :
    t'.kind true p = .ok .directory
      ∨ ∃ t₁, (t = t₁ ∨ Made above t = (.ok (), t₁)) ∧ t₁.makeDirectory p = .ok t' := by
  -- An attempt that fails is no failure if the directory turns out to be there.
  have hlook : ∀ (t₁ : FileTree) (cause : FileError),
      ((if t₁.kind true p = .ok .directory then .ok () else .error cause, t₁) :
        Except FileError Unit × FileTree) = (.ok (), t') → t'.kind true p = .ok .directory := by
    intro t₁ cause h
    split at h
    · rename_i hkind
      cases h
      exact hkind
    · cases h
  rw [made_cons p above hpresent] at h
  split at h
  · rename_i hfirst
    cases h
    exact Or.inr ⟨t, Or.inl rfl, hfirst⟩
  · split at h
    · cases h
    · rename_i hchain
      split at h
      · rename_i hagain
        cases h
        exact Or.inr ⟨_, Or.inr hchain, hagain⟩
      · exact Or.inl (hlook _ _ h)
  · exact Or.inl (hlook _ _ h)

section Directories

variable (h : t.IsPlain) (p q : Path)

/-- A path that another starts with is as clear as the other. -/
theorem clear_of_append (hp : p.isEmpty = false) (hq : q.isEmpty = false) (rest : List String)
    (hsegments : p.segments = q.segments ++ rest) (hclear : t.Clear (start p t.home) p.segments) :
    t.Clear (start q t.home) q.segments := by
  have hstart : start q t.home = start p t.home := by
    refine Path.start_eq q p hq hp ?_ _
    rcases List.exists_cons_of_ne_nil ((Path.isEmpty_eq_false_iff q).mp hq).1 with ⟨s, others, hs⟩
    rw [hsegments, hs]
    rfl
  rw [hsegments, clear_append] at hclear
  rw [hstart]
  exact hclear.1

/-- The path above a clear path is clear. -/
theorem clear_parent (hp : p.isEmpty = false) (hq : q.isEmpty = false)
    (hparent : p.parent? = some q) (hclear : t.Clear (start p t.home) p.segments) :
    t.Clear (start q t.home) q.segments := by
  rcases Path.of_parent?_eq_some p q hparent with hempty | hroot | ⟨rest, hsegments⟩
  · rw [hempty] at hq
    cases hq
  · -- The root is a directory.
    refine clear_of_passes _ _ ?_
    rcases q with ⟨segments⟩
    cases hroot
    exact ⟨entry?_nil, by decide, entry?_nil, by decide, trivial⟩
  · exact clear_of_append p q hp hq rest hsegments hclear

include h in
/-- A directory is not refused where no file is in the way. -/
theorem makeDirectory_not_isRefusal (hp : p.isEmpty = false)
    (hclear : t.Clear (start p t.home) p.segments) (cause : FileError)
    (hmake : t.makeDirectory p = .error cause) : ¬ cause.IsRefusal := by
  rcases p.segments_withoutSlashes hp with ⟨hpresent, blanks, _, hsegments⟩
  rcases Results.bind_eq_error.mp hmake with hresolve | ⟨place, _, hplace⟩
  · exact resolve_not_isRefusal h _ false (clear_of_append p _ hp hpresent blanks hsegments hclear)
      cause hresolve
  · cases place with
    | taken l =>
        cases hplace
        simp [FileError.IsRefusal]
    | free l name => cases hplace

include h in
/-- A chain of directories without a file in the way is not refused. -/
theorem made_not_isRefusal (paths : List Path)
    (hclear : ∀ p ∈ paths, p.isEmpty = false → t.Clear (start p t.home) p.segments)
    (cause : FileError) (hmade : Made paths t = (.error cause, t')) : ¬ cause.IsRefusal := by
  induction paths generalizing t t' with
  | nil => cases hmade
  | cons p above ih =>
      rw [List.forall_mem_cons] at hclear
      rcases of_made_eq_error p above cause hmade with
        ⟨hp, ⟨rfl, hmake⟩ | habove | ⟨habove, hmake⟩⟩
      · exact makeDirectory_not_isRefusal h p hp (hclear.1 hp) cause hmake
      · exact ih h hclear.2 habove
      · -- What was made above is in nobody's way.
        have hchanges := changesOnly_of_made h (fun _ => False) above _ habove
        refine makeDirectory_not_isRefusal hchanges.plain p hp ?_ cause hmake
        rw [hchanges.home]
        exact hchanges.clear _ _ (hclear.1 hp)

/-- All directories of a chain are clear if the path is that they lead to. -/
theorem clear_of_mem_ancestorsUpTo (n : Nat)
    (hclear : p.isEmpty = false → t.Clear (start p t.home) p.segments) :
    ∀ q ∈ Path.ancestorsUpTo n p, q.isEmpty = false → t.Clear (start q t.home) q.segments := by
  induction n generalizing p with
  | zero => simp [Path.ancestorsUpTo]
  | succ n ih =>
      rw [Path.ancestorsUpTo, List.forall_mem_cons]
      refine ⟨hclear, ?_⟩
      cases hparent : p.parent? with
      | none => simp
      | some above =>
          cases hp : p.isEmpty with
          | false => exact ih above fun habove => clear_parent p above hp habove hparent (hclear hp)
          | true =>
              rw [Path.parent?_of_isEmpty p hp] at hparent
              cases hparent

include h in
/-- Directories without a file in the way are made without being refused. -/
theorem createDirectories_not_isRefusal
    (hclear : t.Clear (start p t.home) p.segments) (cause : FileError)
    (hmade : (FileStore.createDirectories p : StateM FileTree _) t = (.error cause, t')) :
    ¬ cause.IsRefusal :=
  made_not_isRefusal h p.ancestors (clear_of_mem_ancestorsUpTo p _ fun _ => hclear) cause hmade

variable (hp : p.isEmpty = false) (hslashes : p.withoutSlashes = p)

include h hp hslashes

/-- Where a file is in the way of names below a directory, nothing is made before it is met. -/
theorem createDirectories_of_not_clear (front names : List String)
    (hsegments : p.segments = front ++ names) (hup : ".." ∉ names)
    (hpasses : t.Passes (start p t.home) front)
    (hdirectory : t.entry? (Path.goal (start p t.home) front) = some .directory)
    (hclear : ¬ t.Clear (start p t.home) p.segments) :
    ∃ cause, (FileStore.createDirectories p : StateM FileTree _) t = (.error cause, t) := by
  -- Whether the last segment is followed or not, something stands in the way of the path.
  have hresolve : ∀ takeLast, ∃ cause, t.resolve takeLast p = .error cause ∧ cause ≠ .notFound := by
    intro takeLast
    cases hplace : t.resolve takeLast p with
    | ok place => exact absurd (clear_of_resolve_eq_ok h p takeLast place hplace) hclear
    | error cause =>
        refine ⟨cause, rfl, ?_⟩
        rintro rfl
        exact hclear (clear_of_resolve_eq_notFound h p takeLast hp front names hsegments hup hpasses
          hdirectory hplace)
  rcases hresolve false with ⟨cause, hfalse, hne⟩
  rcases hresolve true with ⟨cause', htrue, _⟩
  have hmake : t.makeDirectory p = .error cause := by
    rw [makeDirectory, hslashes, plant, hfalse]
    rfl
  have hkind : t.kind true p ≠ .ok .directory := by
    rw [kind, find, htrue]
    exact fun heq => by cases heq
  refine ⟨cause, ?_⟩
  rw [FileStore.createDirectories, Path.ancestors, Path.ancestorsUpTo]
  refine (made_cons p _ hp).trans ?_
  rw [hmake]
  cases cause with
  | notFound => exact absurd rfl hne
  | _ => simp only [if_neg hkind]

/-- What was made is there. -/
theorem entry?_of_createDirectories
    (hmade : (FileStore.createDirectories p : StateM FileTree _) t = (.ok (), t')) :
    t'.entry? (t.address p) = some .directory := by
  have hchanges := changesOnly_of_made h (fun _ => False) p.ancestors _ hmade
  rw [FileStore.createDirectories, Path.ancestors, Path.ancestorsUpTo] at hmade
  -- The directory was there already, or has been made last.
  rcases of_made_eq_ok p _ hp hmade with hkind | ⟨t₁, hchain, hmake⟩
  · rcases (kind_eq_ok_iff hchanges.plain p true .directory).mp hkind with ⟨_, e, hentry, he⟩
    rw [hchanges.address] at hentry
    cases e with
    | directory => exact hentry
    | file bytes => cases he
    | link target => cases he
  · have hfirst : t.ChangesOnly (fun _ => False) t₁ := by
      rcases hchain with rfl | hchain
      · exact ChangesOnly.refl h
      · exact changesOnly_of_made h _ _ _ hchain
    rw [makeDirectory, hslashes] at hmake
    rcases Results.bind_eq_ok.mp hmake with ⟨place, hresolve, hset⟩
    cases (ends_of_resolve hfirst.plain p false place hresolve).2 with
    | taken => cases hset
    | free d name front blanks hparts hblanks _ hgoal _ hmissing =>
        cases hset
        have hidle : ∀ s ∈ blanks, Path.isIdle s = true := fun s hs => by
          rw [hblanks s hs]
          rfl
        rw [← hfirst.address, address, hparts, Path.goal_append, Path.goal_of_idle _ blanks hidle,
          hgoal, entry?_set _ _ (by simp [hmissing]), if_pos rfl]

end Directories

/-- The path above a path leads to where the path was before its last step, and is as clear. If the
    step before is a name, it is the path up to there. -/
theorem exists_parent (p : Path) (hp : p.isEmpty = false) (front : List String) (s : String)
    (hsegments : p.segments = front ++ [s]) (hs : Path.isIdle s = false) (hne : front ≠ []) :
    ∃ q, p.parent? = some q ∧ q.isEmpty = false ∧ q.withoutSlashes = q
      ∧ t.address q = Path.goal (start p t.home) front
      ∧ (t.Clear (start p t.home) front → t.Clear (start q t.home) q.segments)
      ∧ (∀ name, front.getLast? = some name → Path.isIdle name = false → q.segments = front) := by
  rcases Path.parent?_eq p front s hsegments hs hne with
    ⟨q, kept, idle, hq, hfront, hidle, hkept, hcases⟩
  -- Nothing is left out behind a name.
  have hlast : ∀ name, front.getLast? = some name → Path.isIdle name = false → idle = [] := by
    intro name hname hnot
    refine List.getLast?_eq_none_iff.mp (Option.eq_none_iff_forall_ne_some.mpr fun last heq => ?_)
    rw [hfront, List.getLast?_append, heq, Option.some_or, Option.some.injEq] at hname
    rw [← hname, hidle last (List.mem_of_getLast? heq)] at hnot
    cases hnot
  rcases hcases with ⟨hqkept, hslash⟩ | ⟨hqroot, rfl⟩
  · have hpresent : q.isEmpty = false := by
      rw [Path.isEmpty_eq_false_iff, hqkept]
      exact ⟨hkept, fun hroot => hslash (by rw [hroot]; rfl)⟩
    have hstart : start q t.home = start p t.home := by
      refine Path.start_eq q p hpresent hp ?_ _
      rcases List.exists_cons_of_ne_nil hkept with ⟨first, rest, hcons⟩
      rw [hqkept, hsegments, hfront, hcons]
      rfl
    refine ⟨q, hq, hpresent, Path.withoutSlashes_of_getLast? q (hqkept ▸ hslash), ?_, ?_, ?_⟩
    · rw [address, hstart, hqkept, hfront, Path.goal_append, Path.goal_of_idle _ idle hidle]
    · intro hclear
      rw [hfront, clear_append] at hclear
      rw [hstart, hqkept]
      exact hclear.1
    · intro name hname hnot
      rw [hqkept, hfront, hlast name hname hnot, List.append_nil]
  · rcases q with ⟨segments⟩
    cases hqroot
    have hstart : start p t.home = [] := by
      have habsolute := Path.isAbsolute_eq p hp "" (idle ++ [s]) (by rw [hsegments, hfront]; rfl)
      rw [start, habsolute]
      rfl
    refine ⟨_, hq, rfl, rfl, ?_, ?_, ?_⟩
    · rw [hstart, hfront, Path.goal_append, Path.goal_of_idle _ idle hidle]
      rfl
    · exact fun _ => clear_of_passes _ _ ⟨entry?_nil, by decide, entry?_nil, by decide, trivial⟩
    · intro name hname hnot
      have hnil := hlast name hname hnot
      rw [hfront, hnil, List.append_nil, List.getLast?_singleton, Option.some.injEq] at hname
      rw [← hname] at hnot
      cases hnot

end FileTree

end PlatformBridge
