import PlatformBridge.Bundle.Output
import PlatformBridge.Files.Tree
import PlatformBridge.Proofs.Bundle.Manifest
import PlatformBridge.Proofs.Results
import PlatformBridge.Proofs.Runs

/-!
# The Parts of Writing

What it takes for each part of writing a package to succeed on a tree, and what
it leaves, with every look at the tree and every change of it named. Whoever
writes is a row of these parts, and no proof about writing has to open one of
them again.

The parts are actions that may fail on a tree that changes. Each lemma says when
an action gives a result and which tree it leaves, in both directions, so that
a row of actions is taken apart by rewriting and put together in the same way.
An operation of the file system comes with the error that it is told as; on
success that error plays no role, and `attempt_eq_ok` drops it.

The files of a package and its manifest are handled alike once the manifest is a
text. So `contents` makes one list of them, and putting in place and comparing
are `eachOf` over this list with different actions.

## Main definitions

* `Bundle.contents`, `Bundle.stale`: What a package puts on disk, and what it
  removes.
* `Output.Action`: What acts on a tree and may fail.
* `Output.manifestAt?`: The manifest in a directory.
* `Output.eachOf`: Something is done with each path and text of a list.

## Theorems

* `Output.attempt_eq_ok`, `Output.attempt_view_eq_ok`,
  `Output.attempt_update_eq_ok`: Operations, looks and changes.
* `Output.findManifest_eq_ok`: Reading the manifest in a directory.
* `Output.prepare_eq_ok`: Making a directory ready.
* `Output.removeListed_eq_ok`, `Output.put_eq_ok`, `Output.compare_eq_ok`:
  Single files.
* `Output.forEachFile_eq`, `Output.forEachFile_eq_ok`: All files of a package.
* `Output.write_eq_ok`, `Output.audit_eq_ok`: Writing and auditing as rows of
  these.
* `Verdict.write_eq_ok`, `Verdict.audit_eq_ok`: The same from a verdict.
-/

namespace PlatformBridge

/-- What a package puts on disk: the paths and texts of its files, then its manifest. -/
def Bundle.contents (b : Bundle) (manifest : String) : List (String × String) :=
  b.files.map (fun a => (a.path, a.text)) ++ [(Manifest.fileName, manifest)]

theorem Bundle.manifestText_eq_ok (b : Bundle) (text : String) :
    b.manifestText = .ok text ↔ Json.indentedCanonical? b.manifest.toJson = some text := by
  unfold Bundle.manifestText
  split
  · rename_i found hfound
    rw [hfound, Except.ok.injEq, Option.some.injEq]
  · rename_i hnone
    rw [hnone]
    exact iff_of_false (fun h => by cases h) (fun h => by cases h)

/-- The files that an old manifest lists and a package does not have. -/
def Bundle.stale (b : Bundle) (old? : Option Manifest) : List String :=
  ((old?.elim [] (·.files)).filter fun e => !(b.files.any fun a => a.path = e.path)).map (·.path)

/-- A file is stale if the old manifest lists it and the package has no file of its path. -/
theorem Bundle.mem_stale_iff (b : Bundle) (old? : Option Manifest) (text : String) :
    text ∈ b.stale old? ↔ ∃ old ∈ old?, ∃ e ∈ old.files,
      (∀ a ∈ b.files, a.path ≠ e.path) ∧ e.path = text := by
  cases old? with
  | none => simp [stale]
  | some old => simp [stale, and_assoc]

namespace Output

open Runs

/-- What acts on a tree and may fail. -/
abbrev Action (α : Type) := ExceptT BundleError (StateM FileTree) α

variable {t t' : FileTree}

/-- An operation that succeeds is not affected by the error that it would be told as. -/
theorem attempt_eq_ok {α : Type} (path : Path) (operation : StateM FileTree (Except FileError α))
    (a : α) : (attempt path operation).run t = (.ok a, t') ↔ operation t = (.ok a, t') := by
  change ((operation t).1.mapError (BundleError.ofFile path), (operation t).2) = _ ↔ _
  rcases operation t with ⟨result, t₁⟩
  constructor
  · intro h
    cases result with
    | error e => cases h
    | ok a' =>
        cases h
        rfl
  · intro h
    cases h
    rfl

theorem pathOf_eq_ok (text : String) (path : Path) :
    (pathOf text : Action Path).run t = (.ok path, t')
      ↔ pathBelow text = .ok path ∧ t = t' := by
  rw [pathOf, ofExcept_eq_ok, Results.mapError_eq_ok]

section Attempts

variable {α : Type} (place : Path)

/-- Looking at a tree leaves it as it is. -/
theorem attempt_view_eq_ok (f : FileTree → Except FileError α) (a : α) :
    (attempt place (FileTree.view f)).run t = (.ok a, t') ↔ f t = .ok a ∧ t = t' := by
  rw [attempt_eq_ok]
  constructor
  · intro h
    exact Prod.mk.inj h
  · rintro ⟨h, rfl⟩
    exact congrArg (·, t) h

/-- A change succeeds where the tree allows it, and leaves what it gives. -/
theorem attempt_update_eq_ok (f : FileTree → Except FileError FileTree) :
    (attempt place (FileTree.update f)).run t = (.ok (), t') ↔ f t = .ok t' := by
  rw [attempt_eq_ok, FileTree.update]
  cases f t with
  | error e => exact iff_of_false (fun h => by cases h) (fun h => by cases h)
  | ok t₁ =>
      constructor
      · intro h
        cases h
        rfl
      · intro h
        cases h
        rfl

theorem attempt_isEmpty_eq_ok (path : Path) (empty : Bool) :
    (attempt place (FileStore.isEmpty path) : Action Bool).run t = (.ok empty, t')
      ↔ t.isEmpty path = .ok empty ∧ t = t' :=
  attempt_view_eq_ok place _ _

theorem attempt_read_eq_ok (path : Path) (bytes : ByteArray) :
    (attempt place (FileStore.read path) : Action ByteArray).run t = (.ok bytes, t')
      ↔ t.read path = .ok bytes ∧ t = t' :=
  attempt_view_eq_ok place _ _

theorem attempt_kind_eq_ok (follow : Bool) (path : Path) (kind : FileKind) :
    (attempt place (FileStore.kind follow path) : Action FileKind).run t = (.ok kind, t')
      ↔ t.kind follow path = .ok kind ∧ t = t' :=
  attempt_view_eq_ok place _ _

theorem attempt_remove_eq_ok (path : Path) :
    (attempt place (FileStore.remove path) : Action Unit).run t = (.ok (), t')
      ↔ t.remove path = .ok t' :=
  attempt_update_eq_ok place _

theorem attempt_replace_eq_ok (path : Path) (bytes : ByteArray) :
    (attempt place (FileStore.replace path bytes) : Action Unit).run t = (.ok (), t')
      ↔ t.replace path bytes = .ok t' :=
  attempt_update_eq_ok place _

end Attempts

section Looking

variable {α : Type} (path : Path)

-- What comes after a look goes on with what was seen.
theorem kind_bind (follow : Bool)
    (f : Except FileError FileKind → Action α) :
    (ExceptT.lift (FileStore.kind follow path) >>= f).run t = (f (t.kind follow path)).run t :=
  rfl

theorem read_bind (f : Except FileError ByteArray → Action α) :
    (ExceptT.lift (FileStore.read path) >>= f).run t = (f (t.read path)).run t :=
  rfl

end Looking

variable (dir : Path)

/-- The manifest in a directory of a tree, if it can be read. -/
def manifestAt? (t : FileTree) (dir : Path) : Option Manifest :=
  (t.read (dir.join (Path.ofText Manifest.fileName))).toOption.bind
    (Json.readBytes? Manifest.reader)

/-- Reading the manifest leaves the tree as it is. -/
theorem run_findManifest :
    ∃ result, (findManifest dir : Action Manifest).run t
      = (result, t) ∧ result.toOption = manifestAt? t dir := by
  unfold findManifest
  simp only [read_bind, manifestAt?]
  cases t.read (dir.join (Path.ofText Manifest.fileName)) with
  | error e => exact ⟨_, rfl, rfl⟩
  | ok bytes =>
      simp only [Except.toOption, Option.bind_some]
      cases Json.readBytes? Manifest.reader bytes with
      | none => exact ⟨_, rfl, rfl⟩
      | some m => exact ⟨_, rfl, rfl⟩

/-- A manifest is found if there is one that can be read. -/
theorem findManifest_eq_ok (m : Manifest) :
    (findManifest dir : Action Manifest).run t = (.ok m, t')
      ↔ manifestAt? t dir = some m ∧ t = t' := by
  rcases run_findManifest (t := t) dir with ⟨result, hrun, hresult⟩
  rw [hrun, ← hresult]
  cases result with
  | error e => exact iff_of_false (fun h => by cases h) (fun h => by cases h.1)
  | ok m' =>
      constructor
      · intro h
        cases h
        exact ⟨rfl, rfl⟩
      · rintro ⟨h, rfl⟩
        cases h
        rfl

/-- Where none is found, that is no failure. -/
theorem manifest?_eq_ok (old? : Option Manifest) :
    (manifest? dir : Action (Option Manifest)).run t = (.ok old?, t')
      ↔ manifestAt? t dir = old? ∧ t = t' := by
  rcases run_findManifest (t := t) dir with ⟨result, hrun, hresult⟩
  have hmanifest : (manifest? dir : Action (Option Manifest)).run t
      = (.ok result.toOption, t) := by
    change (Except.ok ((findManifest dir : Action Manifest).run t).1.toOption,
      ((findManifest dir : Action Manifest).run t).2) = _
    rw [hrun]
  rw [hmanifest, hresult]
  constructor
  · intro h
    cases h
    exact ⟨rfl, rfl⟩
  · rintro ⟨rfl, rfl⟩
    rfl

/-- What is there decides how a directory is made ready. -/
theorem prepare_eq_ok (overwrite : Bool) (old? : Option Manifest) :
    (prepare dir overwrite : Action (Option Manifest)).run t = (.ok old?, t')
      ↔ dir.isEmpty = false ∧
        ((t.kind false dir = .error .notFound
            ∧ (FileStore.createDirectories dir : StateM FileTree _) t = (.ok (), t')
            ∧ old? = none)
          ∨ (t.kind false dir = .ok .directory ∧ t = t'
            ∧ ((t.isEmpty dir = .ok true ∧ old? = none)
              ∨ (t.isEmpty dir = .ok false ∧ overwrite = true ∧ manifestAt? t dir = old?)))) := by
  unfold prepare
  cases hdir : dir.isEmpty with
  | true => exact iff_of_false throw_ne_ok (fun h => by cases h.1)
  | false =>
      rw [if_neg Bool.false_ne_true]
      simp only [true_and, kind_bind]
      -- A directory is made ready if it is missing or is there; whatever else is found refuses it.
      cases hkind : t.kind false dir with
      | error e =>
          cases e with
          | notFound =>
              simp only [bind_eq_ok, attempt_eq_ok, pure_eq_ok]
              constructor
              · rintro ⟨⟨⟩, t₁, hcreate, rfl, rfl⟩
                exact Or.inl ⟨trivial, hcreate, rfl⟩
              · rintro (⟨_, hcreate, rfl⟩ | ⟨h, _⟩)
                · exact ⟨(), t', hcreate, rfl, rfl⟩
                · cases h
          | _ => exact iff_of_false throw_ne_ok (by rintro (⟨h, _⟩ | ⟨h, _⟩) <;> cases h)
      | ok k =>
          cases k with
          | directory =>
              -- A directory that is not empty has to be overwritten, and its manifest is read.
              simp only [bind_eq_ok, attempt_isEmpty_eq_ok]
              constructor
              · rintro ⟨empty, t₁, ⟨hempty, rfl⟩, h⟩
                cases empty with
                | true =>
                    rcases pure_eq_ok.mp h with ⟨rfl, rfl⟩
                    exact Or.inr ⟨trivial, rfl, Or.inl ⟨hempty, rfl⟩⟩
                | false =>
                    cases overwrite with
                    | true =>
                        rcases (manifest?_eq_ok dir old?).mp h with ⟨hold, rfl⟩
                        exact Or.inr ⟨trivial, rfl, Or.inr ⟨hempty, rfl, hold⟩⟩
                    | false => cases h
              · rintro (⟨h, _⟩ | ⟨_, rfl, ⟨hempty, rfl⟩ | ⟨hempty, rfl, hold⟩⟩)
                · cases h
                · exact ⟨true, t, ⟨hempty, rfl⟩, pure_eq_ok.mpr ⟨rfl, rfl⟩⟩
                · exact ⟨false, t, ⟨hempty, rfl⟩, (manifest?_eq_ok dir old?).mpr ⟨hold, rfl⟩⟩
          | _ => exact iff_of_false throw_ne_ok (by rintro (⟨h, _⟩ | ⟨h, _⟩) <;> cases h)

section Files

variable (text : String)

/-- A listed file is removed if it is a file, and left alone if it is not there. -/
theorem removeListed_eq_ok :
    (removeListed dir text : Action Unit).run t = (.ok (), t') ↔ ∃ path, pathBelow text = .ok path
      ∧ ((t.kind false (dir.join path) = .ok .file ∧ t.remove (dir.join path) = .ok t')
        ∨ (t.kind false (dir.join path) = .error .notFound ∧ t = t')) := by
  unfold removeListed
  rw [bind_eq_ok]
  simp only [pathOf_eq_ok, kind_bind, and_assoc, exists_and_left, exists_eq_left']
  refine exists_congr fun path => and_congr_right fun _ => ?_
  cases hkind : t.kind false (dir.join path) with
  | error e =>
      cases e with
      | notFound =>
          simp only [pure_eq_ok, reduceCtorEq, false_and, false_or, true_and]
      | _ => exact iff_of_false throw_ne_ok (by rintro (⟨h, _⟩ | ⟨h, _⟩) <;> cases h)
  | ok k =>
      cases k with
      | file => simp only [attempt_remove_eq_ok, reduceCtorEq, true_and, false_and, or_false]
      | _ => exact iff_of_false throw_ne_ok (by rintro (⟨h, _⟩ | ⟨h, _⟩) <;> cases h)

/-- A file is put in place once the directories above it are there. -/
theorem put_eq_ok (path : Path) :
    (put dir path text : Action Unit).run t = (.ok (), t') ↔ ∃ t₁,
      (FileStore.createDirectories ((dir.join path).parent?.getD dir) : StateM FileTree _) t
        = (.ok (), t₁)
      ∧ t₁.kind false (dir.join path) ≠ .ok .link
      ∧ t₁.replace (dir.join path) text.toUTF8 = .ok t' := by
  unfold put
  rw [bind_unit_eq_ok]
  simp only [attempt_eq_ok, kind_bind]
  refine exists_congr fun t₁ => and_congr_right fun _ => ?_
  cases hkind : t₁.kind false (dir.join path) with
  | error e => simp only [attempt_replace_eq_ok, ne_eq, reduceCtorEq, not_false_eq_true, true_and]
  | ok k =>
      cases k with
      | link => exact iff_of_false throw_ne_ok (fun h => h.1 rfl)
      | _ =>
        simp only [attempt_replace_eq_ok, ne_eq, Except.ok.injEq, reduceCtorEq, not_false_eq_true,
          true_and]

/-- A file passes if it is there with its text. -/
theorem compare_eq_ok (path : Path) :
    (compare dir path text : Action Unit).run t = (.ok (), t')
      ↔ t = t' ∧ t.kind false (dir.join path) = .ok .file
        ∧ t.read (dir.join path) = .ok text.toUTF8 := by
  unfold compare
  simp only [kind_bind]
  cases hkind : t.kind false (dir.join path) with
  | error e =>
      refine iff_of_false ?_ (fun h => by cases h.2.1)
      cases e <;> exact throw_ne_ok
  | ok k =>
      cases k with
      | file =>
        simp only [bind_eq_ok, attempt_read_eq_ok]
        constructor
        · rintro ⟨bytes, t₁, ⟨hread, rfl⟩, h⟩
          split at h
          · exact absurd h throw_ne_ok
          · rename_i hdata
            rcases pure_eq_ok.mp h with ⟨_, rfl⟩
            exact ⟨rfl, trivial, hread.trans (congrArg _ (ByteArray.ext (not_not.mp hdata)))⟩
        · rintro ⟨rfl, _, hread⟩
          refine ⟨_, t, ⟨hread, rfl⟩, ?_⟩
          rw [if_neg (not_not.mpr rfl)]
          exact pure_eq_ok.mpr ⟨rfl, rfl⟩
      | _ => exact iff_of_false throw_ne_ok (fun h => by cases h.2.1)

end Files

/-- Does something with each path and text of a list, in order. -/
def eachOf (act : Path → String → Action Unit) (items : List (String × String)) : Action Unit :=
  items.forM fun i => do act (← pathOf i.1) i.2

section Each

variable (act : Path → String → Action Unit)

theorem eachOf_nil_eq_ok : (eachOf act []).run t = (.ok (), t') ↔ t = t' := forM_nil_eq_ok

theorem eachOf_cons_eq_ok (i : String × String) (items : List (String × String)) :
    (eachOf act (i :: items)).run t = (.ok (), t') ↔ ∃ path, pathBelow i.1 = .ok path
      ∧ ∃ t₁, (act path i.2).run t = (.ok (), t₁) ∧ (eachOf act items).run t₁ = (.ok (), t') := by
  rw [eachOf, forM_cons_eq_ok]
  simp only [bind_eq_ok, pathOf_eq_ok, and_assoc, exists_and_left, exists_eq_left']
  constructor
  · rintro ⟨t₁, ⟨path, hpath, hact⟩, hitems⟩
    exact ⟨path, hpath, t₁, hact, hitems⟩
  · rintro ⟨path, hpath, t₁, hact, hitems⟩
    exact ⟨t₁, ⟨path, hpath, hact⟩, hitems⟩

/-- The files of a package and its manifest are one list. -/
theorem forEachFile_eq (b : Bundle) (manifest : String) (h : b.manifestText = .ok manifest) :
    forEachFile b act = eachOf act (b.contents manifest) := by
  have hlast : eachOf act [(Manifest.fileName, manifest)]
      = act (Path.ofText Manifest.fileName) manifest := by
    change ((pathOf Manifest.fileName >>= fun path => act path manifest) >>= fun _ => pure ()) = _
    rw [bind_pure_unit]
    rfl
  have hfiles : eachOf act (b.files.map fun a => (a.path, a.text))
      = b.files.forM (fun a => do act (← pathOf a.path) a.text) := by
    exact List.forM_map
  have happend : eachOf act (b.contents manifest)
      = eachOf act (b.files.map fun a => (a.path, a.text)) >>= fun _ =>
        eachOf act [(Manifest.fileName, manifest)] := by
    exact List.forM_append
  rw [happend, hfiles, hlast, forEachFile, h]
  rfl

theorem forEachFile_eq_ok (b : Bundle) :
    (forEachFile b act).run t = (.ok (), t') ↔ ∃ manifest, b.manifestText = .ok manifest
      ∧ (eachOf act (b.contents manifest)).run t = (.ok (), t') := by
  rcases b.manifest.exists_indentedCanonical? with ⟨manifest, htext⟩
  have hmanifest := (b.manifestText_eq_ok manifest).mpr htext
  rw [forEachFile_eq act b manifest hmanifest, hmanifest]
  simp only [Except.ok.injEq, exists_eq_left']

end Each

section Packages

variable (b : Bundle)

/-- What is removed is what is stale. -/
theorem clearListed_eq (old : Manifest) :
    (clearListed dir old b : Action Unit) = (b.stale (some old)).forM (removeListed dir) :=
  List.forM_map.symm

/-- Writing makes the directory ready, removes what is listed but not to stay, and puts everything
    in place. -/
theorem write_eq_ok (overwrite : Bool) :
    (write b dir overwrite : Action Unit).run t = (.ok (), t') ↔ ∃ old? t₁,
      (prepare dir overwrite : Action (Option Manifest)).run t = (.ok old?, t₁)
      ∧ ∃ t₂, ((b.stale old?).forM (removeListed dir) : Action Unit).run t₁ = (.ok (), t₂)
      ∧ ∃ manifest, b.manifestText = .ok manifest
      ∧ (eachOf (put dir) (b.contents manifest)).run t₂ = (.ok (), t') := by
  unfold write
  rw [bind_eq_ok]
  refine exists_congr fun old? => exists_congr fun t₁ => and_congr_right fun _ => ?_
  cases old? with
  | none =>
      change (forEachFile b (put dir) : Action Unit).run t₁ = _
        ↔ ∃ t₂, (List.forM [] (removeListed dir) : Action Unit).run t₁ = _ ∧ _
      simp only [forM_nil_eq_ok, exists_eq_left', forEachFile_eq_ok]
  | some old =>
      change ((clearListed dir old b >>= fun _ => forEachFile b (put dir) : Action Unit).run t₁ = _)
        ↔ _
      simp only [bind_unit_eq_ok, clearListed_eq, forEachFile_eq_ok]

/-- An audit compares everything that a package puts on disk, in a directory that is there. -/
theorem audit_eq_ok :
    (audit b dir : Action Unit).run t = (.ok (), t') ↔ t.kind false dir = .ok .directory
      ∧ ∃ manifest, b.manifestText = .ok manifest
      ∧ (eachOf (compare dir) (b.contents manifest)).run t = (.ok (), t') := by
  unfold audit
  rw [bind_eq_ok]
  simp only [attempt_kind_eq_ok, and_assoc, exists_and_left, exists_eq_left']
  constructor
  · rintro ⟨k, hkind, h⟩
    cases k with
    | directory => exact ⟨hkind, (forEachFile_eq_ok _ b).mp h⟩
    | _ => exact absurd h throw_ne_ok
  · rintro ⟨hkind, h⟩
    exact ⟨.directory, hkind, (forEachFile_eq_ok _ b).mpr h⟩

end Packages

end Output

namespace Verdict

open Runs

variable {t t' : FileTree} (o : Verdict) (package : PackageIdentity) (dir : Path)

theorem write_eq_ok (overwrite : Bool) (m : Manifest) :
    (o.write package dir overwrite : Output.Action Manifest).run t = (.ok m, t') ↔ ∃ b,
      o.bundle package = .ok b ∧ b.manifest = m
      ∧ (Output.write b dir overwrite : Output.Action Unit).run t = (.ok (), t') := by
  unfold write
  simp only [bind_eq_ok, ofExcept_eq_ok, pure_eq_ok, and_assoc, exists_and_left, exists_eq_left']
  constructor
  · rintro ⟨b, hb, ⟨⟩, t₁, hwrite, hm, rfl⟩
    exact ⟨b, hb, hm, hwrite⟩
  · rintro ⟨b, hb, hm, hwrite⟩
    exact ⟨b, hb, (), t', hwrite, hm, rfl⟩

/-- An audit compares everything that a package puts on disk, in a directory that is there. -/
theorem audit_eq_ok :
    (o.audit package dir : Output.Action Unit).run t = (.ok (), t') ↔ ∃ b, o.bundle package = .ok b
      ∧ (Output.audit b dir : Output.Action Unit).run t = (.ok (), t') := by
  unfold audit
  simp only [bind_eq_ok, ofExcept_eq_ok, and_assoc, exists_and_left, exists_eq_left']

end Verdict

end PlatformBridge
